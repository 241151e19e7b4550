import Campix.Lib.Outcome
import Campix.Paging.Runs
import Campix.Syscall.UserMemory

/-!
# User pointers and kernel memory

Which pointers make a system call read or write memory above the lower half. The
verification of a buffer accepts one that lies in the higher half as a whole, and
the scan for a C string does not look at the half at all, so the calls that rely on
them reach kernel memory whenever it is mapped.
-/

namespace Campix.Syscall

open Lib.Word Lib.Fallible Lib.Outcome Paging Process

set_option autoImplicit false

variable {σ : Type}

/-- Whatever is mapped and stored, the call stays below the end of the lower half. -/
def KernelSafe (call : PointerCall) : Prop :=
  ∀ {σ : Type} (space : UserSpace σ) (rounds : Nat), ∀ range ∈ call.ranges space rounds,
    range.1 + range.2 ≤ lowerHalfEnd

theorem is_lower_half_iff (addr : Nat) :
    isLowerHalf (getAddressSpace addr) = true ↔ addr < lowerHalfEnd := by
  unfold getAddressSpace
  have halves : lowerHalfEnd < higherHalfBegin := by decide
  split_ifs <;> simp [isLowerHalf] <;> omega

def isHigherHalf : Option VirtualAddressSpace → Bool
  | some (.higherHalf _) => true
  | _ => false

theorem is_higher_half_iff (addr : Nat) :
    isHigherHalf (getAddressSpace addr) = true ↔ higherHalfBegin ≤ addr := by
  unfold getAddressSpace
  have halves : lowerHalfEnd < higherHalfBegin := by decide
  split_ifs <;> simp [isHigherHalf] <;> omega

theorem same_half_eq (left right : Option VirtualAddressSpace) :
    sameHalf left right =
      (isHigherHalf left && isHigherHalf right || isLowerHalf left && isLowerHalf right) := by
  rcases left with _ | _ | _ <;> rcases right with _ | _ | _ <;> rfl

theorem same_half_iff (left right : Nat) :
    sameHalf (getAddressSpace left) (getAddressSpace right) = true ↔
      higherHalfBegin ≤ left ∧ higherHalfBegin ≤ right ∨
        left < lowerHalfEnd ∧ right < lowerHalfEnd := by
  rw [same_half_eq, Bool.or_eq_true, Bool.and_eq_true, Bool.and_eq_true, is_higher_half_iff,
    is_higher_half_iff, is_lower_half_iff, is_lower_half_iff]

/-- A buffer whose last page is the last one of the address space is not verified:
the end of the range wraps to 0. -/
theorem verified_bounds {space : UserSpace σ} {rounds buffer size : Nat}
    (verified : verifyFullyMapped space rounds buffer size = some true) :
    buffer + size < lowerHalfEnd ∨
      higherHalfBegin ≤ buffer ∧ buffer + size < 2 ^ 64 - pageSize := by
  unfold verifyFullyMapped at verified
  dsimp only at verified
  split_ifs at verified with overflow half
  · exact absurd verified (by simp)
  · rcases (same_half_iff _ _).mp half with higher | lower
    · refine Or.inr ⟨higher.1, ?_⟩
      by_contra lastPage
      have rounded : alignDown (buffer + size) pageSize = 2 ^ 64 - pageSize := by
        rw [align_down_page (by omega)]
        unfold pageSize at lastPage ⊢
        omega
      have wrapped : add64 (2 ^ 64 - pageSize) pageSize = 0 := by decide
      rw [rounded, wrapped] at verified
      cases rounds with
      | zero => exact absurd verified (by simp [verifyPages])
      | succ rounds => simp [verifyPages, PageTable.next] at verified
    · exact Or.inl lower.2
  · exact absurd verified (by simp)

theorem verified_slice_below {space : UserSpace σ} {rounds buffer size : Nat}
    (unreachable : ¬(higherHalfBegin ≤ buffer ∧ buffer + size < 2 ^ 64 - pageSize)) :
    ∀ range ∈ verifiedSlice space rounds buffer size, range.1 + range.2 ≤ lowerHalfEnd := by
  intro range member
  unfold verifiedSlice at member
  split_ifs at member with verified
  · rw [List.mem_singleton.mp member]
    exact ((verified_bounds verified).resolve_right unreachable).le
  · exact absurd member List.not_mem_nil

theorem scan_length {addr endUnaligned endAligned : Nat} (boundary : pageSize ∣ endAligned)
    (ordered : endAligned ≤ endUnaligned) (bound : endAligned + pageSize ≤ 2 ^ 64)
    (more : addr < endAligned) :
    sub64 (min (alignDown (add64 addr pageSize) pageSize) endUnaligned)
      addr = pageSize - addr % pageSize ∧
      addr + (pageSize - addr % pageSize) ≤ endAligned := by
  obtain ⟨pages, rfl⟩ := boundary
  have inside : addr + pageSize < 2 ^ 64 := by omega
  have nextPage : alignDown (add64 addr pageSize)
      pageSize = addr / pageSize * pageSize + pageSize := by
    rw [add64_of_lt inside, align_down_page inside]
    unfold pageSize
    omega
  have reached : addr / pageSize * pageSize + pageSize ≤ pageSize * pages := by
    unfold pageSize at more ⊢
    omega
  have past : addr ≤ addr / pageSize * pageSize + pageSize := by
    unfold pageSize
    omega
  rw [nextPage, Nat.min_eq_left (reached.trans ordered), sub64_of_le past]
  unfold pageSize at *
  omega

theorem canonical_of_page {left right : Nat} (page : left / pageSize = right / pageSize) :
    Canonical left ↔ Canonical right := by
  unfold Canonical
  unfold pageSize at page
  omega

theorem loads_canonical {space : UserSpace σ} {addr : Nat} {offsets : List Nat}
    (canonical : ∀ offset ∈ offsets, Canonical (addr + offset)) :
    (offsets.mapM fun offset => space.load (addr + offset)) =
      some (offsets.map fun offset => space.bytes (addr + offset)) := by
  induction offsets with
  | nil => rfl
  | cons offset offsets ih =>
      have first : space.load (addr + offset) = some (space.bytes (addr + offset)) := by
        rw [UserSpace.load, if_pos (canonical offset List.mem_cons_self)]
      rw [List.mapM_cons, first, ih fun later
        member => canonical later (List.mem_cons_of_mem _ member)]
      rfl

theorem load_slice_canonical {space : UserSpace σ} {addr length : Nat} (canonical : Canonical addr)
    (inPage : addr % pageSize + length ≤ pageSize) :
    space.loadSlice addr length =
      some ((List.range length).map fun offset => space.bytes (addr + offset)) := by
  apply loads_canonical
  intro offset member
  have inside := List.mem_range.mp member
  have page : (addr + offset) / pageSize = addr / pageSize := by
    unfold pageSize at *
    omega
  exact (canonical_of_page page).mpr canonical

theorem load_slice_faults {space : UserSpace σ} {addr length : Nat} (outside : ¬Canonical addr)
    (positive : 0 < length) : space.loadSlice addr length = none := by
  obtain ⟨more, rfl⟩ := Nat.exists_eq_add_of_lt positive
  have first : space.load (addr + 0) = none := by
    rw [UserSpace.load, Nat.add_zero, if_neg outside]
  rw [UserSpace.loadSlice, Nat.zero_add, List.range_succ_eq_map, List.mapM_cons, first]
  rfl

theorem c_str_loop_below {space : UserSpace σ} {endUnaligned endAligned : Nat}
    (boundary : pageSize ∣ endAligned) (ordered : endAligned ≤ endUnaligned)
    (bound : endAligned + pageSize ≤ 2 ^ 64) (rounds : Nat) :
    ∀ (currAddr : Nat) (vec : List UInt8),
      ∀ range ∈ (cStrLoop space endUnaligned endAligned rounds currAddr vec).2,
        range.1 + range.2 ≤ endAligned := by
  induction rounds with
  | zero =>
      intro currAddr vec range member
      exact absurd member List.not_mem_nil
  | succ rounds ih =>
      intro currAddr vec range member
      rw [cStrLoop] at member
      split_ifs at member with more
      · obtain ⟨read, pageEnd⟩ := scan_length boundary ordered bound more
        rw [← read] at pageEnd
        cases translated : space.table.translate space.alloc currAddr space.machine with
        | error _ _ =>
            rw [translated] at member
            exact absurd member List.not_mem_nil
        | ok _ _ =>
            rw [translated] at member
            dsimp only at member
            split at member
            · rw [List.mem_singleton.mp member]
              exact more
            · split_ifs at member with found
              · rw [List.mem_singleton.mp member]
                dsimp only
                omega
              · rcases List.mem_cons.mp member with first | later
                · rw [first]
                  exact pageEnd
                · exact ih _ _ range later
      · exact absurd member List.not_mem_nil

theorem copy_user_c_str_below {space : UserSpace σ} {rounds addr : Nat} (bound : addr < 2 ^ 64)
    (safe : addr < lowerHalfEnd ∨ 2 ^ 64 - maxPathLen ≤ addr) :
    ∀ range ∈ (copyUserCStr space rounds addr maxPathLen).2, range.1 + range.2 ≤ lowerHalfEnd := by
  intro range member
  unfold copyUserCStr at member
  dsimp only at member
  have wrapped : add64 addr maxPathLen < lowerHalfEnd + maxPathLen := by
    rcases safe with lower | top
    · rw [add64_of_lt (by unfold lowerHalfEnd at lower; unfold maxPathLen; omega)]
      omega
    · unfold add64 maxPathLen lowerHalfEnd at *
      omega
  have small : add64 addr maxPathLen < 2 ^ 64 := add64_lt _ _
  rw [align_down_page small] at member
  have last : add64 addr maxPathLen / pageSize * pageSize ≤ lowerHalfEnd := by
    unfold pageSize maxPathLen lowerHalfEnd at *
    omega
  have room : lowerHalfEnd + pageSize < 2 ^ 64 := by decide
  exact (c_str_loop_below (Dvd.intro_left _ rfl) (Nat.div_mul_le_self _ _) (by omega) rounds addr []
    range member).trans last

/-- One table at each level, whose entries are all the same: the PML4 is physical
page 1, the PT physical page 4, and page 5 is mapped everywhere. -/
def everyPage : UserSpace Unit where
  table := ⟨0x1000, false, first_page_aligned, first_page_mapped⟩
  alloc := ⟨fun machine => .error () machine, fun _ machine => machine⟩
  machine := ⟨fun table _ =>
    if table = 0xFFFF_A000_0000_1000 then 0x2001
    else if table = 0xFFFF_A000_0000_2000 then 0x3001
    else if table = 0xFFFF_A000_0000_3000 then 0x4001
    else 0x5001, ()⟩
  bytes := fun _ => 0

theorem get_table_present {alloc : PageAllocator σ} {machine : Machine σ} {table word next : Nat}
    {idx : Fin 512} {disallowedFlags : Nat} (entry : machine.mem table idx = word)
    (present : word &&& pagePresent ≠ 0) (allowed : word &&& disallowedFlags = 0)
    (points : add64 (word &&& addressMask) directMappingOffset = next) :
    getTable false alloc table idx 0 disallowedFlags machine = .ok next machine := by
  have reads : readEntry table idx machine = .ok word machine := by
    rw [readEntry, entry]
  rw [getTable, state_bind_ok reads, if_neg present, followEntry, state_bind_ok reads,
    if_neg (not_not.mpr allowed), points]
  rfl

theorem every_page_entries (idx : Fin 512) :
    everyPage.machine.mem everyPage.table.pml4 idx = 0x2001 ∧
      everyPage.machine.mem 0xFFFF_A000_0000_2000 idx = 0x3001 ∧
      everyPage.machine.mem 0xFFFF_A000_0000_3000 idx = 0x4001 ∧
      everyPage.machine.mem 0xFFFF_A000_0000_4000 idx = 0x5001 := by
  have root : everyPage.table.pml4 = 0xFFFF_A000_0000_1000 := by decide
  rw [root]
  exact ⟨rfl, rfl, rfl, rfl⟩

theorem every_page_tables (idx : Fin 512) :
    getTable false everyPage.alloc everyPage.table.pml4 idx 0 0 everyPage.machine =
        .ok 0xFFFF_A000_0000_2000 everyPage.machine ∧
      getTable false everyPage.alloc 0xFFFF_A000_0000_2000 idx 0 0 everyPage.machine =
        .ok 0xFFFF_A000_0000_3000 everyPage.machine ∧
      getTable false everyPage.alloc 0xFFFF_A000_0000_3000 idx 0 pageHuge everyPage.machine =
        .ok 0xFFFF_A000_0000_4000 everyPage.machine := by
  obtain ⟨pml4Entry, pdptEntry, pdEntry, _⟩ := every_page_entries idx
  refine ⟨?_, ?_, ?_⟩
  · exact get_table_present pml4Entry (by decide) (by decide) (by decide)
  · exact get_table_present pdptEntry (by decide) (by decide) (by decide)
  · exact get_table_present pdEntry (by decide) (by decide) (by decide)

/-- The PD entry is not a large page and the PT entry is present. -/
theorem every_page_words :
    ¬(0x4001 &&& pagePresent = pagePresent ∧ 0x4001 &&& pageHuge = pageHuge) ∧
      0x5001 &&& pagePresent = pagePresent := by
  decide

theorem every_page_translates (virt : Nat) :
    ∃ phys, everyPage.table.translate everyPage.alloc virt everyPage.machine =
      .ok phys everyPage.machine := by
  have pdRead : readEntry 0xFFFF_A000_0000_3000 (index virt 21) everyPage.machine =
      .ok 0x4001 everyPage.machine := by
    rw [readEntry, (every_page_entries _).2.2.1]
  have ptRead : readEntry 0xFFFF_A000_0000_4000 (index virt 12) everyPage.machine =
      .ok 0x5001 everyPage.machine := by
    rw [readEntry, (every_page_entries _).2.2.2]
  refine ⟨add64 (0x5001 &&& addressMask) (virt % pageSize), ?_⟩
  unfold PageTable.translate
  dsimp only [splitVirtAddr]
  rw [state_bind_ok (every_page_tables _).1, state_bind_ok (every_page_tables _).2.1,
    state_bind_ok pdRead, if_neg every_page_words.1, state_bind_ok (every_page_tables _).2.2,
    state_bind_ok ptRead, if_pos every_page_words.2]
  rfl

theorem every_page_found {position : Nat} (higher : higherHalfBegin ≤ position) :
    everyPage.table.iterRound everyPage.alloc everyPage.machine position =
      .found ⟨position, 0x5000, .kb4⟩ (add64 position pageSize) := by
  have frame : 0x5001 &&& addressMask = 0x5000 := by decide
  unfold PageTable.iterRound
  rw [if_neg (by unfold higherHalfBegin at higher; omega)]
  dsimp only [splitVirtAddr, Machine.tableBelow]
  rw [(every_page_tables _).1]
  dsimp only
  rw [(every_page_tables _).2.1]
  dsimp only
  rw [(every_page_entries _).2.2.1, if_neg every_page_words.1, (every_page_tables _).2.2]
  dsimp only
  rw [(every_page_entries _).2.2.2, if_pos every_page_words.2, frame]

theorem every_page_next {rounds position endExclusive : Nat} (higher : higherHalfBegin ≤ position)
    (more : position < endExclusive) :
    everyPage.table.next everyPage.alloc everyPage.machine (rounds + 1) ⟨position, endExclusive⟩ =
      some (some ⟨position, 0x5000, .kb4⟩, ⟨add64 position pageSize, endExclusive⟩) := by
  rw [PageTable.next, if_pos more, every_page_found higher]

/-- The loop of the verification from its second round on. -/
theorem every_page_rest {beginPageAddr endPageAddr : Nat} (bound : endPageAddr + pageSize < 2 ^ 64)
    (pages : Nat) :
    ∀ {rounds position : Nat}, pages < rounds → higherHalfBegin ≤ position →
      position + pages * pageSize = endPageAddr →
      verifyPages everyPage beginPageAddr endPageAddr rounds
        ⟨position + pageSize, endPageAddr + pageSize⟩ (some position) = some true := by
  induction pages with
  | zero =>
      intro rounds position enough higher reached
      obtain ⟨left, rfl⟩ := Nat.exists_eq_add_of_lt enough
      have last : position = endPageAddr := by omega
      rw [verifyPages, PageTable.next, last, if_neg (Nat.lt_irrefl _)]
      simp
  | succ pages ih =>
      intro rounds position enough higher reached
      obtain ⟨left, rfl⟩ : ∃ left, rounds = left + 1 := ⟨rounds - 1, by omega⟩
      have step : position + pageSize + pages * pageSize = endPageAddr := by
        rw [← reached, Nat.succ_mul]
        omega
      rw [verifyPages, every_page_next (by omega) (by unfold pageSize at *; omega)]
      dsimp only
      rw [add64_of_lt (by omega), add64_of_lt (by omega), if_neg (by simp)]
      exact ih (by omega) (by omega) step

/-- Every buffer of the higher half is verified there, unless its last page is the
last one of the address space. -/
theorem every_page_verified {buffer size : Nat} (higher : higherHalfBegin ≤ buffer)
    (bound : buffer + size < 2 ^ 64 - pageSize) :
    ∃ rounds, verifyFullyMapped everyPage rounds buffer size = some true := by
  have sizes : pageSize = 4096 := rfl
  have pageOf : ∀ {addr : Nat}, addr < 2 ^ 64 →
      alignDown addr pageSize = addr / pageSize * pageSize :=
    align_down_page
  have ordered : buffer / pageSize ≤ (buffer + size) / pageSize :=
    Nat.div_le_div_right (Nat.le_add_right _ _)
  obtain ⟨pages, between⟩ := Nat.exists_eq_add_of_le ordered
  have reached : buffer / pageSize * pageSize + pages * pageSize = (buffer + size) / pageSize *
      pageSize := by
    rw [between, Nat.add_mul]
  have begins : higherHalfBegin ≤ buffer / pageSize * pageSize := by
    unfold higherHalfBegin pageSize at *
    omega
  have ends : (buffer + size) / pageSize * pageSize + pageSize < 2 ^ 64 := by
    unfold pageSize at *
    omega
  refine ⟨pages + 2, ?_⟩
  unfold verifyFullyMapped
  rw [if_neg (by omega)]
  dsimp only
  rw [if_neg (not_not.mpr ((same_half_iff _ _).mpr (Or.inl ⟨higher, by omega⟩))),
    pageOf (by omega), pageOf (by omega), add64_of_lt ends, verifyPages,
    every_page_next begins (by omega)]
  dsimp only
  rw [if_neg (by simp), add64_of_lt (by omega)]
  exact every_page_rest ends pages (by omega) begins reached

theorem every_page_scanned {addr : Nat} (bound : addr + pageSize < 2 ^ 64) :
    (addr, 1) ∈ (copyUserCStr everyPage 1 addr pageSize).2 := by
  have boundary : alignDown (add64 addr pageSize)
      pageSize = addr / pageSize * pageSize + pageSize := by
    rw [add64_of_lt bound, align_down_page bound]
    unfold pageSize
    omega
  have more : addr < addr / pageSize * pageSize + pageSize := by
    unfold pageSize
    omega
  have within : addr / pageSize * pageSize + pageSize ≤ addr + pageSize := by
    unfold pageSize
    omega
  obtain ⟨read, gap⟩ := Nat.exists_eq_add_of_lt more
  obtain ⟨phys, translated⟩ := every_page_translates addr
  have length : addr + read + 1 - addr = read + 1 := by omega
  have zeroFirst : ((List.range (read + 1)).map
      fun offset => everyPage.bytes (addr + offset)).findIdx
      (fun byte => decide (byte = 0)) = 0 := by
    rw [List.range_succ_eq_map, List.map_cons, List.findIdx_cons]
    rfl
  unfold copyUserCStr
  dsimp only
  rw [boundary, cStrLoop, if_pos more, translated, boundary, add64_of_lt bound]
  dsimp only
  rw [Nat.min_eq_left within, sub64_of_le more.le, gap, length]
  by_cases canonical : Canonical addr
  · have loaded : everyPage.loadSlice addr (read + 1) = some _ :=
      load_slice_canonical canonical (by unfold pageSize at *; omega)
    rw [loaded]
    dsimp only
    rw [zeroFirst, if_pos (Nat.succ_pos _)]
    exact List.mem_singleton_self _
  · rw [load_slice_faults canonical (Nat.succ_pos _)]
    exact List.mem_singleton_self _

/-- The verification accepts a structure here, where the pages are mapped. -/
def Reachable (data size align : Nat) : Prop :=
  data % align = 0 ∧ higherHalfBegin ≤ data ∧ data + size < 2 ^ 64 - pageSize

def SafePath (path : Nat) : Prop :=
  path < lowerHalfEnd ∨ 2 ^ 64 - maxPathLen ≤ path

def SafePointer : PointerCall → Prop
  | .read _ _ => True
  | .write _ _ => True
  | .open_ path => SafePath path.toNat
  | .mkdir path mode => mode.toNat &&& supportedPermissionFlags ≠ mode.toNat ∨ SafePath path.toNat
  | .pipe fds => ¬Reachable fds.toNat 16 8
  | .uname buf => ¬Reachable buf.toNat 325 1
  | .archPrctl code value =>
      code.toNat ≠ archGetFs ∧ code.toNat ≠ archGetGs ∨ ¬Reachable value.toNat 8 8

theorem read_below (space : UserSpace σ) (rounds buf count : Nat) :
    ∀ range ∈ linuxSysRead space rounds buf count, range.1 + range.2 ≤ lowerHalfEnd := by
  intro range member
  unfold linuxSysRead at member
  split_ifs at member with overflow kernel
  · exact absurd member List.not_mem_nil
  · exact absurd member List.not_mem_nil
  · rw [not_or, not_not, not_not, is_lower_half_iff, is_lower_half_iff] at kernel
    have lower : buf < higherHalfBegin := kernel.1.trans (by decide)
    exact verified_slice_below (fun reachable => by omega) range member

theorem write_below (space : UserSpace σ) (rounds buf count : Nat) :
    ∀ range ∈ linuxSysWrite space rounds buf count, range.1 + range.2 ≤ lowerHalfEnd := by
  intro range member
  unfold linuxSysWrite at member
  split_ifs at member with long
  · exact absurd member List.not_mem_nil
  · exact read_below space rounds buf count range member

theorem structure_below_iff (data size align : Nat) :
    (∀ {σ : Type} (space : UserSpace σ) (rounds : Nat),
        ∀ range ∈ userProcessStructure space rounds data size align,
          range.1 + range.2 ≤ lowerHalfEnd) ↔ ¬Reachable data size align := by
  constructor
  · rintro below ⟨aligned, higher, bound⟩
    obtain ⟨rounds, verified⟩ := every_page_verified higher bound
    have touched : (data, size) ∈ userProcessStructure everyPage rounds data size align := by
      rw [userProcessStructure, if_pos aligned, verifiedSlice, if_pos verified]
      exact List.mem_singleton_self _
    have halves : lowerHalfEnd < higherHalfBegin := by decide
    have inside := below everyPage rounds _ touched
    dsimp only at inside
    omega
  · intro unreachable σ space rounds range member
    unfold userProcessStructure at member
    split_ifs at member with aligned
    · exact verified_slice_below (fun reachable => unreachable ⟨aligned, reachable⟩) range member
    · exact absurd member List.not_mem_nil

theorem path_below_iff {path : Nat} (bound : path < 2 ^ 64) :
    (∀ {σ : Type} (space : UserSpace σ) (rounds : Nat),
        ∀ range ∈ (copyUserCStr space rounds path maxPathLen).2,
          range.1 + range.2 ≤ lowerHalfEnd) ↔ SafePath path := by
  constructor
  · intro below
    by_contra unsafe_
    rw [SafePath, not_or] at unsafe_
    have room : path + pageSize < 2 ^ 64 := by
      unfold maxPathLen at unsafe_
      unfold pageSize
      omega
    have inside : path + 1 ≤ lowerHalfEnd := below everyPage 1 (path, 1) (every_page_scanned room)
    omega
  · intro safe σ space rounds
    exact copy_user_c_str_below bound safe

/-- A call keeps away from kernel memory, whatever is mapped, exactly if it checks
the half itself, or is given a pointer that the shared checks refuse or that lies in
the lower half. -/
theorem kernel_safe_iff (call : PointerCall) : KernelSafe call ↔ SafePointer call := by
  cases call with
  | read buf count =>
      exact iff_of_true (fun space rounds => read_below space rounds _ _) trivial
  | write buf count =>
      exact iff_of_true (fun space rounds => write_below space rounds _ _) trivial
  | open_ path => exact path_below_iff path.toNat_lt
  | mkdir path mode =>
      by_cases refused : mode.toNat &&& supportedPermissionFlags ≠ mode.toNat
      · refine iff_of_true (fun space rounds range member => ?_) (Or.inl refused)
        rw [PointerCall.ranges, linuxSysMkdir, if_pos refused] at member
        exact absurd member List.not_mem_nil
      · have scanned : KernelSafe (.mkdir path mode) ↔ SafePath path.toNat := by
          simp only [KernelSafe, PointerCall.ranges, linuxSysMkdir, if_neg refused]
          exact path_below_iff path.toNat_lt
        rw [scanned, SafePointer]
        exact (or_iff_right refused).symm
  | pipe fds => exact structure_below_iff fds.toNat 16 8
  | uname buf => exact structure_below_iff buf.toNat 325 1
  | archPrctl code value =>
      by_cases used : code.toNat = archGetFs ∨ code.toNat = archGetGs
      · have written : KernelSafe (.archPrctl code value) ↔ ¬Reachable value.toNat 8 8 := by
          simp only [KernelSafe, PointerCall.ranges, linuxSysArchPrctl, if_pos used]
          exact structure_below_iff value.toNat 8 8
        rw [written, SafePointer]
        exact (or_iff_right (fun unused => used.elim unused.1 unused.2)).symm
      · refine iff_of_true (fun space rounds range member => ?_) (Or.inl (not_or.mp used))
        rw [PointerCall.ranges, linuxSysArchPrctl, if_neg used] at member
        exact absurd member List.not_mem_nil

def kernelPage : UserSpace FreeList where
  table := firstPage
  alloc := FreeList.lawful.toPageAllocator
  machine := stateAfter
    (firstPage.map4kb FreeList.lawful.toPageAllocator higherHalfBegin 0x7000
      (pagePresent ||| pageRw)
      threePages)
  bytes := fun _ => 0

theorem uname_writes_kernel_page :
    (0xFFFF_8000_0000_0000, 325) ∈ (PointerCall.uname 0xFFFF_8000_0000_0000).ranges kernelPage 2 ∧
      ¬KernelSafe (.uname 0xFFFF_8000_0000_0000) := by
  have verified : verifyFullyMapped kernelPage 2 0xFFFF_8000_0000_0000 325 = some true := by
    decide +kernel
  have touched : (0xFFFF_8000_0000_0000, 325) ∈
      (PointerCall.uname 0xFFFF_8000_0000_0000).ranges kernelPage 2 := by
    change _ ∈ userProcessStructure kernelPage 2 0xFFFF_8000_0000_0000 325 1
    rw [userProcessStructure, if_pos (Nat.mod_one _), verifiedSlice, if_pos verified]
    exact List.mem_singleton_self _
  exact ⟨touched, fun safe => absurd (safe kernelPage 2 _ touched) (by decide)⟩

end Campix.Syscall
