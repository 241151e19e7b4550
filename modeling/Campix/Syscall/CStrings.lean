import Campix.Syscall.Pointers

/-!
# Strings of a process

What `copy_user_c_str` returns, compared with reading the string byte by byte. The scan goes
from page to page and ends at the page boundary that the end of the string's range is rounded
down to, so the bytes behind that boundary are never looked at. `translate` does not look at
the upper 16 bits of an address: behind a lookup that succeeds, the read may still fault.
-/

namespace Campix.Syscall

open Lib.Word Paging

set_option autoImplicit false

variable {σ : Type}

/-- `translate` is `Some` at the address. -/
def UserSpace.mapped (space : UserSpace σ) (addr : Nat) : Bool :=
  match space.table.translate space.alloc addr space.machine with
  | .ok _ _ => true
  | .error _ _ => false

def UserSpace.bytesAt (space : UserSpace σ) (addr length : Nat) : List UInt8 :=
  (List.range length).map fun offset => space.bytes (addr + offset)

/-- There is memory at the address: it is canonical, and mapped. -/
def UserSpace.readable (space : UserSpace σ) (addr : Nat) : Bool :=
  decide (Canonical addr) && space.mapped addr

/-- None of so many bytes is a NUL, and all of them are mapped. -/
def UserSpace.Clear (space : UserSpace σ) (addr length : Nat) : Prop :=
  ∀ offset < length, space.readable (addr + offset) = true ∧ space.bytes (addr + offset) ≠ 0

/-- What reading a string of at most so many bytes is to return: the bytes before the first
NUL, all bytes if there is none, and nothing if a byte before the end is not mapped. -/
inductive StringRead (space : UserSpace σ) (addr maxLen : Nat) :
    Option (List UInt8 × Bool) → Prop
  | terminated (length : Nat) (inside : length < maxLen) (clear : space.Clear addr length)
      (mapped : space.readable (addr + length) = true)
      (zero : space.bytes (addr + length) = 0) :
      StringRead space addr maxLen (some (space.bytesAt addr length, true))
  | whole (clear : space.Clear addr maxLen) :
      StringRead space addr maxLen (some (space.bytesAt addr maxLen, false))
  | refused (length : Nat) (inside : length < maxLen) (clear : space.Clear addr length)
      (unmapped : space.readable (addr + length) = false) :
      StringRead space addr maxLen none

inductive ScanReads (space : UserSpace σ) (addr maxLen : Nat) : CStrScan → Prop
  | returned {string : Option (List UInt8 × Bool)} (read : StringRead space addr maxLen string) :
      ScanReads space addr maxLen (.returned string)

/-- The string is returned as it is to be, nothing overflows, and what is read lies in the
range and is mapped. -/
structure ReadsExactly (space : UserSpace σ) (rounds addr maxLen : Nat) : Prop where
  fits : addr + maxLen < 2 ^ 64
  result : ScanReads space addr maxLen (copyUserCStr space rounds addr maxLen).1
  reads : ∀ range ∈ (copyUserCStr space rounds addr maxLen).2, ∀ offset < range.2,
    addr ≤ range.1 + offset ∧ range.1 + offset < addr + maxLen ∧
      space.readable (range.1 + offset) = true

/-- The scan takes no more rounds than there are bytes. -/
def CopiesExactly (space : UserSpace σ) (addr maxLen : Nat) : Prop :=
  ∀ rounds, maxLen < rounds → ReadsExactly space rounds addr maxLen

/-- The string does not lead to an address that is not canonical but that `translate` maps. -/
def UserSpace.FaultFree (space : UserSpace σ) (addr length : Nat) : Prop :=
  ∀ offset < length, space.Clear addr offset → space.mapped (addr + offset) = true →
    Canonical (addr + offset)

variable {space : UserSpace σ} {addr done length maxLen short endUnaligned endAligned rounds : Nat}
  {result : Option (List UInt8 × Bool)}

theorem mapped_eq_lookup (space : UserSpace σ) (addr : Nat) :
    space.mapped addr = (lookup (leaves space.table.pml4 space.machine) addr).isSome := by
  unfold UserSpace.mapped
  rw [translate_lookup]
  cases lookup (leaves space.table.pml4 space.machine) addr with
  | none => rfl
  | some phys => rfl

theorem index_of_page {left right shift : Nat} (page : left / pageSize = right / pageSize)
    (above : 12 ≤ shift) :
    index left shift = index right shift := by
  obtain ⟨more, rfl⟩ := Nat.exists_eq_add_of_le above
  have high : left >>> (12 + more) = right >>> (12 + more) := by
    have same : left / 2 ^ 12 = right / 2 ^ 12 := page
    rw [Nat.shiftRight_add, Nat.shiftRight_add,
      Nat.shiftRight_eq_div_pow left, Nat.shiftRight_eq_div_pow right,
      same]
  unfold index
  simp only [high]

theorem mapped_of_page {left right : Nat} (page : left / pageSize = right / pageSize) :
    space.mapped left = space.mapped right := by
  have large : largeEntry left = largeEntry right := by
    unfold largeEntry
    rw [index_of_page page (by decide),
      index_of_page page (by decide), index_of_page page (by decide)]
  have small : smallEntry left = smallEntry right := by
    unfold smallEntry
    rw [index_of_page page (by decide), large]
  rw [mapped_eq_lookup, mapped_eq_lookup]
  unfold lookup
  rw [large, small]
  cases leaves space.table.pml4 space.machine (largeEntry right) with
  | some base => rfl
  | none => cases leaves space.table.pml4 space.machine (smallEntry right) <;> rfl

theorem readable_iff :
    space.readable addr = true ↔ Canonical addr ∧ space.mapped addr = true := by
  rw [UserSpace.readable, Bool.and_eq_true, decide_eq_true_iff]

theorem readable_of_page {left right : Nat} (page : left / pageSize = right / pageSize) :
    space.readable left = space.readable right := by
  rw [UserSpace.readable, UserSpace.readable, mapped_of_page page]
  simp only [canonical_of_page page]

theorem length_bytes_at : (space.bytesAt addr length).length = length := by
  rw [UserSpace.bytesAt, List.length_map, List.length_range]

theorem bytes_at_add : space.bytesAt addr (done + length) =
    space.bytesAt addr done ++ space.bytesAt (addr + done) length := by
  unfold UserSpace.bytesAt
  rw [List.range_add, List.map_append, List.map_map]
  congr 1
  apply List.map_congr_left
  intro offset _
  rw [Function.comp_apply, Nat.add_assoc]

theorem clear_add (clear : space.Clear addr done) (later : space.Clear (addr + done) length) :
    space.Clear addr (done + length) := by
  intro offset inside
  by_cases early : offset < done
  · exact clear offset early
  · obtain ⟨rest, rfl⟩ := Nat.exists_eq_add_of_le (Nat.not_lt.mp early)
    rw [← Nat.add_assoc]
    exact later rest (by omega)

theorem take_bytes_at (inside : length ≤ done) :
    (space.bytesAt addr done).take length = space.bytesAt addr length := by
  unfold UserSpace.bytesAt
  rw [← List.map_take, List.take_range, Nat.min_eq_left inside]

/-- The place of the first NUL among so many bytes, or their number. -/
def UserSpace.zeroIn (space : UserSpace σ) (addr length : Nat) : Nat :=
    (space.bytesAt addr length).findIdx (· = 0)

theorem zero_in_le : space.zeroIn addr length ≤ length := by
  have least := @List.findIdx_le_length _ (· = 0) (space.bytesAt addr length)
  rwa [length_bytes_at] at least

theorem zero_found (found : space.zeroIn addr length < length) :
    space.bytes (addr + space.zeroIn addr length) = 0 := by
  have inside : space.zeroIn addr length < (space.bytesAt addr length).length := by
    rw [length_bytes_at]
    exact found
  have zero := List.findIdx_getElem (w := inside)
  simpa [UserSpace.bytesAt, UserSpace.zeroIn] using zero

theorem no_zero_before {offset : Nat} (before : offset < space.zeroIn addr length) :
    space.bytes (addr + offset) ≠ 0 := by
  have nonzero := List.not_of_lt_findIdx before
  simpa [UserSpace.bytesAt] using nonzero

theorem c_str_loop_page {currAddr : Nat} {vec : List UInt8} (boundary : pageSize ∣ endAligned)
    (ordered : endAligned ≤ endUnaligned) (bound : endAligned + pageSize ≤ 2 ^ 64)
    (more : currAddr < endAligned) (readable : space.readable currAddr = true) :
    ∃ read, 0 < read ∧ currAddr + read ≤ endAligned ∧ space.zeroIn currAddr read ≤ read ∧
      (∀ offset < read, space.readable (currAddr + offset) = true) ∧
      cStrLoop space endUnaligned endAligned (rounds + 1) currAddr vec =
        if space.zeroIn currAddr read < read then
          (.returned (some (vec ++ space.bytesAt currAddr (space.zeroIn currAddr read), true)),
            [(currAddr, space.zeroIn currAddr read + 1)])
        else
          let rest := cStrLoop space endUnaligned endAligned rounds (currAddr + read)
            (vec ++ space.bytesAt currAddr (space.zeroIn currAddr read))
          (rest.1, (currAddr, read) :: rest.2) := by
  obtain ⟨read, pageEnd⟩ := scan_length boundary ordered bound more
  refine ⟨pageSize - currAddr % pageSize, Nat.sub_pos_of_lt (Nat.mod_lt _ (by decide)), pageEnd,
    zero_in_le, ?_, ?_⟩
  · -- the rest of the page is readable with its first byte
    intro offset inside
    rw [← readable]
    apply readable_of_page
    unfold pageSize at *
    omega
  · have straight : add64 currAddr (pageSize - currAddr % pageSize) =
        currAddr + (pageSize - currAddr % pageSize) := add64_of_lt (by unfold pageSize at *; omega)
    have taken : ∀ length, (space.bytesAt currAddr length).take (space.zeroIn currAddr length) =
        space.bytesAt currAddr (space.zeroIn currAddr length) := fun length =>
          take_bytes_at zero_in_le
    obtain ⟨canonical, mapped⟩ := readable_iff.mp readable
    have loaded : space.loadSlice currAddr (pageSize - currAddr % pageSize) =
        some (space.bytesAt currAddr (pageSize - currAddr % pageSize)) :=
      load_slice_canonical canonical (by unfold pageSize; omega)
    rw [cStrLoop, if_pos more, read]
    cases translated : space.table.translate space.alloc currAddr space.machine with
    | error failure after =>
        rw [UserSpace.mapped, translated] at mapped
        exact absurd mapped Bool.false_ne_true
    | ok phys after =>
        dsimp only
        rw [loaded, straight, ← taken]
        rfl

theorem c_str_loop_stops {currAddr : Nat} {vec : List UInt8} (boundary : pageSize ∣ endAligned)
    (ordered : endAligned ≤ endUnaligned) (bound : endAligned + pageSize ≤ 2 ^ 64)
    (more : currAddr < endAligned) (unreadable : space.readable currAddr = false) :
    cStrLoop space endUnaligned endAligned (rounds + 1) currAddr vec =
      if space.mapped currAddr then (.faulted, [(currAddr, 1)]) else (.returned none, []) := by
  obtain ⟨read, -⟩ := scan_length boundary ordered bound more
  rw [cStrLoop, if_pos more, read]
  cases translated : space.table.translate space.alloc currAddr space.machine with
  | error failure after =>
      have unmapped : space.mapped currAddr = false := by rw [UserSpace.mapped, translated]
      rw [unmapped]
      rfl
  | ok phys after =>
      have mapped : space.mapped currAddr = true := by rw [UserSpace.mapped, translated]
      have outside : ¬Canonical currAddr := by
        intro canonical
        rw [readable_iff.mpr ⟨canonical, mapped⟩] at unreadable
        exact absurd unreadable.symm Bool.false_ne_true
      rw [mapped]
      dsimp only
      rw [load_slice_faults outside (Nat.sub_pos_of_lt (Nat.mod_lt _ (by decide)))]
      rfl

inductive ScanEnds (space : UserSpace σ) (addr length : Nat) : CStrScan × List (Nat × Nat) → Prop
  | returned {string : Option (List UInt8 × Bool)} {ranges : List (Nat × Nat)}
      (read : StringRead space addr length string) (faultFree : space.FaultFree addr length)
      (inside : ∀ range ∈ ranges, ∀ offset < range.2, addr ≤ range.1 + offset ∧
        range.1 + offset < addr + length ∧ space.readable (range.1 + offset) = true) :
      ScanEnds space addr length (.returned string, ranges)
  | faulted {ranges : List (Nat × Nat)} (faults : ¬space.FaultFree addr length) :
      ScanEnds space addr length (.faulted, ranges)

/-- What is scanned first does not change how the rest ends. -/
theorem scan_ends_cons {scan : CStrScan × List (Nat × Nat)} {currAddr read : Nat}
    (ends : ScanEnds space addr length scan)
    (inside : ∀ offset < read, addr ≤ currAddr + offset ∧ currAddr + offset < addr + length ∧
      space.readable (currAddr + offset) = true) :
    ScanEnds space addr length (scan.1, (currAddr, read) :: scan.2) := by
  cases ends with
  | faulted faults => exact .faulted faults
  | returned string faultFree rest =>
      refine .returned string faultFree fun range member => ?_
      rcases List.mem_cons.mp member with rfl | later
      · exact inside
      · exact rest range later

/-- Where a byte stops the reading, nothing behind it is read. -/
theorem fault_free_before (ends : ¬space.Clear addr (done + 1)) (clear : space.Clear addr done)
    (last : space.mapped (addr + done) = true → Canonical (addr + done)) :
    space.FaultFree addr length := by
  intro offset _ before mapped
  rcases Nat.lt_trichotomy offset done with early | rfl | late
  · exact (readable_iff.mp (clear offset early).1).1
  · exact last mapped
  · exact absurd (fun earlier less => before earlier (by omega)) ends

/-- The scan returns what reading up to the rounded end returns, and reads mapped bytes
before it, unless it comes to an address at which it faults. -/
theorem c_str_loop_reads (boundary : pageSize ∣ endAligned) (ordered : endAligned ≤ endUnaligned)
    (bound : endAligned + pageSize ≤ 2 ^ 64) (rounds : Nat) :
    ∀ done, endAligned - (addr + done) < rounds → done ≤ endAligned - addr → space.Clear addr done →
      ScanEnds space addr (endAligned - addr)
        (cStrLoop space endUnaligned endAligned rounds (addr + done)
          (space.bytesAt addr done)) := by
  induction rounds with
  | zero =>
      intro done enough
      exact absurd enough (Nat.not_lt_zero _)
  | succ rounds ih =>
      intro done enough reached clear
      by_cases more : addr + done < endAligned
      · cases readable : space.readable (addr + done) with
        | false =>
            rw [c_str_loop_stops boundary ordered bound more readable]
            have stops : ¬space.Clear addr (done + 1) := by
              intro all
              rw [(all done (Nat.lt_succ_self _)).1] at readable
              exact absurd readable.symm Bool.false_ne_true
            cases mapped : space.mapped (addr + done) with
            | false =>
                refine .returned (.refused done (by omega) clear readable) ?_ ?_
                · apply fault_free_before stops clear
                  intro found
                  rw [mapped] at found
                  exact absurd found Bool.false_ne_true
                · intro range impossible
                  exact absurd impossible List.not_mem_nil
            | true =>
                refine .faulted fun faultFree => ?_
                have canonical := faultFree done (by omega) clear mapped
                rw [readable_iff.mpr ⟨canonical, mapped⟩] at readable
                exact absurd readable.symm Bool.false_ne_true
        | true =>
            obtain ⟨read, positive, pageEnd, least, inPage, round⟩ :=
              @c_str_loop_page σ space endUnaligned endAligned rounds _
                (space.bytesAt addr done) boundary ordered bound more readable
            rw [round, ← bytes_at_add]
            have until_ : space.Clear addr (done + space.zeroIn (addr + done) read) :=
              clear_add clear fun offset before => ⟨inPage offset (by omega), no_zero_before before⟩
            by_cases found : space.zeroIn (addr + done) read < read
            · rw [if_pos found]
              have zero : space.bytes (addr + (done + space.zeroIn (addr + done) read)) = 0 := by
                rw [← Nat.add_assoc]
                exact zero_found found
              have last : space.readable (addr + (done + space.zeroIn (addr + done) read)) =
                  true := by
                rw [← Nat.add_assoc]
                exact inPage _ found
              refine .returned (.terminated _ (by omega) until_ last zero) ?_ ?_
              · apply fault_free_before _ until_
                · intro _
                  exact (readable_iff.mp last).1
                · intro all
                  exact (all _ (Nat.lt_succ_self _)).2 zero
              · intro range member offset inside
                obtain rfl := List.mem_singleton.mp member
                dsimp only at inside ⊢
                exact ⟨by omega, by omega, inPage offset (by omega)⟩
            · rw [if_neg found]
              have all : space.zeroIn (addr + done) read = read := by omega
              rw [all] at until_ ⊢
              have rest := ih (done + read) (by omega) (by omega) until_
              rw [← Nat.add_assoc] at rest
              exact scan_ends_cons rest fun offset inside =>
                ⟨by omega, by omega, inPage offset inside⟩
      · rw [cStrLoop, if_neg more]
        have whole : done = endAligned - addr := by omega
        rw [← whole]
        refine .returned (.whole clear) ?_ ?_
        · intro offset early _ _
          exact (readable_iff.mp (clear offset early).1).1
        · intro range impossible
          exact absurd impossible List.not_mem_nil

/-- Reading fewer bytes returns the same only if the reading ends before. -/
theorem read_shorter_iff (shorter : short ≤ maxLen) (read : StringRead space addr short result) :
    StringRead space addr maxLen result ↔
      short = maxLen ∨
        ∃ offset < short,
          space.readable (addr + offset) = false ∨ space.bytes (addr + offset) = 0 := by
  cases read with
  | terminated length inside clear mapped zero =>
      constructor
      · intro _
        exact .inr ⟨length, inside, .inr zero⟩
      · intro _
        exact .terminated length (by omega) clear mapped zero
  | refused length inside clear unmapped =>
      constructor
      · intro _
        exact .inr ⟨length, inside, .inl unmapped⟩
      · intro _
        exact .refused length (by omega) clear unmapped
  | whole clear =>
      constructor
      · intro same
        left
        generalize returned : some (space.bytesAt addr short, false) = result at same
        cases same with
        | terminated length inside clear mapped zero =>
            exact absurd (Option.some.inj returned) (by simp)
        | refused length inside clear unmapped => exact absurd returned (by simp)
        | whole all =>
            have bytes : space.bytesAt addr short = space.bytesAt addr maxLen :=
              (Prod.mk.inj (Option.some.inj returned)).1
            have lengths := congrArg List.length bytes
            rwa [length_bytes_at, length_bytes_at] at lengths
      · rintro (rfl | ⟨offset, inside, stops⟩)
        · exact .whole clear
        · obtain ⟨mapped, nonzero⟩ := clear offset inside
          rcases stops with unmapped | zero
          · rw [mapped] at unmapped
            exact absurd unmapped.symm Bool.false_ne_true
          · exact absurd zero nonzero

/-- A string is read exactly, for every page table and memory, if and only if its range does
not overflow and the reading ends before the last page boundary of the range, unless the
range is empty or ends with that boundary, and it comes to no address before that boundary
that the page table maps although it is not canonical. -/
theorem copies_exactly_iff (space : UserSpace σ) (addr maxLen : UInt64) :
    CopiesExactly space addr.toNat maxLen.toNat ↔
      addr.toNat + maxLen.toNat < 2 ^ 64 ∧
        (maxLen.toNat = 0 ∨ pageSize ∣ addr.toNat + maxLen.toNat ∨
          ∃ offset, addr.toNat + offset < (addr.toNat + maxLen.toNat) / pageSize * pageSize ∧
            (space.readable (addr.toNat + offset) = false ∨
              space.bytes (addr.toNat + offset) = 0)) ∧
        ∀ offset, addr.toNat + offset < (addr.toNat + maxLen.toNat) / pageSize * pageSize →
          space.Clear addr.toNat offset → space.mapped (addr.toNat + offset) = true →
            Canonical (addr.toNat + offset) := by
  generalize addr.toNat = addr
  generalize maxLen.toNat = maxLen
  by_cases fits : addr + maxLen < 2 ^ 64
  · have rounded : alignDown (addr + maxLen) pageSize = (addr + maxLen) / pageSize * pageSize :=
      align_down_page fits
    have boundary : pageSize ∣ (addr + maxLen) / pageSize * pageSize := Nat.dvd_mul_left _ _
    have ordered : (addr + maxLen) / pageSize * pageSize ≤ addr + maxLen := Nat.div_mul_le_self _ _
    have bound : (addr + maxLen) / pageSize * pageSize + pageSize ≤ 2 ^ 64 := by
      unfold pageSize
      omega
    have whole : (addr + maxLen) / pageSize * pageSize - addr = maxLen ↔
        maxLen = 0 ∨ pageSize ∣ addr + maxLen := by
      rw [Nat.dvd_iff_div_mul_eq]
      omega
    have inside : ∀ offset, addr + offset < (addr + maxLen) / pageSize * pageSize ↔
        offset < (addr + maxLen) / pageSize * pageSize - addr := by
      intro offset
      omega
    have nothing : space.Clear addr 0 := fun offset impossible =>
      absurd impossible (Nat.not_lt_zero _)
    have scan : ∀ rounds, maxLen < rounds →
        ScanEnds space addr ((addr + maxLen) / pageSize * pageSize - addr)
          (copyUserCStr space rounds addr maxLen) := by
      intro rounds enough
      unfold copyUserCStr
      dsimp only
      rw [add64_of_lt fits, rounded]
      exact c_str_loop_reads boundary ordered bound rounds 0 (by omega) (Nat.zero_le _) nothing
    simp only [inside, ← or_assoc, ← whole]
    constructor
    · intro copies
      obtain ⟨-, result, -⟩ := copies (maxLen + 1) (Nat.lt_succ_self _)
      have ends := scan (maxLen + 1) (Nat.lt_succ_self _)
      generalize copyUserCStr space (maxLen + 1) addr maxLen = reached at result ends
      cases ends with
      | faulted faults => cases result
      | returned read faultFree _ =>
          cases result with
          | returned exact_ => exact ⟨fits, (read_shorter_iff (by omega) read).mp exact_, faultFree⟩
    · rintro ⟨-, ends, faultFree⟩ rounds enough
      have scanned := scan rounds enough
      generalize reached : copyUserCStr space rounds addr maxLen = outcome at scanned
      cases scanned with
      | faulted faults => exact absurd faultFree faults
      | returned read _ reads =>
          refine ⟨fits, ?_, ?_⟩
          · rw [reached]
            exact .returned ((read_shorter_iff (by omega) read).mpr ends)
          · rw [reached]
            intro range member offset less
            obtain ⟨least, below, mapped⟩ := reads range member offset less
            exact ⟨least, by omega, mapped⟩
  · constructor
    · intro copies
      exact absurd (copies (maxLen + 1) (Nat.lt_succ_self _)).fits fits
    · intro ends
      exact absurd ends.1 fits

def acrossPages : UserSpace Unit :=
  { everyPage with bytes := fun addr => if addr = 0x2001 then 0 else 0x61 }

theorem across_pages_mapped (addr : Nat) : acrossPages.mapped addr = true := by
  obtain ⟨phys, translated⟩ := every_page_translates addr
  have same : acrossPages.mapped addr = everyPage.mapped addr := rfl
  rw [same, UserSpace.mapped, translated]

theorem across_pages_readable {addr : Nat} (lower : addr < 0x3000) :
    acrossPages.readable addr = true := by
  refine readable_iff.mpr ⟨?_, across_pages_mapped addr⟩
  unfold Canonical
  omega

/-- With a limit of one page, only the first letter is returned, as if the string had not
ended. -/
theorem path_across_pages_cut :
    (copyUserCStr acrossPages 4097 0x1FFF maxPathLen).1 = .returned (some ([0x61], false)) ∧
      StringRead acrossPages 0x1FFF maxPathLen (some ([0x61, 0x61], true)) ∧
      ¬CopiesExactly acrossPages 0x1FFF maxPathLen := by
  have cut : (copyUserCStr acrossPages 4097 0x1FFF maxPathLen).1 = .returned
      (some ([0x61], false)) := by
    decide +kernel
  refine ⟨cut, ?_, fun copies => ?_⟩
  · apply StringRead.terminated 2 (by decide) ?_ (across_pages_readable (by decide)) (by decide)
    intro offset inside
    refine ⟨across_pages_readable (by omega), ?_⟩
    obtain rfl | rfl : offset = 0 ∨ offset = 1 := by omega
    · decide
    · decide
  · have read := (copies 4097 (by decide)).result
    rw [cut] at read
    generalize returned : some ([(0x61 : UInt8)], false) = result at read
    obtain ⟨string⟩ := read
    cases string with
    | terminated length inside clear mapped zero =>
        exact absurd (Option.some.inj returned) (by simp)
    | refused length inside clear unmapped => exact absurd returned (by simp)
    | whole clear =>
        have bytes := (Prod.mk.inj (Option.some.inj returned)).1
        have lengths := congrArg List.length bytes
        rw [length_bytes_at] at lengths
        exact absurd lengths (by decide)

theorem path_between_halves_faults :
    (copyUserCStr everyPage 4097 0x0000_A000_0000_0000 maxPathLen).1 = .faulted ∧
      ¬CopiesExactly everyPage 0x0000_A000_0000_0000 maxPathLen := by
  have faults : (copyUserCStr everyPage 4097 0x0000_A000_0000_0000 maxPathLen).1 = .faulted := by
    decide +kernel
  refine ⟨faults, fun copies => ?_⟩
  have read := (copies 4097 (by decide)).result
  rw [faults] at read
  cases read

end Campix.Syscall
