import Campix.Paging.EntryWords

/-!
# Mapping a range of memory

A transcription of `map_memory`, which maps a range in large pages as far as it can and in small
pages at both ends. What the arguments `invalidate` and `count_maps` decide is how the TLB is
flushed, which is not modelled; `NoUnderflow` says that the subtractions of `count_maps` are fine.
-/

namespace Campix.Paging

open Lib.Word Lib.Fallible Lib.Outcome

set_option autoImplicit false

variable {σ : Type} {allocator : LawfulAllocator σ} {self : PageTable} {machine after : Machine σ}
variable {root : Nat}

/-- The addresses that `while addr < end` goes through from `begin` on. -/
def steps (begin_ end_ size : Nat) : List Nat :=
  (List.range ((end_ - begin_ + size - 1) / size)).map fun step => begin_ + step * size

def mapEach (map : Nat → Attempt σ Unit) : List Nat → Attempt σ Unit
  | [] => pure ()
  | addr :: rest => do
      map addr
      mapEach map rest

def begin2mb (addr : Nat) : Nat := alignUp addr pageSize2mb
def end2mb (addr len : Nat) : Nat := alignDown (add64 addr len) pageSize2mb
def begin4kb (addr : Nat) : Nat := alignDown addr pageSize
def end4kb (addr len : Nat) : Nat := alignUp (add64 addr len) pageSize

def PageTable.mapMemory (self : PageTable) (alloc : PageAllocator σ)
    (addr len virtOffset flags : Nat) :
    Attempt σ Unit := do
  if self.readonly then
    throw ()
  else
    mapEach (fun addr => self.map2mb alloc (add64 addr virtOffset) addr flags)
      (steps (begin2mb addr) (end2mb addr len) pageSize2mb)
    mapEach (fun addr => self.map4kb alloc (add64 addr virtOffset) addr (pageAccessed ||| pageRw))
      (steps (begin4kb addr) (begin2mb addr) pageSize)
    mapEach (fun addr => self.map4kb alloc (add64 addr virtOffset) addr flags)
      (steps (end2mb addr len) (end4kb addr len) pageSize)

/-- None of the three subtractions of `count_maps` underflows. -/
structure NoUnderflow (addr len : Nat) : Prop where
  middle : begin2mb addr ≤ end2mb addr len
  before : begin4kb addr ≤ begin2mb addr
  behind : end2mb addr len ≤ end4kb addr len

structure RangePage (addr len page : Nat) : Prop where
  aligned : pageSize ∣ page
  begins : begin4kb addr ≤ page
  ends : page < end4kb addr len

/-- The page `page` of the range is mapped at `page + virt_offset`, which is an address, and nothing
else is mapped in another way than before. -/
structure MapsExactly (alloc : PageAllocator σ) (table : PageTable)
    (addr len virtOffset flags : Nat)
    (before after : Machine σ) : Prop where
  canonical : ∀ page, RangePage addr len page → Canonical (page + virtOffset)
  translates : ∀ page, RangePage addr len page →
    answerOf (table.translate alloc (page + virtOffset) after) = .ok page
  flagged : ∀ page, RangePage addr len page →
    flagsAt table.pml4 after (page + virtOffset) = some flags
  outside : ∀ virt, Canonical virt →
    (virt < begin4kb addr + virtOffset ∨ end4kb addr len + virtOffset ≤ virt) →
    answerOf (table.translate alloc virt after) = answerOf (table.translate alloc virt before)

section Steps

variable {begin_ end_ size addr : Nat}

theorem mem_steps (positive : 0 < size) :
    addr ∈ steps begin_ end_ size ↔ ∃ step, addr = begin_ + step * size ∧ addr < end_ := by
  rw [steps, List.mem_map]
  constructor
  · rintro ⟨step, member, rfl⟩
    refine ⟨step, rfl, ?_⟩
    have enough : (step + 1) * size ≤ end_ - begin_ + size - 1 :=
      (Nat.le_div_iff_mul_le positive).mp (List.mem_range.mp member)
    rw [Nat.add_mul, Nat.one_mul] at enough
    omega
  · rintro ⟨step, rfl, inside⟩
    refine ⟨step, List.mem_range.mpr ((Nat.le_div_iff_mul_le positive).mpr ?_), rfl⟩
    rw [Nat.succ_mul]
    omega

theorem steps_nil (empty : end_ ≤ begin_) : steps begin_ end_ size = [] := by
  have none : (end_ - begin_ + size - 1) / size = 0 := by
    rw [Nat.sub_eq_zero_of_le empty, Nat.zero_add]
    cases size with
    | zero => rfl
    | succ size => exact Nat.div_eq_of_lt (by omega)
  rw [steps, none, List.range_zero, List.map_nil]

/-- Different steps map different regions, wherever they map them. -/
theorem steps_apart (positive : 0 < size) {left right offset : Nat}
    (onLeft : left ∈ steps begin_ end_ size) (onRight : right ∈ steps begin_ end_ size)
    (same : (left + offset) / size = (right + offset) / size) : left = right := by
  obtain ⟨first, rfl, -⟩ := (mem_steps positive).mp onLeft
  obtain ⟨second, rfl, -⟩ := (mem_steps positive).mp onRight
  have shift : ∀ step, (begin_ + step * size + offset) / size = (begin_ + offset) / size +
      step := by
    intro step
    rw [Nat.add_right_comm, Nat.add_mul_div_right _ _ positive]
  rw [shift, shift] at same
  rw [Nat.add_left_cancel same]

end Steps

/-- Every address of `addrs` has its page or region mapped, and nothing else. -/
structure RemapsEach (allocator : LawfulAllocator σ) (root size virtOffset : Nat)
    (value : Nat → Option Nat) (addrs : List Nat) (before after : Machine σ) : Prop where
  intact : Intact allocator root after
  covered : ∀ {Result : Type} (meaning : Nat → Nat → Result), ∀ addr ∈ addrs, ∀ virt,
    Canonical virt →
    virt / size = (addr + virtOffset) / size →
    resolve (entryWords root after) meaning virt = (value addr).map (meaning size)
  beside : ∀ {Result : Type} (meaning : Nat → Nat → Result) (virt : Nat), Canonical virt →
    (∀ addr ∈ addrs, virt / size ≠ (addr + virtOffset) / size) →
    resolve (entryWords root after) meaning virt = resolve (entryWords root before) meaning virt

theorem map_each_remaps {size virtOffset : Nat} {value : Nat → Option Nat}
    {map : Nat → Attempt σ Unit} {addrs : List Nat} (intact : Intact allocator root machine)
    (each : ∀ addr ∈ addrs, ∀ {before after : Machine σ}, Intact allocator root before →
      map addr before = .ok () after →
      Remaps allocator root size (addr + virtOffset) (value addr) before after)
    (apart : ∀ left ∈ addrs, ∀ right ∈ addrs,
      (left + virtOffset) / size = (right + virtOffset) / size → left = right)
    (returned : mapEach map addrs machine = .ok () after) :
    RemapsEach allocator root size virtOffset value addrs machine after := by
  induction addrs generalizing machine with
  | nil =>
      obtain rfl : machine = after := (EStateM.Result.ok.inj returned).2
      exact ⟨intact, fun _ addr member => absurd member List.not_mem_nil, fun _ _ _ _ => rfl⟩
  | cons first rest ih =>
      rw [mapEach] at returned
      obtain ⟨nothing, middle, outcome, returned⟩ := state_bind_returned returned
      have here := each first List.mem_cons_self intact outcome
      have later := ih here.intact
        (fun addr member => each addr (List.mem_cons_of_mem _ member))
        (fun left onLeft right onRight =>
          apart left (List.mem_cons_of_mem _ onLeft) right (List.mem_cons_of_mem _ onRight))
        returned
      refine ⟨later.intact, ?_, ?_⟩
      · intro Result meaning addr member virt onVirt covers
        by_cases again : ∃ other ∈ rest, virt / size = (other + virtOffset) / size
        · obtain ⟨other, onOther, alsoCovers⟩ := again
          have equal : addr = other := apart addr member other (List.mem_cons_of_mem _ onOther)
            (covers.symm.trans alsoCovers)
          rw [equal]
          exact later.covered meaning other onOther virt onVirt alsoCovers
        · have untouched : ∀ other ∈ rest, virt / size ≠ (other + virtOffset) / size :=
            fun other onOther same => again ⟨other, onOther, same⟩
          have isFirst : addr = first := by
            cases List.mem_cons.mp member with
            | inl equal => exact equal
            | inr inRest => exact absurd covers (untouched addr inRest)
          rw [later.beside meaning virt onVirt untouched, here.resolves meaning virt onVirt,
            ← isFirst, if_pos covers]
      · intro Result meaning virt onVirt untouched
        rw [later.beside meaning virt onVirt
            fun addr member => untouched addr (List.mem_cons_of_mem _ member),
          here.resolves meaning virt onVirt, if_neg (untouched first List.mem_cons_self)]

theorem canonical_bound {virt : Nat} (canonical : Canonical virt) : virt < 2 ^ 64 := by
  unfold Canonical at canonical
  omega

section Loops

variable {begin_ end_ virtOffset flags : Nat}

theorem map2mb_loop (intact : Intact allocator self.pml4 machine)
    (canonical : ∀ phys ∈ steps begin_ end_ pageSize2mb, Canonical (phys + virtOffset))
    (returned : mapEach (fun phys =>
      self.map2mb allocator.toPageAllocator (add64 phys virtOffset) phys flags)
        (steps begin_ end_ pageSize2mb) machine = .ok () after) :
    RemapsEach allocator self.pml4 pageSize2mb virtOffset
      (fun phys => leafWord 2 (alignDown phys pageSize2mb ||| pageHuge ||| flags))
      (steps begin_ end_ pageSize2mb) machine after := by
  refine map_each_remaps intact ?_ ?_ returned
  · intro phys member _ _ held mapped
    have plain : add64 phys virtOffset = phys + virtOffset :=
      add64_of_lt (canonical_bound (canonical phys member))
    simp only [plain] at mapped
    exact map2mb_remaps held (canonical phys member) mapped
  · intro left onLeft right onRight
    exact steps_apart (by decide) onLeft onRight

theorem map4kb_loop (intact : Intact allocator self.pml4 machine)
    (canonical : ∀ phys ∈ steps begin_ end_ pageSize, Canonical (phys + virtOffset))
    (returned : mapEach (fun phys =>
      self.map4kb allocator.toPageAllocator (add64 phys virtOffset) phys flags)
        (steps begin_ end_ pageSize) machine = .ok () after) :
    RemapsEach allocator self.pml4 pageSize virtOffset
      (fun phys => leafWord 3 (alignDown phys pageSize ||| flags))
      (steps begin_ end_ pageSize) machine after := by
  refine map_each_remaps intact ?_ ?_ returned
  · intro phys member _ _ held mapped
    have plain : add64 phys virtOffset = phys + virtOffset :=
      add64_of_lt (canonical_bound (canonical phys member))
    simp only [plain] at mapped
    exact map4kb_remaps held (canonical phys member) mapped
  · intro left onLeft right onRight
    exact steps_apart (by decide) onLeft onRight

end Loops

/-- Where the parts begin and end, when none of the roundings wraps. -/
structure Parts (addr len : Nat) : Prop where
  beginLarge : begin2mb addr = (addr + pageSize2mb - 1) / pageSize2mb * pageSize2mb
  endLarge : end2mb addr len = (addr + len) / pageSize2mb * pageSize2mb
  beginSmall : begin4kb addr = addr / pageSize * pageSize
  endSmall : end4kb addr len = (addr + len + pageSize - 1) / pageSize * pageSize
  room : addr + len + pageSize ≤ 2 ^ 64

section Parts

variable {addr len virtOffset flags : Nat}

theorem parts_of_room (largeRoom : addr + pageSize2mb ≤ 2 ^ 64)
    (room : addr + len + pageSize ≤ 2 ^ 64) :
    Parts addr len := by
  have positive : 0 < pageSize := by decide
  have total : add64 addr len = addr + len := add64_of_lt (by omega)
  refine ⟨align_up_of_le page_size2mb_pow (by decide) largeRoom, ?_, align_down_page (by omega),
    ?_, room⟩
  · rw [end2mb, total]
    exact align_down_page2mb (by omega)
  · rw [end4kb, total]
    exact align_up_of_le page_size_pow (by decide) room

/-- Where a rounding wraps, a subtraction underflows. -/
theorem parts_of_no_underflow (bound : addr + len < 2 ^ 64) (fine : NoUnderflow addr len) :
    Parts addr len := by
  have total : add64 addr len = addr + len := add64_of_lt bound
  have largeRoom : addr + pageSize2mb ≤ 2 ^ 64 := by
    by_contra past
    have wraps : begin2mb addr = 0 :=
      align_up_of_gt page_size2mb_pow (by decide) (by omega) (Nat.lt_of_not_le past)
    have begins : begin4kb addr = addr / pageSize * pageSize := align_down_page (by omega)
    have ordered := fine.before
    unfold pageSize2mb at past
    unfold pageSize at begins
    omega
  have room : addr + len + pageSize ≤ 2 ^ 64 := by
    by_contra past
    have wraps : end4kb addr len = 0 := by
      rw [end4kb, total]
      exact align_up_of_gt page_size_pow (by decide) (by omega) (Nat.lt_of_not_le past)
    have ends : end2mb addr len = (addr + len) / pageSize2mb * pageSize2mb := by
      rw [end2mb, total]
      exact align_down_page2mb (by omega)
    have ordered := fine.behind
    unfold pageSize at past
    unfold pageSize2mb at ends
    omega
  exact parts_of_room largeRoom room

/-- The three loops of `map_memory`, over which the page table goes through `first` and `second`. -/
structure Loops (allocator : LawfulAllocator σ) (root addr len virtOffset flags : Nat)
    (machine first second after : Machine σ) : Prop where
  large : RemapsEach allocator root pageSize2mb virtOffset
    (fun phys => leafWord 2 (alignDown phys pageSize2mb ||| pageHuge ||| flags))
    (steps (begin2mb addr) (end2mb addr len) pageSize2mb) machine first
  front : RemapsEach allocator root pageSize virtOffset
    (fun phys => leafWord 3 (alignDown phys pageSize ||| (pageAccessed ||| pageRw)))
    (steps (begin4kb addr) (begin2mb addr) pageSize) first second
  rest : RemapsEach allocator root pageSize virtOffset
    (fun phys => leafWord 3 (alignDown phys pageSize ||| flags))
    (steps (end2mb addr len) (end4kb addr len) pageSize) second after

theorem map_memory_loops (intact : Intact allocator self.pml4 machine)
    (bound : addr + len + virtOffset < 2 ^ 64) (fine : NoUnderflow addr len)
    (canonical : ∀ page, RangePage addr len page → Canonical (page + virtOffset))
    (returned : self.mapMemory allocator.toPageAllocator addr len virtOffset flags machine =
      .ok () after) :
    ∃ first second, Loops allocator self.pml4 addr len virtOffset flags machine first second
      after := by
  have parts := parts_of_no_underflow
    (Nat.lt_of_le_of_lt (Nat.le_add_right _ virtOffset) bound) fine
  obtain ⟨beginLarge, endLarge, beginSmall, endSmall, room⟩ := parts
  obtain ⟨middle, before, behind⟩ := fine
  unfold pageSize2mb at beginLarge endLarge
  unfold pageSize at beginSmall endSmall
  have inLarge : ∀ phys ∈ steps (begin2mb addr) (end2mb addr len) pageSize2mb,
      Canonical (phys + virtOffset) := by
    intro phys member
    obtain ⟨step, shape, inside⟩ := (mem_steps (by decide)).mp member
    unfold pageSize2mb at shape
    apply canonical phys
    exact ⟨by unfold pageSize; omega, by omega, by omega⟩
  have inFront : ∀ phys ∈ steps (begin4kb addr) (begin2mb addr) pageSize,
      Canonical (phys + virtOffset) := by
    intro phys member
    obtain ⟨step, shape, inside⟩ := (mem_steps (by decide)).mp member
    unfold pageSize at shape
    apply canonical phys
    exact ⟨by unfold pageSize; omega, by omega, by omega⟩
  have inRest : ∀ phys ∈ steps (end2mb addr len) (end4kb addr len) pageSize,
      Canonical (phys + virtOffset) := by
    intro phys member
    obtain ⟨step, shape, inside⟩ := (mem_steps (by decide)).mp member
    unfold pageSize at shape
    apply canonical phys
    exact ⟨by unfold pageSize; omega, by omega, by omega⟩
  rw [PageTable.mapMemory] at returned
  split_ifs at returned with readonly
  · exact (not_returned_of_throw returned).elim
  obtain ⟨_, first, mappedLarge, returned⟩ := state_bind_returned returned
  obtain ⟨_, second, mappedFront, mappedRest⟩ := state_bind_returned returned
  have large := map2mb_loop intact inLarge mappedLarge
  have front := map4kb_loop large.intact inFront mappedFront
  exact ⟨first, second, large, front, map4kb_loop front.intact inRest mappedRest⟩

theorem translate_resolve (alloc : PageAllocator σ) (virt : Nat) :
    answerOf (self.translate alloc virt machine) =
      (resolve (entryWords self.pml4 machine)
        (fun size word => (word &&& addressMask) + virt % size) virt).elim (.error ()) .ok := by
  rw [translate_lookup, lookup_entry_words]
  cases resolve (entryWords self.pml4 machine)
    (fun size word => (word &&& addressMask) + virt % size) virt <;> rfl

section Covered

variable {first second : Machine σ} {phys virt : Nat}
variable (loops : Loops allocator self.pml4 addr len virtOffset flags machine first second after)
variable (onVirt : Canonical virt)

include loops onVirt

theorem rest_resolves (valid : ValidFlags flags)
    (member : phys ∈ steps (end2mb addr len) (end4kb addr len) pageSize)
    (aligned : alignDown phys pageSize = phys)
    (covers : virt / pageSize = (phys + virtOffset) / pageSize)
    {Result : Type} (meaning : Nat → Nat → Result) :
    resolve (entryWords self.pml4 after)
      meaning virt = some (meaning pageSize (phys ||| flags)) := by
  rw [loops.rest.covered meaning phys member virt onVirt covers, aligned,
    leaf_word_small phys valid]
  rfl

theorem large_resolves (valid : ValidFlags flags)
    (member : phys ∈ steps (begin2mb addr) (end2mb addr len) pageSize2mb)
    (aligned : alignDown phys pageSize2mb = phys)
    (covers : virt / pageSize2mb = (phys + virtOffset) / pageSize2mb)
    (notFront : ∀ other ∈ steps (begin4kb addr) (begin2mb addr) pageSize,
      virt / pageSize ≠ (other + virtOffset) / pageSize)
    (notRest : ∀ other ∈ steps (end2mb addr len) (end4kb addr len) pageSize,
      virt / pageSize ≠ (other + virtOffset) / pageSize)
    {Result : Type} (meaning : Nat → Nat → Result) :
    resolve (entryWords self.pml4 after) meaning virt =
      some (meaning pageSize2mb (phys ||| pageHuge ||| flags)) := by
  rw [loops.rest.beside meaning virt onVirt notRest,
    loops.front.beside meaning virt onVirt notFront,
    loops.large.covered meaning phys member virt onVirt covers, aligned, leaf_word_large phys valid]
  rfl

/-- The flags of the loop over the first small pages lack `PAGE_PRESENT`. -/
theorem front_unmapped (member : phys ∈ steps (begin4kb addr) (begin2mb addr) pageSize)
    (aligned : alignDown phys pageSize = phys) (whole : pageSize ∣ phys)
    (covers : virt / pageSize = (phys + virtOffset) / pageSize)
    (notRest : ∀ other ∈ steps (end2mb addr len) (end4kb addr len) pageSize,
      virt / pageSize ≠ (other + virtOffset) / pageSize)
    {Result : Type} (meaning : Nat → Nat → Result) :
    resolve (entryWords self.pml4 after) meaning virt = none := by
  rw [loops.rest.beside meaning virt onVirt notRest,
    loops.front.covered meaning phys member virt onVirt covers, aligned,
    leaf_word_absent whole (by decide)]
  rfl

end Covered

theorem align_down_of_dvd {phys : Nat} (bound : phys < 2 ^ 64) (aligned : pageSize ∣ phys) :
    alignDown phys pageSize = phys := by
  rw [align_down_page bound, Nat.div_mul_cancel aligned]

theorem align_down_of_dvd2mb {phys : Nat} (bound : phys < 2 ^ 64) (aligned : pageSize2mb ∣ phys) :
    alignDown phys pageSize2mb = phys := by
  rw [align_down_page2mb bound, Nat.div_mul_cancel aligned]

section Necessary

variable {first second : Machine σ}
variable (bound : addr + len + virtOffset < 2 ^ 64) (nonempty : 1 ≤ len)
  (fine : NoUnderflow addr len)
variable (valid : ValidFlags flags)
variable (exactly : MapsExactly allocator.toPageAllocator self addr len virtOffset flags
  machine after)
variable (loops : Loops allocator self.pml4 addr len virtOffset flags machine first second after)

include bound nonempty fine valid exactly loops

omit nonempty valid in
theorem begins_aligned : pageSize2mb ∣ addr := by
  obtain ⟨beginLarge, endLarge, beginSmall, endSmall, room⟩ :=
    parts_of_no_underflow (Nat.lt_of_le_of_lt (Nat.le_add_right _ virtOffset) bound) fine
  obtain ⟨middle, before, behind⟩ := fine
  unfold pageSize2mb at beginLarge endLarge ⊢
  unfold pageSize at beginSmall endSmall
  by_contra unaligned
  have front : begin4kb addr < begin2mb addr := by omega
  have page : RangePage addr len (begin4kb addr) :=
    ⟨by rw [beginSmall]; exact Nat.dvd_mul_left _ _, Nat.le_refl _, by omega⟩
  have member : begin4kb addr ∈ steps (begin4kb addr) (begin2mb addr) pageSize :=
    (mem_steps (by decide)).mpr ⟨0, by rw [Nat.zero_mul, Nat.add_zero], front⟩
  have notRest : ∀ other ∈ steps (end2mb addr len) (end4kb addr len) pageSize,
      (begin4kb addr + virtOffset) / pageSize ≠ (other + virtOffset) / pageSize := by
    intro other onOther
    obtain ⟨step, shape, -⟩ := (mem_steps (by decide)).mp onOther
    unfold pageSize at shape ⊢
    omega
  have unmapped := front_unmapped loops (exactly.canonical _ page) member
    (align_down_of_dvd (by omega) page.aligned) page.aligned rfl notRest
    (fun size word => (word &&& addressMask) + (begin4kb addr + virtOffset) % size)
  have translated := exactly.translates _ page
  rw [translate_resolve, unmapped] at translated
  exact absurd translated (by simp)

theorem offset_aligned (aligned : pageSize2mb ∣ addr) :
    pageSize ∣ virtOffset ∧ (len < pageSize2mb ∨ pageSize2mb ∣ virtOffset) := by
  obtain ⟨beginLarge, endLarge, beginSmall, endSmall, room⟩ :=
    parts_of_no_underflow (Nat.lt_of_le_of_lt (Nat.le_add_right _ virtOffset) bound) fine
  have wholePage : pageSize ∣ addr := Nat.dvd_trans (by decide) aligned
  have page : RangePage addr len addr := by
    unfold pageSize2mb at aligned
    unfold pageSize at beginSmall endSmall
    exact ⟨wholePage, by omega, by omega⟩
  have canonical := exactly.canonical addr page
  have translated := exactly.translates addr page
  by_cases long : pageSize2mb ≤ len
  · have member : addr ∈ steps (begin2mb addr) (end2mb addr len) pageSize2mb := by
      refine (mem_steps (by decide)).mpr ⟨0, ?_, ?_⟩
      · unfold pageSize2mb at beginLarge aligned
        omega
      · unfold pageSize2mb at endLarge aligned long
        omega
    have noFront : steps (begin4kb addr) (begin2mb addr) pageSize = [] := by
      apply steps_nil
      unfold pageSize2mb at beginLarge aligned
      unfold pageSize at beginSmall wholePage
      omega
    have notRest : ∀ other ∈ steps (end2mb addr len) (end4kb addr len) pageSize,
        (addr + virtOffset) / pageSize ≠ (other + virtOffset) / pageSize := by
      intro other onOther
      obtain ⟨step, shape, -⟩ := (mem_steps (by decide)).mp onOther
      unfold pageSize2mb at endLarge aligned long
      unfold pageSize at shape ⊢
      omega
    have mapped := large_resolves loops canonical valid member
      (align_down_of_dvd2mb (by omega) aligned) rfl (by rw [noFront]; simp) notRest
      (fun size word => (word &&& addressMask) + (addr + virtOffset) % size)
    rw [translate_resolve, mapped, large_truncated wholePage valid] at translated
    have same : addr % 2 ^ 52 + (addr + virtOffset) % pageSize2mb = addr := Except.ok.inj translated
    unfold pageSize2mb at same aligned ⊢
    unfold pageSize
    omega
  · have member : addr ∈ steps (end2mb addr len) (end4kb addr len) pageSize := by
      refine (mem_steps (by decide)).mpr ⟨0, ?_, page.ends⟩
      unfold pageSize2mb at endLarge aligned long
      omega
    have mapped := rest_resolves loops canonical valid member
      (align_down_of_dvd (by omega) wholePage) rfl
      (fun size word => (word &&& addressMask) + (addr + virtOffset) % size)
    rw [translate_resolve, mapped, small_truncated wholePage valid] at translated
    have same : addr % 2 ^ 52 + (addr + virtOffset) % pageSize = addr := Except.ok.inj translated
    refine ⟨?_, Or.inl (Nat.lt_of_not_le long)⟩
    unfold pageSize at same wholePage ⊢
    omega

/-- An entry of the last page holds its address only if it is a physical one. -/
theorem physical (aligned : pageSize2mb ∣ addr) (smallOffset : pageSize ∣ virtOffset)
    (largeOffset : len < pageSize2mb ∨ pageSize2mb ∣ virtOffset) : addr + len ≤ 2 ^ 52 := by
  obtain ⟨beginLarge, endLarge, beginSmall, endSmall, room⟩ :=
    parts_of_no_underflow (Nat.lt_of_le_of_lt (Nat.le_add_right _ virtOffset) bound) fine
  obtain ⟨middle, before, behind⟩ := fine
  unfold pageSize2mb at beginLarge endLarge aligned largeOffset
  unfold pageSize at beginSmall endSmall smallOffset
  let last := end4kb addr len - pageSize
  have lastValue : last = end4kb addr len - 4096 := rfl
  have whole : pageSize ∣ last := by
    unfold pageSize
    omega
  have page : RangePage addr len last := ⟨whole, by omega, by omega⟩
  have canonical := exactly.canonical last page
  have translated := exactly.translates last page
  by_cases tail : end2mb addr len < end4kb addr len
  · have member : last ∈ steps (end2mb addr len) (end4kb addr len) pageSize := by
      refine (mem_steps (by decide)).mpr ⟨(last - end2mb addr len) / 4096, ?_, page.ends⟩
      unfold pageSize
      omega
    have mapped := rest_resolves loops canonical valid member
      (align_down_of_dvd (by omega) whole) rfl
      (fun size word => (word &&& addressMask) + (last + virtOffset) % size)
    rw [translate_resolve, mapped, small_truncated whole valid] at translated
    have same : last % 2 ^ 52 + (last + virtOffset) % pageSize = last := Except.ok.inj translated
    unfold pageSize at same whole
    omega
  · let region := end2mb addr len - pageSize2mb
    have regionValue : region = end2mb addr len - 2 * 1024 * 1024 := rfl
    have wholeRegion : pageSize2mb ∣ region := by
      unfold pageSize2mb
      omega
    have member : region ∈ steps (begin2mb addr) (end2mb addr len) pageSize2mb := by
      refine (mem_steps (by decide)).mpr
        ⟨(region - begin2mb addr) / (2 * 1024 * 1024), ?_, by omega⟩
      unfold pageSize2mb
      omega
    have noFront : steps (begin4kb addr) (begin2mb addr) pageSize = [] := steps_nil (by omega)
    have noRest : steps (end2mb addr len) (end4kb addr len) pageSize = [] := steps_nil (by omega)
    have covers : (last + virtOffset) / pageSize2mb = (region + virtOffset) / pageSize2mb := by
      unfold pageSize2mb
      omega
    have mapped := large_resolves loops canonical valid member
      (align_down_of_dvd2mb (by omega) wholeRegion) covers (by rw [noFront]; simp)
        (by rw [noRest]; simp)
      (fun size word => (word &&& addressMask) + (last + virtOffset) % size)
    rw [translate_resolve, mapped,
      large_truncated (Nat.dvd_trans (by decide) wholeRegion) valid] at translated
    have same : region % 2 ^ 52 + (last + virtOffset) % pageSize2mb = last :=
      Except.ok.inj translated
    unfold pageSize2mb at same wholeRegion
    omega

end Necessary

/-- The ranges that `map_memory` maps exactly. -/
structure Mappable (addr len virtOffset : Nat) : Prop where
  begins : pageSize2mb ∣ addr
  physical : addr + len ≤ 2 ^ 52
  canonical : ∀ page, RangePage addr len page → Canonical (page + virtOffset)
  smallOffset : pageSize ∣ virtOffset
  largeOffset : len < pageSize2mb ∨ pageSize2mb ∣ virtOffset

theorem mappable_parts (mappable : Mappable addr len virtOffset) : Parts addr len := by
  have fits := mappable.physical
  apply parts_of_room
  · unfold pageSize2mb
    omega
  · unfold pageSize
    omega

theorem mappable_no_underflow (mappable : Mappable addr len virtOffset) : NoUnderflow addr len := by
  obtain ⟨beginLarge, endLarge, beginSmall, endSmall, room⟩ := mappable_parts mappable
  have aligned := mappable.begins
  unfold pageSize2mb at beginLarge endLarge aligned
  unfold pageSize at beginSmall endSmall
  exact ⟨by omega, by omega, by omega⟩

section Enough

variable {first second : Machine σ} {page : Nat}
variable (mappable : Mappable addr len virtOffset) (valid : ValidFlags flags)
variable (loops : Loops allocator self.pml4 addr len virtOffset flags machine first second after)

include mappable valid loops

/-- Every page of the range is in a large region or among the last small pages, at its own offset.
-/
theorem page_resolves (inRange : RangePage addr len page) :
    answerOf (self.translate allocator.toPageAllocator (page + virtOffset) after) = .ok page ∧
      flagsAt self.pml4 after (page + virtOffset) = some flags := by
  obtain ⟨beginLarge, endLarge, beginSmall, endSmall, room⟩ := mappable_parts mappable
  have canonical := mappable.canonical page inRange
  obtain ⟨aligned, fits, -, smallOffset, largeOffset⟩ := mappable
  obtain ⟨whole, begins, ends⟩ := inRange
  unfold pageSize2mb at beginLarge endLarge aligned largeOffset
  unfold pageSize at beginSmall endSmall smallOffset
  by_cases inLarge : page < end2mb addr len
  · let region := page / pageSize2mb * pageSize2mb
    have regionValue : region = page / (2 * 1024 * 1024) * (2 * 1024 * 1024) := rfl
    have wholeRegion : pageSize2mb ∣ region := Nat.dvd_mul_left _ _
    have member : region ∈ steps (begin2mb addr) (end2mb addr len) pageSize2mb := by
      refine (mem_steps (by decide)).mpr
        ⟨(region - begin2mb addr) / (2 * 1024 * 1024), ?_, by omega⟩
      unfold pageSize2mb
      omega
    have noFront : steps (begin4kb addr) (begin2mb addr) pageSize = [] := steps_nil (by omega)
    have notRest : ∀ other ∈ steps (end2mb addr len) (end4kb addr len) pageSize,
        (page + virtOffset) / pageSize ≠ (other + virtOffset) / pageSize := by
      intro other onOther
      obtain ⟨step, shape, -⟩ := (mem_steps (by decide)).mp onOther
      unfold pageSize at shape whole ⊢
      omega
    have covers : (page + virtOffset) / pageSize2mb = (region + virtOffset) / pageSize2mb := by
      unfold pageSize2mb
      omega
    have resolves : ∀ {Result : Type} (meaning : Nat → Nat → Result),
        resolve (entryWords self.pml4 after) meaning (page + virtOffset) =
          some (meaning pageSize2mb (region ||| pageHuge ||| flags)) :=
      large_resolves loops canonical valid member
        (align_down_of_dvd2mb (by omega) wholeRegion) covers
        (by rw [noFront]; simp) notRest
    have base : ValidBase region := ⟨Nat.dvd_trans (by decide) wholeRegion, by omega⟩
    constructor
    · rw [translate_resolve, resolves, large_truncated base.aligned valid]
      have itself : region % 2 ^ 52 + (page + virtOffset) % pageSize2mb = page := by
        unfold pageSize2mb
        omega
      rw [itself]
      rfl
    · rw [flagsAt, resolves, entry_flags_large base valid]
  · have member : page ∈ steps (end2mb addr len) (end4kb addr len) pageSize := by
      refine (mem_steps (by decide)).mpr ⟨(page - end2mb addr len) / 4096, ?_, ends⟩
      unfold pageSize at whole ⊢
      omega
    have resolves : ∀ {Result : Type} (meaning : Nat → Nat → Result),
        resolve (entryWords self.pml4 after) meaning (page + virtOffset) =
          some (meaning pageSize (page ||| flags)) :=
      rest_resolves loops canonical valid member (align_down_of_dvd (by omega) whole) rfl
    have base : ValidBase page := by
      refine ⟨whole, ?_⟩
      unfold pageSize at whole
      omega
    constructor
    · rw [translate_resolve, resolves, small_truncated whole valid]
      have itself : page % 2 ^ 52 + (page + virtOffset) % pageSize = page := by
        unfold pageSize at whole ⊢
        omega
      rw [itself]
      rfl
    · rw [flagsAt, resolves, entry_flags_small base valid]

omit valid in
theorem outside_kept {virt : Nat} (onVirt : Canonical virt)
    (out : virt < begin4kb addr + virtOffset ∨ end4kb addr len + virtOffset ≤ virt) :
    answerOf (self.translate allocator.toPageAllocator virt after) =
      answerOf (self.translate allocator.toPageAllocator virt machine) := by
  obtain ⟨beginLarge, endLarge, beginSmall, endSmall, room⟩ := mappable_parts mappable
  obtain ⟨aligned, fits, -, smallOffset, largeOffset⟩ := mappable
  unfold pageSize2mb at beginLarge endLarge aligned largeOffset
  unfold pageSize at beginSmall endSmall smallOffset
  have notLarge : ∀ phys ∈ steps (begin2mb addr) (end2mb addr len) pageSize2mb,
      virt / pageSize2mb ≠ (phys + virtOffset) / pageSize2mb := by
    intro phys member
    obtain ⟨step, shape, inside⟩ := (mem_steps (by decide)).mp member
    unfold pageSize2mb at shape ⊢
    omega
  have notFront : ∀ phys ∈ steps (begin4kb addr) (begin2mb addr) pageSize,
      virt / pageSize ≠ (phys + virtOffset) / pageSize := by
    intro phys member
    obtain ⟨step, shape, inside⟩ := (mem_steps (by decide)).mp member
    omega
  have notRest : ∀ phys ∈ steps (end2mb addr len) (end4kb addr len) pageSize,
      virt / pageSize ≠ (phys + virtOffset) / pageSize := by
    intro phys member
    obtain ⟨step, shape, inside⟩ := (mem_steps (by decide)).mp member
    unfold pageSize at shape ⊢
    omega
  rw [translate_resolve, translate_resolve, loops.rest.beside _ virt onVirt notRest,
    loops.front.beside _ virt onVirt notFront, loops.large.beside _ virt onVirt notLarge]

end Enough

/-- A range that `map_memory` has mapped is mapped exactly if it begins at a large page. -/
theorem map_memory_exact_iff (allocator : LawfulAllocator σ) (self : PageTable)
    (machine after : Machine σ) (intact : Intact allocator self.pml4 machine)
    (addr len virtOffset flags : Nat) (nonempty : 1 ≤ len)
    (bound : addr + len + virtOffset < 2 ^ 64) (valid : ValidFlags flags)
    (returned : self.mapMemory allocator.toPageAllocator addr len virtOffset flags machine =
      .ok () after) :
    (NoUnderflow addr len ∧
      MapsExactly allocator.toPageAllocator self addr len virtOffset flags machine after) ↔
      Mappable addr len virtOffset := by
  constructor
  · rintro ⟨fine, exactly⟩
    obtain ⟨first, second, loops⟩ := map_memory_loops intact bound fine exactly.canonical returned
    have aligned := begins_aligned bound fine exactly loops
    obtain ⟨small, large⟩ := offset_aligned bound nonempty fine valid exactly loops aligned
    exact ⟨aligned, physical bound nonempty fine valid exactly loops aligned small large,
      exactly.canonical, small, large⟩
  · intro mappable
    have fine := mappable_no_underflow mappable
    obtain ⟨first, second, loops⟩ := map_memory_loops intact bound fine mappable.canonical returned
    exact ⟨fine, mappable.canonical,
      fun page inRange => (page_resolves mappable valid loops inRange).1,
      fun page inRange => (page_resolves mappable valid loops inRange).2,
      fun virt onVirt out => outside_kept mappable loops onVirt out⟩

end Parts

theorem region_and_page_mapped :
    let result := firstPage.mapMemory FreeList.lawful.toPageAllocator 0x20_0000 0x20_1000 0
      (pagePresent ||| pageRw) threePages
    (NoUnderflow 0x20_0000 0x20_1000 ∧
      MapsExactly FreeList.lawful.toPageAllocator firstPage 0x20_0000 0x20_1000 0
        (pagePresent ||| pageRw) threePages (stateAfter result)) ↔
      Mappable 0x20_0000 0x20_1000 0 := by
  intro result
  have held : firstPage.pml4 ∈ FreeList.lawful.held threePages := by
    constructor
    · decide +kernel
    · decide +kernel
  have intact : Intact FreeList.lawful firstPage.pml4 threePages :=
    (absent_intact held fun _ => Nat.zero_and _).1
  have returned : result = .ok () (stateAfter result) := rfl
  exact map_memory_exact_iff FreeList.lawful firstPage threePages (stateAfter result)
    intact 0x20_0000
    0x20_1000 0 (pagePresent ||| pageRw) (by decide) (by decide) ⟨by decide, by decide⟩ returned

/-- A range below a multiple of 2 MiB is not mapped, and one inside a region underflows. -/
theorem front_pages_not_mapped :
    let result := firstPage.mapMemory FreeList.lawful.toPageAllocator 0x1F_F000 0x1000 0
      (pagePresent ||| pageRw) threePages
    answerOf result = .ok () ∧
      answerOf (firstPage.translate FreeList.lawful.toPageAllocator 0x1F_F000 (stateAfter result)) =
        .error () ∧
      end2mb 0x1000 0x1000 < begin2mb 0x1000 := by
  decide +kernel

end Campix.Paging
