import Campix.Lib.Outcome
import Campix.Paging.Runs

/-!
# The words that map pages

Beside the base of a page its entry holds flags. What `map_4kb` and `map_2mb` do to the words of
the entries is what they do to the address map: each replaces the word of one page or region.
-/

namespace Campix.Paging

open Lib.Word Lib.Fallible Lib.Outcome Lib.TableTree

set_option autoImplicit false

variable {σ : Type} {allocator : LawfulAllocator σ} {self : PageTable} {machine after : Machine σ}
variable {root : Nat} {path : List (Fin 512)} {table : Nat} {idx : Fin 512}

def leafWord (level word : Nat) : Option Nat :=
  if word &&& pagePresent ≠ 0 ∧ (level = 3 ∨
    level = 2 ∧ word &&& pageHuge ≠ 0) then some word else none

theorem leaf_eq_leaf_word (level word : Nat) :
    leaf level word = (leafWord level word).map (· &&& addressMask) := by
  unfold leaf leafWord
  split_ifs <;> rfl

theorem leaf_word_reading : Reading leafWord := by
  constructor
  · intro level word points
    have void := descend_leaf_exclusive level word points
    rwa [leaf_eq_leaf_word, Option.map_eq_none_iff] at void
  · intro level word absent
    exact if_neg fun present => present.1 absent

abbrev entryWords (root : Nat) (machine : Machine σ) : List (Fin 512) → Option Nat :=
  views leafWord root machine

theorem leaves_eq_entry_words (root : Nat) (machine : Machine σ) (path : List (Fin 512)) :
    leaves root machine path = (entryWords root machine path).map (· &&& addressMask) := by
  cases path with
  | nil => rfl
  | cons idx path =>
      cases found : tables root machine path with
      | none =>
          rw [leaves, leaf_at_missing idx found, entryWords, views, leaf_at_missing idx found,
            Option.map_none]
      | some table =>
          rw [leaves, leaf_at_cons found, entryWords, views, leaf_at_cons found, leaf_eq_leaf_word]

theorem lookup_entry_words (root : Nat) (machine : Machine σ) (addr : Nat) :
    lookup (leaves root machine) addr =
      resolve (entryWords root machine) (fun size word => (word &&& addressMask) + addr % size)
        addr := by
  rw [lookup, resolve, leaves_eq_entry_words, leaves_eq_entry_words]
  cases entryWords root machine (largeEntry addr) with
  | some word => rfl
  | none => rw [Option.map_none, Option.map_map]; rfl

def entryFlags (word : Nat) : Nat := word &&& not64 (addressMask ||| pageHuge)

def flagsAt (root : Nat) (machine : Machine σ) (addr : Nat) : Option Nat :=
  resolve (entryWords root machine) (fun _ word => entryFlags word) addr

def Loose (allocator : LawfulAllocator σ) (root : Nat) (machine : Machine σ) (page : Nat) : Prop :=
  page ∈ allocator.held machine ∧ ∀ path, tables root machine path ≠ some page

def Untouched (allocator : LawfulAllocator σ) (root : Nat) (before after : Machine σ) : Prop :=
  ∀ page, Loose allocator root before page →
    Loose allocator root after page ∧ after.mem page = before.mem page

theorem untouched_refl : Untouched allocator root machine machine :=
  fun _ loose => ⟨loose, rfl⟩

theorem untouched_trans {first second third : Machine σ}
    (left : Untouched allocator root first second) (right : Untouched allocator root second third) :
    Untouched allocator root first third := by
  intro page loose
  obtain ⟨looseSecond, sameSecond⟩ := left page loose
  obtain ⟨looseThird, sameThird⟩ := right page looseSecond
  exact ⟨looseThird, sameThird.trans sameSecond⟩

theorem write_untouched {word : Nat} (intact : Intact allocator root machine)
    (found : tables root machine path = some table) (ends : descend path.length word = none) :
    Untouched allocator root machine (machine.setEntry table idx word) := by
  intro page loose
  have notTable : page ≠ table := fun same => loose.2 path (same ▸ found)
  refine ⟨⟨?_, fun other reached => ?_⟩, ?_⟩
  · rw [held_set_entry (intact.held path table found)]
    exact loose.1
  · exact loose.2 other (table_at_of_set_cut intact.tree found ends reached)
  · funext place
    rw [Machine.mem_set_entry, set_entry_other _ (Or.inl notTable)]

theorem link_untouched {ptr subFlags : Nat} (upper : path.length ≤ 2)
    (intact : Intact allocator root machine) (found : tables root machine path = some table)
    (absent : machine.mem table idx &&& pagePresent = 0)
    (allocated : allocator.allocPage machine = .ok ptr after) (flags : ValidFlags subFlags) :
    Untouched allocator root machine ((after.clear ptr).setEntry table idx
      (sub64 ptr directMappingOffset ||| subFlags)) := by
  obtain ⟨fresh, -, -, frame⟩ := allocator.alloc_some allocated
  have linked := link_keeps upper intact found absent allocated flags
  intro page loose
  refine ⟨⟨?_, fun other reached => ?_⟩, ?_⟩
  · rw [linked.held]
    exact Set.mem_insert_of_mem _ loose.1
  · rw [linked.tables] at reached
    split_ifs at reached with new
    · exact fresh (Option.some.inj reached ▸ loose.1)
    · exact loose.2 other reached
  · have notTable : page ≠ table := fun same => loose.2 path (same ▸ found)
    have notFresh : page ≠ ptr := fun same => fresh (same ▸ loose.1)
    funext place
    rw [Machine.mem_set_entry, set_entry_other _ (Or.inl notTable)]
    change Function.update after.mem ptr _ page place = _
    rw [Function.update_of_ne notFresh, frame page loose.1]

section Walks

variable {Leaf : Type} {view : Nat → Nat → Option Leaf}

theorem follow_entry_state (table : Nat) (idx : Fin 512) (disallowedFlags : Nat)
    (machine : Machine σ) :
    stateAfter (followEntry table idx disallowedFlags machine) = machine := by
  rw [followEntry, state_bind_ok (by rfl : readEntry table idx machine = _)]
  split_ifs <;> rfl

theorem get_table_keeps_view (reading : Reading view) {subFlags : Nat} (upper : path.length ≤ 2)
    (intact : Intact allocator root machine) (found : tables root machine path = some table)
    (flags : ValidFlags subFlags) (disallowedFlags : Nat) :
    views view root (stateAfter (getTable true allocator.toPageAllocator table idx subFlags
      disallowedFlags machine)) = views view root machine := by
  refine @get_table_rule σ allocator machine table idx
    (fun outcome => views view root (stateAfter outcome) = views view root machine)
    subFlags disallowedFlags ?_ ?_ ?_
  · intro _ after allocated
    obtain ⟨-, frame⟩ := allocator.alloc_none allocated
    exact funext (leaf_at_congr fun other reached present =>
      frame reached (intact.held other reached present))
  · intro absent ptr after allocated
    obtain ⟨fresh, held, usable, frame⟩ := allocator.alloc_some allocated
    rw [follow_entry_state]
    exact link_fresh_view upper intact found absent fresh held usable frame flags reading
  · intro _
    rw [follow_entry_state]

theorem get_table_untouched {subFlags : Nat} (upper : path.length ≤ 2)
    (intact : Intact allocator root machine) (found : tables root machine path = some table)
    (flags : ValidFlags subFlags) (idx : Fin 512) (disallowedFlags : Nat) :
    Untouched allocator root machine (stateAfter (getTable true allocator.toPageAllocator table idx
      subFlags disallowedFlags machine)) := by
  refine @get_table_rule σ allocator machine table idx
    (fun outcome => Untouched allocator root machine (stateAfter outcome))
    subFlags disallowedFlags ?_ ?_ ?_
  · intro _ after allocated
    obtain ⟨held, frame⟩ := allocator.alloc_none allocated
    obtain ⟨-, sameTables, -⟩ := refused_keeps intact allocated
    intro page loose
    refine ⟨⟨?_, ?_⟩, frame page loose.1⟩
    · change page ∈ allocator.held after
      rw [held]
      exact loose.1
    · change ∀ other, tables root after other ≠ some page
      rw [sameTables]
      exact loose.2
  · intro absent ptr after allocated
    rw [follow_entry_state]
    exact link_untouched upper intact found absent allocated flags
  · intro _
    rw [follow_entry_state]
    exact untouched_refl

/-- One step down, on the way to an entry that is written in the end. -/
theorem walk_returned (reading : Reading view) {subFlags disallowedFlags : Nat}
    {rest : Nat → Attempt σ Unit} (intact : Intact allocator root machine)
    (found : tables root machine path = some table) (upper : path.length ≤ 2)
    (level : disallowedAt path.length = disallowedFlags) (flags : ValidFlags subFlags)
    (returned : (getTable true allocator.toPageAllocator table idx subFlags
      disallowedFlags >>= rest)
      machine = .ok () after) :
    ∃ next between, Intact allocator root between ∧ tables root between (idx :: path) = some next ∧
      views view root between = views view root machine ∧ Untouched allocator root machine between ∧
      rest next between = .ok () after := by
  subst level
  have walked : Walked allocator root machine (idx :: path) _ :=
    get_table_adds upper intact found flags
  have same : views view root (stateAfter
      (getTable true allocator.toPageAllocator table idx subFlags
      (disallowedAt path.length) machine)) = _ :=
    get_table_keeps_view reading upper intact found flags _
  have untouched := get_table_untouched upper intact found flags idx (disallowedAt path.length)
  obtain ⟨next, between, outcome, returned⟩ := state_bind_returned returned
  rw [outcome] at walked same untouched
  exact ⟨next, between, walked.1.intact, walked.2, same, untouched, returned⟩

/-- The word replaces what was at the entry, which no larger page covers. -/
structure Written (view : Nat → Nat → Option Leaf) (allocator : LawfulAllocator σ) (root : Nat)
    (before : Machine σ) (entry : List (Fin 512)) (value : Option Leaf)
    (after : Machine σ) : Prop where
  intact : Intact allocator root after
  uncovered : views view root before entry.tail = none
  written : views view root after = graft (views view root before) entry value
  untouched : Untouched allocator root before after

theorem write_written (reading : Reading view) {between : Machine σ} {place : Fin 512} {word : Nat}
    (intact : Intact allocator root between)
    (same : views view root between = views view root machine)
    (untouched : Untouched allocator root machine between)
    (found : tables root between (idx :: path) = some table)
    (ends : descend (path.length + 1) word = none)
    (returned : writeEntry table place word between = .ok () after) :
    Written view allocator root machine (place :: idx :: path) (view (path.length + 1) word)
      after := by
  obtain rfl : between.setEntry table place word = after := (EStateM.Result.ok.inj returned).2
  refine ⟨(write_grafts intact found ends).1, ?_, ?_,
    untouched_trans untouched (write_untouched intact found ends)⟩
  · rw [← same]
    exact leaf_at_of_table reading.exclusive found
  · rw [← same]
    exact leaf_at_graft intact.tree found ends

theorem map4kb_written (reading : Reading view) {virt phys flags : Nat}
    (intact : Intact allocator self.pml4 machine)
    (returned : self.map4kb allocator.toPageAllocator virt phys flags machine = .ok () after) :
    Written view allocator self.pml4 machine (smallEntry virt)
      (view 3 (alignDown phys pageSize ||| flags)) after := by
  have subFlags := sub_flags_valid virt
  have foundRoot : tables self.pml4 machine [] = some self.pml4 := rfl
  rw [PageTable.map4kb] at returned
  split_ifs at returned with readonly
  · exact (not_returned_of_throw returned).elim
  · dsimp only [splitVirtAddr] at returned
    obtain ⟨pdpt, first, intactFirst, foundPdpt, sameFirst, untouchedFirst, returned⟩ :=
      walk_returned reading intact foundRoot (Nat.zero_le 2) rfl subFlags returned
    obtain ⟨pd, second, intactSecond, foundPd, sameSecond, untouchedSecond, returned⟩ :=
      walk_returned reading intactFirst foundPdpt (Nat.le_succ 1) rfl subFlags returned
    obtain ⟨pt, third, intactThird, foundPt, sameThird, untouchedThird, returned⟩ :=
      walk_returned reading intactSecond foundPd (Nat.le_refl 2) rfl subFlags returned
    exact write_written reading intactThird (sameThird.trans (sameSecond.trans sameFirst))
      (untouched_trans untouchedFirst (untouched_trans untouchedSecond untouchedThird)) foundPt
      (by simp [descend]) returned

theorem has_huge (base flags : Nat) : (base ||| pageHuge ||| flags) &&& pageHuge ≠ 0 := by
  have itself : pageHuge &&& pageHuge ≠ 0 := by decide
  rw [Nat.and_or_distrib_right, Nat.and_or_distrib_right]
  intro zero
  exact itself (Nat.or_eq_zero_iff.mp (Nat.or_eq_zero_iff.mp zero).1).2

theorem huge_word_ends (base flags : Nat) : descend 2 (base ||| pageHuge ||| flags) = none :=
  if_pos (Or.inr (Or.inr ⟨rfl, has_huge base flags⟩))

theorem map2mb_written (reading : Reading view) {virt phys flags : Nat}
    (intact : Intact allocator self.pml4 machine)
    (returned : self.map2mb allocator.toPageAllocator virt phys flags machine = .ok () after) :
    Written view allocator self.pml4 machine (largeEntry virt)
      (view 2 (alignDown phys pageSize2mb ||| pageHuge ||| flags)) after := by
  have subFlags := sub_flags_valid virt
  have foundRoot : tables self.pml4 machine [] = some self.pml4 := rfl
  rw [PageTable.map2mb] at returned
  split_ifs at returned with readonly
  · exact (not_returned_of_throw returned).elim
  · dsimp only [splitVirtAddr] at returned
    obtain ⟨pdpt, first, intactFirst, foundPdpt, sameFirst, untouchedFirst, returned⟩ :=
      walk_returned reading intact foundRoot (Nat.zero_le 2) rfl subFlags returned
    obtain ⟨pd, second, intactSecond, foundPd, sameSecond, untouchedSecond, returned⟩ :=
      walk_returned reading intactFirst foundPdpt (Nat.le_succ 1) rfl subFlags returned
    exact write_written reading intactSecond (sameSecond.trans sameFirst)
      (untouched_trans untouchedFirst untouchedSecond) foundPd (huge_word_ends _ flags) returned

end Walks

/-- Afterwards the page or region of `virt` has the entry `value`; every other address has the entry
that it had. -/
structure Remaps (allocator : LawfulAllocator σ) (root size virt : Nat) (value : Option Nat)
    (before after : Machine σ) : Prop where
  intact : Intact allocator root after
  resolves : ∀ {Result : Type} (meaning : Nat → Nat → Result) (addr : Nat), Canonical addr →
    resolve (entryWords root after) meaning addr =
      if addr / size = virt / size then value.map (meaning size)
      else resolve (entryWords root before) meaning addr

theorem map4kb_remaps {virt phys flags : Nat} (intact : Intact allocator self.pml4 machine)
    (canonical : Canonical virt)
    (returned : self.map4kb allocator.toPageAllocator virt phys flags machine = .ok () after) :
    Remaps allocator self.pml4 pageSize virt (leafWord 3 (alignDown phys pageSize ||| flags))
      machine after := by
  have written := map4kb_written leaf_word_reading intact returned
  refine ⟨written.intact, fun meaning addr onAddr => ?_⟩
  rw [entryWords, written.written]
  exact resolve_graft_small _ meaning canonical onAddr _ written.uncovered

theorem map2mb_remaps {virt phys flags : Nat} (intact : Intact allocator self.pml4 machine)
    (canonical : Canonical virt)
    (returned : self.map2mb allocator.toPageAllocator virt phys flags machine = .ok () after) :
    Remaps allocator self.pml4 pageSize2mb virt
      (leafWord 2 (alignDown phys pageSize2mb ||| pageHuge ||| flags)) machine after := by
  have written := map2mb_written leaf_word_reading intact returned
  refine ⟨written.intact, fun meaning addr onAddr => ?_⟩
  rw [entryWords, written.written]
  exact resolve_graft_large _ meaning canonical onAddr _

section Flags

variable {base flags : Nat} (validBase : ValidBase base) (valid : ValidFlags flags)

include validBase valid

theorem entry_flags_small : entryFlags (base ||| flags) = flags := by
  have noBase : base &&& not64 (addressMask ||| pageHuge) = 0 :=
    base_and_flag validBase (by decide +kernel)
  have kept : flags &&& not64 (addressMask ||| pageHuge) = flags := by
    have within : (pageNoExecute ||| 0xF7F) &&& not64 (addressMask ||| pageHuge) =
        pageNoExecute ||| 0xF7F := by decide +kernel
    rw [← valid.allowed, Nat.and_assoc, within]
  rw [entryFlags, Nat.and_or_distrib_right, noBase, kept, Nat.zero_or]

theorem entry_flags_large : entryFlags (base ||| pageHuge ||| flags) = flags := by
  have noHuge : pageHuge &&& not64 (addressMask ||| pageHuge) = 0 := by decide +kernel
  have plain : entryFlags (base ||| flags) = flags := entry_flags_small validBase valid
  rw [entryFlags, Nat.or_assoc, Nat.or_comm pageHuge, ← Nat.or_assoc, Nat.and_or_distrib_right,
    noHuge, Nat.or_zero]
  exact plain

end Flags

section Truncated

variable {base flags : Nat}

theorem has_present (word : Nat) (valid : ValidFlags flags) :
    (word ||| flags) &&& pagePresent ≠ 0 := by
  have itself : pagePresent ≠ 0 := by decide
  rw [Nat.and_or_distrib_right, valid.present]
  intro zero
  exact itself (Nat.or_eq_zero_iff.mp zero).2

theorem leaf_word_small (base : Nat) (valid : ValidFlags flags) :
    leafWord 3 (base ||| flags) = some (base ||| flags) :=
  if_pos ⟨has_present base valid, Or.inl rfl⟩

theorem leaf_word_large (base : Nat) (valid : ValidFlags flags) :
    leafWord 2 (base ||| pageHuge ||| flags) = some (base ||| pageHuge ||| flags) :=
  if_pos ⟨has_present _ valid, Or.inr ⟨rfl, has_huge base flags⟩⟩

theorem and_of_low {bits mask : Nat} (low : mask < 2 ^ bits) :
    base &&& mask = base % 2 ^ bits &&& mask := by
  have small : base &&& mask < 2 ^ bits := Nat.lt_of_le_of_lt Nat.and_le_right low
  rw [← Nat.mod_eq_of_lt small, Nat.and_mod_two_pow, Nat.mod_eq_of_lt low]

/-- An entry has no room for more than 52 bits of an address. -/
theorem base_truncated (aligned : pageSize ∣ base) : base &&& addressMask = base % 2 ^ 52 := by
  have valid : ValidBase (base % 2 ^ 52) :=
    ⟨(Nat.dvd_mod_iff (by decide)).mpr aligned, Nat.mod_lt _ (by norm_num)⟩
  rw [and_of_low (by decide : addressMask < 2 ^ 52)]
  exact base_and_mask valid

theorem small_truncated (aligned : pageSize ∣ base) (valid : ValidFlags flags) :
    (base ||| flags) &&& addressMask = base % 2 ^ 52 := by
  rw [Nat.and_or_distrib_right, flags_and_disallowed valid (by decide +kernel), Nat.or_zero,
    base_truncated aligned]

theorem large_truncated (aligned : pageSize ∣ base) (valid : ValidFlags flags) :
    (base ||| pageHuge ||| flags) &&& addressMask = base % 2 ^ 52 := by
  have huge : pageHuge &&& addressMask = 0 := by decide
  rw [Nat.or_assoc, Nat.or_comm pageHuge, ← Nat.or_assoc, Nat.and_or_distrib_right, huge,
    Nat.or_zero, small_truncated aligned valid]

/-- Without `PAGE_PRESENT` nothing is mapped. -/
theorem leaf_word_absent (aligned : pageSize ∣ base) (absent : flags &&& pagePresent = 0) :
    leafWord 3 (base ||| flags) = none := by
  have noBase : base &&& pagePresent = 0 := by
    have zero : base % 2 ^ 12 = 0 := Nat.mod_eq_zero_of_dvd aligned
    rw [and_of_low (by decide : pagePresent < 2 ^ 12), zero, Nat.zero_and]
  refine if_neg fun present => present.1 ?_
  rw [Nat.and_or_distrib_right, noBase, absent, Nat.or_zero]

end Truncated

end Campix.Paging
