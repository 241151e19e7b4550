import Campix.Paging.AddressMap
import Campix.Paging.AddressSpace
import Campix.Paging.Runs

/-!
# What a new address space translates

`alloc_new` clears one byte of the page that becomes the PML4, and `map_global_higher_half` copies
the entries 256 to 383. The entries 1 to 255 and 384 to 511 are what was left in the page. An entry
that looks present there is followed like any other, and what it leads to depends on the rest of
the memory.
-/

namespace Campix.Paging

open Lib.Word Lib.Outcome Lib.TableTree

set_option autoImplicit false

variable {σ : Type} {allocator : LawfulAllocator σ} {self kernel : PageTable} {machine : Machine σ}

/-- Nothing in the lower half; in the higher half what the kernel has behind the shared entries,
and nothing else. -/
structure EmptySpace (allocator : PageAllocator σ) (space kernel : PageTable)
    (machine : Machine σ) :
    Prop where
  lower : ∀ virt < 2 ^ 47, space.translate allocator virt machine = .error () machine
  shared : ∀ virt, Canonical virt → Shared (index virt 39) →
    space.translate allocator virt machine = kernel.translate allocator virt machine
  upper : ∀ virt, Canonical virt → 2 ^ 47 ≤ virt → ¬Shared (index virt 39) →
    space.translate allocator virt machine = .error () machine

/-- The entries that are neither cleared nor copied. -/
def Stale (idx : Fin 512) : Prop := 0 < idx.val ∧ idx.val < 256 ∨ 384 ≤ idx.val

/-- The new address space is empty wherever the allocator hands out a page with this content. -/
def EmptyFrom (content : Table) : Prop :=
  ∀ {σ : Type} (allocator : LawfulAllocator σ) (kernel self : PageTable)
    (machine between after : Machine σ),
    allocator.allocPage machine = .ok self.pml4 between → between.mem self.pml4 = content →
    PageTable.allocNew allocator machine = .ok self after →
    EmptySpace allocator.toPageAllocator self kernel
      (stateAfter (self.mapGlobalHigherHalf kernel after))

theorem lookup_absent_slot {root virt : Nat}
    (absent : machine.mem root (index virt 39) &&& pagePresent = 0) :
    lookup (leaves root machine) virt = none := by
  have rootFound : tables root machine [] = some root := rfl
  have cut : tables root machine [index virt 39] = none :=
    (table_at_cons rootFound).trans (absent_descend absent)
  exact lookup_missing (table_at_none_of_suffix cut (List.suffix_cons (index virt 30) _))

/-- Equal entries of two PML4s lead to the same leaves. -/
theorem lookup_same_slot {left right virt : Nat}
    (same : machine.mem left (index virt 39) = machine.mem right (index virt 39)) :
    lookup (leaves left machine) virt = lookup (leaves right machine) virt := by
  have large : leaves left machine (largeEntry virt) = leaves right machine (largeEntry virt) :=
    leaf_at_same_entry same [index virt 21, index virt 30] (by simp)
  have small : leaves left machine (smallEntry virt) = leaves right machine (smallEntry virt) :=
    leaf_at_same_entry same [index virt 12, index virt 21, index virt 30] (by simp)
  rw [lookup, lookup, large, small]

/-- An entry that looks like one for a table and for a large page. -/
def loopWord (word : Nat) : Nat := word &&& addressMask ||| (pageHuge ||| pagePresent)

theorem loop_word_flag (word : Nat) {flag : Nat} (low : addressMask &&& flag = 0)
    (set : (pageHuge ||| pagePresent) &&& flag = flag) : loopWord word &&& flag = flag := by
  rw [loopWord, Nat.and_or_distrib_right, Nat.and_assoc, low, Nat.and_zero, Nat.zero_or, set]

theorem loop_word_base (word : Nat) : loopWord word &&& addressMask = word &&& addressMask := by
  have flags : (pageHuge ||| pagePresent) &&& addressMask = 0 := by decide
  rw [loopWord, Nat.and_or_distrib_right, Nat.and_assoc, Nat.and_self, flags, Nat.or_zero]

/-- A table all of whose entries lead back to it ends in a large page. -/
theorem lookup_loop {root virt word : Nat} (present : word &&& pagePresent ≠ 0)
    (entry : machine.mem root (index virt 39) = word)
    (loop : ∀ idx, machine.mem (add64 (word &&& addressMask) directMappingOffset)
      idx = loopWord word) :
    lookup (leaves root machine) virt = some ((word &&& addressMask) + virt % pageSize2mb) := by
  have isPresent : loopWord word &&& pagePresent ≠ 0 := by
    rw [loop_word_flag word (by decide) (by decide)]
    decide
  have isHuge : loopWord word &&& pageHuge ≠ 0 := by
    rw [loop_word_flag word (by decide) (by decide)]
    decide
  have rootFound : tables root machine [] = some root := rfl
  have pdpt : tables root machine [index virt 39] =
      some (add64 (word &&& addressMask) directMappingOffset) := by
    rw [tables, table_at_cons rootFound, entry, descend, if_neg]
    rintro (absent | deep | ⟨level, -⟩)
    · exact present absent
    · exact absurd deep (by simp)
    · exact absurd level (by simp)
  have pd : tables root machine [index virt 30, index virt 39] =
      some (add64 (word &&& addressMask) directMappingOffset) := by
    rw [tables, table_at_cons pdpt, loop, descend, if_neg, loop_word_base]
    rintro (absent | deep | ⟨level, -⟩)
    · exact isPresent absent
    · exact absurd deep (by simp)
    · exact absurd level (by simp)
  have large : leaves root machine (largeEntry virt) = some (word &&& addressMask) := by
    rw [largeEntry, leaves, leaf_at_cons pd, loop, leaf,
      if_pos ⟨isPresent, .inr ⟨rfl, isHuge⟩⟩, loop_word_base]
  rw [lookup, large]

section Fresh

variable {between after : Machine σ}

theorem new_pml4_slot (allocated : allocator.allocPage machine = .ok self.pml4 between)
    (created : PageTable.allocNew allocator machine = .ok self after) (idx : Fin 512) :
    (stateAfter (self.mapGlobalHigherHalf kernel after)).mem self.pml4 idx =
      if Shared idx then after.mem kernel.pml4 idx
      else if idx = 0 then between.mem self.pml4 0 &&& not64 0xFF
      else between.mem self.pml4 idx := by
  obtain ⟨writable, taken, allocatedAgain, reset⟩ := alloc_new_ok created
  rw [allocated, EStateM.Result.ok.injEq] at allocatedAgain
  obtain ⟨-, rfl⟩ := allocatedAgain
  rw [map_global_higher_half_state kernel writable, Machine.store_self]
  split_ifs with shared first
  · rfl
  · rw [reset, Machine.mem_set_entry, first, set_entry_self]
  · rw [reset, Machine.mem_set_entry, set_entry_other _ (Or.inr first)]

theorem new_pml4_shared_slot (created : PageTable.allocNew allocator machine = .ok self after)
    {idx : Fin 512} (shared : Shared idx) :
    (stateAfter (self.mapGlobalHigherHalf kernel after)).mem self.pml4 idx =
      (stateAfter (self.mapGlobalHigherHalf kernel after)).mem kernel.pml4 idx := by
  obtain ⟨writable, -⟩ := alloc_new_ok created
  rw [map_global_higher_half_state kernel writable, Machine.store_self, if_pos shared]
  by_cases same : kernel.pml4 = self.pml4
  · rw [same, Machine.store_self, if_pos shared]
  · rw [Machine.store_other _ _ same]

theorem new_pml4_absent_slot (allocated : allocator.allocPage machine = .ok self.pml4 between)
    (created : PageTable.allocNew allocator machine = .ok self after)
    (absent : ∀ idx, Stale idx → between.mem self.pml4 idx &&& pagePresent = 0) {idx : Fin 512}
    (outside : ¬Shared idx) :
    (stateAfter (self.mapGlobalHigherHalf kernel after)).mem self.pml4 idx &&& pagePresent = 0 := by
  rw [new_pml4_slot allocated created, if_neg outside]
  split_ifs with first
  · have cleared : not64 0xFF &&& pagePresent = 0 := by decide
    rw [Nat.and_assoc, cleared, Nat.and_zero]
  · apply absent
    have positive : idx.val ≠ 0 := fun zero => first (Fin.ext zero)
    unfold Shared at outside
    unfold Stale
    omega

theorem empty_space_of_absent {content : Table}
    (absent : ∀ idx, Stale idx → content idx &&& pagePresent = 0) : EmptyFrom content := by
  intro σ allocator kernel self machine between after allocated left created
  have unshared : ∀ idx, ¬Shared idx →
      (stateAfter (self.mapGlobalHigherHalf kernel after)).mem self.pml4 idx &&& pagePresent = 0 :=
    fun idx outside => new_pml4_absent_slot allocated created
      (fun idx stale => left ▸ absent idx stale) outside
  have missing : ∀ virt, ¬Shared (index virt 39) →
      self.translate allocator.toPageAllocator virt
          (stateAfter (self.mapGlobalHigherHalf kernel after)) =
        .error () (stateAfter (self.mapGlobalHigherHalf kernel after)) := by
    intro virt outside
    rw [translate_lookup, lookup_absent_slot (unshared _ outside)]
    rfl
  refine ⟨?_, ?_, fun virt _ _ outside => missing virt outside⟩
  · intro virt lower
    apply missing
    rintro ⟨above, -⟩
    rw [index_val] at above
    omega
  · intro virt _ inside
    rw [translate_lookup, translate_lookup, lookup_same_slot (new_pml4_shared_slot created inside)]

/-- The page that the allocator hands out next has no entry that looks present where a new PML4
keeps it. -/
def CleanPml4 (allocator : LawfulAllocator σ) (machine : Machine σ) : Prop :=
  ∀ pml4 after, allocator.allocPage machine = .ok pml4 after →
    ∀ idx, Stale idx → after.mem pml4 idx &&& pagePresent = 0

theorem CleanPml4.blank (clean : CleanPml4 allocator machine) : BlankPml4 allocator machine :=
  fun pml4 after allocated idx positive lower =>
    clean pml4 after allocated idx (Or.inl ⟨positive, lower⟩)

theorem new_space_table (clean : CleanPml4 allocator machine)
    (created : PageTable.allocNew allocator machine = .ok self after) {path : List (Fin 512)}
    {table : Nat}
    (found : tables self.pml4 (stateAfter (self.mapGlobalHigherHalf kernel after))
      path = some table) :
    path = [] ∧ table = self.pml4 ∨
      tables kernel.pml4 (stateAfter (self.mapGlobalHigherHalf kernel after))
        path = some table := by
  obtain ⟨-, taken, allocated, -⟩ := alloc_new_ok created
  cases List.eq_nil_or_concat path with
  | inl empty =>
      subst empty
      exact Or.inl ⟨rfl, (Option.some.inj found).symm⟩
  | inr shape =>
      obtain ⟨front, idx, rfl⟩ := shape
      rw [List.concat_eq_append] at found ⊢
      by_cases shared : Shared idx
      · right
        rw [← found]
        exact (table_at_same_entry (new_pml4_shared_slot created shared) front).symm
      · have rootFound : tables self.pml4 (stateAfter (self.mapGlobalHigherHalf kernel after)) [] =
            some self.pml4 := rfl
        have absent : (stateAfter (self.mapGlobalHigherHalf kernel after)).mem self.pml4 idx &&&
            pagePresent = 0 :=
          new_pml4_absent_slot allocated created (clean _ _ allocated) shared
        have cut : tables self.pml4 (stateAfter (self.mapGlobalHigherHalf kernel after))
            [idx] = none :=
          (table_at_cons rootFound).trans (absent_descend absent)
        have missing := table_at_none_of_suffix cut (List.suffix_append front [idx])
        exact absurd (found.symm.trans missing) (by simp)

/-- A new address space shares a tree with the kernel and has nothing of its own but the root. -/
theorem new_space_intact (clean : CleanPml4 allocator machine)
    (intact : Intact allocator kernel.pml4 machine)
    (created : PageTable.allocNew allocator machine = .ok self after) :
    Intact allocator self.pml4 (stateAfter (self.mapGlobalHigherHalf kernel after)) := by
  obtain ⟨writable, taken, allocated, reset⟩ := alloc_new_ok created
  obtain ⟨fresh, -, -, frame⟩ := allocator.alloc_some allocated
  have held : allocator.held (stateAfter (self.mapGlobalHigherHalf kernel after)) = _ :=
    new_space_held created
  -- the kernel's tables are as they were
  have undisturbed : ∀ path table, tables kernel.pml4 machine path = some table →
      (stateAfter (self.mapGlobalHigherHalf kernel after)).mem table = machine.mem table ∧
        table ∈ allocator.held (stateAfter (self.mapGlobalHigherHalf kernel after)) := by
    intro path table found
    have owned := intact.held path table found
    have apart : table ≠ self.pml4 := fun same => fresh (same ▸ owned)
    refine ⟨?_, by rw [held]; exact Set.mem_insert_of_mem _ owned⟩
    rw [map_global_higher_half_state kernel writable, Machine.store_other _ _ apart, reset,
      Machine.mem_set_entry, setEntry, Function.update_of_ne apart, frame table owned]
  obtain ⟨kernelIntact, sameTables, -⟩ := intact_congr intact undisturbed
  have apart : ∀ path, tables kernel.pml4
      (stateAfter (self.mapGlobalHigherHalf kernel after)) path ≠
      some self.pml4 := by
    intro path found
    rw [sameTables] at found
    exact fresh (intact.held path _ found)
  constructor
  · intro left right table onLeft onRight
    rcases new_space_table clean created onLeft with ⟨emptyLeft, isRoot⟩ | kernelLeft
    · rcases new_space_table clean created onRight with ⟨emptyRight, -⟩ | kernelRight
      · rw [emptyLeft, emptyRight]
      · rw [isRoot] at kernelRight
        exact absurd kernelRight (apart right)
    · rcases new_space_table clean created onRight with ⟨-, isRoot⟩ | kernelRight
      · rw [isRoot] at kernelLeft
        exact absurd kernelLeft (apart left)
      · exact kernelIntact.tree left right table kernelLeft kernelRight
  · intro path table found
    rcases new_space_table clean created found with ⟨-, isRoot⟩ | kernelTable
    · rw [held, isRoot]
      exact Set.mem_insert _ _
    · exact kernelIntact.held path table kernelTable

end Fresh

/-- A machine whose only free page has the given content and whose other pages are all the same
table. -/
def staleMachine (page : Nat) (usable : UsablePage page) (content : Table) (rest : Nat) :
    Machine FreeList :=
  ⟨fun other => if other = page then content else fun _ => rest,
    ⟨[page], List.nodup_cons.mpr ⟨List.not_mem_nil, List.nodup_nil⟩,
      fun _ member => List.mem_singleton.mp member ▸ usable⟩⟩

theorem stale_machine_other {page other : Nat} (usable : UsablePage page) (content : Table)
    (rest : Nat)
    (apart : other ≠ page) : (staleMachine page usable content rest).mem other = fun _ => rest :=
  if_neg apart

def slotAddress (idx : Fin 512) : Nat :=
  if idx.val < 256 then idx.val * 2 ^ 39 else idx.val * 2 ^ 39 + (2 ^ 64 - 2 ^ 48)

theorem index_slot_address (idx : Fin 512) : index (slotAddress idx) 39 = idx := by
  apply Fin.ext
  have below := idx.isLt
  rw [index_val, slotAddress]
  split_ifs <;> omega

theorem alloc_new_returns {pml4 : Nat} {between : Machine σ}
    (allocated : allocator.allocPage machine = .ok pml4 between) :
    ∃ self after, PageTable.allocNew allocator machine = .ok self after ∧ self.pml4 = pml4 := by
  cases created : PageTable.allocNew allocator machine with
  | error nothing after =>
      unfold PageTable.allocNew at created
      split at created
      · rename_i failed
        rw [allocated] at failed
        exact absurd failed (by simp)
      · exact absurd created (by simp)
  | ok self after =>
      obtain ⟨-, taken, again, -⟩ := alloc_new_ok created
      rw [allocated, EStateM.Result.ok.injEq] at again
      exact ⟨self, after, rfl, again.1.symm⟩

theorem usable_page_beside (taken : Nat) : ∃ page, UsablePage page ∧ taken ≠ page := by
  by_cases same : taken = directMappingOffset
  · refine ⟨directMappingOffset + pageSize, by decide, ?_⟩
    rw [same, pageSize]
    omega
  · exact ⟨directMappingOffset, by decide, same⟩

/-- What an entry that looks present leads to can be a table that ends in a large page. -/
theorem present_of_empty_from {content : Table} (empty : EmptyFrom content) {idx : Fin 512}
    (stale : Stale idx) : content idx &&& pagePresent = 0 := by
  by_contra present
  obtain ⟨page, usable, apart⟩ :=
    usable_page_beside (add64 (content idx &&& addressMask) directMappingOffset)
  let machine := staleMachine page usable content (loopWord (content idx))
  let kernel : PageTable := ⟨0, false, by decide, by decide⟩
  obtain ⟨between, allocated⟩ : ∃ between : Machine FreeList,
      FreeList.lawful.allocPage machine = .ok page between := ⟨_, rfl⟩
  have popped : FreeList.allocPage machine = .ok page between := allocated
  have sameMem : between.mem = machine.mem := (FreeList.alloc_page_ok popped).1
  obtain ⟨self, after, created, root⟩ := alloc_new_returns allocated
  rw [← root] at allocated
  have left : between.mem self.pml4 = content := by
    rw [sameMem, root]
    exact if_pos rfl
  have space := empty FreeList.lawful kernel self machine between after allocated left created
  generalize final : stateAfter (self.mapGlobalHigherHalf kernel after) = shared at space
  have private_ : ¬Shared idx := by
    unfold Stale at stale
    unfold Shared
    omega
  have entry : shared.mem self.pml4 (index (slotAddress idx) 39) = content idx := by
    have notFirst : idx ≠ 0 := by
      rintro rfl
      unfold Stale at stale
      exact absurd stale (by decide)
    rw [← final, index_slot_address, new_pml4_slot allocated created, if_neg private_,
      if_neg notFirst, left]
  have loop : ∀ other, shared.mem (add64 (content idx &&& addressMask) directMappingOffset) other =
      loopWord (content idx) := by
    intro other
    obtain ⟨writable, taken, again, reset⟩ := alloc_new_ok created
    rw [allocated, EStateM.Result.ok.injEq] at again
    obtain ⟨-, rfl⟩ := again
    rw [← root] at apart
    rw [← final, map_global_higher_half_state kernel writable, Machine.store_other _ _ apart, reset,
      Machine.mem_set_entry, setEntry, Function.update_of_ne apart, sameMem]
    rw [root] at apart
    rw [stale_machine_other usable content _ apart]
  have translated : self.translate FreeList.lawful.toPageAllocator (slotAddress idx) shared =
      answer shared (lookup (leaves self.pml4 shared) (slotAddress idx)) :=
    translate_lookup FreeList.lawful.toPageAllocator (slotAddress idx)
  rw [lookup_loop present entry loop] at translated
  have refused : self.translate FreeList.lawful.toPageAllocator (slotAddress idx) shared =
      .error () shared := by
    have below := idx.isLt
    by_cases lower : idx.val < 256
    · apply space.lower
      rw [slotAddress, if_pos lower]
      omega
    · apply space.upper
      · unfold Canonical
        rw [slotAddress, if_neg lower]
        omega
      · rw [slotAddress, if_neg lower]
        omega
      · rw [index_slot_address]
        exact private_
  rw [refused] at translated
  exact absurd translated (by simp [answer])

theorem new_space_empty_iff (content : Table) :
    EmptyFrom content ↔ ∀ idx, Stale idx → content idx &&& pagePresent = 0 :=
  ⟨fun empty _ stale => present_of_empty_from empty stale, empty_space_of_absent⟩

/-- A page full of `0xFF`, as the heap may hand out. -/
theorem recycled_page_not_empty : ¬EmptyFrom fun _ => 0xFFFF_FFFF_FFFF_FFFF := by
  intro empty
  have stale : Stale 1 := .inl ⟨by decide, by decide⟩
  have absent := present_of_empty_from empty stale
  exact absurd absent (by decide)

end Campix.Paging
