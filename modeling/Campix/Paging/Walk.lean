import Campix.Lib.Outcome
import Campix.Paging.Entry
import Mathlib.Data.Set.Insert

/-!
# What the table operations do to the tree

The tables reached from the PML4 form a tree of pages that the allocator has
handed out. `get_table` may link an empty table and `remove` prunes one; neither
changes a leaf. A write to a PD or PT entry changes the leaves behind that entry
and nothing else. `map_4kb`, `map_2mb`, `unmap_4kb` and `unmap_2mb` are sequences
of these.
-/

namespace Campix.Paging

open Lib.Word Lib.Fallible Lib.Outcome Lib.TableTree

set_option autoImplicit false

def UsablePage (page : Nat) : Prop :=
  pageSize ∣ page ∧ directMappingOffset ≤ page ∧ page < 2 ^ 64

instance : DecidablePred UsablePage := fun _ => inferInstanceAs (Decidable (_ ∧ _ ∧ _))

/-- An allocator whose pages are page aligned, lie in the direct mapping and are
fresh: `held` are the pages it has given out and not taken back. It does not touch
them, and writes to them do not change what it has given out. -/
structure LawfulAllocator (σ : Type) extends PageAllocator σ where
  held : Machine σ → Set Nat
  alloc_some : ∀ {machine after : Machine σ} {ptr : Nat}, allocPage machine = .ok ptr after →
    ptr ∉ held machine ∧ held after = insert ptr (held machine) ∧ UsablePage ptr ∧
      ∀ page ∈ held machine, after.mem page = machine.mem page
  alloc_none : ∀ {machine after : Machine σ}, allocPage machine = .error () after →
    held after = held machine ∧ ∀ page ∈ held machine, after.mem page = machine.mem page
  free_held : ∀ {machine : Machine σ} {page : Nat}, page ∈ held machine →
    held (freePage page machine) = held machine \ {page} ∧
      ∀ other ∈ held machine, other ≠ page → (freePage page machine).mem other = machine.mem other
  store_held : ∀ {machine after : Machine σ}, after.alloc = machine.alloc →
    (∀ page, page ∉ held machine → after.mem page = machine.mem page) →
      held after = held machine

variable {σ : Type} (allocator : LawfulAllocator σ) (root : Nat)

abbrev tables (machine : Machine σ) : List (Fin 512) → Option Nat :=
  tableAt descend machine.mem root

abbrev leaves (machine : Machine σ) : List (Fin 512) → Option Nat :=
  leafAt descend leaf machine.mem root

structure Intact (machine : Machine σ) : Prop where
  tree : IsTree descend machine.mem root
  held : ∀ path table, tables root machine path = some table → table ∈ allocator.held machine

variable {allocator root} {machine : Machine σ} {path : List (Fin 512)} {table : Nat}
variable {idx : Fin 512}

theorem held_set_entry (owned : table ∈ allocator.held machine) (word : Nat) :
    allocator.held (machine.setEntry table idx word) = allocator.held machine := by
  apply allocator.store_held (by rfl)
  intro page outside
  have different : page ≠ table := fun same => outside (same ▸ owned)
  funext place
  exact set_entry_other word (Or.inl different)

theorem held_clear (owned : table ∈ allocator.held machine) :
    allocator.held (machine.clear table) = allocator.held machine := by
  apply allocator.store_held (by rfl)
  intro page outside
  have different : page ≠ table := fun same => outside (same ▸ owned)
  exact Function.update_of_ne different _ _

theorem intact_congr {after : Machine σ} (intact : Intact allocator root machine)
    (same : ∀ path table, tables root machine path = some table →
      after.mem table = machine.mem table ∧ table ∈ allocator.held after) :
    Intact allocator root after ∧ tables root after = tables root machine ∧
      leaves root after = leaves root machine := by
  have kept : ∀ path table, tables root machine path = some table →
      after.mem table = machine.mem table :=
    fun path table found => (same path table found).1
  have sameTables : tables root after = tables root machine := funext (table_at_congr kept)
  refine ⟨⟨?_, ?_⟩, sameTables, funext (leaf_at_congr kept)⟩
  · intro left right table onLeft onRight
    have atLeft : tables root machine left = some table := sameTables ▸ onLeft
    have atRight : tables root machine right = some table := sameTables ▸ onRight
    exact intact.tree left right table atLeft atRight
  · intro path table found
    have before : tables root machine path = some table := sameTables ▸ found
    exact (same path table before).2

theorem write_grafts (intact : Intact allocator root machine)
    (found : tables root machine path = some table) {word : Nat}
    (ends : descend path.length word = none) :
    Intact allocator root (machine.setEntry table idx word) ∧
      leaves root (machine.setEntry table idx word) =
        graft (leaves root machine) (idx :: path) (leaf path.length word) := by
  refine ⟨⟨is_tree_set_cut intact.tree found ends, ?_⟩, leaf_at_graft intact.tree found ends⟩
  intro other reached present
  rw [held_set_entry (intact.held path table found)]
  exact intact.held other reached (table_at_of_set_cut intact.tree found ends present)

/-- The result of a function that only reads. -/
def answer (machine : Machine σ) : Option Nat → EStateM.Result Unit (Machine σ) Nat
  | some value => .ok value machine
  | none => .error () machine

def disallowedAt (level : Nat) : Nat := if level = 2 then pageHuge else 0

theorem follow_entry_present (upper : path.length ≤ 2)
    (found : tables root machine path = some table)
    (present : machine.mem table idx &&& pagePresent ≠ 0) :
    followEntry table idx (disallowedAt path.length) machine =
      answer machine (tables root machine (idx :: path)) := by
  have below : tables root machine (idx :: path) = descend path.length (machine.mem table idx) :=
    table_at_cons found
  rw [below, descend, followEntry, state_bind_ok (by rfl : readEntry table idx machine = _)]
  unfold disallowedAt
  by_cases last : path.length = 2
  · by_cases huge : machine.mem table idx &&& pageHuge = 0
    · have points : ¬(machine.mem table idx &&& pagePresent = 0 ∨ 2 < path.length ∨
          path.length = 2 ∧ machine.mem table idx &&& pageHuge ≠ 0) := by omega
      rw [if_pos last, if_neg (by simp [huge]), if_neg points]
      rfl
    · rw [if_pos last, if_pos huge, if_pos (Or.inr (Or.inr ⟨last, huge⟩))]
      rfl
  · have points : ¬(machine.mem table idx &&& pagePresent = 0 ∨ 2 < path.length ∨
        path.length = 2 ∧ machine.mem table idx &&& pageHuge ≠ 0) := by omega
    rw [if_neg last, if_neg (by simp), if_neg points]
    rfl

/-- What `get_table::<true>` comes to: no page is left, the new table is linked and followed, or
the entry is followed. -/
theorem get_table_rule {post : EStateM.Result Unit (Machine σ) Nat → Prop}
    {subFlags disallowedFlags : Nat}
    (refused : machine.mem table idx &&& pagePresent = 0 → ∀ after,
      allocator.allocPage machine = .error () after → post (.error () after))
    (linked : machine.mem table idx &&& pagePresent = 0 → ∀ ptr after,
      allocator.allocPage machine = .ok ptr after →
      post (followEntry table idx disallowedFlags ((after.clear ptr).setEntry table idx
        (sub64 ptr directMappingOffset ||| subFlags))))
    (present : machine.mem table idx &&& pagePresent ≠ 0 →
      post (followEntry table idx disallowedFlags machine)) :
    post (getTable true allocator.toPageAllocator table idx subFlags disallowedFlags machine) := by
  rw [getTable, state_bind_ok (by rfl : readEntry table idx machine = _)]
  by_cases absent : machine.mem table idx &&& pagePresent = 0
  · rw [if_pos absent, if_pos rfl]
    cases allocated : allocator.allocPage machine with
    | error nothing after =>
        rw [state_bind_error allocated]
        exact refused absent after allocated
    | ok ptr after =>
        rw [state_bind_ok allocated, state_bind_ok (by rfl : writeZeroes ptr after = _),
          state_bind_ok (by rfl : writeEntry table idx _ _ = _)]
        exact linked absent ptr after allocated
  · rw [if_neg absent]
    exact present absent

theorem get_table_reads (alloc : PageAllocator σ) (upper : path.length ≤ 2)
    (found : tables root machine path = some table) (subFlags : Nat) :
    getTable false alloc table idx subFlags (disallowedAt path.length) machine =
      answer machine (tables root machine (idx :: path)) := by
  rw [getTable, state_bind_ok (by rfl : readEntry table idx machine = _)]
  by_cases absent : machine.mem table idx &&& pagePresent = 0
  · have missing : tables root machine (idx :: path) = none := by
      rw [tables, table_at_cons found, absent_descend absent]
    rw [if_pos absent, missing]
    rfl
  · rw [if_neg absent, follow_entry_present upper found absent]

theorem read_yields {alloc : PageAllocator σ} {post : Unit → Machine σ → Prop}
    {failed : Machine σ → Prop} {subFlags disallowedFlags : Nat} {rest : Nat → Attempt σ Unit}
    (found : tables root machine path = some table) (upper : path.length ≤ 2)
    (level : disallowedAt path.length = disallowedFlags)
    (missing : tables root machine (idx :: path) = none → failed machine)
    (reached : ∀ next, tables root machine (idx :: path) = some next →
      Yields post failed (rest next machine)) :
    Yields post failed ((getTable false alloc table idx subFlags disallowedFlags >>= rest)
      machine) := by
  subst level
  have reads : getTable false alloc table idx subFlags _ machine = _ :=
    get_table_reads alloc upper found subFlags
  cases below : tables root machine (idx :: path) with
  | none =>
      rw [below] at reads
      rw [state_bind_error reads]
      exact .error (missing below)
  | some next =>
      rw [below] at reads
      rw [state_bind_ok reads]
      exact reached next below

/-- The state after a step that changed no leaf. -/
structure Kept (allocator : LawfulAllocator σ) (root : Nat) (before after : Machine σ) : Prop where
  intact : Intact allocator root after
  leaves : leaves root after = leaves root before

theorem kept_trans {first second third : Machine σ} (left : Kept allocator root first second)
    (right : Kept allocator root second third) : Kept allocator root first third :=
  ⟨right.intact, right.leaves.trans left.leaves⟩

theorem valid_base_of_page {ptr : Nat} (usable : UsablePage ptr) :
    ValidBase (sub64 ptr directMappingOffset) := by
  obtain ⟨aligned, low, high⟩ := usable
  rw [sub64_of_le low]
  refine ⟨Nat.dvd_sub aligned (by decide), ?_⟩
  unfold directMappingOffset at low ⊢
  omega

theorem page_link_points {ptr subFlags level : Nat} (usable : UsablePage ptr)
    (flags : ValidFlags subFlags) (upper : level ≤ 2) :
    descend level (sub64 ptr directMappingOffset ||| subFlags) = some ptr := by
  have base := valid_base_of_page usable
  obtain ⟨-, low, high⟩ := usable
  rw [written_table base flags upper, sub64_of_le low, add64_of_lt (by omega)]
  congr 1
  omega

structure Reading {Leaf : Type} (view : Nat → Nat → Option Leaf) : Prop where
  exclusive : ∀ level word, descend level word ≠ none → view level word = none
  absent : ∀ level word, word &&& pagePresent = 0 → view level word = none

theorem leaf_reading : Reading leaf :=
  ⟨descend_leaf_exclusive, fun _ _ absent => absent_leaf absent⟩

abbrev views {Leaf : Type} (view : Nat → Nat → Option Leaf) (root : Nat) (machine : Machine σ) :
    List (Fin 512) → Option Leaf :=
  leafAt descend view machine.mem root

/-- The path goes on to the page `ptr`, which is now held; nothing else changed. -/
structure Linked (allocator : LawfulAllocator σ) (root : Nat) (before : Machine σ)
    (path : List (Fin 512)) (table : Nat) (idx : Fin 512) (ptr : Nat)
    (after : Machine σ) : Prop where
  kept : Kept allocator root before after
  reached : tables root after path = some table
  tables : ∀ other, tables root after other =
    if other = idx :: path then some ptr else Paging.tables root before other
  held : allocator.held after = insert ptr (allocator.held before)

section LinkFresh

variable {after : Machine σ} {ptr subFlags : Nat} (upper : path.length ≤ 2)
  (intact : Intact allocator root machine) (found : tables root machine path = some table)
  (absent : machine.mem table idx &&& pagePresent = 0) (fresh : ptr ∉ allocator.held machine)
  (held : allocator.held after = insert ptr (allocator.held machine)) (usable : UsablePage ptr)
  (frame : ∀ page ∈ allocator.held machine, after.mem page = machine.mem page)
  (flags : ValidFlags subFlags)

include intact found absent fresh held frame

/-- The machine in which the page became held may differ from the old one outside the tables. -/
theorem fresh_unlinked :
    Intact allocator root after ∧ tables root after = tables root machine ∧
      after.mem table idx &&& pagePresent = 0 ∧ ∀ other, tables root after other ≠ some ptr := by
  obtain ⟨stays, sameTables, -⟩ := intact_congr intact fun other reached present =>
    ⟨frame reached (intact.held other reached present),
      held ▸ Set.mem_insert_of_mem _ (intact.held other reached present)⟩
  refine ⟨stays, sameTables, ?_, fun other reached => ?_⟩
  · rw [frame table (intact.held path table found), absent]
  · rw [sameTables] at reached
    exact fresh (intact.held other ptr reached)

include upper usable flags

/-- Linking a page that no path leads to as an empty table changes nothing that the words at the
ends of the paths are read as. -/
theorem link_fresh_view {Leaf : Type} {view : Nat → Nat → Option Leaf} (reading : Reading view) :
    views view root ((after.clear ptr).setEntry
      table idx (sub64 ptr directMappingOffset ||| subFlags)) =
      views view root machine := by
  obtain ⟨stays, sameTables, absentAfter, outside⟩ :=
    fresh_unlinked intact found absent fresh held frame
  have bare : ∀ level (place : Fin 512), descend level ((fun _ => 0 : Table) place) = none ∧
      view level ((fun _ => 0 : Table) place) = none :=
    fun level place => ⟨(zero_is_blank level).1, reading.absent level 0 (Nat.zero_and _)⟩
  have sameViews : views view root after = views view root machine :=
    funext (leaf_at_congr fun other reached present =>
      frame reached (intact.held other reached present))
  have foundAfter : tables root after path = some table := by rw [sameTables, found]
  rw [← sameViews]
  funext other
  exact leaf_at_link stays.tree reading.exclusive foundAfter (absent_descend absentAfter)
    (reading.absent _ _ absentAfter) (page_link_points usable flags upper) outside bare other

/-- Linking a page that no path leads to as an empty table. -/
theorem link_fresh_keeps :
    Linked allocator root machine path table idx ptr ((after.clear ptr).setEntry table idx
      (sub64 ptr directMappingOffset ||| subFlags)) := by
  obtain ⟨stays, sameTables, absentAfter, outside⟩ :=
    fresh_unlinked intact found absent fresh held frame
  have foundAfter : tables root after path = some table := by rw [sameTables, found]
  have owned := intact.held path table found
  have points : descend path.length (sub64 ptr directMappingOffset ||| subFlags) = some ptr :=
    page_link_points usable flags upper
  have bare : ∀ level (place : Fin 512), descend level ((fun _ => 0 : Table) place) = none :=
    fun level place => (zero_is_blank level).1
  have linked := table_at_link stays.tree foundAfter (absent_descend absentAfter)
    points outside bare
  have heldAfter : allocator.held ((after.clear ptr).setEntry table idx
      (sub64 ptr directMappingOffset ||| subFlags)) = insert ptr (allocator.held machine) := by
    have ownedPtr : ptr ∈ allocator.held after := by rw [held]; exact Set.mem_insert _ _
    have ownedTable : table ∈ allocator.held (after.clear ptr) := by
      rw [held_clear ownedPtr, held]
      exact Set.mem_insert_of_mem _ owned
    rw [held_set_entry ownedTable, held_clear ownedPtr, held]
  refine ⟨⟨⟨?_, ?_⟩, ?_⟩, ?_, ?_, heldAfter⟩
  · exact is_tree_link stays.tree foundAfter (absent_descend absentAfter) points outside bare
  · intro other reached present
    rw [heldAfter]
    have split := (linked other).symm.trans present
    split_ifs at split with exactly
    · rw [← Option.some.inj split]
      exact Set.mem_insert _ _
    · rw [← tables, sameTables] at split
      exact Set.mem_insert_of_mem _ (intact.held other reached split)
  · exact link_fresh_view upper intact found absent fresh held usable frame flags leaf_reading
  · exact (linked path).trans (by rw [if_neg (List.cons_ne_self idx path).symm]; exact foundAfter)
  · intro other
    rw [← sameTables]
    exact linked other

end LinkFresh

theorem link_keeps {after : Machine σ} {ptr subFlags : Nat} (upper : path.length ≤ 2)
    (intact : Intact allocator root machine) (found : tables root machine path = some table)
    (absent : machine.mem table idx &&& pagePresent = 0)
    (allocated : allocator.allocPage machine = .ok ptr after) (flags : ValidFlags subFlags) :
    Linked allocator root machine path table idx ptr ((after.clear ptr).setEntry table idx
      (sub64 ptr directMappingOffset ||| subFlags)) := by
  obtain ⟨fresh, held, usable, frame⟩ := allocator.alloc_some allocated
  exact link_fresh_keeps upper intact found absent fresh held usable frame flags

/-- `get_table::<true>` reaches the table below, linking it when it is missing, or
fails; either way no leaf changes. -/
def Walked (allocator : LawfulAllocator σ) (root : Nat) (before : Machine σ)
    (path : List (Fin 512)) : EStateM.Result Unit (Machine σ) Nat → Prop
  | .ok next after => Kept allocator root before after ∧ tables root after path = some next
  | .error _ after => Kept allocator root before after

theorem follow_walked (upper : path.length ≤ 2) {before : Machine σ}
    (kept : Kept allocator root before machine) (found : tables root machine path = some table)
    (present : machine.mem table idx &&& pagePresent ≠ 0) :
    Walked allocator root before (idx :: path)
      (followEntry table idx (disallowedAt path.length) machine) := by
  rw [follow_entry_present upper found present]
  cases below : tables root machine (idx :: path) with
  | none => exact kept
  | some next => exact ⟨kept, below⟩

theorem linked_present {after : Machine σ} {ptr subFlags : Nat} (usable : UsablePage ptr)
    (flags : ValidFlags subFlags) :
    ((after.clear ptr).setEntry table idx (sub64 ptr directMappingOffset ||| subFlags)).mem
      table idx &&& pagePresent ≠ 0 := by
  rw [Machine.mem_set_entry, set_entry_self]
  exact written_present (valid_base_of_page usable) flags

theorem refused_keeps {after : Machine σ} (intact : Intact allocator root machine)
    (allocated : allocator.allocPage machine = .error () after) :
    Intact allocator root after ∧ tables root after = tables root machine ∧
      leaves root after = leaves root machine := by
  obtain ⟨held, frame⟩ := allocator.alloc_none allocated
  exact intact_congr intact fun other reached present =>
    ⟨frame reached (intact.held other reached present), held ▸ intact.held other reached present⟩

theorem get_table_adds {subFlags : Nat} (upper : path.length ≤ 2)
    (intact : Intact allocator root machine) (found : tables root machine path = some table)
    (flags : ValidFlags subFlags) :
    Walked allocator root machine (idx :: path)
      (getTable true allocator.toPageAllocator table idx subFlags (disallowedAt path.length)
        machine) := by
  apply get_table_rule
  · intro _ after allocated
    obtain ⟨stays, -, sameLeaves⟩ := refused_keeps intact allocated
    exact ⟨stays, sameLeaves⟩
  · intro absent ptr after allocated
    obtain ⟨kept, reached, -⟩ := link_keeps upper intact found absent allocated flags
    obtain ⟨-, -, usable, -⟩ := allocator.alloc_some allocated
    -- the entry just written is read back
    exact follow_walked upper kept reached (linked_present usable flags)
  · intro present
    exact follow_walked upper ⟨intact, rfl⟩ found present

theorem cut_off {child : Nat} (intact : Intact allocator root machine)
    (found : tables root machine path = some table)
    (linked : tables root machine (idx :: path) = some child) {other : List (Fin 512)}
    {reached : Nat}
    (present : tables root (machine.setEntry table idx 0) other = some reached) :
    tables root machine other = some reached ∧ reached ≠ child := by
  have ends := (zero_is_blank path.length).1
  have off : ¬(idx :: path) <:+ other := by
    intro through
    have gone : tables root (machine.setEntry table idx 0) other = none :=
      table_at_set_cut intact.tree found ends through
    rw [present] at gone
    exact absurd gone (by simp)
  have before : tables root machine other = some reached := by
    rw [← present]
    exact (table_at_set_off intact.tree found off).symm
  refine ⟨before, ?_⟩
  rintro rfl
  exact off (by rw [intact.tree _ _ _ linked before])

/-- `remove` frees the empty table behind an entry and clears the entry. The freed
page may be overwritten at once, but no path leads to it any more. -/
theorem remove_keeps {child : Nat} (intact : Intact allocator root machine)
    (found : tables root machine path = some table)
    (linked : tables root machine (idx :: path) = some child)
    (blank : ∀ place, machine.mem child place = 0) :
    ∃ after, remove allocator.toPageAllocator table idx machine = .ok () after ∧
      Kept allocator root machine after ∧
      (∀ upper, ¬(idx :: path) <:+ upper → tables root after upper = tables root machine upper) ∧
      (∀ lower, (idx :: path) <:+ lower → tables root after lower = none) ∧
      after.alloc = (allocator.freePage child machine).alloc ∧
      allocator.held after = allocator.held machine \ {child} ∧
      ∀ page ∈ allocator.held machine, page ≠ child → page ≠ table →
        after.mem page = machine.mem page := by
  have points : descend path.length (machine.mem table idx) = some child := by
    rw [← linked]
    exact (table_at_cons found).symm
  have pointer : machine.mem table idx &&& pagePresent ≠ 0 ∧
      add64 (machine.mem table idx &&& addressMask) directMappingOffset = child := by
    unfold descend at points
    split_ifs at points with absent
    exact ⟨fun gone => absent (Or.inl gone), Option.some.inj points⟩
  have ownedTable := intact.held path table found
  have ownedChild := intact.held (idx :: path) child linked
  have apart : table ≠ child := by
    rintro rfl
    exact List.cons_ne_self idx path (intact.tree _ _ _ linked found)
  obtain ⟨heldFreed, frame⟩ := allocator.free_held ownedChild
  have heldAfter : allocator.held ((allocator.freePage child machine).setEntry table idx 0) =
      allocator.held machine \ {child} := by
    have stillOwned : table ∈ allocator.held (allocator.freePage child machine) := by
      rw [heldFreed]
      exact ⟨ownedTable, apart⟩
    rw [held_set_entry stillOwned, heldFreed]
  have ends := (zero_is_blank path.length).1
  have cutIntact : Intact allocator root (machine.setEntry table idx 0) :=
    (write_grafts intact found ends).1
  have undisturbed : ∀ other reached,
      tables root (machine.setEntry table idx 0) other = some reached →
      ((allocator.freePage child machine).setEntry table idx 0).mem reached =
          (machine.setEntry table idx 0).mem reached ∧
        reached ∈ allocator.held ((allocator.freePage child machine).setEntry table idx 0) := by
    intro other reached present
    obtain ⟨before, notChild⟩ := cut_off intact found linked present
    have owned := intact.held other reached before
    have same : (allocator.freePage child machine).mem reached = machine.mem reached :=
      frame reached owned notChild
    refine ⟨?_, by rw [heldAfter]; exact ⟨owned, notChild⟩⟩
    rw [Machine.mem_set_entry, Machine.mem_set_entry]
    by_cases here : reached = table
    · subst here
      rw [setEntry, setEntry, Function.update_self, Function.update_self, same]
    · rw [setEntry, setEntry, Function.update_of_ne here, Function.update_of_ne here, same]
  obtain ⟨stays, sameTables, sameLeaves⟩ := intact_congr cutIntact undisturbed
  have returned : remove allocator.toPageAllocator table idx machine =
      .ok () ((allocator.freePage child machine).setEntry table idx 0) := by
    rw [remove, state_bind_ok (by rfl : readEntry table idx machine = _), if_pos pointer.1,
      pointer.2]
    rfl
  refine ⟨_, returned, ⟨stays, ?_⟩, ?_, ?_, rfl, heldAfter, ?_⟩
  · rw [sameLeaves]
    funext other
    have blankChild : ∀ level place, descend level (machine.mem child place) = none ∧
        leaf level (machine.mem child place) = none := by
      intro level place
      rw [blank place]
      exact zero_is_blank level
    exact leaf_at_prune intact.tree descend_leaf_exclusive found linked blankChild ends
      (zero_is_blank _).2 other
  · intro upper off
    rw [sameTables]
    exact table_at_set_off intact.tree found off
  · intro lower through
    rw [sameTables]
    exact table_at_set_cut intact.tree found ends through
  · intro page owned notChild notTable
    rw [Machine.mem_set_entry, setEntry, Function.update_of_ne notTable]
    exact frame page owned notChild

theorem tables_above_write (intact : Intact allocator root machine)
    (found : tables root machine path = some table) (idx : Fin 512) (word : Nat)
    {upper : List (Fin 512)} (short : upper.length ≤ path.length) :
    tables root (machine.setEntry table idx word) upper = tables root machine upper := by
  apply table_at_set_off intact.tree found
  intro inside
  have longer := inside.length_le
  rw [List.length_cons] at longer
  omega

/-- `remove` keeps a condition on the machine and the tables that are not behind its entry. -/
def RemoveKeeps (alloc : PageAllocator σ) (root : Nat) (Holds : Machine σ → Prop) : Prop :=
  ∀ ⦃machine : Machine σ⦄ ⦃path : List (Fin 512)⦄ ⦃table child : Nat⦄ ⦃idx : Fin 512⦄,
    Holds machine → tables root machine path = some table →
    tables root machine (idx :: path) = some child → (∀ place, machine.mem child place = 0) →
    ∃ after, remove alloc table idx machine = .ok () after ∧ Holds after ∧
      ∀ upper, ¬(idx :: path) <:+ upper → tables root after upper = tables root machine upper

theorem remove_keeps_kept (before : Machine σ) :
    RemoveKeeps allocator.toPageAllocator root (Kept allocator root before) := by
  intro machine path table child idx kept found linked blank
  obtain ⟨after, removed, further, upper, -⟩ := remove_keeps kept.intact found linked blank
  exact ⟨after, removed, kept_trans kept further, upper⟩

section Pruning

variable {alloc : PageAllocator σ} {Holds : Machine σ → Prop}
  (removes : RemoveKeeps alloc root Holds)
  {pdpt pd pt : Nat} {pml4Idx pdptIdx pdIdx : Fin 512}

include removes

theorem prune_upper_holds (start : Holds machine)
    (foundPdpt : tables root machine [pml4Idx] = some pdpt)
    (foundPd : tables root machine [pdptIdx, pml4Idx] = some pd) :
    ∃ after, PageTable.pruneUpper alloc root pdpt pd pml4Idx pdptIdx machine = .ok () after ∧
      Holds after := by
  rw [PageTable.pruneUpper, state_bind_ok (by rfl : empty pd machine = _)]
  by_cases blankPd : ∀ place, machine.mem pd place = 0
  · rw [if_pos (decide_eq_true blankPd)]
    obtain ⟨pruned, removed, kept, upper⟩ := removes start foundPdpt foundPd blankPd
    have foundAfter : tables root pruned [pml4Idx] = some pdpt := by
      rw [upper _ (entry_not_above _ _), foundPdpt]
    rw [state_bind_ok removed, state_bind_ok (by rfl : empty pdpt pruned = _)]
    by_cases blankPdpt : ∀ place, pruned.mem pdpt place = 0
    · rw [if_pos (decide_eq_true blankPdpt)]
      obtain ⟨after, removedTop, keptTop, -⟩ :=
        removes kept (by rfl : tables root pruned [] = some root) foundAfter blankPdpt
      exact ⟨after, removedTop, keptTop⟩
    · rw [if_neg (by simpa using blankPdpt)]
      exact ⟨pruned, rfl, kept⟩
  · rw [if_neg (by simpa using blankPd)]
    exact ⟨machine, rfl, start⟩

/-- The end of `unmap_4kb`. -/
theorem prune_pt_holds (start : Holds machine)
    (foundPdpt : tables root machine [pml4Idx] = some pdpt)
    (foundPd : tables root machine [pdptIdx, pml4Idx] = some pd)
    (foundPt : tables root machine [pdIdx, pdptIdx, pml4Idx] = some pt) :
    ∃ after, (do
        if ← empty pt then
          remove alloc pd pdIdx
          PageTable.pruneUpper alloc root pdpt pd pml4Idx pdptIdx : Attempt σ Unit) machine =
      .ok () after ∧ Holds after := by
  rw [state_bind_ok (by rfl : empty pt machine = _)]
  by_cases blank : ∀ place, machine.mem pt place = 0
  · rw [if_pos (decide_eq_true blank)]
    obtain ⟨middle, removed, kept, upper⟩ := removes start foundPd foundPt blank
    have above : ∀ path : List (Fin 512), path.length ≤ 2 →
        tables root middle path = tables root machine path := by
      intro path short
      apply upper
      intro inside
      exact absurd (inside.length_le.trans short) (by simp)
    rw [state_bind_ok removed]
    exact prune_upper_holds removes kept ((above _ (by simp)).trans foundPdpt)
      ((above _ (by simp)).trans foundPd)
  · rw [if_neg (by simpa using blank)]
    exact ⟨machine, rfl, start⟩

end Pruning

end Campix.Paging
