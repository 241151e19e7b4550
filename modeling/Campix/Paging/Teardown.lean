import Campix.Paging.Iter
import Campix.Paging.LowerHalf

/-!
# Dropping a page table

`PageTable::drop` of `paging.rs`, for a table that `alloc_new` made: the allocator owns its PML4.
The entries shared with the kernel are cleared, every page that the iterator still finds is
unmapped, and the PML4 is given back. Whatever stands in the other upper entries is walked like
the tables of the process; as long as nothing does, the pages that are not its tables stay as
they are, also where the iterator never comes to an end.
-/

namespace Campix.Paging

open Lib.Fallible Lib.Outcome Lib.TableTree

set_option autoImplicit false

variable {σ : Type}

/-- A panic, or an iteration that has not come to an end yet. -/
inductive DropFailure where
  | panic
  | running

abbrev Dropping (σ : Type) := EStateM DropFailure (Machine σ)

def expectSome (operation : Attempt σ Unit) : Dropping σ Unit := fun machine =>
  match operation machine with
  | .ok _ after => .ok () after
  | .error _ after => .error .panic after

namespace PageTable

def unmapGlobalHigherHalf (self : PageTable) : Dropping σ Unit :=
  if self.readonly then
    pure ()
  else
    modify fun machine => machine.store self.pml4 fun idx =>
      if Shared idx then 0 else machine.mem self.pml4 idx

def unmapEntry (self : PageTable) (alloc : PageAllocator σ) (entry : PageTableEntry) :
    Dropping σ Unit :=
  match entry.pageSize with
  | .kb4 => expectSome (self.unmap4kb alloc entry.virt)
  | .mb2 => expectSome (self.unmap2mb alloc entry.virt)
  | .gb1 => throw .panic

def unmapAll (self : PageTable) (alloc : PageAllocator σ) : Nat → PageTableIter → Dropping σ Unit
  | 0, _ => throw .running
  | rounds + 1, iter => do
      match self.next alloc (← get) (rounds + 1) iter with
      | none => throw .running
      | some (none, _) => pure ()
      | some (some entry, iter) =>
          self.unmapEntry alloc entry
          self.unmapAll alloc rounds iter

def drop (self : PageTable) (alloc : PageAllocator σ) (rounds active : Nat) : Dropping σ Unit := do
  if self.pml4Phys = 0 ∨ self.readonly then
    pure ()
  else if active = self.pml4Phys then
    throw .panic
  else
    self.unmapGlobalHigherHalf
    self.unmapAll alloc rounds (self.iterRange 0 0xFFFF_FFFF_FFFF_FFFF)
    modify (alloc.freePage self.pml4)

end PageTable

variable {allocator : LawfulAllocator σ} {self : PageTable} {root : Nat} {kept : Set Nat}
variable {base machine : Machine σ} {path : List (Fin 512)} {table : Nat} {idx : Fin 512}

/-- The tables are a tree without the pages of `kept`, which are as in `base`. -/
structure Detached (allocator : LawfulAllocator σ) (root : Nat) (kept : Set Nat)
    (base machine : Machine σ) : Prop where
  intact : Intact allocator root machine
  held : kept ⊆ allocator.held machine
  apart : ∀ path, ∀ page ∈ kept, tables root machine path ≠ some page
  same : ∀ page ∈ kept, machine.mem page = base.mem page

theorem detached_write (detached : Detached allocator root kept base machine)
    (found : tables root machine path = some table) {word : Nat}
    (ends : descend path.length word = none) :
    Detached allocator root kept base (machine.setEntry table idx word) := by
  have intact := detached.intact
  refine ⟨(write_grafts intact found ends).1, ?_, ?_, ?_⟩
  · rw [held_set_entry (intact.held path table found)]
    exact detached.held
  · intro other page member present
    exact detached.apart other page member (table_at_of_set_cut intact.tree found ends present)
  · intro page member
    have notTable : page ≠ table := fun same => detached.apart path page member (same ▸ found)
    rw [← detached.same page member]
    exact Function.update_of_ne notTable _ _

theorem remove_keeps_detached :
    RemoveKeeps allocator.toPageAllocator root (Detached allocator root kept base) := by
  intro machine path table child idx detached found linked blank
  obtain ⟨after, removed, stays, off, cut, -, heldAfter, frame⟩ :=
    remove_keeps detached.intact found linked blank
  have notChild : ∀ page ∈ kept, page ≠ child :=
    fun page member same => detached.apart _ page member (same ▸ linked)
  refine ⟨after, removed, ⟨stays.intact, ?_, ?_, ?_⟩, off⟩
  · rw [heldAfter]
    exact fun page member => ⟨detached.held member, notChild page member⟩
  · intro other page member present
    by_cases through : (idx :: path) <:+ other
    · exact absurd ((cut other through).symm.trans present) (by simp)
    · exact detached.apart other page member ((off other through).symm.trans present)
  · intro page member
    have notTable : page ≠ table := fun same => detached.apart path page member (same ▸ found)
    rw [← detached.same page member]
    exact frame page (detached.held member) (notChild page member) notTable

theorem expect_some_maintains {Holds : Machine σ → Prop} {operation : Attempt σ Unit}
    (yields : ∀ machine, Holds machine → Yields (fun _ => Holds) Holds (operation machine)) :
    Maintains Holds (fun _ => Holds) (expectSome operation) := by
  intro machine holds
  have outcome := yields machine holds
  unfold Settles expectSome
  generalize operation machine = result at outcome
  cases outcome with
  | ok kept => exact .ok kept
  | error kept => exact .error kept

theorem unmap_entry_maintains (writable : self.readonly = false) (entry : PageTableEntry) :
    Maintains (Detached allocator self.pml4 kept base)
      (fun _ => Detached allocator self.pml4 kept base)
      (self.unmapEntry allocator.toPageAllocator entry) := by
  rw [PageTable.unmapEntry]
  cases entry.pageSize with
  | kb4 =>
      apply expect_some_maintains
      intro machine detached
      exact unmap4kb_holds remove_keeps_detached entry.virt detached.intact detached
        fun pt found => detached_write detached found (zero_is_blank 3).1
  | mb2 =>
      apply expect_some_maintains
      intro machine detached
      exact unmap2mb_holds remove_keeps_detached entry.virt writable detached.intact
        (fun _ => detached) fun pd found => detached_write detached found (zero_is_blank 2).1
  | gb1 => exact maintains_throw fun _ detached => detached

theorem unmap_all_maintains (writable : self.readonly = false) (rounds : Nat) :
    ∀ iter, Maintains (Detached allocator self.pml4 kept base)
      (fun _ => Detached allocator self.pml4 kept base)
      (self.unmapAll allocator.toPageAllocator rounds iter) := by
  induction rounds with
  | zero => exact fun iter => maintains_throw fun _ detached => detached
  | succ rounds ih =>
      intro iter
      rw [PageTable.unmapAll]
      apply maintains_get
      intro machine detached
      rcases self.next allocator.toPageAllocator machine (rounds + 1)
        iter with _ | ⟨_ | entry, after⟩
      · exact .error detached
      · exact .ok detached
      · exact settles_bind (unmap_entry_maintains writable entry machine detached) fun _ => ih after

theorem descend_without_upper {level : Nat}
    (absent : ∀ idx : Fin 512, 256 ≤ idx.val → machine.mem root idx &&& pagePresent = 0) :
    descend level (machine.mem table idx) = descend level
      ((machine.lowerHalf root).mem table idx) := by
  by_cases upper : table = root ∧ 256 ≤ idx.val
  · obtain ⟨rfl, high⟩ := upper
    rw [absent_descend (absent idx high), upper_half_entry high]
    exact (zero_is_blank level).1.symm
  · rw [lower_half_entry fun top => Nat.lt_of_not_le fun high => upper ⟨top, high⟩]

theorem tables_without_upper
    (absent : ∀ idx : Fin 512, 256 ≤ idx.val → machine.mem root idx &&& pagePresent = 0)
    (path : List (Fin 512)) : tables root machine path = tables root
    (machine.lowerHalf root) path := by
  induction path with
  | nil => rfl
  | cons idx path ih =>
      rw [tables, tables, tableAt, tableAt]
      change (tables root machine path).bind _ = (tables root (machine.lowerHalf root) path).bind _
      rw [ih]
      congr 1
      funext table
      exact descend_without_upper absent

theorem detached_of_lower_half (intact : Intact allocator root (machine.lowerHalf root))
    (absent : ∀ idx : Fin 512, 256 ≤ idx.val → machine.mem root idx &&& pagePresent = 0)
    (data : ∀ page ∈ kept, Data allocator root machine page)
    (same : ∀ page ∈ kept, machine.mem page = base.mem page) :
    Detached allocator root kept base machine := by
  have sameTables := tables_without_upper absent
  refine ⟨⟨fun left right table onLeft onRight => ?_, fun path table found => ?_⟩,
    fun page member => (data page member).1, fun path page member found => ?_, same⟩
  · exact intact.tree left right table ((sameTables left).symm.trans onLeft)
      ((sameTables right).symm.trans onRight)
  · have owned := intact.held path table ((sameTables path).symm.trans found)
    rwa [held_lower_half_of_owned (intact_root intact)] at owned
  · exact (data page member).2 path ((sameTables path).symm.trans found)

/-- Giving back a page that is no table leaves the other ones alone. -/
theorem free_lower {page : Nat} (intact : Intact allocator root (machine.lowerHalf root))
    (data : Data allocator root machine page) :
    Intact allocator root ((allocator.freePage page machine).lowerHalf root) ∧
      (∀ other ∈ allocator.held machine, other ≠ page →
        (allocator.freePage page machine).mem other = machine.mem other) ∧
      ∀ other, other ≠ page → Data allocator root machine other →
        Data allocator root (allocator.freePage page machine) other := by
  obtain ⟨heldAfter, frame⟩ := allocator.free_held data.1
  have owned := intact_root intact
  have stillOwned : ∀ other ∈ allocator.held machine, other ≠ page →
      other ∈ allocator.held (allocator.freePage page machine) := by
    intro other inside different
    rw [heldAfter]
    exact ⟨inside, different⟩
  have ownedAfter := stillOwned root owned (data_ne_root data).symm
  have undisturbed : ∀ path reached, tables root (machine.lowerHalf root) path = some reached →
      ((allocator.freePage page machine).lowerHalf root).mem reached =
          (machine.lowerHalf root).mem reached ∧
        reached ∈ allocator.held ((allocator.freePage page machine).lowerHalf root) := by
    intro path reached present
    have different : reached ≠ page := fun same => data.2 path (same ▸ present)
    have ownedTable := intact.held path reached present
    rw [held_lower_half_of_owned owned] at ownedTable
    rw [held_lower_half_of_owned ownedAfter]
    refine ⟨?_, stillOwned reached ownedTable different⟩
    funext place
    rw [Machine.lowerHalf, Machine.lowerHalf]
    dsimp only
    rw [frame reached ownedTable different]
  obtain ⟨stays, sameTables, -⟩ := intact_congr intact undisturbed
  refine ⟨stays, frame, fun other different
    otherData => ⟨stillOwned other otherData.1 different, ?_⟩⟩
  rw [sameTables]
  exact otherData.2

/-- The pages of `spare` are pages of data beside the tables of the lower half and beside `kept`. -/
structure Spare (allocator : LawfulAllocator σ) (root : Nat) (kept : Set Nat) (spare : List Nat)
    (machine : Machine σ) : Prop where
  intact : Intact allocator root (machine.lowerHalf root)
  beside : ∀ page ∈ kept, Data allocator root machine page
  data : ∀ page ∈ spare, Data allocator root machine page ∧ page ∉ kept
  distinct : spare.Nodup

variable {spare : List Nat}

theorem spare_perm {more : List Nat} (holds : Spare allocator root kept spare machine)
    (perm : spare.Perm more) : Spare allocator root kept more machine :=
  ⟨holds.intact, holds.beside, fun page member => holds.data page (perm.mem_iff.mpr member),
    perm.nodup_iff.mp holds.distinct⟩

theorem spare_of_data {after : Machine σ} (holds : Spare allocator root kept spare machine)
    (intact : Intact allocator root (after.lowerHalf root))
    (data : ∀ page, Data allocator root machine page → Data allocator root after page) :
    Spare allocator root kept spare after :=
  ⟨intact, fun page member => data page (holds.beside page member),
    fun page member => ⟨data page (holds.data page member).1, (holds.data page member).2⟩,
    holds.distinct⟩

theorem spare_alloc {page : Nat} {after : Machine σ}
    (holds : Spare allocator root kept spare machine)
    (allocated : allocator.allocPage machine = .ok page after) :
    Spare allocator root kept (page :: spare) after := by
  obtain ⟨fresh, -⟩ := allocator.alloc_some allocated
  obtain ⟨extended, taken⟩ := alloc_extends holds.intact allocated
  have stays := spare_of_data holds extended.kept.intact fun page data =>
    (extended.data page data).1
  refine ⟨stays.intact, stays.beside, List.forall_mem_cons.mpr ⟨⟨taken, ?_⟩, stays.data⟩,
    List.nodup_cons.mpr ⟨?_, stays.distinct⟩⟩
  · exact fun member => fresh (holds.beside page member).1
  · exact fun member => fresh (holds.data page member).1.1

theorem spare_store {page : Nat} (holds : Spare allocator root kept spare machine)
    (member : page ∈ spare) (words : Table) :
    Spare allocator root kept spare (machine.store page words) := by
  obtain ⟨stays, data⟩ := store_extends holds.intact (holds.data page member).1 words
  exact spare_of_data holds stays.intact data

theorem spare_map {virt : Nat} (holds : Spare allocator self.pml4 kept spare machine)
    (writable : self.readonly = false) (lower : virt < 0x0000_8000_0000_0000) (phys flags : Nat) :
    Spare allocator self.pml4 kept spare
      (stateAfter (self.map4kb allocator.toPageAllocator virt phys flags machine)) := by
  apply yields_state
  refine yields_weaken (map4kb_lower writable lower phys flags holds.intact) ?_ ?_
  · intro _ after remapped
    exact spare_of_data holds remapped.intact fun page data => (remapped.data page data).1
  · rintro after ⟨extended, -⟩
    exact spare_of_data holds extended.kept.intact fun page data => (extended.data page data).1

theorem new_space_spare {kernel : PageTable} {after : Machine σ}
    (created : PageTable.allocNew allocator machine = .ok self after)
    (blank : BlankPml4 allocator machine) (owned : kept ⊆ allocator.held machine) :
    Spare allocator self.pml4 kept [] (stateAfter (self.mapGlobalHigherHalf kernel after)) := by
  obtain ⟨intact, -, alone⟩ := @new_space_lower _ allocator machine kernel self after created blank
  obtain ⟨-, between, allocated, -⟩ := alloc_new_ok created
  obtain ⟨fresh, -⟩ := allocator.alloc_some allocated
  refine ⟨intact, fun page member => ⟨?_, fun path found => fresh ?_⟩, by simp, List.nodup_nil⟩
  · rw [new_space_held created]
    exact Set.mem_insert_of_mem _ (owned member)
  · exact alone path page found ▸ owned member

def freePages (alloc : PageAllocator σ) (pages : List Nat) (machine : Machine σ) : Machine σ :=
  pages.foldl (fun machine page => alloc.freePage page machine) machine

/-- Giving the spare pages back changes neither the PML4 nor the pages of `kept`. -/
theorem free_pages_spare (pages : List Nat) :
    ∀ {machine : Machine σ}, Spare allocator root kept pages machine →
      let after := freePages allocator.toPageAllocator pages machine
      Spare allocator root kept [] after ∧ after.mem root = machine.mem root ∧
        ∀ page ∈ kept, after.mem page = machine.mem page := by
  induction pages with
  | nil => exact fun holds => ⟨holds, rfl, fun page member => rfl⟩
  | cons page pages ih =>
      intro machine holds
      obtain ⟨given, rest⟩ := List.forall_mem_cons.mp holds.data
      obtain ⟨new, distinct⟩ := List.nodup_cons.mp holds.distinct
      obtain ⟨intact, frame, data⟩ := free_lower holds.intact given.1
      have keptOther : ∀ other ∈ kept, other ≠ page := fun other member same =>
        given.2 (same ▸ member)
      have restOther : ∀ other ∈ pages, other ≠ page := fun other member same => new (same ▸ member)
      have freed : Spare allocator root kept pages (allocator.freePage page machine) :=
        ⟨intact, fun other member => data other (keptOther other member)
          (holds.beside other member),
          fun other member => ⟨data other (restOther other member) (rest other member).1,
            (rest other member).2⟩, distinct⟩
      obtain ⟨stays, sameRoot, same⟩ := ih freed
      refine ⟨stays, sameRoot.trans ?_, fun other member => (same other member).trans ?_⟩
      · exact frame root (intact_root holds.intact) (data_ne_root given.1).symm
      · exact frame other (holds.beside other member).1 (keptOther other member)

/-- The PML4 without the entries of the kernel. -/
def Machine.unshared (machine : Machine σ) (root : Nat) : Machine σ :=
  machine.store root fun idx => if Shared idx then 0 else machine.mem root idx

theorem unmap_global_higher_half_ok (writable : self.readonly = false) :
    self.unmapGlobalHigherHalf machine = .ok () (machine.unshared self.pml4) := by
  rw [PageTable.unmapGlobalHigherHalf, writable]
  rfl

theorem unshared_lower_half : (machine.unshared root).lowerHalf root = machine.lowerHalf root := by
  have same : ((machine.unshared root).lowerHalf root).mem = (machine.lowerHalf root).mem := by
    funext page idx
    by_cases upper : page = root ∧ 256 ≤ idx.val
    · obtain ⟨rfl, high⟩ := upper
      rw [upper_half_entry high, upper_half_entry high]
    · have lower : page = root → idx.val < 256 :=
        fun top => Nat.lt_of_not_le fun high => upper ⟨top, high⟩
      rw [lower_half_entry lower, lower_half_entry lower, Machine.unshared]
      by_cases top : page = root
      · have own : ¬Shared idx := fun shared => absurd shared.1 (Nat.not_le.mpr (lower top))
        rw [top, Machine.store_self, if_neg own]
      · rw [Machine.store_other _ _ top]
  exact congrArg (Machine.mk · machine.alloc) same

theorem unshared_detached (intact : Intact allocator root (machine.lowerHalf root))
    (absent : ∀ idx : Fin 512, 384 ≤ idx.val → machine.mem root idx &&& pagePresent = 0)
    (data : ∀ page ∈ kept, Data allocator root machine page) :
    Detached allocator root kept machine (machine.unshared root) := by
  have held : allocator.held (machine.unshared root) = allocator.held machine :=
    held_store (intact_root intact) _
  apply detached_of_lower_half
  · rwa [unshared_lower_half]
  · intro idx high
    rw [Machine.unshared, Machine.store_self]
    split_ifs with shared
    · exact Nat.zero_and _
    · refine absent idx (Nat.le_of_not_lt fun below => shared ⟨high, below⟩)
  · intro page member
    refine ⟨?_, ?_⟩
    · rw [held]
      exact (data page member).1
    · rw [unshared_lower_half]
      exact (data page member).2
  · intro page member
    exact Machine.store_other _ _ (data_ne_root (data page member))

/-- Dropping the table of a process, wherever it ends, leaves the pages alone that are none of
its tables, if the entries of its PML4 behind the shared ones are absent. -/
theorem drop_keeps (rounds active : Nat)
    (intact : Intact allocator self.pml4 (machine.lowerHalf self.pml4))
    (absent : ∀ idx : Fin 512, 384 ≤ idx.val → machine.mem self.pml4 idx &&& pagePresent = 0)
    (data : ∀ page ∈ kept, Data allocator self.pml4 machine page) :
    Settles (fun after => ∀ page ∈ kept, after.mem page = machine.mem page)
      (fun _ after => ∀ page ∈ kept, after.mem page = machine.mem page)
      (self.drop allocator.toPageAllocator rounds active) machine := by
  rw [PageTable.drop]
  split_ifs with skipped current
  · exact .ok fun page member => rfl
  · exact .error fun page member => rfl
  · have writable : self.readonly = false := by
      rw [not_or, Bool.not_eq_true] at skipped
      exact skipped.2
    have cleared : self.unmapGlobalHigherHalf machine = .ok () (machine.unshared self.pml4) :=
      unmap_global_higher_half_ok writable
    have unmapped := unmap_all_maintains writable rounds (self.iterRange 0 0xFFFF_FFFF_FFFF_FFFF) _
      (unshared_detached intact absent data)
    unfold Settles
    rw [state_bind_ok cleared]
    refine settles_seq (settles_weaken unmapped (fun _ detached => detached)
      fun _ _ detached => detached.same) ?_
    intro _ after detached
    refine .ok fun page member => ?_
    have owned := detached.intact.held [] self.pml4 rfl
    have notRoot : page ≠ self.pml4 := fun same =>
      detached.apart [] page member (congrArg some same.symm)
    rw [← detached.same page member]
    exact (allocator.free_held owned).2 page (detached.held member) notRoot

end Campix.Paging
