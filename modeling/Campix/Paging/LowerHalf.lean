import Campix.Paging.AddressSpace
import Campix.Paging.Runs

/-!
# The lower half of an address space

The upper half of a PML4 leads to tables of the kernel, or to whatever the page held
before. What `map_4kb` does for an address of the lower half depends on neither: seen
without the upper entries of the PML4, the tables of a process are a tree of its own,
and the pages that are not in it keep their words.
-/

namespace Campix.Paging

open Lib.Word Lib.Fallible Lib.Outcome Lib.TableTree

set_option autoImplicit false

variable {σ : Type} {allocator : LawfulAllocator σ} {root : Nat} {machine : Machine σ}
variable {path : List (Fin 512)} {table : Nat} {idx : Fin 512}

def Machine.lowerHalf (machine : Machine σ) (root : Nat) : Machine σ :=
  { machine with mem := fun page idx =>
      if page = root ∧ 256 ≤ idx.val then 0 else machine.mem page idx }

theorem lower_half_entry (lower : table = root → idx.val < 256) :
    (machine.lowerHalf root).mem table idx = machine.mem table idx := by
  apply if_neg
  rintro ⟨top, high⟩
  exact absurd (lower top) (by omega)

theorem upper_half_entry (high : 256 ≤ idx.val) : (machine.lowerHalf root).mem root idx = 0 :=
  if_pos ⟨rfl, high⟩

theorem lower_half_page {page : Nat} (other : page ≠ root) :
    (machine.lowerHalf root).mem page = machine.mem page := by
  funext idx
  exact lower_half_entry fun same => absurd same other

theorem held_lower_half (owned : root ∈ allocator.held (machine.lowerHalf root)) :
    allocator.held machine = allocator.held (machine.lowerHalf root) := by
  apply allocator.store_held (by rfl)
  intro page outside
  have other : page ≠ root := fun same => outside (same ▸ owned)
  exact (lower_half_page other).symm

theorem held_lower_half_of_owned (owned : root ∈ allocator.held machine) :
    allocator.held (machine.lowerHalf root) = allocator.held machine := by
  apply allocator.store_held (by rfl)
  intro page outside
  have other : page ≠ root := fun same => outside (same ▸ owned)
  exact lower_half_page other

theorem lower_half_set_entry {word : Nat} (lower : table = root → idx.val < 256) :
    (machine.setEntry table idx word).lowerHalf root =
      (machine.lowerHalf root).setEntry table idx word := by
  have same : ((machine.setEntry table idx word).lowerHalf root).mem =
      ((machine.lowerHalf root).setEntry table idx word).mem := by
    funext page place
    rw [Machine.mem_set_entry]
    by_cases written : page = table ∧ place = idx
    · obtain ⟨rfl, rfl⟩ := written
      rw [lower_half_entry lower, Machine.mem_set_entry, set_entry_self, set_entry_self]
    · rw [set_entry_other _ (not_and_or.mp written), Machine.lowerHalf, Machine.lowerHalf]
      dsimp only
      rw [Machine.mem_set_entry, set_entry_other _ (not_and_or.mp written)]
  exact congrArg (Machine.mk · machine.alloc) same

theorem lower_half_store {page : Nat} (other : page ≠ root) (words : Table) :
    (machine.store page words).lowerHalf root = (machine.lowerHalf root).store page words := by
  have same : ((machine.store page words).lowerHalf root).mem =
      ((machine.lowerHalf root).store page words).mem := by
    funext reached
    by_cases here : reached = page
    · subst here
      rw [lower_half_page other, Machine.store_self, Machine.store_self]
    · rw [Machine.store_other _ _ here]
      funext place
      rw [Machine.lowerHalf, Machine.lowerHalf]
      dsimp only
      rw [Machine.store_other _ _ here]
  exact congrArg (Machine.mk · machine.alloc) same

def Data (allocator : LawfulAllocator σ) (root : Nat) (machine : Machine σ) (page : Nat) : Prop :=
  page ∈ allocator.held machine ∧ ∀ path, tables root (machine.lowerHalf root) path ≠ some page

theorem data_ne_root {page : Nat} (data : Data allocator root machine page) : page ≠ root :=
  fun same => data.2 [] (congrArg some same.symm)

/-- No leaf of the lower half changed, and no data. -/
structure Extended (allocator : LawfulAllocator σ) (root : Nat)
    (before after : Machine σ) : Prop where
  kept : Kept allocator root (before.lowerHalf root) (after.lowerHalf root)
  data : ∀ page, Data allocator root before page →
    Data allocator root after page ∧ after.mem page = before.mem page

theorem extended_refl (intact : Intact allocator root (machine.lowerHalf root)) :
    Extended allocator root machine machine :=
  ⟨⟨intact, rfl⟩, fun _ data => ⟨data, rfl⟩⟩

theorem extended_trans {first second third : Machine σ}
    (left : Extended allocator root first second)
    (right : Extended allocator root second third) : Extended allocator root first third := by
  refine ⟨kept_trans left.kept right.kept, fun page data => ?_⟩
  obtain ⟨dataSecond, sameSecond⟩ := left.data page data
  obtain ⟨dataThird, sameThird⟩ := right.data page dataSecond
  exact ⟨dataThird, sameThird.trans sameSecond⟩

theorem intact_root (intact : Intact allocator root (machine.lowerHalf root)) :
    root ∈ allocator.held machine := by
  have owned := intact.held [] root rfl
  rw [held_lower_half owned]
  exact owned

/-- A step that leaves the pages alone which were held before it. -/
theorem extended_of_frame {after : Machine σ}
    (intact : Intact allocator root (machine.lowerHalf root))
    (grows : allocator.held machine ⊆ allocator.held after)
    (frame : ∀ page ∈ allocator.held machine, after.mem page = machine.mem page) :
    Extended allocator root machine after ∧
      tables root (after.lowerHalf root) = tables root (machine.lowerHalf root) := by
  have owned := intact_root intact
  have sameHeld := held_lower_half_of_owned owned
  have sameHeldAfter := held_lower_half_of_owned (grows owned)
  have undisturbed : ∀ other reached, tables root (machine.lowerHalf root) other = some reached →
      (after.lowerHalf root).mem reached = (machine.lowerHalf root).mem reached ∧
        reached ∈ allocator.held (after.lowerHalf root) := by
    intro other reached present
    have ownedTable := intact.held other reached present
    rw [sameHeld] at ownedTable
    rw [sameHeldAfter]
    refine ⟨?_, grows ownedTable⟩
    funext place
    rw [Machine.lowerHalf, Machine.lowerHalf]
    dsimp only
    rw [frame reached ownedTable]
  obtain ⟨stays, sameTables, sameLeaves⟩ := intact_congr intact undisturbed
  refine ⟨⟨⟨stays, sameLeaves⟩, fun page data => ⟨⟨grows data.1, ?_⟩, frame page data.1⟩⟩,
    sameTables⟩
  rw [sameTables]
  exact data.2

theorem alloc_extends {after : Machine σ} {ptr : Nat}
    (intact : Intact allocator root (machine.lowerHalf root))
    (allocated : allocator.allocPage machine = .ok ptr after) :
    Extended allocator root machine after ∧ Data allocator root after ptr := by
  obtain ⟨fresh, held, -, frame⟩ := allocator.alloc_some allocated
  have grows : allocator.held machine ⊆ allocator.held after := by
    rw [held]
    exact Set.subset_insert _ _
  obtain ⟨extended, sameTables⟩ := extended_of_frame intact grows frame
  refine ⟨extended, by rw [held]; exact Set.mem_insert _ _, fun path reached => fresh ?_⟩
  rw [sameTables] at reached
  have owned := intact.held path ptr reached
  rwa [held_lower_half_of_owned (intact_root intact)] at owned

theorem alloc_error_extends {after : Machine σ}
    (intact : Intact allocator root (machine.lowerHalf root))
    (failed : allocator.allocPage machine = .error () after) :
    Extended allocator root machine after := by
  obtain ⟨held, frame⟩ := allocator.alloc_none failed
  exact (extended_of_frame intact held.symm.subset frame).1

theorem store_extends {page : Nat} (intact : Intact allocator root (machine.lowerHalf root))
    (data : Data allocator root machine page) (words : Table) :
    Kept allocator root (machine.lowerHalf root) ((machine.store page words).lowerHalf root) ∧
      ∀ other, Data allocator root machine other →
        Data allocator root (machine.store page words) other := by
  have sameHeld := held_store data.1 words
  have owned := intact_root intact
  have undisturbed : ∀ other reached, tables root (machine.lowerHalf root) other = some reached →
      ((machine.store page words).lowerHalf root).mem reached =
          (machine.lowerHalf root).mem reached ∧
        reached ∈ allocator.held ((machine.store page words).lowerHalf root) := by
    intro other reached present
    have different : reached ≠ page := fun same => data.2 other (same ▸ present)
    rw [held_lower_half_of_owned (sameHeld ▸ owned), sameHeld, ← held_lower_half_of_owned owned,
      lower_half_store (data_ne_root data), Machine.store_other _ _ different]
    exact ⟨rfl, intact.held other reached present⟩
  obtain ⟨stays, sameTables, sameLeaves⟩ := intact_congr intact undisturbed
  refine ⟨⟨stays, sameLeaves⟩, fun other otherData => ⟨sameHeld.symm ▸ otherData.1, ?_⟩⟩
  rw [sameTables]
  exact otherData.2

def Refused (allocator : LawfulAllocator σ) (after : Machine σ) : Prop :=
  ∃ before, allocator.allocPage before = .error () after

def LowerPath (path : List (Fin 512)) : Prop := ∀ top ∈ path.getLast?, top.val < 256

theorem lower_path_index {virt : Nat} (lower : virt < 0x0000_8000_0000_0000)
    (path : List (Fin 512)) :
    LowerPath (path ++ [index virt 39]) := by
  intro top last
  rw [List.getLast?_concat, Option.mem_some_iff] at last
  exact last ▸ lower_half_index lower

theorem lower_path_tail (lower : LowerPath (idx :: path)) : LowerPath path := by
  intro top last
  apply lower top
  cases path with
  | nil => exact absurd last (by simp)
  | cons next path => rwa [List.getLast?_cons_cons]

theorem lower_path_entry (intact : Intact allocator root (machine.lowerHalf root))
    (found : tables root (machine.lowerHalf root) path = some table)
    (lower : LowerPath (idx :: path)) :
    table = root → idx.val < 256 := by
  rintro rfl
  obtain rfl : path = [] := intact.tree path [] table found rfl
  exact lower idx rfl

theorem follow_entry_lower {before : Machine σ} (upper : path.length ≤ 2)
    (extended : Extended allocator root before machine)
    (found : tables root (machine.lowerHalf root) path = some table)
    (lower : LowerPath (idx :: path)) (present : machine.mem table idx &&& pagePresent ≠ 0) :
    Yields (fun next after => Extended allocator root before after ∧
        tables root (after.lowerHalf root) (idx :: path) = some next)
      (fun after => Extended allocator root before after ∧ (Refused allocator after ∨
        path.length = 2 ∧ leaves root (before.lowerHalf root) (idx :: path) ≠ none))
      (followEntry table idx (disallowedAt path.length) machine) := by
  have entry : (machine.lowerHalf root).mem table idx = machine.mem table idx :=
    lower_half_entry (lower_path_entry extended.kept.intact found lower)
  have below : tables root (machine.lowerHalf root) (idx :: path) =
      descend path.length (machine.mem table idx) := by
    rw [← entry]
    exact table_at_cons found
  have ends : leaves root (machine.lowerHalf root) (idx :: path) =
      leaf path.length (machine.mem table idx) := by
    rw [← entry]
    exact leaf_at_cons found
  rw [followEntry, state_bind_ok (by rfl : readEntry table idx machine = _)]
  by_cases refused : machine.mem table idx &&& disallowedAt path.length ≠ 0
  · -- only a large page is disallowed
    rw [if_pos refused]
    refine .error ⟨extended, Or.inr ?_⟩
    rw [← extended.kept.leaves, ends]
    unfold disallowedAt at refused
    by_cases last : path.length = 2
    · rw [if_pos last] at refused
      rw [leaf, if_pos ⟨present, Or.inr ⟨last, refused⟩⟩]
      exact ⟨last, by simp⟩
    · rw [if_neg last, Nat.and_zero] at refused
      exact absurd rfl refused
  · rw [if_neg refused]
    refine .ok ⟨extended, ?_⟩
    have points : ¬(machine.mem table idx &&& pagePresent = 0 ∨ 2 < path.length ∨
        path.length = 2 ∧ machine.mem table idx &&& pageHuge ≠ 0) := by
      rintro (absent | deep | ⟨last, huge⟩)
      · exact present absent
      · omega
      · rw [disallowedAt, if_pos last] at refused
        exact refused huge
    rw [below, descend, if_neg points]

/-- A new table on the way, as it is seen without the upper half. -/
theorem link_lower {subFlags ptr : Nat} {after : Machine σ} (upper : path.length ≤ 2)
    (intact : Intact allocator root (machine.lowerHalf root))
    (found : tables root (machine.lowerHalf root) path = some table)
    (lower : LowerPath (idx :: path)) (absent : machine.mem table idx &&& pagePresent = 0)
    (allocated : allocator.allocPage machine = .ok ptr after) (flags : ValidFlags subFlags) :
    Linked allocator root (machine.lowerHalf root) path table idx ptr
      (((after.clear ptr).setEntry table idx
        (sub64 ptr directMappingOffset ||| subFlags)).lowerHalf root) := by
  obtain ⟨fresh, held, usable, frame⟩ := allocator.alloc_some allocated
  obtain ⟨taken, dataPtr⟩ := alloc_extends intact allocated
  have inside := lower_path_entry intact found lower
  have owned := intact_root intact
  have ownedAfter := intact_root taken.kept.intact
  have seen : ((after.clear ptr).setEntry table idx
      (sub64 ptr directMappingOffset ||| subFlags)).lowerHalf root =
      ((after.lowerHalf root).clear ptr).setEntry table idx
        (sub64 ptr directMappingOffset ||| subFlags) := by
    rw [lower_half_set_entry inside]
    exact congrArg (fun cleared : Machine σ => cleared.setEntry table idx _)
      (lower_half_store (data_ne_root dataPtr) fun _ => 0)
  rw [seen]
  apply link_fresh_keeps upper intact found
  · rwa [lower_half_entry inside]
  · rwa [held_lower_half_of_owned owned]
  · rw [held_lower_half_of_owned ownedAfter, held_lower_half_of_owned owned, held]
  · exact usable
  · intro page inHeld
    rw [held_lower_half_of_owned owned] at inHeld
    funext place
    rw [Machine.lowerHalf, Machine.lowerHalf]
    dsimp only
    rw [frame page inHeld]
  · exact flags

theorem link_lower_extends {subFlags ptr : Nat} {after : Machine σ}
    (intact : Intact allocator root (machine.lowerHalf root))
    (found : tables root (machine.lowerHalf root) path = some table)
    (allocated : allocator.allocPage machine = .ok ptr after)
    (linked : Linked allocator root (machine.lowerHalf root) path table idx ptr
      (((after.clear ptr).setEntry table idx
        (sub64 ptr directMappingOffset ||| subFlags)).lowerHalf root)) :
    Extended allocator root machine ((after.clear ptr).setEntry table idx
      (sub64 ptr directMappingOffset ||| subFlags)) := by
  obtain ⟨fresh, -, -, frame⟩ := allocator.alloc_some allocated
  have heldLinked : allocator.held ((after.clear ptr).setEntry table idx
      (sub64 ptr directMappingOffset ||| subFlags)) = insert ptr (allocator.held machine) := by
    rw [held_lower_half (linked.kept.intact.held [] root rfl), linked.held,
      held_lower_half_of_owned (intact_root intact)]
  refine ⟨linked.kept, fun page data => ⟨⟨?_, fun reached isTable => ?_⟩, ?_⟩⟩
  · rw [heldLinked]
    exact Set.mem_insert_of_mem _ data.1
  · rw [linked.tables] at isTable
    split_ifs at isTable with new
    · exact fresh (Option.some.inj isTable ▸ data.1)
    · exact data.2 reached isTable
  · have notTable : page ≠ table := fun same => data.2 path (same ▸ found)
    have notFresh : page ≠ ptr := fun same => fresh (same ▸ data.1)
    funext place
    rw [Machine.mem_set_entry, set_entry_other _ (Or.inl notTable)]
    change Function.update after.mem ptr _ page place = _
    rw [Function.update_of_ne notFresh, frame page data.1]

/-- `get_table` on the way to an address of the lower half. It fails for want of a page,
or at a large page. -/
theorem get_table_lower {subFlags : Nat} {before : Machine σ} (upper : path.length ≤ 2)
    (extended : Extended allocator root before machine)
    (found : tables root (machine.lowerHalf root) path = some table)
    (lower : LowerPath (idx :: path)) (flags : ValidFlags subFlags) :
    Yields (fun next after => Extended allocator root before after ∧
        tables root (after.lowerHalf root) (idx :: path) = some next)
      (fun after => Extended allocator root before after ∧ (Refused allocator after ∨
        path.length = 2 ∧ leaves root (before.lowerHalf root) (idx :: path) ≠ none))
      (getTable true allocator.toPageAllocator table idx subFlags (disallowedAt path.length)
        machine) := by
  have intact := extended.kept.intact
  apply get_table_rule
  · intro _ after allocated
    exact .error ⟨extended_trans extended (alloc_error_extends intact allocated),
      Or.inl ⟨machine, allocated⟩⟩
  · intro absent ptr after allocated
    have linked := link_lower upper intact found lower absent allocated flags
    have linkedExtends := link_lower_extends intact found allocated linked
    obtain ⟨-, -, usable, -⟩ := allocator.alloc_some allocated
    exact follow_entry_lower upper (extended_trans extended linkedExtends) linked.reached lower
      (linked_present usable flags)
  · intro present
    exact follow_entry_lower upper extended found lower present

/-- The leaves of the page at `virt` are `value`; no other leaf changed, and no data. -/
structure Remapped (allocator : LawfulAllocator σ) (root : Nat) (before after : Machine σ)
    (virt : Nat) (value : Option Nat) : Prop where
  intact : Intact allocator root (after.lowerHalf root)
  leaves : leaves root (after.lowerHalf root) =
    graft (leaves root (before.lowerHalf root)) (smallEntry virt) value
  data : ∀ page, Data allocator root before page →
    Data allocator root after page ∧ after.mem page = before.mem page

theorem write_entry_lower {before : Machine σ} {virt word : Nat}
    (extended : Extended allocator root before machine)
    (found : tables root (machine.lowerHalf root) (largeEntry virt) = some table) :
    Remapped allocator root before (machine.setEntry table (index virt 12) word) virt
      (leaf 3 word) := by
  have intact := extended.kept.intact
  have below : table = root → (index virt 12).val < 256 := by
    rintro rfl
    exact absurd (intact.tree _ [] table found rfl) (by simp [largeEntry])
  have ends : descend (largeEntry virt).length word = none := by
    simp [descend, largeEntry]
  have owned : table ∈ allocator.held machine := by
    have inHeld := intact.held _ table found
    rwa [held_lower_half_of_owned (intact_root intact)] at inHeld
  obtain ⟨stays, grafted⟩ : Intact allocator root
      ((machine.lowerHalf root).setEntry table (index virt 12) word) ∧ _ :=
    write_grafts intact found ends
  have seen : (machine.setEntry table (index virt 12) word).lowerHalf root =
      (machine.lowerHalf root).setEntry table (index virt 12) word :=
    lower_half_set_entry below
  refine ⟨seen ▸ stays, ?_, fun page data => ?_⟩
  · rw [seen, grafted, extended.kept.leaves]
    rfl
  · obtain ⟨dataMachine, sameMachine⟩ := extended.data page data
    have notTable : page ≠ table := fun same => dataMachine.2 _ (same ▸ found)
    refine ⟨⟨?_, fun reached isTable => ?_⟩, ?_⟩
    · rw [held_set_entry owned]
      exact dataMachine.1
    · rw [seen] at isTable
      exact dataMachine.2 reached (table_at_of_set_cut intact.tree found ends isTable)
    · rw [← sameMachine]
      funext place
      rw [Machine.mem_set_entry, set_entry_other _ (Or.inl notTable)]

theorem walk_lower_bind {virt subFlags disallowedFlags : Nat} {before : Machine σ}
    {rest : Nat → Attempt σ Unit} {final : Unit → Machine σ → Prop}
    (extended : Extended allocator root before machine)
    (found : tables root (machine.lowerHalf root) path = some table) (upper : path.length ≤ 2)
    (level : disallowedAt path.length = disallowedFlags) (lower : LowerPath (idx :: path))
    (flags : ValidFlags subFlags) (last : path.length = 2 → idx :: path = largeEntry virt)
    (reached : ∀ next after, Extended allocator root before after →
      tables root (after.lowerHalf root) (idx :: path) = some next →
      Yields final (fun after => Extended allocator root before after ∧ (Refused allocator after ∨
        leaves root (before.lowerHalf root) (largeEntry virt) ≠ none)) (rest next after)) :
    Yields final (fun after => Extended allocator root before after ∧ (Refused allocator after ∨
        leaves root (before.lowerHalf root) (largeEntry virt) ≠ none))
      ((getTable true allocator.toPageAllocator table idx subFlags disallowedFlags >>= rest)
        machine) := by
  subst level
  refine yields_bind (yields_weaken (get_table_lower upper extended found lower flags)
    (fun _ _ walked => walked) ?_) fun next after walked => reached next after walked.1 walked.2
  rintro after ⟨extendedAfter, refused⟩
  refine ⟨extendedAfter, refused.imp_right ?_⟩
  rintro ⟨deepest, covered⟩
  rwa [last deepest] at covered

/-- Mapping a page of the lower half. It fails for want of a page, or where a large page
is mapped already. -/
theorem map4kb_lower {self : PageTable} {virt : Nat} (writable : self.readonly = false)
    (lower : virt < 0x0000_8000_0000_0000) (phys flags : Nat)
    (intact : Intact allocator self.pml4 (machine.lowerHalf self.pml4)) :
    Yields (fun _ after => Remapped allocator self.pml4 machine after virt
        (leaf 3 (alignDown phys pageSize ||| flags)))
      (fun after => Extended allocator self.pml4 machine after ∧ (Refused allocator after ∨
        leaves self.pml4 (machine.lowerHalf self.pml4) (largeEntry virt) ≠ none))
      (self.map4kb allocator.toPageAllocator virt phys flags machine) := by
  have subFlags := sub_flags_valid virt
  have lowerPath := lower_path_index lower
  have foundRoot : tables self.pml4 (machine.lowerHalf self.pml4) [] = some self.pml4 := rfl
  rw [PageTable.map4kb, writable, if_neg Bool.false_ne_true]
  dsimp only [splitVirtAddr]
  apply walk_lower_bind (extended_refl intact) foundRoot (Nat.zero_le 2) rfl (lowerPath []) subFlags
    (by simp)
  intro pdpt first extendedFirst foundPdpt
  apply walk_lower_bind extendedFirst foundPdpt (Nat.le_succ 1) rfl (lowerPath [_])
    subFlags (by simp)
  intro pd second extendedSecond foundPd
  apply walk_lower_bind extendedSecond foundPd (Nat.le_refl 2) rfl (lowerPath [_, _]) subFlags
    fun _ => rfl
  intro pt third extendedThird foundPt
  exact .ok (write_entry_lower extendedThird foundPt)

theorem new_space_lower {kernel self : PageTable} {after : Machine σ}
    (created : PageTable.allocNew allocator machine = .ok self after)
    (blank : BlankPml4 allocator machine) :
    let shared := (stateAfter (self.mapGlobalHigherHalf kernel after)).lowerHalf self.pml4
    Intact allocator self.pml4 shared ∧
      (∀ place path, leaves self.pml4 shared (place :: path) = none) ∧
      ∀ path table, tables self.pml4 shared path = some table → table = self.pml4 := by
  intro shared
  obtain ⟨held, blankLower⟩ :
      allocator.held (stateAfter (self.mapGlobalHigherHalf kernel after)) = _ ∧ _ :=
    new_pml4_blank created blank
  have owned : self.pml4 ∈ allocator.held (stateAfter (self.mapGlobalHigherHalf kernel after)) := by
    rw [held]
    exact Set.mem_insert _ _
  have ownedLower := (held_lower_half_of_owned owned).symm ▸ owned
  have absent : ∀ place, shared.mem self.pml4 place &&& pagePresent = 0 := by
    intro place
    dsimp only [shared]
    by_cases lower : place.val < 256
    · rw [lower_half_entry fun _ => lower]
      exact blankLower place lower
    · rw [upper_half_entry (not_lt.mp lower), Nat.zero_and]
  obtain ⟨intact, noLeaf⟩ : Intact allocator self.pml4 shared ∧ _ := absent_intact ownedLower absent
  exact ⟨intact, noLeaf, fun path table found => (absent_alone absent found).2⟩

theorem tables_lower (intact : Intact allocator root (machine.lowerHalf root))
    (lower : LowerPath path) :
    tables root machine path = tables root (machine.lowerHalf root) path := by
  induction path with
  | nil => rfl
  | cons idx path ih =>
      have above : tableAt descend machine.mem root path =
          tableAt descend (machine.lowerHalf root).mem root path := ih (lower_path_tail lower)
      rw [tables, tables, tableAt, tableAt, above]
      cases found : tableAt descend (machine.lowerHalf root).mem root path with
      | none => rw [Option.bind_none, Option.bind_none]
      | some table =>
          rw [Option.bind_some, Option.bind_some,
            lower_half_entry (lower_path_entry intact found lower)]

theorem leaves_lower {entry : List (Fin 512)}
    (intact : Intact allocator root (machine.lowerHalf root))
    (lower : LowerPath entry) :
    leaves root machine entry = leaves root (machine.lowerHalf root) entry := by
  cases entry with
  | nil => rfl
  | cons idx path =>
      have above : tableAt descend machine.mem root path =
          tableAt descend (machine.lowerHalf root).mem root path :=
        tables_lower intact (lower_path_tail lower)
      rw [leaves, leaves, leafAt, leafAt, above]
      cases found : tableAt descend (machine.lowerHalf root).mem root path with
      | none => rw [Option.bind_none, Option.bind_none]
      | some table =>
          rw [Option.bind_some, Option.bind_some,
            lower_half_entry (lower_path_entry intact found lower)]

theorem lookup_lower {addr : Nat} (intact : Intact allocator root (machine.lowerHalf root))
    (lower : addr < 0x0000_8000_0000_0000) :
    lookup (leaves root machine) addr = lookup (leaves root (machine.lowerHalf root)) addr := by
  have large : leaves root machine (largeEntry addr) = _ :=
    leaves_lower intact (lower_path_index lower [_, _])
  have small : leaves root machine (smallEntry addr) = _ :=
    leaves_lower intact (lower_path_index lower [_, _, _])
  rw [lookup, lookup, large, small]

end Campix.Paging
