import Campix.Ext2.AppendedBlocks
import Campix.Ext2.PointerTree
import Campix.Ext2.Writes

/-!
# The tree of a file

`FileTree` says that the pointers of an inode are those of a file of so many blocks: no
block has two places, every place on the way to a block of the file is taken, and behind
the last block only tables are linked that lead to it as well. A block that is appended
keeps it, and so does a change of data blocks. The assumptions about a handle that the
modules on reads, writes and appends share follow from it.
-/

namespace Campix.Ext2

open Ext2Volume

set_option autoImplicit false

/-- The first `n` blocks of a file have their pointers, and nothing else is linked. -/
structure FileTree (roots : Nat → Nat) (contents : Contents) (tableSize : Nat) (Used : Nat → Prop)
    (n : Nat) :
    Prop where
  inside : n ≤ capacity tableSize
  distinct : Distinct roots contents tableSize
  used : ∀ block ∈ reachable roots contents tableSize, Used block
  there : ∀ k < n, ∀ pointer ∈ route roots contents (locate tableSize k), pointer ≠ 0
  bare : ∀ k, n ≤ k → k < capacity tableSize → ∀ place pointer : Nat,
    (route roots contents (locate tableSize k))[place]? = some pointer → pointer ≠ 0 →
      0 < n ∧ Shares place (locate tableSize k) (locate tableSize (n - 1))

variable {roots rootsAfter : Nat → Nat} {contents contentsAfter : Contents} {tableSize : Nat}
variable {Used UsedAfter : Nat → Prop} {n : Nat} {location other : InodeReadingLocationInfo}

theorem eq_of_turns (same : root location = root other) (digits : Digits tableSize location)
    (otherDigits : Digits tableSize other)
    (equal : turns location = turns other) : location = other := by
  cases location <;> cases other <;> simp_all [root, turns, Digits]

theorem eq_of_shares (digits : Digits tableSize location) (otherDigits : Digits tableSize other)
    (shares : Shares (turns location).length location other) : location = other := by
  apply eq_of_turns shares.root digits otherDigits
  have lengths := turns_length_eq digits otherDigits shares.root
  have all := shares.turns
  rwa [List.take_length, lengths, List.take_length] at all

theorem digits_locate {k : Nat} (inside : k < capacity tableSize) :
    Digits tableSize (locate tableSize k) :=
  (index_of_locate inside).2

theorem locate_inj {j k : Nat} (first : j < capacity tableSize) (second : k < capacity tableSize)
    (same : locate tableSize j = locate tableSize k) : j = k := by
  rw [← (index_of_locate first).1, ← (index_of_locate second).1, same]

@[simp] theorem head_double (inode : Inode) (i j : Nat) :
    head inode (.double i j) = inode.doubleIndirectBlockPointer :=
  rfl

@[simp] theorem head_triple (inode : Inode) (i j k : Nat) :
    head inode (.triple i j k) = inode.tripleIndirectBlockPointer :=
  rfl

theorem pointers_eq_way (inode : Inode) (contents : Contents) (location : InodeReadingLocationInfo)
    (there : ∀ pointer ∈ way inode contents location, pointer ≠ 0) :
    pointers inode contents location = way inode contents location := by
  cases location with
  | direct d => rfl
  | single i =>
      have first : inode.singleIndirectBlockPointer ≠ 0 := there _ List.mem_cons_self
      simp only [pointers, tablePath, dataPointer,
        way, head, turns, chase, if_neg first, List.cons_append,
        List.nil_append]
  | double i j =>
      have first : inode.doubleIndirectBlockPointer ≠ 0 := there _ List.mem_cons_self
      have second : (if inode.doubleIndirectBlockPointer = 0 then 0
          else entry (contents inode.doubleIndirectBlockPointer) i) ≠ 0 :=
        there _ (List.mem_cons_of_mem _ List.mem_cons_self)
      rw [if_neg first] at second
      simp only [pointers, tablePath, dataPointer, way, turns, chase, head_double, if_neg first,
        if_neg second,
        List.cons_append, List.nil_append]
  | triple i j k =>
      have first : inode.tripleIndirectBlockPointer ≠ 0 := there _ List.mem_cons_self
      have second : (if inode.tripleIndirectBlockPointer = 0 then 0
          else entry (contents inode.tripleIndirectBlockPointer) i) ≠ 0 :=
        there _ (List.mem_cons_of_mem _ List.mem_cons_self)
      have third : (if (if inode.tripleIndirectBlockPointer = 0 then 0
          else entry (contents inode.tripleIndirectBlockPointer) i) = 0 then 0
          else entry (contents (if inode.tripleIndirectBlockPointer = 0 then 0
            else entry (contents inode.tripleIndirectBlockPointer) i)) j) ≠ 0 :=
        there _ (List.mem_cons_of_mem _ (List.mem_cons_of_mem _ List.mem_cons_self))
      rw [if_neg first] at second
      rw [if_neg first, if_neg second] at third
      simp only [pointers, tablePath, dataPointer, way, turns, chase, head_triple, if_neg first,
        if_neg second,
        if_neg third, List.cons_append, List.nil_append]

theorem length_table_path (inode : Inode) (contents : Contents)
    (location : InodeReadingLocationInfo) :
    (tablePath inode contents location).length = (turns location).length := by
  cases location <;> rfl

section Ways

variable {inode : Inode} (there : ∀ pointer ∈ way inode contents location, pointer ≠ 0)

include there

theorem table_path_place {place : Nat} (inside : place < (turns location).length) :
    (tablePath inode contents location)[place]? = (way inode contents location)[place]? := by
  rw [← pointers_eq_way inode contents location there, pointers,
    List.getElem?_append_left (by rw [length_table_path]; exact inside)]

theorem data_pointer_place :
    (way inode contents location)[(turns location).length]? = some
      (dataPointer inode contents location) := by
  rw [← pointers_eq_way inode contents location there, pointers,
    List.getElem?_append_right (by rw [length_table_path]), length_table_path, Nat.sub_self]
  rfl

end Ways

section Tree

variable (tree : FileTree roots contents tableSize Used n)

include tree

theorem tree_place {k place pointer : Nat} (below : k < n)
    (found : (route roots contents (locate tableSize k))[place]? = some pointer) : pointer ≠ 0 :=
  tree.there k below pointer (List.mem_of_getElem? found)

theorem tree_below {k : Nat} (below : k < n) : k < capacity tableSize :=
  Nat.lt_of_lt_of_le below tree.inside

/-- The place of the next block is free. -/
theorem tree_slot (more : n < capacity tableSize) :
    (route roots contents (locate tableSize n))[(turns (locate tableSize n)).length]? = some 0 := by
  obtain ⟨pointer, found⟩ : ∃ pointer,
      (route roots contents (locate tableSize n))[(turns (locate tableSize n)).length]? = some
        pointer :=
    route_place (Nat.le_refl _)
  by_cases zero : pointer = 0
  · rw [found, zero]
  · obtain ⟨some_, shares⟩ := tree.bare n (Nat.le_refl _) more _ pointer found zero
    have last : n - 1 < capacity tableSize := by omega
    have same := eq_of_shares (digits_locate more) (digits_locate last) shares
    have equal := locate_inj more last same
    omega

/-- A place on the way to the next block is taken if and only if it is one on the way to
the last block. -/
theorem tree_next (more : n < capacity tableSize) {place pointer : Nat}
    (found : (route roots contents (locate tableSize n))[place]? = some pointer) :
    pointer ≠ 0 ↔ 0 < n ∧ Shares place (locate tableSize n) (locate tableSize (n - 1)) := by
  constructor
  · exact tree.bare n (Nat.le_refl _) more place pointer found
  · intro ⟨some_, shares⟩
    rw [shares_place shares (Nat.le_refl _)] at found
    exact tree_place tree (by omega) found

theorem tree_grafted_route {hole : Nat} {blocks : List Nat}
    (graft : Grafted roots rootsAfter contents contentsAfter tableSize location hole blocks)
    {k : Nat}
    (below : k < n) :
    route rootsAfter contentsAfter (locate tableSize k) = route roots contents
      (locate tableSize k) := by
  apply List.ext_getElem?
  intro place
  by_cases inside : place ≤ (turns (locate tableSize k)).length
  · obtain ⟨pointer, found⟩ : ∃ pointer,
        (route roots contents (locate tableSize k))[place]? = some pointer :=
      route_place inside
    rw [found]
    exact grafted_still graft tree.distinct (digits_locate (tree_below tree below)) found
      (tree_place tree below found)
  · rw [List.getElem?_eq_none (by rw [length_route]; omega),
      List.getElem?_eq_none (by rw [length_route]; omega)]

theorem tree_grows {hole : Nat} {blocks : List Nat} (more : n < capacity tableSize)
    (graft : Grafted roots rootsAfter contents contentsAfter tableSize (locate tableSize n)
      hole blocks)
    (old : ∀ block, block ≠ 0 → Used block → UsedAfter block)
    (new : ∀ block ∈ blocks, UsedAfter block) :
    FileTree rootsAfter contentsAfter tableSize UsedAfter (n + 1) := by
  refine ⟨more, grafted_distinct graft tree.distinct, ?_, ?_, ?_⟩
  · intro block member
    rw [grafted_reachable graft tree.distinct, Finset.mem_union, List.mem_toFinset] at member
    rcases member with before | fresh
    · exact old block (mem_reachable.mp before).1 (tree.used block before)
    · exact new block fresh
  · intro k below pointer member
    by_cases last : k = n
    · subst last
      rw [graft.leads] at member
      rcases List.mem_append.mp member with before | fresh
      · obtain ⟨index, at_⟩ := List.mem_iff_getElem?.mp before
        rw [List.getElem?_take] at at_
        split_ifs at at_ with small
        exact graft.there index small pointer at_
      · exact (graft.fresh pointer fresh).1
    · have below : k < n := by omega
      rw [tree_grafted_route tree graft below] at member
      exact tree.there k below pointer member
  · intro k behind inside place pointer found nonzero
    refine ⟨Nat.succ_pos n, ?_⟩
    rw [Nat.add_sub_cancel]
    rcases grafted_cases graft tree.distinct (digits_locate inside)
      found with ⟨shares, -, -⟩ | before
    · exact shares
    · obtain ⟨some_, shares⟩ := tree.bare k (by omega) inside place pointer before nonzero
      have last : n - 1 < capacity tableSize := by omega
      have between := shares_between (digits_locate last) (digits_locate more)
        (digits_locate inside)
        (by rw [(index_of_locate last).1, (index_of_locate more).1]; omega)
        (by rw [(index_of_locate inside).1, (index_of_locate more).1]; omega) (shares_symm shares)
      exact shares_symm between

theorem tree_congr (kept : ∀ table, Inner roots contents tableSize table →
      contentsAfter table = contents table)
    (old : ∀ block, Used block → UsedAfter block) : FileTree roots contentsAfter tableSize UsedAfter
    n := by
  have same : ∀ {location : InodeReadingLocationInfo}, Digits tableSize location →
      route roots contentsAfter location = route roots contents location := route_congr kept
  refine ⟨tree.inside, ?_, ?_, ?_, ?_⟩
  · intro location other place otherPlace pointer digits otherDigits found otherFound nonzero
    rw [same digits] at found
    rw [same otherDigits] at otherFound
    exact tree.distinct location other place otherPlace pointer digits otherDigits found otherFound
      nonzero
  · intro block member
    rw [reachable_congr kept] at member
    exact old block (tree.used block member)
  · intro k below pointer member
    rw [same (digits_locate (tree_below tree below))] at member
    exact tree.there k below pointer member
  · intro k behind inside place pointer found nonzero
    rw [same (digits_locate inside)] at found
    exact tree.bare k behind inside place pointer found nonzero

end Tree

/-- The tables on the ways to the first `n` blocks, by level. -/
def OnTree (inode : Inode) (contents : Contents) (tableSize n : Nat) (level : Fin 3) (addr : Nat) :
    Prop :=
  ∃ k < n, (tablePath inode contents (locate tableSize k))[level.val]? = some addr

section Inode

variable {inode : Inode} {j k : Nat} (tree : FileTree inode.pointer contents tableSize Used n)

include tree

theorem tree_way (below : k < n) : ∀ pointer ∈ way inode contents (locate tableSize k),
    pointer ≠ 0 := by
  rw [way_eq_route inode contents (digits_locate (tree_below tree below))]
  exact tree.there k below

theorem tree_data (below : k < n) :
    (route inode.pointer contents (locate tableSize k))[(turns (locate tableSize k)).length]? =
      some (dataPointer inode contents (locate tableSize k)) := by
  rw [← way_eq_route inode contents (digits_locate (tree_below tree below))]
  exact data_pointer_place (tree_way tree below)

theorem tree_table (below : k < n) {place addr : Nat}
    (found : (tablePath inode contents (locate tableSize k))[place]? = some addr) :
    place < (turns (locate tableSize k)).length ∧
      (route inode.pointer contents (locate tableSize k))[place]? = some addr := by
  have inside : place < (turns (locate tableSize k)).length := by
    rw [← length_table_path inode contents]
    exact (List.getElem?_eq_some_iff.mp found).1
  refine ⟨inside, ?_⟩
  rw [← way_eq_route inode contents (digits_locate (tree_below tree below)),
    ← table_path_place (tree_way tree below) inside]
  exact found

/-- A table is not the block behind the last pointer of a way. -/
theorem inner_apart (below : k < n) {table : Nat}
    (inner : Inner inode.pointer contents tableSize table) :
    table ≠ dataPointer inode contents (locate tableSize k) := by
  rintro rfl
  obtain ⟨nonzero, location, place, digits, inside, found⟩ := inner
  have other := digits_locate (tree_below tree below)
  obtain ⟨rfl, shares⟩ := tree.distinct _ _ _ _ _ digits other found (tree_data tree below) nonzero
  have lengths := turns_length_eq digits other shares.root
  omega

theorem inner_of_on_tree {level : Fin 3} {addr : Nat}
    (onTree : OnTree inode contents tableSize n level addr) :
    Inner inode.pointer contents tableSize addr := by
  obtain ⟨k, below, found⟩ := onTree
  obtain ⟨inside, place⟩ := tree_table tree below found
  exact ⟨tree_place tree below place, _, level.val, digits_locate (tree_below tree below),
    inside, place⟩

theorem on_tree_used {level : Fin 3} {addr : Nat}
    (onTree : OnTree inode contents tableSize n level addr) :
    Used addr := by
  obtain ⟨nonzero, location, place, digits, -, found⟩ := inner_of_on_tree tree onTree
  exact tree.used addr (reachable_of_place digits found nonzero)

theorem on_tree_unique {level other : Fin 3} {addr : Nat}
    (here : OnTree inode contents tableSize n level addr)
    (there : OnTree inode contents tableSize n other addr) : level = other := by
  obtain ⟨j, belowJ, foundJ⟩ := here
  obtain ⟨k, belowK, foundK⟩ := there
  have placeJ := (tree_table tree belowJ foundJ).2
  have placeK := (tree_table tree belowK foundK).2
  have same := tree.distinct _ _ _ _ _ (digits_locate (tree_below tree belowJ))
    (digits_locate (tree_below tree belowK)) placeJ placeK (tree_place tree belowJ placeJ)
  exact Fin.ext same.1

theorem data_used (below : k < n) : dataPointer inode contents (locate tableSize k) ≠ 0 ∧
    Used (dataPointer inode contents (locate tableSize k)) := by
  have found := tree_data tree below
  have nonzero := tree_place tree below found
  exact ⟨nonzero, tree.used _ (reachable_of_place (digits_locate (tree_below tree below))
    found nonzero)⟩

theorem data_distinct (belowJ : j < n) (belowK : k < n)
    (same : dataPointer inode contents (locate tableSize j) = dataPointer inode contents
      (locate tableSize k)) :
    j = k := by
  have digitsJ := digits_locate (tree_below tree belowJ)
  have digitsK := digits_locate (tree_below tree belowK)
  have foundJ := tree_data tree belowJ
  have foundK := tree_data tree belowK
  rw [← same] at foundK
  have shares := (tree.distinct _ _ _ _ _ digitsJ digitsK foundJ foundK (data_used tree belowJ).1).2
  exact locate_inj (tree_below tree belowJ) (tree_below tree belowK)
    (eq_of_shares digitsJ digitsK shares)

theorem tree_sole : FileMap.Sole ⟨inode, contents, tableSize, n⟩ := by
  refine ⟨fun j belowJ k belowK same => data_distinct tree belowJ belowK same, ?_⟩
  rintro k below addr member ⟨j, belowJ, owns⟩
  obtain ⟨place, found⟩ := List.mem_iff_getElem?.mp member
  obtain ⟨inside, at_⟩ := tree_table tree below found
  have inner : Inner inode.pointer contents tableSize addr :=
    ⟨tree_place tree below at_, _, place, digits_locate (tree_below tree below), inside, at_⟩
  exact inner_apart tree belowJ inner owns.symm

theorem tree_kept (keeps : FileMap.Keeps ⟨inode, contents, tableSize, n⟩ contentsAfter) :
    FileTree inode.pointer contentsAfter tableSize Used n := by
  apply tree_congr tree
  · intro table inner
    apply keeps
    rintro ⟨k, below, owns⟩
    exact inner_apart tree below inner owns.symm
  · intro block used
    exact used

theorem same_pointers {after : Inode} (below : k < n)
    (same : way after contentsAfter
      (locate tableSize k) = way inode contents (locate tableSize k)) :
    tablePath after contentsAfter (locate tableSize k) = tablePath inode contents
      (locate tableSize k) ∧
      dataPointer after contentsAfter (locate tableSize k) = dataPointer inode contents
        (locate tableSize k) := by
  have there := tree_way tree below
  have whole : pointers after contentsAfter (locate tableSize k) = pointers inode contents
      (locate tableSize k) := by
    rw [pointers_eq_way _ _ _ there, pointers_eq_way _ _ _ (by rw [same]; exact there), same]
  unfold pointers at whole
  obtain ⟨path, data⟩ := List.append_inj' whole rfl
  exact ⟨path, List.singleton_inj.mp data⟩

theorem pointers_congr (kept : ∀ table, Inner inode.pointer contents tableSize table →
      contentsAfter table = contents table) (below : k < n) :
    tablePath inode contentsAfter (locate tableSize k) = tablePath inode contents
      (locate tableSize k) ∧
      dataPointer inode contentsAfter (locate tableSize k) = dataPointer inode contents
        (locate tableSize k) := by
  have digits := digits_locate (tree_below tree below)
  apply same_pointers tree below
  rw [way_eq_route _ _ digits, way_eq_route _ _ digits, route_congr kept digits]

theorem tree_readable {volume : Ext2Volume} (size : volume.blockSize / 4 = tableSize)
    (onDevice : ∀ block, Used block → block < volume.blockCount) (below : k < n) :
    Readable volume inode contents (OnTree inode contents tableSize n) k := by
  subst size
  refine ⟨tree_below tree below, fun level addr found => ⟨k, below, found⟩, ?_⟩
  intro addr member
  rw [pointers_eq_way _ _ _ (tree_way tree below)] at member
  have nonzero := tree_way tree below addr member
  have digits := digits_locate (tree_below tree below)
  rw [way_eq_route inode contents digits] at member
  exact onDevice addr (tree.used addr (mem_reachable.mpr ⟨nonzero, _, digits, member⟩))

end Inode

end Campix.Ext2
