import Mathlib.Data.List.Infix
import Mathlib.Logic.Function.Basic

/-!
# Trees of tables in a memory

A memory maps an address to a table of words. A word may point to a table one
level down; whether it does depends on the level and is given by `descend`.
`tableAt` follows a path of indices from the root, the deepest index first, so
that the level of a table is the length of its path. A memory holds a tree when
no table is reached by two paths; then a write to one table changes only the
paths that pass through the written entry. The words that end a path are told
apart by `leaf`; `leafAt` is what the tree maps its paths to. Linking a blank
table and pruning one leave that map as it is.
-/

namespace Campix.Lib.TableTree

set_option autoImplicit false

variable {Addr Index Word Leaf : Type*}
variable (descend : Nat → Word → Option Addr) (leaf : Nat → Word → Option Leaf)

def tableAt (mem : Addr → Index → Word) (root : Addr) : List Index → Option Addr
  | [] => some root
  | index :: path => (tableAt mem root path).bind fun table =>
      descend path.length (mem table index)

def IsTree (mem : Addr → Index → Word) (root : Addr) : Prop :=
  ∀ left right table, tableAt descend mem root left = some table →
    tableAt descend mem root right = some table → left = right

def leafAt (mem : Addr → Index → Word) (root : Addr) : List Index → Option Leaf
  | [] => none
  | index :: path => (tableAt descend mem root path).bind fun table =>
      leaf path.length (mem table index)

variable {descend leaf} {mem : Addr → Index → Word} {root : Addr}

theorem table_at_cons {path : List Index} {table : Addr} {index : Index}
    (found : tableAt descend mem root path = some table) :
    tableAt descend mem root (index :: path) = descend path.length (mem table index) := by
  rw [tableAt, found, Option.bind_some]

theorem table_at_suffix {path longer : List Index} {table : Addr}
    (found : tableAt descend mem root longer = some table) (extends_ : path <:+ longer) :
    ∃ upper, tableAt descend mem root path = some upper := by
  induction longer generalizing table with
  | nil =>
      rw [List.suffix_nil.mp extends_]
      exact ⟨root, rfl⟩
  | cons index longer ih =>
      rcases List.suffix_cons_iff.mp extends_ with rfl | shorter
      · exact ⟨table, found⟩
      · cases middle : tableAt descend mem root longer with
        | none => simp [tableAt, middle] at found
        | some upper => exact ih middle shorter

theorem table_at_none_of_suffix {path longer : List Index}
    (missing : tableAt descend mem root path = none) (extends_ : path <:+ longer) :
    tableAt descend mem root longer = none := by
  cases found : tableAt descend mem root longer with
  | none => rfl
  | some table =>
      obtain ⟨upper, present⟩ := table_at_suffix found extends_
      rw [missing] at present
      exact absurd present (by simp)

/-- Paths read the tables of the tree only. -/
theorem table_at_congr {after : Addr → Index → Word}
    (same : ∀ path table, tableAt descend mem root path = some table → after table = mem table)
    (path : List Index) : tableAt descend after root path = tableAt descend mem root path := by
  induction path with
  | nil => rfl
  | cons index path ih =>
      rw [tableAt, tableAt, ih]
      cases found : tableAt descend mem root path with
      | none => rfl
      | some table => rw [Option.bind_some, Option.bind_some, same path table found]

theorem leaf_at_cons {path : List Index} {table : Addr} {index : Index}
    (found : tableAt descend mem root path = some table) :
    leafAt descend leaf mem root (index :: path) = leaf path.length (mem table index) := by
  rw [leafAt, found, Option.bind_some]

theorem leaf_at_of_table
    (exclusive : ∀ level word, descend level word ≠ none → leaf level word = none)
    {path : List Index} {table : Addr} {index : Index}
    (linked : tableAt descend mem root (index :: path) = some table) :
    leafAt descend leaf mem root (index :: path) = none := by
  cases found : tableAt descend mem root path with
  | none => rw [leafAt, found, Option.bind_none]
  | some upper =>
      rw [table_at_cons found] at linked
      rw [leaf_at_cons found]
      exact exclusive _ _ (by simp [linked])

theorem leaf_at_missing {path : List Index} (index : Index)
    (missing : tableAt descend mem root path = none) :
    leafAt descend leaf mem root (index :: path) = none := by
  rw [leafAt, missing, Option.bind_none]

theorem leaf_at_congr {after : Addr → Index → Word}
    (same : ∀ path table, tableAt descend mem root path = some table → after table = mem table)
    (path : List Index) : leafAt descend leaf after root path = leafAt descend leaf mem root
    path := by
  cases path with
  | nil => rfl
  | cons index path =>
      rw [leafAt, leafAt, table_at_congr same]
      cases found : tableAt descend mem root path with
      | none => rfl
      | some table => rw [Option.bind_some, Option.bind_some, same path table found]

theorem table_at_same_entry {other : Addr} {index : Index} (same : mem root index = mem other index)
    (front : List Index) :
    tableAt descend mem root (front ++ [index]) = tableAt descend mem other (front ++ [index]) := by
  induction front with
  | nil =>
      have here : ∀ start : Addr, tableAt descend mem start [] = some start := fun _ => rfl
      rw [List.nil_append, table_at_cons (here root), table_at_cons (here other), same]
  | cons first front ih =>
      rw [List.cons_append, tableAt, tableAt, ih]

theorem leaf_at_same_entry {other : Addr} {index : Index} (same : mem root index = mem other index)
    (front : List Index) (below : front ≠ []) :
    leafAt descend leaf mem root (front ++ [index]) = leafAt descend leaf mem other
      (front ++ [index]) := by
  cases front with
  | nil => exact absurd rfl below
  | cons first front =>
      rw [List.cons_append, leafAt, leafAt, table_at_same_entry same]

theorem leaf_at_blank {path : List Index} {table : Addr}
    (found : tableAt descend mem root path = some table)
    (blank : ∀ level place, descend level (mem table place) = none ∧
      leaf level (mem table place) = none)
    {other : List Index} (place : Index) (through : path <:+ other) :
    leafAt descend leaf mem root (place :: other) = none := by
  obtain ⟨below, rfl⟩ := through
  cases List.eq_nil_or_concat below with
  | inl empty =>
      rw [empty, List.nil_append, leaf_at_cons found]
      exact (blank _ place).2
  | inr shape =>
      obtain ⟨front, first, rfl⟩ := shape
      have cut : tableAt descend mem root (first :: path) = none := by
        rw [table_at_cons found]
        exact (blank _ first).1
      apply leaf_at_missing
      apply table_at_none_of_suffix cut
      rw [List.concat_eq_append, List.append_assoc]
      exact List.suffix_append front _

theorem entry_not_above (index : Index) (path : List Index) : ¬(index :: path) <:+ path := by
  intro inside
  have shorter := inside.length_le
  rw [List.length_cons] at shorter
  omega

section Write

variable [DecidableEq Addr] [DecidableEq Index]

def setEntry (mem : Addr → Index → Word) (table : Addr) (index : Index) (word : Word) :
    Addr → Index → Word :=
  Function.update mem table (Function.update (mem table) index word)

theorem set_entry_self (mem : Addr → Index → Word) (table : Addr) (index : Index) (word : Word) :
    setEntry mem table index word table index = word := by
  rw [setEntry, Function.update_self, Function.update_self]

theorem set_entry_other {table other : Addr} {index place : Index} (word : Word)
    (different : other ≠ table ∨ place ≠ index) :
    setEntry mem table index word other place = mem other place := by
  unfold setEntry
  by_cases same : other = table
  · subst same
    rcases different with different | different
    · exact absurd rfl different
    · rw [Function.update_self, Function.update_of_ne different]
  · rw [Function.update_of_ne same]

variable {path : List Index} {table : Addr} {index : Index} {word : Word}

theorem entry_off (tree : IsTree descend mem root)
    (found : tableAt descend mem root path = some table) {other : List Index} {place : Index}
    {upper : Addr} (reached : tableAt descend mem root other = some upper)
    (off : ¬(index :: path) <:+ place :: other) :
    setEntry mem table index word upper place = mem upper place := by
  apply set_entry_other
  by_contra equal
  obtain ⟨rfl, rfl⟩ : upper = table ∧ place = index := by
    simpa only [not_or, not_not] using equal
  exact off (by rw [tree other path upper reached found])

/-- A write changes no path that does not pass through the written entry. -/
theorem table_at_set_off (tree : IsTree descend mem root)
    (found : tableAt descend mem root path = some table) {other : List Index}
    (off : ¬(index :: path) <:+ other) :
    tableAt descend (setEntry mem table index word) root other =
      tableAt descend mem root other := by
  induction other with
  | nil => rfl
  | cons place other ih =>
      have offBelow : ¬(index :: path) <:+ other :=
        fun inside => off (inside.trans (List.suffix_cons place other))
      rw [tableAt, tableAt, ih offBelow]
      cases reached : tableAt descend mem root other with
      | none => rfl
      | some upper =>
          rw [Option.bind_some, Option.bind_some, entry_off tree found reached off]

theorem table_at_set_cut (tree : IsTree descend mem root)
    (found : tableAt descend mem root path = some table)
    (leaf : descend path.length word = none) {other : List Index}
    (through : (index :: path) <:+ other) :
    tableAt descend (setEntry mem table index word) root other = none := by
  have kept : tableAt descend (setEntry mem table index word) root path = some table := by
    rw [table_at_set_off tree found (entry_not_above index path)]
    exact found
  have here : tableAt descend (setEntry mem table index word) root (index :: path) = none := by
    rw [table_at_cons kept, set_entry_self]
    exact leaf
  exact table_at_none_of_suffix here through

theorem table_at_of_set_cut (tree : IsTree descend mem root)
    (found : tableAt descend mem root path = some table)
    (leaf : descend path.length word = none) {other : List Index} {result : Addr}
    (reached : tableAt descend (setEntry mem table index word) root other = some result) :
    tableAt descend mem root other = some result := by
  by_cases through : (index :: path) <:+ other
  · rw [table_at_set_cut tree found leaf through] at reached
    exact absurd reached (by simp)
  · rwa [table_at_set_off tree found through] at reached

theorem is_tree_set_cut (tree : IsTree descend mem root)
    (found : tableAt descend mem root path = some table)
    (leaf : descend path.length word = none) :
    IsTree descend (setEntry mem table index word) root := by
  intro left right result onLeft onRight
  exact tree left right result (table_at_of_set_cut tree found leaf onLeft)
    (table_at_of_set_cut tree found leaf onRight)

theorem leaf_at_set_off (tree : IsTree descend mem root)
    (found : tableAt descend mem root path = some table) {other : List Index}
    (off : ¬(index :: path) <:+ other) :
    leafAt descend leaf (setEntry mem table index word) root other =
      leafAt descend leaf mem root other := by
  cases other with
  | nil => rfl
  | cons place other =>
      have offBelow : ¬(index :: path) <:+ other :=
        fun inside => off (inside.trans (List.suffix_cons place other))
      rw [leafAt, leafAt, table_at_set_off tree found offBelow]
      cases reached : tableAt descend mem root other with
      | none => rfl
      | some upper =>
          rw [Option.bind_some, Option.bind_some, entry_off tree found reached off]

theorem leaf_at_set_self (tree : IsTree descend mem root)
    (found : tableAt descend mem root path = some table) :
    leafAt descend leaf (setEntry mem table index word) root (index :: path) =
      leaf path.length word := by
  have kept : tableAt descend (setEntry mem table index word) root path = some table := by
    rw [table_at_set_off tree found (entry_not_above index path), found]
  rw [leaf_at_cons kept, set_entry_self]

theorem leaf_at_set_below (tree : IsTree descend mem root)
    (found : tableAt descend mem root path = some table)
    (ends : descend path.length word = none) {other : List Index} (place : Index)
    (through : (index :: path) <:+ other) :
    leafAt descend leaf (setEntry mem table index word) root (place :: other) = none :=
  leaf_at_missing place (table_at_set_cut tree found ends through)

/-- The map of a tree after a write that ends a path at `entry`. -/
def graft (leaves : List Index → Option Leaf) (entry : List Index) (value : Option Leaf) :
    List Index → Option Leaf := fun path =>
  if path = entry then value else if entry <:+ path then none else leaves path

theorem leaf_at_graft (tree : IsTree descend mem root)
    (found : tableAt descend mem root path = some table)
    (ends : descend path.length word = none) :
    leafAt descend leaf (setEntry mem table index word) root =
      graft (leafAt descend leaf mem root) (index :: path) (leaf path.length word) := by
  funext other
  unfold graft
  split_ifs with same through
  · rw [same, leaf_at_set_self tree found]
  · cases other with
    | nil => rfl
    | cons place other =>
        have inside : (index :: path) <:+ other :=
          (List.suffix_cons_iff.mp through).resolve_left (Ne.symm same)
        exact leaf_at_set_below tree found ends place inside
  · exact leaf_at_set_off tree found through

/-- Pruning a table of blank words, with a word that stands for nothing, leaves
the map of the tree as it is. -/
theorem leaf_at_prune (tree : IsTree descend mem root)
    (exclusive : ∀ level word, descend level word ≠ none → leaf level word = none)
    (found : tableAt descend mem root path = some table) {child : Addr}
    (linked : tableAt descend mem root (index :: path) = some child)
    (blank : ∀ level place, descend level (mem child place) = none ∧
      leaf level (mem child place) = none)
    (ends : descend path.length word = none) (void : leaf path.length word = none)
    (other : List Index) :
    leafAt descend leaf (setEntry mem table index word) root other =
      leafAt descend leaf mem root other := by
  by_cases through : (index :: path) <:+ other
  · cases other with
    | nil => rfl
    | cons place other =>
        rcases List.suffix_cons_iff.mp through with same | inside
        · rw [← same, leaf_at_set_self tree found, void, leaf_at_of_table exclusive linked]
        · rw [leaf_at_set_below tree found ends place inside,
            leaf_at_blank linked blank place inside]
  · exact leaf_at_set_off tree found through

/-- Linking a fresh table whose words point nowhere, at an entry that pointed
nowhere, adds exactly one path. -/
theorem table_at_link (tree : IsTree descend mem root)
    (found : tableAt descend mem root path = some table) {fresh : Addr} {blank : Index → Word}
    (unlinked : descend path.length (mem table index) = none)
    (points : descend path.length word = some fresh)
    (outside : ∀ other, tableAt descend mem root other ≠ some fresh)
    (bare : ∀ level place, descend level (blank place) = none) (other : List Index) :
    tableAt descend (setEntry (Function.update mem fresh blank) table index word) root other =
      if other = index :: path then some fresh else tableAt descend mem root other := by
  have same : ∀ upper upperTable, tableAt descend mem root upper = some upperTable →
      Function.update mem fresh blank upperTable = mem upperTable := by
    intro upper upperTable reached
    apply Function.update_of_ne
    intro equal
    exact outside upper (equal ▸ reached)
  have cleared := table_at_congr same
  have clearedTree : IsTree descend (Function.update mem fresh blank) root := by
    intro left right result onLeft onRight
    rw [cleared] at onLeft onRight
    exact tree left right result onLeft onRight
  have clearedFound : tableAt descend (Function.update mem fresh blank) root path = some table := by
    rw [cleared, found]
  have linked : tableAt descend (setEntry (Function.update mem fresh blank) table index word) root
      (index :: path) = some fresh := by
    have kept : tableAt descend (setEntry (Function.update mem fresh blank) table index word) root
        path = some table := by
      rw [table_at_set_off clearedTree clearedFound (entry_not_above index path)]
      exact clearedFound
    rw [table_at_cons kept, set_entry_self, points]
  have missing : tableAt descend mem root (index :: path) = none := by
    rw [table_at_cons found, unlinked]
  split_ifs with exactly
  · rw [exactly, linked]
  · by_cases through : (index :: path) <:+ other
    · rw [table_at_none_of_suffix missing through]
      -- the first step below the fresh table reads one of its blank words
      obtain ⟨below, shape⟩ := through
      have nonempty : below ≠ [] := by
        intro empty
        rw [empty, List.nil_append] at shape
        exact exactly shape.symm
      obtain ⟨front, place, rfl⟩ : ∃ front place, below = front ++ [place] :=
        ⟨below.dropLast, below.getLast nonempty, (List.dropLast_append_getLast nonempty).symm⟩
      have freshTable : fresh ≠ table := by
        intro equal
        exact outside path (equal ▸ found)
      have cut : tableAt descend
          (setEntry (Function.update mem fresh blank) table index word) root
          (place :: index :: path) = none := by
        rw [table_at_cons linked, set_entry_other _ (Or.inl freshTable), Function.update_self]
        exact bare _ place
      apply table_at_none_of_suffix cut
      rw [← shape, List.append_assoc]
      exact List.suffix_append front _
    · rw [table_at_set_off clearedTree clearedFound through, cleared]

theorem is_tree_link (tree : IsTree descend mem root)
    (found : tableAt descend mem root path = some table) {fresh : Addr} {blank : Index → Word}
    (unlinked : descend path.length (mem table index) = none)
    (points : descend path.length word = some fresh)
    (outside : ∀ other, tableAt descend mem root other ≠ some fresh)
    (bare : ∀ level place, descend level (blank place) = none) :
    IsTree descend (setEntry (Function.update mem fresh blank) table index word) root := by
  have linked := table_at_link tree found unlinked points outside bare
  intro left right result onLeft onRight
  rw [linked] at onLeft onRight
  split_ifs at onLeft onRight with leftNew rightNew rightNew
  · exact leftNew.trans rightNew.symm
  · rw [← Option.some.inj onLeft] at onRight
    exact absurd onRight (outside right)
  · rw [← Option.some.inj onRight] at onLeft
    exact absurd onLeft (outside left)
  · exact tree left right result onLeft onRight

theorem leaf_at_link (tree : IsTree descend mem root)
    (exclusive : ∀ level word, descend level word ≠ none → leaf level word = none)
    (found : tableAt descend mem root path = some table) {fresh : Addr} {blank : Index → Word}
    (unlinked : descend path.length (mem table index) = none)
    (void : leaf path.length (mem table index) = none)
    (points : descend path.length word = some fresh)
    (outside : ∀ other, tableAt descend mem root other ≠ some fresh)
    (bare : ∀ level place, descend level (blank place) = none ∧ leaf level (blank place) = none)
    (other : List Index) :
    leafAt descend leaf (setEntry (Function.update mem fresh blank) table index word) root other =
      leafAt descend leaf mem root other := by
  have tables := table_at_link tree found unlinked points outside fun level place =>
    (bare level place).1
  have freshTable : ∀ upper place, tableAt descend mem root upper = some place → place ≠ fresh :=
    fun upper place reached equal => outside upper (equal ▸ reached)
  cases other with
  | nil => rfl
  | cons place other =>
      rw [leafAt, leafAt, tables]
      split_ifs with below
      · have missing : tableAt descend mem root other = none := by
          rw [below, table_at_cons found, unlinked]
        rw [missing, Option.bind_some, Option.bind_none,
          set_entry_other _ (Or.inl (freshTable path table found).symm), Function.update_self]
        exact (bare _ place).2
      · cases reached : tableAt descend mem root other with
        | none => rfl
        | some upper =>
            rw [Option.bind_some, Option.bind_some]
            by_cases written : upper = table ∧ place = index
            · obtain ⟨rfl, rfl⟩ := written
              rw [set_entry_self, tree other path upper reached found, void]
              exact exclusive _ _ (by simp [points])
            · rw [set_entry_other _ (not_and_or.mp written),
                Function.update_of_ne (freshTable other upper reached)]

end Write

end Campix.Lib.TableTree
