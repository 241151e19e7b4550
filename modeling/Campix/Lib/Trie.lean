import Mathlib.Data.List.Infix
import Mathlib.Data.Set.Finite.Basic
import Campix.Lib.Caching

/-!
# Tries

A node of a trie has a child for each key of a finite map, and may hold a value. A
trie denotes the map from key sequences to values that `lookup` reads off it. It is
pruned when values stand only at nodes without children, and every node without
children, the root apart, has one. Then no sequence with a value extends another, and a
node has children exactly when some value stands below it.
-/

set_option autoImplicit false

namespace Campix.Lib.Entries

open Lib.Caching.Recent

variable {Key Value : Type} [DecidableEq Key]

/-- The entry of the key is replaced where it stands; a new one goes to the end. -/
def set : List (Key × Value) → Key → Value → List (Key × Value)
  | [], key, value => [(key, value)]
  | (other, old) :: rest, key, value =>
      if other = key then (key, value) :: rest else (other, old) :: set rest key value

theorem find_set (entries : List (Key × Value)) (key : Key) (value : Value) :
    find (set entries key value) = Function.update (find entries) key (some value) := by
  induction entries with
  | nil => exact find_cons [] key value
  | cons entry rest ih =>
      obtain ⟨other, old⟩ := entry
      by_cases same : other = key
      · subst same
        rw [set, if_pos rfl, find_cons, find_cons, Function.update_idem]
      · rw [set, if_neg same, find_cons, ih, find_cons, Function.update_comm same]

theorem set_find {entries : List (Key × Value)} {key : Key} {value : Value}
    (found : find entries key = some value) : set entries key value = entries := by
  induction entries with
  | nil => simp [find] at found
  | cons entry rest ih =>
      obtain ⟨other, old⟩ := entry
      rw [find_cons] at found
      by_cases same : other = key
      · subst same
        rw [Function.update_self] at found
        rw [set, if_pos rfl, Option.some.inj found]
      · rw [Function.update_of_ne (Ne.symm same)] at found
        rw [set, if_neg same, ih found]

theorem exists_find_of_ne_nil {entries : List (Key × Value)} (nonempty : entries ≠ []) :
    ∃ key value, find entries key = some value := by
  cases entries with
  | nil => exact absurd rfl nonempty
  | cons entry rest => exact ⟨entry.1, entry.2, by rw [find_cons, Function.update_self]⟩

theorem mem_of_find {entries : List (Key × Value)} {key : Key} {value : Value}
    (found : find entries key = some value) : (key, value) ∈ entries := by
  obtain ⟨entry, first, second⟩ := Option.map_eq_some_iff.mp found
  have key_eq : entry.1 = key := by simpa using List.find?_some first
  have member := List.mem_of_find?_eq_some first
  rwa [← key_eq, ← second]

def Keyed (entries : List (Key × Value)) : Prop := (entries.map Prod.fst).Nodup

theorem mem_set_keys {entries : List (Key × Value)} {key other : Key} {value : Value}
    (member : other ∈ (set entries key value).map Prod.fst) :
    other = key ∨ other ∈ entries.map Prod.fst := by
  induction entries with
  | nil => exact .inl (List.mem_singleton.mp member)
  | cons entry rest ih =>
      obtain ⟨first, old⟩ := entry
      by_cases same : first = key
      · rw [set, if_pos same] at member
        exact (List.mem_cons.mp member).imp id fun later => List.mem_cons_of_mem _ later
      · rw [set, if_neg same] at member
        rcases List.mem_cons.mp member with rfl | later
        · exact .inr List.mem_cons_self
        · exact (ih later).imp id fun inside => List.mem_cons_of_mem _ inside

theorem keyed_set {entries : List (Key × Value)} (keyed : Keyed entries) (key : Key)
    (value : Value) :
    Keyed (set entries key value) := by
  induction entries with
  | nil => exact List.nodup_singleton _
  | cons entry rest ih =>
      obtain ⟨first, old⟩ := entry
      obtain ⟨absent, keyedRest⟩ := List.nodup_cons.mp keyed
      by_cases same : first = key
      · rw [set, if_pos same]
        exact List.nodup_cons.mpr ⟨same ▸ absent, keyedRest⟩
      · rw [set, if_neg same]
        refine List.nodup_cons.mpr ⟨fun member => ?_, ih keyedRest⟩
        exact (mem_set_keys member).elim same absent

theorem keyed_others {entries : List (Key × Value)} (keyed : Keyed entries) (key : Key) :
    Keyed (others entries key) :=
  List.Nodup.sublist (List.filter_sublist.map Prod.fst) keyed

theorem mem_iff_find_keyed {entries : List (Key × Value)} (keyed : Keyed entries) {key : Key}
    {value : Value} : (key, value) ∈ entries ↔ find entries key = some value :=
  ⟨fun member => find_of_mem keyed member, mem_of_find⟩

end Campix.Lib.Entries

namespace Campix.Lib

inductive Trie (Key Value : Type) where
  | node (children : List (Key × Trie Key Value)) (contents : Option Value)

namespace Trie

open Lib.Caching.Recent
open Lib.Entries

variable {Key Value : Type}

def children : Trie Key Value → List (Key × Trie Key Value)
  | .node children _ => children

def contents : Trie Key Value → Option Value
  | .node _ contents => contents

def empty : Trie Key Value :=
  .node [] none

variable [DecidableEq Key]

def descend : Trie Key Value → List Key → Option (Trie Key Value)
  | trie, [] => some trie
  | trie, key :: path => (find trie.children key).bind fun child => child.descend path

def lookup (trie : Trie Key Value) (path : List Key) : Option Value :=
  (trie.descend path).bind contents

/-- Values stand only at leaves, and every leaf other than the root has one. -/
def Pruned (trie : Trie Key Value) : Prop :=
  ∀ path node, trie.descend path = some node →
    (node.contents ≠ none → node.children = []) ∧
      (path ≠ [] → node.children = [] → node.contents ≠ none)

theorem lookup_nil (trie : Trie Key Value) : trie.lookup [] = trie.contents := rfl

theorem lookup_cons (trie : Trie Key Value) (key : Key) (path : List Key) :
    trie.lookup (key :: path) = (find trie.children key).bind fun child => child.lookup path := by
  rw [lookup, descend, Option.bind_assoc]
  rfl

theorem lookup_empty (path : List Key) : (empty : Trie Key Value).lookup path = none := by
  cases path with
  | nil => rfl
  | cons key path => rfl

theorem lookup_below (trie : Trie Key Value) (key : Key) (path : List Key) :
    trie.lookup (key :: path) = ((find trie.children key).getD empty).lookup path := by
  rw [lookup_cons]
  cases find trie.children key with
  | none => exact (lookup_empty path).symm
  | some child => rfl

theorem lookup_set (children : List (Key × Trie Key Value)) (contents : Option Value)
    (key : Key) (child : Trie Key Value) (other : Key) (path : List Key) :
    (node (set children key child) contents).lookup (other :: path) =
      if other = key then child.lookup path else (node children contents).lookup
        (other :: path) := by
  rw [lookup_cons, lookup_cons]
  change (find (set children key child) other).bind _ = _
  rw [find_set]
  by_cases same : other = key
  · rw [if_pos same, same, Function.update_self]
    rfl
  · rw [if_neg same, Function.update_of_ne same]
    rfl

/-- Putting a changed child in place changes the map exactly as the child's map changed. -/
theorem lookup_set_update {children : List (Key × Trie Key Value)} {contents : Option Value}
    {key : Key} {child : Trie Key Value} {path : List Key} {value : Option Value}
    (changed : child.lookup =
      Function.update ((find children key).getD empty).lookup path value) :
    (node (set children key child) contents).lookup =
      Function.update (node children contents).lookup (key :: path) value := by
  funext asked
  cases asked with
  | nil => rw [Function.update_of_ne (List.cons_ne_nil key path).symm]; rfl
  | cons other rest =>
      rw [lookup_set]
      by_cases same : other = key
      · rw [if_pos same, changed, same]
        by_cases equal : rest = path
        · rw [equal, Function.update_self, Function.update_self]
        · rw [Function.update_of_ne equal,
            Function.update_of_ne (fun eq => equal (List.cons.inj eq).2), lookup_below]
          rfl
      · rw [if_neg same, Function.update_of_ne (fun eq => same (List.cons.inj eq).1)]

/-- A child that has become empty may as well be taken out. -/
theorem lookup_others {children : List (Key × Trie Key Value)} {contents : Option Value}
    {key : Key} {child : Trie Key Value} (bare : child = empty) :
    (node (others children key) contents).lookup =
      (node (set children key child) contents).lookup := by
  funext asked
  cases asked with
  | nil => rfl
  | cons other rest =>
      rw [lookup_below, lookup_below]
      change ((find (others children key) other).getD empty).lookup rest =
        ((find (set children key child) other).getD empty).lookup rest
      rw [find_others, find_set]
      by_cases same : other = key
      · rw [same, Function.update_self, Function.update_self, bare]
        rfl
      · rw [Function.update_of_ne same, Function.update_of_ne same]

theorem contents_of_lookup {trie : Trie Key Value} {path : List Key} {value : Value}
    (found : trie.lookup path = some value) (leaf : trie.children = []) :
    trie.contents ≠ none := by
  cases path with
  | nil =>
      rw [← lookup_nil, found]
      exact Option.some_ne_none value
  | cons key path =>
      rw [lookup_cons, leaf] at found
      exact absurd found (Option.some_ne_none value).symm

theorem pruned_iff (trie : Trie Key Value) :
    trie.Pruned ↔ (trie.contents ≠ none → trie.children = []) ∧
      ∀ key child, find trie.children key = some child →
        child.Pruned ∧ (child.children = [] → child.contents ≠ none) := by
  constructor
  · intro pruned
    refine ⟨(pruned [] trie rfl).1, fun key child found => ⟨?_, ?_⟩⟩
    · intro path node reached
      have further : trie.descend (key :: path) = some node := by
        rw [descend, found]
        exact reached
      have here := pruned (key :: path) node further
      exact ⟨here.1, fun _ => here.2 (List.cons_ne_nil key path)⟩
    · have further : trie.descend [key] = some child := by
        rw [descend, found]
        rfl
      exact (pruned [key] child further).2 (List.cons_ne_nil key [])
  · rintro ⟨atRoot, below⟩ path node reached
    cases path with
    | nil =>
        obtain rfl : trie = node := Option.some.inj reached
        exact ⟨atRoot, fun nonempty => absurd rfl nonempty⟩
    | cons key path =>
        rw [descend] at reached
        obtain ⟨child, found, further⟩ := Option.bind_eq_some_iff.mp reached
        obtain ⟨pruned, full⟩ := below key child found
        refine ⟨(pruned path node further).1, fun _ => ?_⟩
        cases path with
        | nil =>
            obtain rfl : child = node := Option.some.inj further
            exact full
        | cons next path => exact (pruned _ node further).2 (List.cons_ne_nil next path)

theorem pruned_empty : (empty : Trie Key Value).Pruned := by
  rw [pruned_iff]
  exact ⟨fun _ => rfl, fun key child found => absurd found (by simp [find, empty, children])⟩

theorem pruned_child {trie : Trie Key Value} (pruned : trie.Pruned) (key : Key) :
    ((find trie.children key).getD empty).Pruned := by
  cases found : find trie.children key with
  | none => exact pruned_empty
  | some child => exact (((pruned_iff trie).mp pruned).2 key child found).1

theorem pruned_set {children : List (Key × Trie Key Value)} {contents : Option Value}
    (pruned : (node children contents).Pruned) (vacant : contents = none) {key : Key}
    {child : Trie Key Value} (below : child.Pruned)
    (full : child.children = [] → child.contents ≠ none) :
    (node (set children key child) contents).Pruned := by
  rw [pruned_iff]
  refine ⟨fun filled => absurd vacant filled, fun other inner found => ?_⟩
  change find (set children key child) other = some inner at found
  rw [find_set] at found
  by_cases same : other = key
  · rw [same, Function.update_self] at found
    obtain rfl := Option.some.inj found
    exact ⟨below, full⟩
  · rw [Function.update_of_ne same] at found
    exact ((pruned_iff _).mp pruned).2 other inner found

theorem pruned_others {children : List (Key × Trie Key Value)} {contents : Option Value}
    (pruned : (node children contents).Pruned) (vacant : contents = none) (key : Key) :
    (node (others children key) contents).Pruned := by
  rw [pruned_iff]
  refine ⟨fun filled => absurd vacant filled, fun other inner found => ?_⟩
  change find (others children key) other = some inner at found
  rw [find_others] at found
  by_cases same : other = key
  · rw [same, Function.update_self] at found
    exact absurd found.symm (Option.some_ne_none inner)
  · rw [Function.update_of_ne same] at found
    exact ((pruned_iff _).mp pruned).2 other inner found

/-- The children of every node are a finite map. -/
def Distinct (trie : Trie Key Value) : Prop :=
  ∀ path node, trie.descend path = some node → Keyed node.children

theorem distinct_iff (trie : Trie Key Value) :
    trie.Distinct ↔ Keyed trie.children ∧
      ∀ key child, find trie.children key = some child → child.Distinct := by
  constructor
  · intro distinct
    refine ⟨distinct [] trie rfl, fun key child found path node reached => ?_⟩
    apply distinct (key :: path) node
    rw [descend, found]
    exact reached
  · rintro ⟨here, below⟩ path node reached
    cases path with
    | nil =>
        obtain rfl : trie = node := Option.some.inj reached
        exact here
    | cons key path =>
        rw [descend] at reached
        obtain ⟨child, found, further⟩ := Option.bind_eq_some_iff.mp reached
        exact below key child found path node further

theorem distinct_empty : (empty : Trie Key Value).Distinct := by
  rw [distinct_iff]
  exact ⟨List.nodup_nil, fun key child found => absurd found (by simp [find, empty, children])⟩

theorem distinct_child {trie : Trie Key Value} (distinct : trie.Distinct) (key : Key) :
    ((find trie.children key).getD empty).Distinct := by
  cases found : find trie.children key with
  | none => exact distinct_empty
  | some child => exact ((distinct_iff trie).mp distinct).2 key child found

theorem distinct_contents {children : List (Key × Trie Key Value)} {contents : Option Value}
    (distinct : (node children contents).Distinct) (other : Option Value) :
    (node children other).Distinct := by
  rw [distinct_iff] at distinct ⊢
  exact distinct

theorem distinct_set {children : List (Key × Trie Key Value)} {contents : Option Value}
    (distinct : (node children contents).Distinct) {key : Key} {child : Trie Key Value}
    (below : child.Distinct) : (node (set children key child) contents).Distinct := by
  obtain ⟨keyed, inner⟩ := (distinct_iff _).mp distinct
  rw [distinct_iff]
  refine ⟨keyed_set keyed key child, fun other next found => ?_⟩
  change find (set children key child) other = some next at found
  rw [find_set] at found
  by_cases same : other = key
  · rw [same, Function.update_self] at found
    obtain rfl := Option.some.inj found
    exact below
  · rw [Function.update_of_ne same] at found
    exact inner other next found

theorem distinct_others {children : List (Key × Trie Key Value)} {contents : Option Value}
    (distinct : (node children contents).Distinct) (key : Key) :
    (node (others children key) contents).Distinct := by
  obtain ⟨keyed, inner⟩ := (distinct_iff _).mp distinct
  rw [distinct_iff]
  refine ⟨keyed_others keyed key, fun other next found => ?_⟩
  change find (others children key) other = some next at found
  rw [find_others] at found
  by_cases same : other = key
  · rw [same, Function.update_self] at found
    exact absurd found.symm (Option.some_ne_none next)
  · rw [Function.update_of_ne same] at found
    exact inner other next found

theorem sizeOf_child {trie child : Trie Key Value} {key : Key}
    (found : find trie.children key = some child) : sizeOf child < sizeOf trie := by
  obtain ⟨children, contents⟩ := trie
  have member := List.sizeOf_lt_of_mem (mem_of_find found)
  change sizeOf (key, child) < sizeOf children at member
  simp only [node.sizeOf_spec, Prod.mk.sizeOf_spec] at member ⊢
  omega

/-- Below a node with children some value stands: the walk down ends at a leaf. -/
theorem exists_lookup {trie : Trie Key Value} (pruned : trie.Pruned)
    (full : trie.children = [] → trie.contents ≠ none) : ∃ path, trie.lookup path ≠ none := by
  by_cases leaf : trie.children = []
  · exact ⟨[], full leaf⟩
  · obtain ⟨key, child, found⟩ := exists_find_of_ne_nil leaf
    obtain ⟨below, fullBelow⟩ := ((pruned_iff trie).mp pruned).2 key child found
    have smaller := sizeOf_child found
    obtain ⟨path, value⟩ := exists_lookup below fullBelow
    refine ⟨key :: path, ?_⟩
    rw [lookup_cons, found]
    exact value
termination_by sizeOf trie

/-- In a pruned trie a node is bare exactly when nothing is registered from it on. -/
theorem bare_iff {trie : Trie Key Value} (pruned : trie.Pruned) :
    trie.children = [] ∧ trie.contents = none ↔ ∀ path, trie.lookup path = none := by
  constructor
  · rintro ⟨leaf, vacant⟩ path
    by_contra filled
    obtain ⟨value, found⟩ := Option.ne_none_iff_exists'.mp filled
    exact contents_of_lookup found leaf vacant
  · intro nowhere
    have vacant : trie.contents = none := nowhere []
    refine ⟨?_, vacant⟩
    by_contra branching
    obtain ⟨path, filled⟩ := exists_lookup pruned fun leaf => absurd leaf branching
    exact filled (nowhere path)

/-- What a pruned trie denotes: a finite map no two of whose sequences extend one another. -/
structure PrefixFree (Key Value : Type) where
  bindings : List Key → Option Value
  finite : {path | bindings path ≠ none}.Finite
  incomparable : ∀ first second, bindings first ≠ none → bindings second ≠ none →
    first <+: second → first = second

theorem eq_of_prefix {trie : Trie Key Value} (pruned : trie.Pruned) {first second : List Key}
    (firstFilled : trie.lookup first ≠ none) (secondFilled : trie.lookup second ≠ none)
    (longer : first <+: second) : first = second := by
  induction first generalizing trie second with
  | nil =>
      have leaf := ((pruned_iff trie).mp pruned).1 firstFilled
      cases second with
      | nil => rfl
      | cons key path =>
          rw [lookup_cons, leaf] at secondFilled
          exact absurd rfl secondFilled
  | cons key first ih =>
      obtain ⟨rest, rfl⟩ := longer
      rw [List.cons_append]
      rw [lookup_below] at firstFilled
      rw [List.cons_append, lookup_below] at secondFilled
      rw [← ih (pruned_child pruned key) firstFilled secondFilled (List.prefix_append first rest)]

def Competes (first second : List Key) : Prop :=
  first <+: second ∨ second <+: first

/-- The map has room for a sequence when it competes with none of the map's. -/
def Free (bindings : List Key → Option Value) (path : List Key) : Prop :=
  ∀ other, bindings other ≠ none → ¬ Competes other path

theorem free_nil {trie : Trie Key Value} :
    Free trie.lookup [] ↔ ∀ path, trie.lookup path = none := by
  constructor
  · intro free path
    by_contra filled
    exact free path filled (.inr List.nil_prefix)
  · intro nowhere path filled
    exact absurd (nowhere path) filled

theorem free_cons {trie : Trie Key Value} (key : Key) (rest : List Key) :
    Free trie.lookup (key :: rest) ↔ trie.contents = none ∧
      Free ((find trie.children key).getD empty).lookup rest := by
  constructor
  · intro free
    refine ⟨?_, fun path filled competes => ?_⟩
    · by_contra filled
      exact free [] filled (.inl List.nil_prefix)
    · rw [← lookup_below] at filled
      refine free (key :: path) filled ?_
      exact competes.imp (fun before => List.cons_prefix_cons.mpr ⟨rfl, before⟩)
        fun after => List.cons_prefix_cons.mpr ⟨rfl, after⟩
  · rintro ⟨vacant, free⟩ path filled competes
    cases path with
    | nil => exact filled vacant
    | cons other path =>
        have same : other = key ∧ Competes path rest := by
          rcases competes with before | after
          · exact (List.cons_prefix_cons.mp before).imp id .inl
          · exact (List.cons_prefix_cons.mp after).imp Eq.symm .inr
        rw [same.1, lookup_below] at filled
        exact free path filled same.2

/-- The first value on the way, with what is left of the sequence; or the node without a value
at its end; or nowhere. -/
inductive Landing (Key Value : Type) where
  | missing
  | branch
  | value (value : Value) (rest : List Key)

def walk : Trie Key Value → List Key → Landing Key Value
  | .node _ (some value), path => .value value path
  | .node _ none, [] => .branch
  | .node children none, key :: path =>
      match find children key with
      | none => .missing
      | some child => child.walk path

theorem vacant_of_lookup_cons {trie : Trie Key Value} (pruned : trie.Pruned) {key : Key}
    {path : List Key} (filled : trie.lookup (key :: path) ≠ none) :
    trie.contents = none ∧
      ∃ child, find trie.children key = some child ∧ child.lookup path ≠ none := by
  rw [lookup_cons] at filled
  cases found : find trie.children key with
  | none =>
      rw [found] at filled
      exact absurd rfl filled
  | some child =>
      rw [found] at filled
      refine ⟨?_, child, rfl, filled⟩
      by_contra occupied
      rw [((pruned_iff trie).mp pruned).1 occupied] at found
      exact absurd found.symm (Option.some_ne_none child)

theorem walk_nil {trie : Trie Key Value} (vacant : trie.contents = none) :
    trie.walk [] = .branch := by
  obtain ⟨children, contents⟩ := trie
  change contents = none at vacant
  rw [vacant, walk]

theorem walk_step {trie child : Trie Key Value} (vacant : trie.contents = none) {key : Key}
    (found : find trie.children key = some child) (path : List Key) :
    trie.walk (key :: path) = child.walk path := by
  obtain ⟨children, contents⟩ := trie
  change contents = none at vacant
  subst vacant
  change find children key = some child at found
  rw [walk, found]

theorem walk_value {trie : Trie Key Value} (pruned : trie.Pruned) {path : List Key} {value : Value}
    (found : trie.lookup path = some value) (rest : List Key) :
    trie.walk (path ++ rest) = .value value rest := by
  induction path generalizing trie with
  | nil =>
      obtain ⟨children, contents⟩ := trie
      change contents = some value at found
      rw [found, List.nil_append, walk]
  | cons key path ih =>
      have filled : trie.lookup (key :: path) ≠ none := by
        rw [found]
        exact Option.some_ne_none value
      obtain ⟨vacant, child, present, _⟩ := vacant_of_lookup_cons pruned filled
      rw [List.cons_append, walk_step vacant present]
      rw [lookup_cons, present] at found
      exact ih (((pruned_iff trie).mp pruned).2 key child present).1 found

theorem walk_branch {trie : Trie Key Value} (pruned : trie.Pruned) {path rest : List Key}
    (filled : trie.lookup (path ++ rest) ≠ none) (further : rest ≠ []) :
    trie.walk path = .branch := by
  induction path generalizing trie with
  | nil =>
      obtain ⟨key, rest, rfl⟩ := List.exists_cons_of_ne_nil further
      exact walk_nil (vacant_of_lookup_cons pruned filled).1
  | cons key path ih =>
      obtain ⟨vacant, child, present, below⟩ := vacant_of_lookup_cons pruned filled
      rw [walk_step vacant present]
      exact ih (((pruned_iff trie).mp pruned).2 key child present).1 below

theorem walk_missing {trie : Trie Key Value} (pruned : trie.Pruned) {path : List Key}
    (free : Free trie.lookup path) (proper : path ≠ []) : trie.walk path = .missing := by
  induction path generalizing trie with
  | nil => exact absurd rfl proper
  | cons key rest ih =>
      obtain ⟨vacant, below⟩ := (free_cons key rest).mp free
      cases found : find trie.children key with
      | none =>
          obtain ⟨children, contents⟩ := trie
          change contents = none at vacant
          change find children key = none at found
          rw [vacant, walk, found]
      | some child =>
          rw [found] at below
          rw [walk_step vacant found]
          obtain ⟨prunedChild, full⟩ := ((pruned_iff trie).mp pruned).2 key child found
          refine ih prunedChild below fun ended => ?_
          obtain ⟨path, filled⟩ := exists_lookup prunedChild full
          rw [ended] at below
          exact filled (free_nil.mp below path)

end Trie

end Campix.Lib
