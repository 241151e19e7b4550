import Campix.Drivers.Paths
import Campix.Drivers.Vfs
import Campix.Lib.Trie
import Mathlib.Data.Char
import Mathlib.Data.List.Lex

/-!
# The mount tree

`MountNode` and `MountingPointsManager` of `drivers/vfs.rs`. A file system is named by
its allocation, which the tree refers to weakly. A node's children are a finite map; the
order in which the source's map goes through them is not observed here. `register_fs`
adds nodes on its way down and `remove_fs` takes the empty ones out on its way back, and
both return a tree also where they fail. The tree of every history is pruned, and denotes
a map from component lists to file systems no two of whose paths extend one another.
-/

namespace Campix.Drivers

open Lib
open Lib.Caching.Recent
open Lib.Entries

set_option autoImplicit false

/-- An `Arc<RwLock<Box<dyn FileSystem>>>`, by the number of its allocation. -/
abbrev Ref := Nat

abbrev MountNode := Trie Part Ref

structure MountingPointsManager where
  tree : MountNode

namespace MountNode

def registerParts (fs : Ref) : List Part → MountNode → Except VfsError Unit × MountNode
  | [], .node children contents =>
      if !children.isEmpty || contents.isSome then
        (.error .alreadyMounted, .node children contents)
      else (.ok (), .node children (some fs))
  | part :: rest, .node children contents =>
      if contents.isSome then (.error .alreadyMounted, .node children contents)
      else
        -- A vacant entry gets a node without children and contents.
        let child := (find children part).getD Trie.empty
        let registered := registerParts fs rest child
        (registered.1, .node (set children part registered.2) contents)

def removeParts : List Part → MountNode → Except VfsError Ref × MountNode
  | [], .node children contents =>
      match contents with
      | some fs => (.ok fs, .node children none)
      | none => (.error .pathNotFound, .node children none)
  | part :: rest, .node children contents =>
      match find children part with
      | none => (.error .pathNotFound, .node children contents)
      | some child =>
          match removeParts rest child with
          | (.error error, child) =>
              (.error error, .node (set children part child) contents)
          | (.ok fs, child) =>
              if child.children.isEmpty && child.contents.isNone then
                (.ok fs, .node (others children part) contents)
              else (.ok fs, .node (set children part child) contents)

end MountNode

namespace MountingPointsManager

def new : MountingPointsManager where
  tree := Trie.empty

def registerFs (manager : MountingPointsManager) (name : List Char) (fs : Ref) :
    Except VfsError Unit × MountingPointsManager :=
  let registered := MountNode.registerParts fs (PathSplitter.new name).parts manager.tree
  (registered.1, { tree := registered.2 })

def removeFs (manager : MountingPointsManager) (name : List Char) :
    Except VfsError Ref × MountingPointsManager :=
  let removed := MountNode.removeParts (PathSplitter.new name).parts manager.tree
  (removed.1, { tree := removed.2 })

def registered (manager : MountingPointsManager) (path : List Part) : Option Ref :=
  manager.tree.lookup path

end MountingPointsManager

namespace MountNode

open Trie

theorem register_free {fs : Ref} {path : List Part} {tree : MountNode} (pruned : tree.Pruned)
    (free : Free tree.lookup path) :
    (registerParts fs path tree).1 = .ok () ∧ (registerParts fs path tree).2.Pruned ∧
      (registerParts fs path tree).2.lookup = Function.update tree.lookup path (some fs) := by
  induction path generalizing tree with
  | nil =>
      obtain ⟨children, contents⟩ := tree
      obtain ⟨leaf, vacant⟩ := (bare_iff pruned).mpr (free_nil.mp free)
      change children = [] at leaf
      change contents = none at vacant
      subst leaf vacant
      refine ⟨rfl, ?_, ?_⟩
      · rw [pruned_iff]
        exact ⟨fun _ => rfl, fun part child found => absurd found.symm (Option.some_ne_none child)⟩
      · funext asked
        cases asked with
        | nil => rw [Function.update_self]; rfl
        | cons part rest => rw [Function.update_of_ne (List.cons_ne_nil part rest)]; rfl
  | cons part rest ih =>
      obtain ⟨children, contents⟩ := tree
      obtain ⟨vacant, below⟩ := (free_cons part rest).mp free
      change contents = none at vacant
      subst vacant
      obtain ⟨done, prunedBelow, changed⟩ := ih (pruned_child pruned part) below
      refine ⟨done, ?_, lookup_set_update changed⟩
      refine pruned_set pruned rfl prunedBelow fun leaf => ?_
      have found : (registerParts fs rest ((find children part).getD Trie.empty)).2.lookup rest =
          some fs := by
        refine (congrFun changed rest).trans ?_
        rw [Function.update_self]
      exact contents_of_lookup found leaf

/-- A path that competes with a registered one is refused, and the nodes the walk has gone
through are put back as they were. -/
theorem register_taken {fs : Ref} {path : List Part} {tree : MountNode} (pruned : tree.Pruned)
    (taken : ¬ Free tree.lookup path) :
    registerParts fs path tree = (.error .alreadyMounted, tree) := by
  induction path generalizing tree with
  | nil =>
      obtain ⟨children, contents⟩ := tree
      rw [free_nil, ← bare_iff pruned] at taken
      change ¬ (children = [] ∧ contents = none) at taken
      have occupied : (!children.isEmpty || contents.isSome) = true := by
        cases children <;> cases contents <;> simp_all
      rw [registerParts, if_pos occupied]
  | cons part rest ih =>
      obtain ⟨children, contents⟩ := tree
      rw [registerParts]
      cases contents with
      | some other => rfl
      | none =>
          have takenBelow : ¬ Free ((find children part).getD Trie.empty).lookup rest :=
            fun free => taken ((free_cons part rest).mpr ⟨rfl, free⟩)
          have refused : registerParts fs rest ((find children part).getD Trie.empty) =
              (.error .alreadyMounted, (find children part).getD Trie.empty) :=
            ih (pruned_child pruned part) takenBelow
          rw [if_neg (by simp)]
          simp only [refused]
          cases found : find children part with
          | none =>
              rw [found] at takenBelow
              exact absurd (fun path filled => absurd (lookup_empty path) filled) takenBelow
          | some child =>
              rw [Option.getD_some, set_find found]

theorem remove_registered {fs : Ref} {path : List Part} {tree : MountNode} (pruned : tree.Pruned)
    (found : tree.lookup path = some fs) :
    (removeParts path tree).1 = .ok fs ∧ (removeParts path tree).2.Pruned ∧
      (removeParts path tree).2.lookup = Function.update tree.lookup path none := by
  induction path generalizing tree with
  | nil =>
      obtain ⟨children, contents⟩ := tree
      change contents = some fs at found
      subst found
      have leaf : children = [] :=
        ((pruned_iff _).mp pruned).1 (Option.some_ne_none fs)
      subst leaf
      refine ⟨rfl, pruned_empty, ?_⟩
      funext asked
      cases asked with
      | nil => rw [Function.update_self]; rfl
      | cons part rest => rw [Function.update_of_ne (List.cons_ne_nil part rest)]; rfl
  | cons part rest ih =>
      obtain ⟨children, contents⟩ := tree
      rw [lookup_cons] at found
      obtain ⟨child, present, foundBelow⟩ := Option.bind_eq_some_iff.mp found
      change find children part = some child at present
      obtain ⟨prunedChild, _⟩ := ((pruned_iff _).mp pruned).2 part child present
      have vacant : contents = none := by
        by_contra filled
        have leaf : children = [] := ((pruned_iff _).mp pruned).1 filled
        rw [leaf] at present
        exact absurd present.symm (Option.some_ne_none child)
      obtain ⟨done, prunedBelow, changed⟩ := ih prunedChild foundBelow
      have changedHere : (Trie.node (set children part (removeParts rest child).2)
          contents).lookup =
          Function.update (Trie.node children contents).lookup (part :: rest) none := by
        refine lookup_set_update ?_
        rw [present]
        exact changed
      rw [removeParts, present]
      cases removal : removeParts rest child with
      | mk result after =>
          rw [removal] at done prunedBelow changedHere
          obtain rfl : result = .ok fs := done
          simp only [removal]
          by_cases bare : after.children.isEmpty && after.contents.isNone
          · rw [if_pos bare]
            obtain ⟨inner, value⟩ := after
            obtain ⟨leaf, gone⟩ : inner = [] ∧ value = none := by
              simpa [Trie.children, Trie.contents] using bare
            subst leaf gone
            exact ⟨rfl, pruned_others pruned vacant part, (lookup_others rfl).trans changedHere⟩
          · rw [if_neg bare]
            refine ⟨rfl, pruned_set pruned vacant prunedBelow fun leaf gone => bare ?_, changedHere⟩
            simp [leaf, gone]

theorem remove_unregistered {path : List Part} {tree : MountNode}
    (missing : tree.lookup path = none) :
    removeParts path tree = (.error .pathNotFound, tree) := by
  induction path generalizing tree with
  | nil =>
      obtain ⟨children, contents⟩ := tree
      change contents = none at missing
      subst missing
      rfl
  | cons part rest ih =>
      obtain ⟨children, contents⟩ := tree
      rw [lookup_cons] at missing
      rw [removeParts]
      cases present : find children part with
      | none => rfl
      | some child =>
          change (find children part).bind _ = none at missing
          rw [present] at missing
          simp only
          rw [ih missing]
          simp only
          rw [set_find present]

end MountNode

inductive MountCall where
  | register (name : List Char) (fs : Ref)
  | remove (name : List Char)

namespace MountingPointsManager

open Trie

def call (manager : MountingPointsManager) : MountCall → MountingPointsManager
  | .register name fs => (manager.registerFs name fs).2
  | .remove name => (manager.removeFs name).2

def afterCalls (calls : List MountCall) : MountingPointsManager :=
  calls.foldl call new

structure Sound (manager : MountingPointsManager) : Prop where
  pruned : manager.tree.Pruned
  finite : {path | manager.registered path ≠ none}.Finite

variable {manager : MountingPointsManager}

theorem sound_new : new.Sound where
  pruned := pruned_empty
  finite := by
    refine Set.Finite.subset Set.finite_empty fun path filled => filled ?_
    exact lookup_empty path

theorem register_of_free (pruned : manager.tree.Pruned) {name : List Char} {fs : Ref}
    (free : Free manager.registered (components name)) :
    (manager.registerFs name fs).1 = .ok () ∧ (manager.registerFs name fs).2.tree.Pruned ∧
      (manager.registerFs name fs).2.registered =
        Function.update manager.registered (components name) (some fs) := by
  unfold registerFs
  rw [PathSplitter.parts_new]
  exact MountNode.register_free pruned free

theorem register_of_taken (pruned : manager.tree.Pruned) {name : List Char} {fs : Ref}
    (taken : ¬ Free manager.registered (components name)) :
    manager.registerFs name fs = (.error .alreadyMounted, manager) := by
  unfold registerFs
  rw [PathSplitter.parts_new, MountNode.register_taken pruned taken]

theorem remove_of_registered (pruned : manager.tree.Pruned) {name : List Char} {fs : Ref}
    (found : manager.registered (components name) = some fs) :
    (manager.removeFs name).1 = .ok fs ∧ (manager.removeFs name).2.tree.Pruned ∧
      (manager.removeFs name).2.registered =
        Function.update manager.registered (components name) none := by
  unfold removeFs
  rw [PathSplitter.parts_new]
  exact MountNode.remove_registered pruned found

theorem remove_of_unregistered {name : List Char}
    (missing : manager.registered (components name) = none) :
    manager.removeFs name = (.error .pathNotFound, manager) := by
  unfold removeFs
  rw [PathSplitter.parts_new, MountNode.remove_unregistered missing]

theorem finite_update {bindings : List Part → Option Ref} {path : List Part} {value : Option Ref}
    (finite : {asked | bindings asked ≠ none}.Finite) :
    {asked | Function.update bindings path value asked ≠ none}.Finite := by
  refine Set.Finite.subset (finite.insert path) fun asked filled => ?_
  by_cases same : asked = path
  · exact .inl same
  · refine .inr ?_
    rw [Set.mem_ofPred_eq, Function.update_of_ne same] at filled
    exact filled

theorem sound_call (sound : manager.Sound) (made : MountCall) : (manager.call made).Sound := by
  cases made with
  | register name fs =>
      change (manager.registerFs name fs).2.Sound
      by_cases free : Free manager.registered (components name)
      · obtain ⟨_, pruned, changed⟩ := @register_of_free _ sound.pruned _ fs free
        exact ⟨pruned, by rw [changed]; exact finite_update sound.finite⟩
      · rw [register_of_taken sound.pruned free]
        exact sound
  | remove name =>
      change (manager.removeFs name).2.Sound
      cases found : manager.registered (components name) with
      | some fs =>
          obtain ⟨_, pruned, changed⟩ := remove_of_registered sound.pruned found
          exact ⟨pruned, by rw [changed]; exact finite_update sound.finite⟩
      | none =>
          rw [remove_of_unregistered found]
          exact sound

theorem sound_calls (calls : List MountCall) : (afterCalls calls).Sound := by
  refine List.foldlRecOn calls call sound_new fun manager sound made _ => ?_
  exact sound_call sound made

def Sound.map (sound : manager.Sound) : PrefixFree Part Ref where
  bindings := manager.registered
  finite := sound.finite
  incomparable _ _ firstFilled secondFilled := eq_of_prefix sound.pruned firstFilled secondFilled

/-- After any calls the tree is a prefix-free finite map with contents exactly at its leaves,
and each further call reads or changes that map at the path it names, or nothing. -/
theorem mount_tree_is_prefix_free_map (calls : List MountCall) :
    (∃ map : PrefixFree Part Ref, (afterCalls calls).registered = map.bindings) ∧
      (afterCalls calls).tree.Pruned ∧
      (∀ name fs,
        (((afterCalls calls).registerFs name fs).1 = .ok () ↔
          Free (afterCalls calls).registered (components name)) ∧
        (((afterCalls calls).registerFs name fs).1 = .ok () →
          ((afterCalls calls).registerFs name fs).2.registered =
            Function.update (afterCalls calls).registered (components name) (some fs)) ∧
        (((afterCalls calls).registerFs name fs).1 ≠ .ok () →
          ((afterCalls calls).registerFs name fs).2 = afterCalls calls)) ∧
      (∀ name,
        (∀ fs, ((afterCalls calls).removeFs name).1 = .ok fs ↔
          (afterCalls calls).registered (components name) = some fs) ∧
        (∀ fs, ((afterCalls calls).removeFs name).1 = .ok fs →
          ((afterCalls calls).removeFs name).2.registered =
            Function.update (afterCalls calls).registered (components name) none) ∧
        ((∀ fs, ((afterCalls calls).removeFs name).1 ≠ .ok fs) →
          ((afterCalls calls).removeFs name).2 = afterCalls calls)) := by
  have sound := sound_calls calls
  refine ⟨⟨sound.map, rfl⟩, sound.pruned, fun name fs => ?_, fun name => ?_⟩
  · by_cases free : Free (afterCalls calls).registered (components name)
    · obtain ⟨done, _, changed⟩ := @register_of_free _ sound.pruned _ fs free
      exact ⟨⟨fun _ => free, fun _ => done⟩, fun _ => changed, fun failed => absurd done failed⟩
    · rw [register_of_taken sound.pruned free]
      have refused : (.error .alreadyMounted : Except VfsError Unit) ≠ .ok () := by simp
      exact ⟨⟨fun done => absurd done refused, fun given => absurd given free⟩,
        fun done => absurd done refused, fun _ => rfl⟩
  · cases found : (afterCalls calls).registered (components name) with
    | some present =>
        obtain ⟨done, _, changed⟩ := remove_of_registered sound.pruned found
        refine ⟨fun fs => ?_, fun _ _ => changed, fun failed => absurd done (failed present)⟩
        rw [done, Except.ok.injEq, Option.some.injEq]
    | none =>
        rw [remove_of_unregistered found]
        refine ⟨fun fs => ?_, fun fs done => ?_, fun _ => rfl⟩
        · constructor
          · intro done
            exact absurd done (by simp)
          · intro given
            exact absurd given.symm (Option.some_ne_none fs)
        · exact absurd done (by simp)

end MountingPointsManager

end Campix.Drivers
