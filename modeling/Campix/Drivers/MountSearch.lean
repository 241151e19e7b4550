import Campix.Drivers.MountTree

/-!
# The search for a mount

`search_fs` of `drivers/vfs.rs` walks down the tree while it takes parts off a splitter, and
returns the splitter with the file system. It takes a part before it looks for the child of that
name. So where the walk stops at a mount because there is no such child, the part is gone: a path
below a mount comes back without the first component behind it.
-/

namespace Campix.Drivers

open Lib
open Lib.Caching.Recent

set_option autoImplicit false

namespace MountNode

/-- The loop of `search_fs`, cut off after `rounds` rounds. -/
def searchParts : Nat → MountNode → PathSplitter → Option (Ref × PathSplitter)
  | 0, node, splitter => node.contents.map fun fs => (fs, splitter)
  | rounds + 1, node, splitter =>
      if splitter.isDone then node.contents.map fun fs => (fs, splitter)
      else
        let (part, splitter) := splitter.nextPart
        match find node.children part with
        | some child => searchParts rounds child splitter
        | none => node.contents.map fun fs => (fs, splitter)

end MountNode

def MountingPointsManager.searchFs (manager : MountingPointsManager) (name : List Char) :
    Option (Ref × PathSplitter) :=
  let splitter := PathSplitter.new name
  MountNode.searchParts (splitter.path.length - splitter.idx) manager.tree splitter

namespace PathSplitter

def ahead (splitter : PathSplitter) : List Part := components (splitter.path.drop splitter.idx)

variable {splitter : PathSplitter}

theorem parts_ahead (aligned : splitter.Aligned) : splitter.parts = splitter.ahead :=
  partsWithin_eq aligned (le_refl _)

theorem ahead_done (done : splitter.isDone = true) : splitter.ahead = [] := by
  rw [ahead, (isDone_iff splitter).mp done]
  rfl

theorem next_part_spec (aligned : splitter.Aligned) (more : splitter.isDone = false) :
    splitter.ahead = splitter.nextPart.1 :: splitter.nextPart.2.ahead ∧
      splitter.nextPart.2.Aligned ∧
      splitter.nextPart.2.path.length - splitter.nextPart.2.idx <
        splitter.path.length - splitter.idx := by
  obtain ⟨peeked, _, same, next, alignedNext, moved, first⟩ := peek_spec aligned more
  have within : splitter.idx < splitter.path.length := by
    simpa [isDone] using more
  have path : peeked.apply.2.path = splitter.path := by
    change peeked.splitter.path = splitter.path
    rw [same]
  have idx : peeked.apply.2.idx = peeked.idx := rfl
  rw [next]
  refine ⟨?_, alignedNext, ?_⟩
  · rw [ahead, first, ahead, path, idx]
    rfl
  · rw [path, idx]
    omega

end PathSplitter

namespace MountNode

open Trie

/-- The walk finds the mount on its way, and what it returns has lost the part it looked for
last. -/
theorem search_mounted {fs : Ref} (rounds : Nat) :
    ∀ {node : MountNode} {splitter : PathSplitter} {path rest : List Part}, node.Pruned →
      splitter.Aligned → splitter.path.length - splitter.idx ≤ rounds →
      splitter.ahead = path ++ rest → node.lookup path = some fs →
      ∃ returned, searchParts rounds node splitter = some (fs, returned) ∧
        returned.parts = rest.tail := by
  have stops : ∀ {node : MountNode} {splitter : PathSplitter} {path rest : List Part},
      splitter.Aligned → splitter.isDone = true → splitter.ahead = path ++ rest →
      node.lookup path = some fs →
      node.contents = some fs ∧ splitter.parts = rest.tail := by
    intro node splitter path rest aligned done ahead found
    rw [PathSplitter.ahead_done done] at ahead
    obtain ⟨rfl, rfl⟩ := List.append_eq_nil_iff.mp ahead.symm
    exact ⟨found, (PathSplitter.parts_ahead aligned).trans (PathSplitter.ahead_done done)⟩
  induction rounds with
  | zero =>
      intro node splitter path rest _ aligned enough ahead found
      have done : splitter.isDone = true := by
        simp only [PathSplitter.isDone, decide_eq_true_iff]
        omega
      obtain ⟨contents, parts⟩ := stops aligned done ahead found
      refine ⟨splitter, ?_, parts⟩
      rw [searchParts, contents]
      rfl
  | succ rounds ih =>
      intro node splitter path rest pruned aligned enough ahead found
      rw [searchParts]
      cases done : splitter.isDone with
      | true =>
          obtain ⟨contents, parts⟩ := stops aligned done ahead found
          refine ⟨splitter, ?_, parts⟩
          rw [if_pos rfl, contents]
          rfl
      | false =>
          obtain ⟨first, alignedNext, moved⟩ := PathSplitter.next_part_spec aligned done
          rw [if_neg Bool.false_ne_true]
          rw [first] at ahead
          simp only
          cases path with
          | nil =>
              have contents : node.contents = some fs := found
              have leaf : node.children = [] := by
                apply ((pruned_iff _).mp pruned).1
                rw [contents]
                exact Option.some_ne_none fs
              refine ⟨splitter.nextPart.2, ?_, ?_⟩
              · rw [leaf, contents]
                rfl
              · rw [PathSplitter.parts_ahead alignedNext, ← List.nil_append rest, ← ahead]
                rfl
          | cons part path =>
              obtain ⟨same, later⟩ := List.cons.inj ahead
              rw [lookup_cons] at found
              obtain ⟨child, present, below⟩ := Option.bind_eq_some_iff.mp found
              rw [same, present]
              exact ih (((pruned_iff _).mp pruned).2 part child present).1 alignedNext (by omega)
                later below

theorem search_unmounted (rounds : Nat) :
    ∀ {node : MountNode} {splitter : PathSplitter}, splitter.Aligned →
      splitter.path.length - splitter.idx ≤ rounds →
      (∀ path rest, splitter.ahead = path ++ rest → node.lookup path = none) →
      searchParts rounds node splitter = none := by
  induction rounds with
  | zero =>
      intro node splitter aligned enough missing
      have contents : node.contents = none := missing [] _ rfl
      rw [searchParts, contents]
      rfl
  | succ rounds ih =>
      intro node splitter aligned enough missing
      have contents : node.contents = none := missing [] _ rfl
      rw [searchParts]
      cases done : splitter.isDone with
      | true => rw [if_pos rfl, contents]; rfl
      | false =>
          obtain ⟨first, alignedNext, moved⟩ := PathSplitter.next_part_spec aligned done
          rw [if_neg Bool.false_ne_true]
          simp only
          cases present : find node.children splitter.nextPart.1 with
          | none => simp only [contents, Option.map_none]
          | some child =>
              apply ih alignedNext (by omega)
              intro path rest ahead
              have below := missing (splitter.nextPart.1 :: path) rest (by rw [first, ahead]; rfl)
              rw [lookup_cons, present] at below
              exact below

end MountNode

namespace MountingPointsManager

variable {manager : MountingPointsManager} {name : List Char}

theorem search_registered (pruned : manager.tree.Pruned) {path rest : List Part} {fs : Ref}
    (split : components name = path ++ rest) (found : manager.registered path = some fs) :
    ∃ returned, manager.searchFs name = some (fs, returned) ∧ returned.parts = rest.tail := by
  rw [← PathSplitter.components_new] at split
  exact MountNode.search_mounted _ pruned (PathSplitter.aligned_new name) (le_refl _) split found

theorem search_unregistered
    (missing : ∀ path, path <+: components name → manager.registered path = none) :
    manager.searchFs name = none := by
  refine MountNode.search_unmounted _ (PathSplitter.aligned_new name) (le_refl _) ?_
  intro path rest split
  have whole : components name = path ++ rest :=
    (PathSplitter.components_new name).symm.trans split
  exact missing path ⟨rest, whole.symm⟩

/-- A search finds the file system exactly where a registered path is in front, and leaves what
stands behind that path. -/
structure FindsRest (manager : MountingPointsManager) (name : List Char) : Prop where
  found : ∀ fs splitter, manager.searchFs name = some (fs, splitter) →
    ∃ path, manager.registered path = some fs ∧ components name = path ++ splitter.parts
  finds : ∀ path rest fs, components name = path ++ rest → manager.registered path = some fs →
    ∃ splitter, manager.searchFs name = some (fs, splitter) ∧ splitter.parts = rest

/-- The rest is lost one component in wherever there is one. -/
theorem finds_rest_iff (calls : List MountCall) (name : List Char) :
    FindsRest (afterCalls calls) name ↔
      ∀ path, path <+: components name → (afterCalls calls).registered path ≠ none →
        path = components name := by
  have pruned := (sound_calls calls).pruned
  constructor
  · intro right path front filled
    obtain ⟨rest, split⟩ := front
    obtain ⟨fs, found⟩ := Option.ne_none_iff_exists'.mp filled
    obtain ⟨splitter, searched, parts⟩ := right.finds path rest fs split.symm found
    obtain ⟨returned, again, lost⟩ := search_registered pruned split.symm found
    rw [searched, Option.some.injEq, Prod.mk.injEq] at again
    obtain ⟨-, rfl⟩ := again
    have short : rest = rest.tail := parts.symm.trans lost
    cases rest with
    | nil => rw [← split, List.append_nil]
    | cons part rest => exact absurd short (List.cons_ne_self part rest)
  · intro whole
    have finds : ∀ path rest fs, components name = path ++ rest →
        (afterCalls calls).registered path = some fs →
        ∃ splitter, (afterCalls calls).searchFs name = some (fs, splitter) ∧
          splitter.parts = rest := by
      intro path rest fs split found
      have same : path = components name :=
        whole path ⟨rest, split.symm⟩ (by rw [found]; exact Option.some_ne_none fs)
      have nothing : rest = [] := by
        rw [← same] at split
        exact List.self_eq_append_right.mp split
      obtain ⟨splitter, searched, parts⟩ := search_registered pruned split found
      exact ⟨splitter, searched, by rw [parts, nothing]; rfl⟩
    refine ⟨?_, finds⟩
    intro fs splitter searched
    by_cases missing : ∀ path, path <+: components name →
        (afterCalls calls).registered path = none
    · rw [search_unregistered missing] at searched
      exact absurd searched (by simp)
    · push Not at missing
      obtain ⟨path, ⟨rest, split⟩, filled⟩ := missing
      obtain ⟨other, found⟩ := Option.ne_none_iff_exists'.mp filled
      obtain ⟨returned, again, parts⟩ := finds path rest other split.symm found
      rw [searched, Option.some.injEq, Prod.mk.injEq] at again
      obtain ⟨rfl, rfl⟩ := again
      exact ⟨path, found, by rw [parts, split]⟩

/-- A file system is mounted at `/a`; the search for `/a/b` returns a splitter without `b`. -/
theorem search_loses_component :
    ¬FindsRest (afterCalls [.register ['/', 'a'] 0]) ['/', 'a', '/', 'b'] := by
  intro right
  have pruned := (sound_calls [.register ['/', 'a'] 0]).pruned
  have split : components ['/', 'a', '/', 'b'] = [['a']] ++ [['b']] := by decide
  have found : (afterCalls [.register ['/', 'a'] 0]).registered [['a']] = some 0 := by decide
  obtain ⟨splitter, searched, parts⟩ := right.finds _ _ _ split found
  obtain ⟨returned, again, lost⟩ := search_registered pruned split found
  rw [searched, Option.some.injEq, Prod.mk.injEq] at again
  obtain ⟨-, rfl⟩ := again
  exact absurd (parts.symm.trans lost) (by decide)

end MountingPointsManager

end Campix.Drivers
