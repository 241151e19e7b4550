import Mathlib.Data.List.Infix
import Mathlib.Data.List.TakeWhile

/-!
# Paths

`PathSplitter` of `drivers/vfs.rs` cuts a path at its slashes. A path is a slice of
characters, and a splitter is an index into it past the slashes before the next part.
Every loop over a splitter takes one part in each round until the splitter is done; it
goes through `parts`, which are the components of the path, the empty ones left out.
-/

namespace Campix.Drivers

set_option autoImplicit false

abbrev Part := List Char

def skipWhile (test : Char → Bool) (path : List Char) (idx : Nat) : Nat :=
  idx + ((path.drop idx).takeWhile test).length

structure PathSplitter where
  path : List Char
  idx : Nat
  lastPart : Option Part
  deriving Repr, DecidableEq

structure PathSplitterPeek where
  splitter : PathSplitter
  slice : Part
  idx : Nat
  deriving Repr, DecidableEq

namespace PathSplitterPeek

def apply (peeked : PathSplitterPeek) : Part × PathSplitter :=
  (peeked.slice, { peeked.splitter with lastPart := some peeked.slice, idx := peeked.idx })

def getPathPart (peeked : PathSplitterPeek) : Part :=
  peeked.slice

end PathSplitterPeek

namespace PathSplitter

def new (path : List Char) : PathSplitter where
  path := path
  idx := skipWhile (· == '/') path 0
  lastPart := none

def isDone (splitter : PathSplitter) : Bool :=
  splitter.path.length ≤ splitter.idx

def peek (splitter : PathSplitter) : Option PathSplitterPeek :=
  if splitter.isDone then none
  else
    let idx := skipWhile (· != '/') splitter.path splitter.idx
    some {
      splitter := splitter
      slice := (splitter.path.drop splitter.idx).take (idx - splitter.idx)
      idx := skipWhile (· == '/') splitter.path idx }

def nextPart (splitter : PathSplitter) : Part × PathSplitter :=
  match splitter.peek with
  | none => (splitter.path.drop splitter.idx, splitter)
  | some peeked => peeked.apply

/-- `while !splitter.is_done() { let part = splitter.next_part(); .. }`, cut off after
`rounds` rounds. -/
def partsWithin : Nat → PathSplitter → List Part
  | 0, _ => []
  | rounds + 1, splitter =>
      if splitter.isDone then []
      else splitter.nextPart.1 :: partsWithin rounds splitter.nextPart.2

def parts (splitter : PathSplitter) : List Part :=
  partsWithin (splitter.path.length - splitter.idx) splitter

end PathSplitter

def components (path : List Char) : List Part :=
  (path.splitOn '/').filter (· ≠ [])

theorem components_nil : components [] = [] := rfl

theorem components_append_slash (front back : List Char) :
    components (front ++ '/' :: back) = components front ++ components back := by
  unfold components
  rw [List.splitOn_append_cons_self, List.filter_append]

theorem components_slash (path : List Char) : components ('/' :: path) = components path :=
  components_append_slash [] path

theorem components_part {part : Part} (plain : '/' ∉ part) (nonempty : part ≠ []) :
    components part = [part] := by
  unfold components
  rw [List.splitOn_eq_singleton plain]
  simp [nonempty]

theorem plain_of_mem_splitOn (path : List Char) :
    ∀ part ∈ path.splitOn '/', '/' ∉ part := by
  induction path with
  | nil => simp
  | cons char path ih =>
      intro part member
      rw [List.splitOn_cons_eq_if_modifyHead] at member
      by_cases slash : char = '/'
      · rw [if_pos (by simpa using slash)] at member
        rcases List.mem_cons.mp member with rfl | member
        · exact List.not_mem_nil
        · exact ih part member
      · rw [if_neg (by simpa using slash)] at member
        cases pieces : path.splitOn '/' with
        | nil => exact absurd pieces (List.splitOn_ne_nil '/' path)
        | cons first others =>
            rw [pieces, List.modifyHead_cons] at member
            rcases List.mem_cons.mp member with rfl | member
            · have plain := ih first (by rw [pieces]; exact List.mem_cons_self)
              rw [List.mem_cons]
              rintro (same | inside)
              · exact slash same.symm
              · exact plain inside
            · exact ih part (by rw [pieces]; exact List.mem_cons_of_mem _ member)

theorem plain_of_mem_components {path : List Char} {part : Part}
    (member : part ∈ components path) : '/' ∉ part ∧ part ≠ [] := by
  obtain ⟨piece, nonempty⟩ := List.mem_filter.mp member
  exact ⟨plain_of_mem_splitOn path part piece, by simpa using nonempty⟩

theorem components_dropWhile (path : List Char) :
    components (path.dropWhile (· == '/')) = components path := by
  induction path with
  | nil => rfl
  | cons char path ih =>
      by_cases slash : char = '/'
      · rw [slash, List.dropWhile_cons_of_pos (by rfl), ih, components_slash]
      · rw [List.dropWhile_cons_of_neg (by simpa using slash)]

/-- The first part of a path that does not begin with a slash, and what follows it. -/
theorem components_first {rest : List Char} (nonempty : rest ≠ [])
    (aligned : rest.head? ≠ some '/') :
    rest.takeWhile (· != '/') ≠ [] ∧
      components rest = rest.takeWhile (· != '/') :: components (rest.dropWhile (· != '/')) := by
  have plain : '/' ∉ rest.takeWhile (· != '/') := fun inside => by
    simpa using List.mem_takeWhile_imp inside
  have filled : rest.takeWhile (· != '/') ≠ [] := by
    cases rest with
    | nil => exact absurd rfl nonempty
    | cons char rest =>
        have other : char ≠ '/' := fun slash => aligned (by rw [slash]; rfl)
        rw [List.takeWhile_cons_of_pos (by simpa using other)]
        exact List.cons_ne_nil _ _
  refine ⟨filled, ?_⟩
  have whole := List.takeWhile_append_dropWhile (p := (· != '/')) (l := rest)
  cases after : rest.dropWhile (· != '/') with
  | nil =>
      rw [after, List.append_nil] at whole
      rw [whole, components_nil]
      rw [whole] at plain filled
      exact components_part plain filled
  | cons char back =>
      have slash : char = '/' := by
        have first := List.head_dropWhile_not (· != '/') (l := rest) (by rw [after]; simp)
        simpa [after] using first
      subst slash
      have split := components_append_slash (rest.takeWhile (· != '/')) back
      rw [← after, whole, components_part plain filled] at split
      rw [split, components_slash]
      rfl

namespace PathSplitter

/-- The index stands at the end of the path or at the beginning of a part. -/
def Aligned (splitter : PathSplitter) : Prop :=
  (splitter.path.drop splitter.idx).head? ≠ some '/'

theorem drop_skipWhile (test : Char → Bool) (path : List Char) (idx : Nat) :
    path.drop (skipWhile test path idx) = (path.drop idx).dropWhile test := by
  have whole := List.prefix_iff_eq_append.mp (List.takeWhile_prefix test (l := path.drop idx))
  have split := List.takeWhile_append_dropWhile (p := test) (l := path.drop idx)
  rw [skipWhile, ← List.drop_drop]
  exact List.append_cancel_left (whole.trans split.symm)

theorem head_dropWhile_slash (path : List Char) :
    (path.dropWhile (· == '/')).head? ≠ some '/' := by
  intro slash
  cases rest : path.dropWhile (· == '/') with
  | nil => simp [rest] at slash
  | cons char back =>
      have first := List.head_dropWhile_not (· == '/') (l := path) (by rw [rest]; simp)
      simp [rest] at slash first
      exact first slash

theorem isDone_iff (splitter : PathSplitter) :
    splitter.isDone = true ↔ splitter.path.drop splitter.idx = [] := by
  simp [isDone]

theorem aligned_new (path : List Char) : (new path).Aligned := by
  unfold Aligned
  change (path.drop (skipWhile (· == '/') path 0)).head? ≠ some '/'
  rw [drop_skipWhile]
  exact head_dropWhile_slash _

/-- One round: the part taken is the first component of what is left of the path. -/
theorem peek_spec {splitter : PathSplitter} (aligned : splitter.Aligned)
    (more : splitter.isDone = false) :
    ∃ peeked, splitter.peek = some peeked ∧ peeked.splitter = splitter ∧
      splitter.nextPart = peeked.apply ∧ peeked.apply.2.Aligned ∧
      splitter.idx < peeked.idx ∧
      components (splitter.path.drop splitter.idx) =
        peeked.slice :: components (splitter.path.drop peeked.idx) := by
  have remains : splitter.path.drop splitter.idx ≠ [] := fun nothing => by
    rw [(isDone_iff splitter).mpr nothing] at more
    exact Bool.noConfusion more
  obtain ⟨filled, first⟩ := components_first remains aligned
  refine ⟨_, by rw [peek, if_neg (by simp [more])], rfl, ?_, ?_, ?_, ?_⟩
  · rw [nextPart, peek, if_neg (by simp [more])]
  · unfold Aligned
    simp only [PathSplitterPeek.apply]
    rw [drop_skipWhile]
    exact head_dropWhile_slash _
  · have positive := List.length_pos_of_ne_nil filled
    change splitter.idx < skipWhile (· == '/') splitter.path
      (skipWhile (· != '/') splitter.path splitter.idx)
    unfold skipWhile
    omega
  · simp only
    rw [drop_skipWhile, drop_skipWhile, components_dropWhile, first]
    congr 1
    have length : skipWhile (· != '/') splitter.path splitter.idx - splitter.idx =
        ((splitter.path.drop splitter.idx).takeWhile (· != '/')).length := by
      unfold skipWhile
      omega
    rw [length]
    exact List.prefix_iff_eq_take.mp (List.takeWhile_prefix _)

theorem partsWithin_eq {rounds : Nat} {splitter : PathSplitter} (aligned : splitter.Aligned)
    (enough : splitter.path.length - splitter.idx ≤ rounds) :
    partsWithin rounds splitter = components (splitter.path.drop splitter.idx) := by
  induction rounds generalizing splitter with
  | zero =>
      have nothing : splitter.path.drop splitter.idx = [] := List.drop_eq_nil_of_le (by omega)
      rw [nothing]
      rfl
  | succ rounds ih =>
      rw [partsWithin]
      cases done : splitter.isDone with
      | true =>
          rw [(isDone_iff splitter).mp done]
          rfl
      | false =>
          obtain ⟨peeked, _, same, next, alignedNext, moved, first⟩ := peek_spec aligned done
          have within : splitter.idx < splitter.path.length := by
            simpa [isDone] using done
          rw [if_neg Bool.false_ne_true, next, ih alignedNext, first]
          · simp only [PathSplitterPeek.apply, same]
          · simp only [PathSplitterPeek.apply, same]
            omega

theorem components_new (path : List Char) :
    components (path.drop (new path).idx) = components path := by
  change components (path.drop (skipWhile (· == '/') path 0)) = components path
  rw [drop_skipWhile, components_dropWhile]
  rfl

theorem parts_new (path : List Char) : (new path).parts = components path := by
  rw [parts, partsWithin_eq (aligned_new path) (le_refl _)]
  exact components_new path

end PathSplitter

end Campix.Drivers
