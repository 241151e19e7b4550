import Campix.Drivers.Paths

/-!
# The parts of a path as runs of characters

A part is a run of characters between slashes that cannot be made longer at either end. A
loop that takes parts until the splitter is done goes through all runs of the path from left
to right. A splitter can also be used in any other way: a peek may be applied or dropped, and
parts may be asked for when none is left.
-/

namespace Campix.Drivers

set_option autoImplicit false

/-- The places from `begin_` up to `end_` hold no slash, and there is one on either side or
the path ends there. -/
structure MaximalRun (path : List Char) (begin_ end_ : Nat) : Prop where
  nonempty : begin_ < end_
  inside : end_ ≤ path.length
  plain : ∀ place, begin_ ≤ place → place < end_ → path[place]? ≠ some '/'
  opened : begin_ = 0 ∨ path[begin_ - 1]? = some '/'
  closed : end_ = path.length ∨ path[end_]? = some '/'

def runSlice (path : List Char) (run : Nat × Nat) : Part :=
  (path.drop run.1).take (run.2 - run.1)

theorem run_slice_plain {path : List Char} {begin_ end_ : Nat} (run : MaximalRun path begin_ end_) :
    runSlice path (begin_, end_) ≠ [] ∧ '/' ∉ runSlice path (begin_, end_) := by
  have nonempty := run.nonempty
  have inside := run.inside
  have length : (runSlice path (begin_, end_)).length = end_ - begin_ := by
    rw [runSlice, List.length_take, List.length_drop]
    omega
  constructor
  · intro none
    rw [none, List.length_nil] at length
    omega
  · intro slash
    obtain ⟨offset, within, here⟩ := List.mem_iff_getElem.mp slash
    have place : path[begin_ + offset]? = some '/' := by
      rw [← here, ← List.getElem?_eq_getElem within, runSlice,
        List.getElem?_take_of_lt (by omega), List.getElem?_drop]
    exact run.plain _ (Nat.le_add_right _ _) (by omega) place

/-- What a user can do with a splitter: `PathUse.peek` drops what was peeked. -/
inductive PathUse where
  | nextPart
  | peek
  | peekApply
  deriving DecidableEq

namespace PathSplitter

/-- The loop `while !splitter.is_done() { splitter.next_part() }` with the parts it takes and
the splitter that it ends with. -/
inductive Drained : PathSplitter → List Part → PathSplitter → Prop where
  | done {splitter : PathSplitter} (done : splitter.isDone = true) : Drained splitter [] splitter
  | next {splitter final : PathSplitter} {later : List Part} (more : splitter.isDone = false)
      (rest : Drained splitter.nextPart.2 later final) :
      Drained splitter (splitter.nextPart.1 :: later) final

/-- The part that is applied, if any, and the splitter after it. A peek that is dropped gives
back the splitter it holds. -/
def use (splitter : PathSplitter) : PathUse → Option Part × PathSplitter
  | .nextPart =>
      (if splitter.isDone then none else some splitter.nextPart.1, splitter.nextPart.2)
  | .peek =>
      match splitter.peek with
      | none => (none, splitter)
      | some peeked => (none, peeked.splitter)
  | .peekApply =>
      match splitter.peek with
      | none => (none, splitter)
      | some peeked => (some peeked.apply.1, peeked.apply.2)

def uses : PathSplitter → List PathUse → List Part × PathSplitter
  | splitter, [] => ([], splitter)
  | splitter, kind :: kinds =>
      let rest := uses (splitter.use kind).2 kinds
      ((splitter.use kind).1.toList ++ rest.1, rest.2)

theorem skip_while_le (test : Char → Bool) {path : List Char} {idx : Nat}
    (inside : idx ≤ path.length) :
    idx ≤ skipWhile test path idx ∧ skipWhile test path idx ≤ path.length := by
  have short := (List.takeWhile_prefix test (l := path.drop idx)).length_le
  rw [List.length_drop] at short
  unfold skipWhile
  omega

theorem skip_while_passed {test : Char → Bool} {path : List Char} {idx place : Nat}
    (behind : idx ≤ place) (before : place < skipWhile test path idx) :
    ∃ char, path[place]? = some char ∧ test char = true := by
  unfold skipWhile at before
  obtain ⟨offset, rfl⟩ := Nat.exists_eq_add_of_le behind
  have within : offset < ((path.drop idx).takeWhile test).length := by omega
  have same := (List.takeWhile_prefix test (l := path.drop idx)).getElem within
  have here : path[idx + offset]? = some ((path.drop idx).takeWhile test)[offset] := by
    rw [← List.getElem?_drop, same, List.getElem?_eq_getElem]
  exact ⟨_, here, List.mem_takeWhile_imp (List.getElem_mem within)⟩

theorem skip_while_stopped (test : Char → Bool) {path : List Char} {idx : Nat}
    (inside : idx ≤ path.length) :
    skipWhile test path idx = path.length ∨
      ∃ char, path[skipWhile test path idx]? = some char ∧ test char = false := by
  have rest := drop_skipWhile test path idx
  have bound := (skip_while_le test inside).2
  cases left : (path.drop idx).dropWhile test with
  | nil =>
      rw [left] at rest
      have reached := List.drop_eq_nil_iff.mp rest
      exact Or.inl (by omega)
  | cons char back =>
      have stops := List.head_dropWhile_not test (l := path.drop idx) (by rw [left]; simp)
      refine Or.inr ⟨char, ?_, by simpa [left] using stops⟩
      have head := congrArg List.head? rest
      rwa [List.head?_drop, left] at head

section Part

variable {splitter : PathSplitter}

def partEnd (splitter : PathSplitter) : Nat := skipWhile (· != '/') splitter.path splitter.idx

def nextIdx (splitter : PathSplitter) : Nat := skipWhile (· == '/') splitter.path splitter.partEnd

structure AtPart (splitter : PathSplitter) : Prop where
  inside : splitter.idx ≤ splitter.path.length
  plain : splitter.path[splitter.idx]? ≠ some '/'
  opened : splitter.isDone = true ∨ splitter.idx = 0 ∨ splitter.path[splitter.idx - 1]? = some '/'

theorem peek_more (more : splitter.isDone = false) :
    splitter.peek = some {
      splitter := splitter
      slice := runSlice splitter.path (splitter.idx, splitter.partEnd)
      idx := splitter.nextIdx } := by
  rw [peek, if_neg (by rw [more]; exact Bool.false_ne_true)]
  rfl

theorem peek_done (done : splitter.isDone = true) : splitter.peek = none := by
  rw [peek, if_pos done]

theorem next_part_more (more : splitter.isDone = false) :
    splitter.nextPart = (runSlice splitter.path (splitter.idx, splitter.partEnd),
      { splitter with
        lastPart := some (runSlice splitter.path (splitter.idx, splitter.partEnd))
        idx := splitter.nextIdx }) := by
  rw [nextPart, peek_more more]
  rfl

theorem next_part_done (done : splitter.isDone = true) : splitter.nextPart = ([], splitter) := by
  rw [nextPart, peek_done done, (isDone_iff splitter).mp done]

theorem not_done_iff : splitter.isDone = false ↔ splitter.idx < splitter.path.length := by
  unfold isDone
  rw [decide_eq_false_iff_not, Nat.not_le]

theorem skip_slashes_stops {path : List Char} {idx : Nat} (inside : idx ≤ path.length) :
    path[skipWhile (· == '/') path idx]? ≠ some '/' := by
  rcases skip_while_stopped (· == '/') inside with reached | ⟨char, here, other⟩
  · rw [reached, List.getElem?_eq_none (Nat.le_refl _)]
    exact Option.some_ne_none _ |>.symm
  · rw [here]
    rintro ⟨rfl⟩
    exact absurd other (by decide)

theorem at_part_new (path : List Char) : AtPart (new path) := by
  have bounds := skip_while_le (· == '/') (Nat.zero_le path.length)
  refine ⟨bounds.2, skip_slashes_stops (Nat.zero_le _), Or.inr ?_⟩
  by_cases first : (new path).idx = 0
  · exact Or.inl first
  · have before : (new path).idx - 1 < skipWhile (· == '/') path 0 :=
      Nat.sub_lt (Nat.pos_of_ne_zero first) Nat.one_pos
    obtain ⟨char, here, slash⟩ := skip_while_passed (Nat.zero_le _) before
    obtain rfl : char = '/' := by simpa using slash
    exact Or.inr here

theorem part_end_le (start : AtPart splitter) :
    splitter.idx ≤ splitter.partEnd ∧ splitter.partEnd ≤ splitter.path.length :=
  skip_while_le _ start.inside

theorem next_idx_le (start : AtPart splitter) :
    splitter.partEnd ≤ splitter.nextIdx ∧ splitter.nextIdx ≤ splitter.path.length :=
  skip_while_le _ (part_end_le start).2

theorem part_end_closed (start : AtPart splitter) :
    splitter.partEnd = splitter.path.length ∨ splitter.path[splitter.partEnd]? = some '/' := by
  rcases skip_while_stopped (· != '/') start.inside with reached | ⟨char, here, slash⟩
  · exact Or.inl reached
  · obtain rfl : char = '/' := by simpa using slash
    exact Or.inr here

theorem part_end_lt (start : AtPart splitter) (more : splitter.isDone = false) :
    splitter.idx < splitter.partEnd := by
  have inside := not_done_iff.mp more
  refine lt_of_le_of_ne (part_end_le start).1 fun same => ?_
  rcases part_end_closed start with reached | slash
  · omega
  · rw [← same] at slash
    exact start.plain slash

theorem slashes_skipped {place : Nat} (behind : splitter.partEnd ≤ place)
    (before : place < splitter.nextIdx) : splitter.path[place]? = some '/' := by
  obtain ⟨char, here, slash⟩ := skip_while_passed behind before
  obtain rfl : char = '/' := by simpa using slash
  exact here

theorem first_run (start : AtPart splitter) (more : splitter.isDone = false) :
    MaximalRun splitter.path splitter.idx splitter.partEnd where
  nonempty := part_end_lt start more
  inside := (part_end_le start).2
  plain := by
    intro place behind before slash
    obtain ⟨char, here, plain⟩ := skip_while_passed behind before
    obtain rfl : char = '/' := Option.some.inj (here.symm.trans slash)
    exact absurd plain (by decide)
  opened := start.opened.resolve_left (by rw [more]; exact Bool.false_ne_true)
  closed := part_end_closed start

theorem next_idx_lt (start : AtPart splitter) (left : splitter.partEnd < splitter.path.length) :
    splitter.partEnd < splitter.nextIdx := by
  have slash := (part_end_closed start).resolve_left (by omega)
  refine lt_of_le_of_ne (next_idx_le start).1 fun same => ?_
  have stops := skip_slashes_stops (part_end_le start).2
  change splitter.path[splitter.nextIdx]? ≠ some '/' at stops
  rw [← same] at stops
  exact stops slash

theorem at_part_next (start : AtPart splitter) (more : splitter.isDone = false) :
    AtPart splitter.nextPart.2 := by
  rw [next_part_more more]
  refine ⟨(next_idx_le start).2, skip_slashes_stops (part_end_le start).2, ?_⟩
  have ahead := next_idx_le start
  by_cases left : splitter.partEnd < splitter.path.length
  · have passed := next_idx_lt start left
    have slash := slashes_skipped (show splitter.partEnd ≤ splitter.nextIdx - 1 by omega) (by omega)
    exact Or.inr (Or.inr slash)
  · refine Or.inl ?_
    change decide (splitter.path.length ≤ splitter.nextIdx) = true
    rw [decide_eq_true_iff]
    omega

/-- The runs from the splitter on are the part it stands at and those after the slashes
behind it. -/
theorem runs_from (start : AtPart splitter) (more : splitter.isDone = false) (begin_ end_ : Nat) :
    (MaximalRun splitter.path begin_ end_ ∧ splitter.idx ≤ begin_) ↔
      (begin_ = splitter.idx ∧ end_ = splitter.partEnd) ∨
        (MaximalRun splitter.path begin_ end_ ∧ splitter.nextIdx ≤ begin_) := by
  have first := first_run start more
  constructor
  · rintro ⟨run, behind⟩
    by_cases here : begin_ = splitter.idx
    · refine Or.inl ⟨here, ?_⟩
      subst here
      have notShorter : ¬end_ < splitter.partEnd := by
        intro shorter
        have nonempty := run.nonempty
        have inside := first.inside
        rcases run.closed with reached | slash
        · omega
        · exact first.plain end_ (by omega) shorter slash
      have notLonger : ¬splitter.partEnd < end_ := by
        intro longer
        have nonempty := first.nonempty
        have inside := run.inside
        rcases first.closed with reached | slash
        · omega
        · exact run.plain splitter.partEnd (by omega) longer slash
      omega
    · have slash := run.opened.resolve_left (by omega)
      have outside : ¬begin_ - 1 < splitter.partEnd := fun within =>
        first.plain (begin_ - 1) (by omega) within slash
      refine Or.inr ⟨run, ?_⟩
      by_contra within
      exact run.plain begin_ (Nat.le_refl _) run.nonempty
        (slashes_skipped (by omega) (by omega))
  · rintro (⟨rfl, rfl⟩ | ⟨run, behind⟩)
    · exact ⟨first, Nat.le_refl _⟩
    · have ahead := next_idx_le start
      have nonempty := first.nonempty
      exact ⟨run, by omega⟩

theorem no_runs (done : splitter.isDone = true) (begin_ end_ : Nat) :
    ¬(MaximalRun splitter.path begin_ end_ ∧ splitter.idx ≤ begin_) := by
  rintro ⟨run, behind⟩
  have stop : splitter.path.length ≤ splitter.idx := by simpa [isDone] using done
  have inside := run.inside
  have nonempty := run.nonempty
  omega

end Part

structure RunsFrom (splitter : PathSplitter) (runs : List (Nat × Nat)) : Prop where
  exact_ : ∀ begin_ end_, (begin_, end_) ∈ runs ↔
    MaximalRun splitter.path begin_ end_ ∧ splitter.idx ≤ begin_
  ordered : runs.Pairwise fun first second => first.2 < second.1

theorem runs_from_cons {splitter : PathSplitter} {runs : List (Nat × Nat)} (start : splitter.AtPart)
    (more : splitter.isDone = false) (rest : RunsFrom splitter.nextPart.2 runs) :
    RunsFrom splitter ((splitter.idx, splitter.partEnd) :: runs) := by
  rw [next_part_more more] at rest
  have later : ∀ begin_ end_, (begin_, end_) ∈ runs ↔
      MaximalRun splitter.path begin_ end_ ∧ splitter.nextIdx ≤ begin_ := rest.exact_
  refine ⟨?_, List.pairwise_cons.mpr ⟨?_, rest.ordered⟩⟩
  · intro begin_ end_
    rw [List.mem_cons, Prod.mk.injEq, later, runs_from start more]
  · rintro ⟨begin_, end_⟩ member
    obtain ⟨run, behind⟩ := (later begin_ end_).mp member
    have nonempty := run.nonempty
    have inside := run.inside
    have ahead := next_idx_le start
    have passed := next_idx_lt start (by omega)
    exact lt_of_lt_of_le passed behind

theorem runs_from_done {splitter : PathSplitter} (done : splitter.isDone = true) :
    RunsFrom splitter [] := by
  refine ⟨?_, List.Pairwise.nil⟩
  intro begin_ end_
  exact ⟨fun member => absurd member List.not_mem_nil, fun run => absurd run (no_runs done _ _)⟩

theorem drained_runs (rounds : Nat) : ∀ splitter : PathSplitter, splitter.AtPart →
    splitter.path.length - splitter.idx ≤ rounds →
    ∃ runs final, Drained splitter (runs.map (runSlice splitter.path)) final ∧
      RunsFrom splitter runs := by
  induction rounds with
  | zero =>
      intro splitter _ enough
      have done : splitter.isDone = true := by
        rw [isDone, decide_eq_true_iff]
        omega
      exact ⟨[], splitter, Drained.done done, runs_from_done done⟩
  | succ rounds ih =>
      intro splitter start enough
      cases more : splitter.isDone with
      | true => exact ⟨[], splitter, Drained.done more, runs_from_done more⟩
      | false =>
          have nonempty := part_end_lt start more
          have ahead := next_idx_le start
          have next := at_part_next start more
          have shorter : splitter.nextPart.2.path.length - splitter.nextPart.2.idx ≤ rounds := by
            rw [next_part_more more]
            change splitter.path.length - splitter.nextIdx ≤ rounds
            omega
          obtain ⟨runs, final, drained, rest⟩ := ih _ next shorter
          refine ⟨(splitter.idx, splitter.partEnd) :: runs, final, ?_,
            runs_from_cons start more rest⟩
          have whole := Drained.next more drained
          rw [next_part_more more] at whole
          exact whole

/-- The parts of the loop are those the other loops over the splitter go through. -/
theorem drained_components {splitter final : PathSplitter} {taken : List Part}
    (drained : Drained splitter taken final) (aligned : splitter.Aligned) :
    taken = components (splitter.path.drop splitter.idx) := by
  induction drained with
  | done done =>
      rw [(isDone_iff _).mp done]
      rfl
  | next more _ ih =>
      obtain ⟨peeked, _, same, next, alignedNext, _, first⟩ := peek_spec aligned more
      rw [next] at ih ⊢
      rw [first, ih alignedNext]
      simp only [PathSplitterPeek.apply, same]

theorem use_peek (splitter : PathSplitter) : splitter.use .peek = (none, splitter) := by
  cases done : splitter.isDone with
  | true => rw [use, peek_done done]
  | false => rw [use, peek_more done]

theorem use_done {splitter : PathSplitter} (done : splitter.isDone = true) (kind : PathUse) :
    splitter.use kind = (none, splitter) := by
  cases kind with
  | nextPart => rw [use, if_pos done, next_part_done done]
  | peek => exact use_peek splitter
  | peekApply => rw [use, peek_done done]

theorem use_more {splitter : PathSplitter} (more : splitter.isDone = false) {kind : PathUse}
    (applies : kind ≠ .peek) :
    splitter.use kind = (some splitter.nextPart.1, splitter.nextPart.2) := by
  cases kind with
  | nextPart => rw [use, if_neg (by rw [more]; exact Bool.false_ne_true)]
  | peek => exact absurd rfl applies
  | peekApply =>
      rw [use, next_part_more more, peek_more more]
      rfl

def applications (kinds : List PathUse) : Nat := (kinds.filter (· ≠ .peek)).length

theorem applications_peek (kinds : List PathUse) :
    applications (.peek :: kinds) = applications kinds := rfl

theorem applications_applies {kind : PathUse} (applies : kind ≠ .peek) (kinds : List PathUse) :
    applications (kind :: kinds) = applications kinds + 1 := by
  rw [applications, List.filter_cons_of_pos (by simpa using applies), List.length_cons]
  rfl

theorem uses_peek (splitter : PathSplitter) (kinds : List PathUse) :
    splitter.uses (.peek :: kinds) = splitter.uses kinds := by
  rw [uses, use_peek]
  rfl

/-- However a splitter is used, it gives the parts of the loop one after the other, and it is
done when all of them were given. -/
theorem uses_drained {splitter final : PathSplitter} {taken : List Part}
    (drained : Drained splitter taken final) (kinds : List PathUse) :
    (splitter.uses kinds).1 = taken.take (applications kinds) ∧
      (splitter.uses kinds).2.lastPart = (splitter.uses kinds).1.getLast?.or splitter.lastPart ∧
      ((splitter.uses kinds).2.isDone = true ↔ taken.length ≤ applications kinds) := by
  induction kinds generalizing splitter taken with
  | nil =>
      refine ⟨(List.take_zero).symm, rfl, ?_⟩
      cases drained with
      | done done => exact ⟨fun _ => Nat.le_refl 0, fun _ => done⟩
      | next more rest =>
          exact ⟨fun done => absurd (more.symm.trans done) Bool.false_ne_true,
            fun none => absurd none (Nat.not_succ_le_zero _)⟩
  | cons kind kinds ih =>
      by_cases applies : kind = .peek
      · subst applies
        rw [uses_peek, applications_peek]
        exact ih drained
      · rw [applications_applies applies, uses]
        cases drained with
        | done done =>
            rw [use_done done]
            obtain ⟨parts, last, ends⟩ := ih (Drained.done done)
            rw [List.take_nil] at parts
            rw [parts] at last
            refine ⟨by rw [parts]; rfl, by rw [parts]; exact last, ?_⟩
            exact ⟨fun _ => Nat.zero_le _, fun _ => ends.mpr (Nat.zero_le _)⟩
        | next more rest =>
            rw [use_more more applies]
            obtain ⟨parts, last, ends⟩ := ih rest
            have applied : splitter.nextPart.2.lastPart = some splitter.nextPart.1 := by
              rw [next_part_more more]
            refine ⟨?_, ?_, ?_⟩
            · rw [List.take_succ_cons, ← parts]
              rfl
            · rw [applied] at last
              refine last.trans ?_
              change _ = (splitter.nextPart.1 :: (splitter.nextPart.2.uses kinds).1).getLast?.or _
              rw [List.getLast?_cons]
              cases (splitter.nextPart.2.uses kinds).1.getLast? with
              | none => rfl
              | some _ => rfl
            · rw [List.length_cons, Nat.add_le_add_iff_right]
              exact ends

theorem uses_filter (splitter : PathSplitter) (kinds : List PathUse) :
    splitter.uses (kinds.filter (· ≠ .peek)) = splitter.uses kinds := by
  induction kinds generalizing splitter with
  | nil => rfl
  | cons kind kinds ih =>
      by_cases applies : kind = .peek
      · subst applies
        rw [uses_peek, List.filter_cons_of_neg (by decide), ih]
      · rw [List.filter_cons_of_pos (by simpa using applies), uses, uses, ih]

theorem peek_shows {splitter : PathSplitter} {peeked : PathSplitterPeek}
    (shown : splitter.peek = some peeked) :
    peeked.splitter = splitter ∧ peeked.getPathPart = splitter.nextPart.1 := by
  cases more : splitter.isDone with
  | true =>
      rw [peek_done more] at shown
      exact absurd shown.symm (Option.some_ne_none _)
  | false =>
      rw [peek_more more] at shown
      rw [next_part_more more]
      obtain rfl := Option.some.inj shown
      exact ⟨rfl, rfl⟩

/-- The loop over a path takes its runs from left to right. Whatever is peeked on the way, the
parts that are applied are the first of them, and the last one of these is `last_part`. -/
theorem splitter_takes_maximal_runs (path : List Char) :
    ∃ (runs : List (Nat × Nat)) (final : PathSplitter),
      Drained (new path) (runs.map (runSlice path)) final ∧
      (∀ begin_ end_, (begin_, end_) ∈ runs ↔ MaximalRun path begin_ end_) ∧
      runs.Pairwise (fun first second => first.2 < second.1) ∧
      (∀ part ∈ runs.map (runSlice path), part ≠ [] ∧ '/' ∉ part) ∧
      (new path).parts = runs.map (runSlice path) ∧
      ∀ kinds : List PathUse,
        let (applied, after) := (new path).uses kinds
        applied = (runs.map (runSlice path)).take (applications kinds) ∧
          after.lastPart = applied.getLast? ∧
          (after.isDone = true ↔ runs.length ≤ applications kinds) ∧
          (new path).uses (kinds.filter (· ≠ .peek)) = (applied, after) ∧
          ∀ peeked, after.peek = some peeked →
            peeked.splitter = after ∧ peeked.getPathPart = after.nextPart.1 := by
  obtain ⟨runs, final, drained, all⟩ :=
    drained_runs _ (new path) (at_part_new path) (Nat.le_refl _)
  have members : ∀ begin_ end_, (begin_, end_) ∈ runs ↔ MaximalRun path begin_ end_ := by
    intro begin_ end_
    constructor
    · intro member
      exact ((all.exact_ begin_ end_).mp member).1
    · intro run
      refine (all.exact_ begin_ end_).mpr ⟨run, ?_⟩
      -- the slashes in front of the first part are in no run
      by_contra before
      obtain ⟨char, here, slash⟩ := skip_while_passed (Nat.zero_le begin_) (Nat.lt_of_not_le before)
      obtain rfl : char = '/' := by simpa using slash
      exact run.plain begin_ (Nat.le_refl _) run.nonempty here
  refine ⟨runs, final, drained, members, all.ordered, ?_, ?_, ?_⟩
  · intro part member
    obtain ⟨⟨begin_, end_⟩, listed, rfl⟩ := List.mem_map.mp member
    exact run_slice_plain ((members begin_ end_).mp listed)
  · rw [parts_new, ← components_new]
    exact (drained_components drained (aligned_new path)).symm
  · intro kinds
    obtain ⟨parts, last, ends⟩ := uses_drained drained kinds
    rw [List.length_map] at ends
    refine ⟨parts, ?_, ends, uses_filter _ kinds, fun peeked => peek_shows⟩
    rw [last]
    exact Option.or_none

end PathSplitter

end Campix.Drivers
