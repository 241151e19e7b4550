import Mathlib.Data.List.Basic
import Mathlib.Logic.Function.Basic

/-!
# Folds that forget nothing

A step that is injective in the state for each item, and injective in the item from each state,
never lets two states that have come apart meet again over the same items. So a fold tells two
lists apart that differ in one place only.
-/

namespace Campix.Lib.Folds

set_option autoImplicit false

variable {State Item : Type*} {step : State → Item → State}

theorem foldl_injective (keeps : ∀ item, Function.Injective fun state => step state item)
    (items : List Item) : Function.Injective fun state => items.foldl step state := by
  induction items with
  | nil => exact fun _ _ same => same
  | cons item items ih =>
      intro left right same
      exact keeps item (ih same)

def DifferAt (left right : List Item) (index : Nat) : Prop := left[index]? ≠ right[index]?

/-- Lists of one length that differ in one place are a common front, two items and a common rest. -/
theorem differ_once {left right : List Item} (lengths : left.length = right.length) {index : Nat}
    (differ : DifferAt left right index)
    (once : ∀ other, DifferAt left right other → other = index) :
    ∃ front first second rest, first ≠ second ∧
      left = front ++ first :: rest ∧ right = front ++ second :: rest := by
  have inside : index < left.length := by
    by_contra beyond
    apply differ
    rw [List.getElem?_eq_none (by omega), List.getElem?_eq_none (by omega)]
  have same : ∀ other, other ≠ index → left[other]? = right[other]? := by
    intro other apart
    by_contra different
    exact apart (once other different)
  have fronts : left.take index = right.take index := by
    apply List.ext_getElem?
    intro other
    by_cases below : other < index
    · rw [List.getElem?_take_of_lt below, List.getElem?_take_of_lt below]
      exact same other (by omega)
    · rw [List.getElem?_take_eq_none (by omega), List.getElem?_take_eq_none (by omega)]
  have rests : left.drop (index + 1) = right.drop (index + 1) := by
    apply List.ext_getElem?
    intro other
    rw [List.getElem?_drop, List.getElem?_drop]
    exact same (index + 1 + other) (by omega)
  refine ⟨left.take index, left[index], right[index], left.drop (index + 1), ?_, ?_, ?_⟩
  · intro equal
    apply differ
    rw [List.getElem?_eq_getElem inside, List.getElem?_eq_getElem (by omega), equal]
  · rw [← List.drop_eq_getElem_cons inside, List.take_append_drop]
  · rw [fronts, rests, ← List.drop_eq_getElem_cons (by omega), List.take_append_drop]

theorem foldl_detects (keeps : ∀ item, Function.Injective fun state => step state item)
    (tells : ∀ state, Function.Injective (step state)) {left right : List Item}
    (lengths : left.length = right.length) {index : Nat} (differ : DifferAt left right index)
    (once : ∀ other, DifferAt left right other → other = index) (start : State) :
    left.foldl step start ≠ right.foldl step start := by
  obtain ⟨front, first, second, rest, different, rfl, rfl⟩ := differ_once lengths differ once
  intro same
  rw [List.foldl_append, List.foldl_append, List.foldl_cons, List.foldl_cons] at same
  exact different (tells _ (foldl_injective keeps rest same))

end Campix.Lib.Folds
