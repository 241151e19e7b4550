import Mathlib.Init

/-!
# Sequencing of fallible computations

The rules that take a `do` block apart, over `Except` and over `EStateM`, which
keeps the state of a failing step: what the block does when its first step
returns or fails, and what its first step returned when it does.
-/

namespace Campix.Lib.Fallible

set_option autoImplicit false

variable {Error First Second : Type}

theorem ok_bind (value : First) (rest : First → Except Error Second) :
    ((Except.ok value : Except Error First) >>= rest) = rest value :=
  rfl

theorem error_bind (error : Error) (rest : First → Except Error Second) :
    ((Except.error error : Except Error First) >>= rest) = .error error :=
  rfl

theorem bind_eq_ok {first : Except Error First} {rest : First → Except Error Second}
    {result : Second} :
    (first >>= rest) = .ok result ↔ ∃ value, first = .ok value ∧ rest value = .ok result := by
  cases first with
  | error error => simp [error_bind]
  | ok value => simp [ok_bind]

section State

variable {State : Type} {first : EStateM Error State First}
  {rest : First → EStateM Error State Second}
variable {before after : State}

theorem state_bind_ok {value : First} (returned : first before = .ok value after) :
    (first >>= rest) before = rest value after := by
  change EStateM.bind first rest before = _
  rw [EStateM.bind, returned]

theorem state_bind_error {error : Error} (failed : first before = .error error after) :
    (first >>= rest) before = .error error after := by
  change EStateM.bind first rest before = _
  rw [EStateM.bind, failed]

theorem state_bind_returned {result : Second}
    (returned : (first >>= rest) before = .ok result after) :
    ∃ value middle, first before = .ok value middle ∧ rest value middle = .ok result after := by
  cases outcome : first before with
  | ok value middle => exact ⟨value, middle, rfl, by rwa [state_bind_ok outcome] at returned⟩
  | error error middle =>
      rw [state_bind_error outcome] at returned
      exact absurd returned (by simp)

/-- A block that begins by reading the state goes on from the state that it has read. -/
theorem state_bind_get (rest : State → EStateM Error State Second) :
    ((get : EStateM Error State State) >>= rest) before = rest before before :=
  rfl

theorem not_returned_of_throw {error : Error} {value : First}
    (returned : (throw error : EStateM Error State First) before = .ok value after) : False := by
  have thrown : (EStateM.Result.error error before : EStateM.Result Error State First) = .ok value
      after := returned
  cases thrown

/-- A computation does not see more of the state than its first step does. -/
theorem state_bind_congr (same : first before = first after) :
    (first >>= rest) before = (first >>= rest) after := by
  change EStateM.bind first rest before = EStateM.bind first rest after
  rw [EStateM.bind, EStateM.bind, same]

end State

theorem foldl_of_fixed {State Item : Type} {step : State → Item → State} {state : State}
    (items : List Item) (fixed : ∀ item ∈ items, step state item = state) :
    items.foldl step state = state := by
  induction items with
  | nil => rfl
  | cons item items ih =>
      rw [List.foldl_cons, fixed item List.mem_cons_self]
      exact ih fun later member => fixed later (List.mem_cons_of_mem _ member)

theorem foldlM_of_fixed {State Item : Type} {step : State → Item → Option State} {state : State}
    (items : List Item) (fixed : ∀ item ∈ items, ∀ after, step state item = some after →
      after = state) :
    ∀ after, items.foldlM step state = some after → after = state := by
  induction items with
  | nil =>
      intro after same
      exact (Option.some.inj same).symm
  | cons item items ih =>
      intro after folded
      rw [List.foldlM_cons] at folded
      obtain ⟨middle, stepped, rest⟩ := Option.bind_eq_some_iff.mp folded
      rw [fixed item List.mem_cons_self middle stepped] at rest
      exact ih (fun later member => fixed later (List.mem_cons_of_mem _ member)) after rest

end Campix.Lib.Fallible
