import Mathlib.Init

/-!
# Runs of a transition function

A run is the left fold of a fallible step over a list of labels. It returns a
state only when every step does. An invariant kept by each step holds at the
end of every run that returns, and so at every state a run passes through.
-/

namespace Campix.Lib.Run

set_option autoImplicit false

variable {State Label Error : Type*}

def run (step : State → Label → Except Error State) : State → List Label → Except Error State
  | state, [] => .ok state
  | state, label :: labels =>
      match step state label with
      | .error error => .error error
      | .ok next => run step next labels

theorem run_cons_ok {step : State → Label → Except Error State} {state final : State}
    {label : Label} {labels : List Label} (ran : run step state (label :: labels) = .ok final) :
    ∃ next, step state label = .ok next ∧ run step next labels = .ok final := by
  cases stepped : step state label with
  | error error => simp [run, stepped] at ran
  | ok next => exact ⟨next, rfl, by simpa [run, stepped] using ran⟩

theorem run_invariant {step : State → Label → Except Error State} (Inv : State → Prop)
    (preserved : ∀ state label next, Inv state → step state label = .ok next → Inv next)
    {state final : State} {labels : List Label} (start : Inv state)
    (ran : run step state labels = .ok final) : Inv final := by
  induction labels generalizing state with
  | nil =>
      cases ran
      exact start
  | cons label labels ih =>
      obtain ⟨next, stepped, rest⟩ := run_cons_ok ran
      exact ih (preserved state label next start stepped) rest

inductive Reaches (step : Label → State → State) (allowed : State → Label → Prop)
    (environment : State → State → Prop) (start : State) : State → Prop
  | start : Reaches step allowed environment start start
  | step {state : State} (reached : Reaches step allowed environment start state) (label : Label)
      (allow : allowed state label) : Reaches step allowed environment start (step label state)
  | environment {state after : State} (reached : Reaches step allowed environment start state)
      (moved : environment state after) : Reaches step allowed environment start after

variable {step : Label → State → State} {allowed : State → Label → Prop}
  {environment : State → State → Prop} {start state : State}

theorem reaches_invariant {Inv : State → Prop}
    (reached : Reaches step allowed environment start state)
    (init : Inv start)
    (steps : ∀ state label, Inv state → allowed state label → Inv (step label state))
    (moves : ∀ state after, Inv state → environment state after → Inv after) : Inv state := by
  induction reached with
  | start => exact init
  | step _ label allow ih => exact steps _ label ih allow
  | environment _ moved ih => exact moves _ _ ih moved

end Campix.Lib.Run
