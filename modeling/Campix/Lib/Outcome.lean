import Campix.Lib.Fallible

/-!
# Outcomes of stateful computations

`Yields post failed` describes a result of a computation that keeps its state when
it fails: the value and the state it returns satisfy `post`, or the state it fails
in satisfies `failed`. The rules follow the structure of a `do` block. `Simulated`
describes a computation that a part of the state does not influence, `Maintains` one
that keeps an invariant.
-/

namespace Campix.Lib.Outcome

open Lib.Fallible

set_option autoImplicit false

variable {Error State Value Result : Type}

def stateAfter : EStateM.Result Error State Value → State
  | .ok _ after => after
  | .error _ after => after

def answerOf : EStateM.Result Error State Value → Except Error Value
  | .ok value _ => .ok value
  | .error error _ => .error error

inductive Yields (post : Value → State → Prop) (failed : State → Prop) :
    EStateM.Result Error State Value → Prop
  | ok {value : Value} {after : State} (holds : post value after) :
      Yields post failed (.ok value after)
  | error {error : Error} {after : State} (holds : failed after) :
      Yields post failed (.error error after)

variable {post middle : Value → State → Prop} {failed : State → Prop}

theorem yields_weaken {result : EStateM.Result Error State Value} {weaker : Value → State → Prop}
    {failedWeaker : State → Prop} (yields : Yields post failed result)
    (onOk : ∀ value after, post value after → weaker value after)
    (onError : ∀ after, failed after → failedWeaker after) : Yields weaker failedWeaker result := by
  cases yields with
  | ok holds => exact .ok (onOk _ _ holds)
  | error holds => exact .error (onError _ holds)

theorem yields_bind {first : EStateM Error State Value} {rest : Value → EStateM Error State Result}
    {final : Result → State → Prop} {before : State}
    (begins : Yields middle failed (first before))
    (continues : ∀ value after, middle value after → Yields final failed (rest value after)) :
    Yields final failed ((first >>= rest) before) := by
  cases outcome : first before with
  | ok value after =>
      rw [state_bind_ok outcome]
      rw [outcome] at begins
      cases begins with
      | ok holds => exact continues value after holds
  | error error after =>
      rw [state_bind_error outcome]
      rw [outcome] at begins
      cases begins with
      | error holds => exact .error holds

/-- A computation that cannot fail returns. -/
theorem yields_ok {result : EStateM.Result Error State Value}
    (yields : Yields post (fun _ => False) result) :
    ∃ value after, result = .ok value after ∧ post value after := by
  cases yields with
  | ok holds => exact ⟨_, _, rfl, holds⟩
  | error impossible => exact impossible.elim

theorem yields_state {result : EStateM.Result Error State Value} {Holds : State → Prop}
    (yields : Yields (fun _ => Holds) Holds result) : Holds (stateAfter result) := by
  cases yields with
  | ok holds => exact holds
  | error holds => exact holds

def mapState {Lower : Type} (project : State → Lower) :
    EStateM.Result Error State Value → EStateM.Result Error Lower Value
  | .ok value after => .ok value (project after)
  | .error error after => .error error (project after)

/-- Without the part of the state that `project` takes away the computation does the same. -/
structure Simulated (project : State → State) (Holds : State → Prop)
    (computation : EStateM Error State Value) (state : State) : Prop where
  same : computation (project state) = mapState project (computation state)
  kept : Holds (stateAfter (computation state))

variable {project : State → State} {Middle Holds : State → Prop} {before : State}

theorem simulated_bind {first : EStateM Error State Value}
    {rest : Value → EStateM Error State Result} (begins : Simulated project Middle first before)
    (fails : ∀ after, Middle after → Holds after)
    (continues : ∀ value after, first before = .ok value after → Middle after →
      Simulated project Holds (rest value) after) :
    Simulated project Holds (first >>= rest) before := by
  have same := begins.same
  have kept := begins.kept
  cases outcome : first before with
  | ok value after =>
      rw [outcome] at same kept
      have next := continues value after outcome kept
      constructor
      · rw [state_bind_ok same, state_bind_ok outcome]
        exact next.same
      · rw [state_bind_ok outcome]
        exact next.kept
  | error error after =>
      rw [outcome] at same kept
      constructor
      · rw [state_bind_error same, state_bind_error outcome]
        rfl
      · rw [state_bind_error outcome]
        exact fails after kept

theorem simulated_pure {value : Value} (kept : Holds before) :
    Simulated project Holds (pure value : EStateM Error State Value) before :=
  ⟨rfl, kept⟩

/-- `Holds` is kept, and an error satisfies `Failed` together with the state it leaves. -/
inductive Settled (Holds : State → Prop) (Failed : Error → State → Prop) :
    EStateM.Result Error State Value → Prop
  | ok {value : Value} {after : State} (holds : Holds after) : Settled Holds Failed
    (.ok value after)
  | error {error : Error} {after : State} (failed : Failed error after) :
      Settled Holds Failed (.error error after)

def Settles (Holds : State → Prop) (Failed : Error → State → Prop)
    (computation : EStateM Error State Value) (before : State) : Prop :=
  Settled Holds Failed (computation before)

def Maintains (Holds : State → Prop) (Failed : Error → State → Prop)
    (computation : EStateM Error State Value) : Prop :=
  ∀ before, Holds before → Settles Holds Failed computation before

variable {Failed : Error → State → Prop}

theorem settles_state {computation : EStateM Error State Value}
    (settles : Settles Holds (fun _ => Holds) computation before) :
    Holds (stateAfter (computation before)) := by
  unfold Settles at settles
  generalize computation before = result at settles ⊢
  cases settles with
  | ok holds => exact holds
  | error holds => exact holds

theorem maintains_pure (value : Value) :
    Maintains Holds Failed (pure value : EStateM Error State Value) := by
  intro before holds
  exact .ok holds

theorem maintains_throw {error : Error} (fails : ∀ state, Holds state → Failed error state) :
    Maintains Holds Failed (throw error : EStateM Error State Value) := by
  intro before holds
  exact .error (fails before holds)

theorem maintains_modify {change : State → State}
    (keeps : ∀ state, Holds state → Holds (change state)) :
    Maintains Holds Failed (modify change : EStateM Error State Unit) := by
  intro before holds
  exact .ok (keeps before holds)

theorem settles_weaken {computation : EStateM Error State Value}
    {FailedMiddle : Error → State → Prop}
    (settles : Settles Middle FailedMiddle computation before)
    (weaker : ∀ after, Middle after → Holds after)
    (weakerFailed : ∀ error after, FailedMiddle error after → Failed error after) :
    Settles Holds Failed computation before := by
  unfold Settles at settles ⊢
  generalize computation before = result at settles ⊢
  cases settles with
  | ok kept => exact .ok (weaker _ kept)
  | error failed => exact .error (weakerFailed _ _ failed)

/-- The rule for two parts with different invariants. -/
theorem settles_seq {first : EStateM Error State Value} {rest : Value → EStateM Error State Result}
    (begins : Settles Middle Failed first before)
    (continues : ∀ value after, Middle after → Settles Holds Failed (rest value) after) :
    Settles Holds Failed (first >>= rest) before := by
  unfold Settles at begins ⊢
  cases outcome : first before with
  | ok value middle =>
      rw [state_bind_ok outcome]
      rw [outcome] at begins
      cases begins with
      | ok kept => exact continues value middle kept
  | error error middle =>
      rw [state_bind_error outcome]
      rw [outcome] at begins
      cases begins with
      | error failed => exact .error failed

theorem settles_bind {first : EStateM Error State Value} {rest : Value → EStateM Error State Result}
    (begins : Settles Holds Failed first before)
    (continues : ∀ value, Maintains Holds Failed (rest value)) :
    Settles Holds Failed (first >>= rest) before :=
  settles_seq begins continues

theorem maintains_bind {first : EStateM Error State Value}
    {rest : Value → EStateM Error State Result}
    (begins : Maintains Holds Failed first)
    (continues : ∀ value, Maintains Holds Failed (rest value)) :
    Maintains Holds Failed (first >>= rest) := by
  intro before holds
  exact settles_bind (begins before holds) continues

theorem settles_get {rest : State → EStateM Error State Value}
    (continues : Settles Holds Failed (rest before) before) : Settles Holds Failed
    (get >>= rest) before :=
  continues

theorem settles_modify {change : State → State} {rest : Unit → EStateM Error State Value}
    (continues : Settles Holds Failed (rest ()) (change before)) :
    Settles Holds Failed (modify change >>= rest) before :=
  continues

/-- What a computation reads first satisfies the invariant. -/
theorem maintains_get {rest : State → EStateM Error State Value}
    (continues : ∀ state, Holds state → Settles Holds Failed (rest state) state) :
    Maintains Holds Failed (get >>= rest) :=
  continues

/-- What does not depend on the state can be added. -/
theorem settles_and {computation : EStateM Error State Value} {fixed : Prop}
    (settles : Settles Holds Failed computation before) (holds : fixed) :
    Settles (fun state => Holds state ∧ fixed) (fun error state => Failed error state ∧ fixed)
      computation before := by
  unfold Settles at settles ⊢
  cases outcome : computation before with
  | ok value after =>
      rw [outcome] at settles
      cases settles with
      | ok kept => exact .ok ⟨kept, holds⟩
  | error error after =>
      rw [outcome] at settles
      cases settles with
      | error failed => exact .error ⟨failed, holds⟩

theorem settles_conj {computation : EStateM Error State Value} {Other : State → Prop}
    {FailedOther : Error → State → Prop} (settles : Settles Holds Failed computation before)
    (others : Settles Other FailedOther computation before) :
    Settles (fun state => Holds state ∧ Other state)
      (fun error state => Failed error state ∧ FailedOther error state) computation before := by
  unfold Settles at settles others ⊢
  generalize computation before = result at settles others ⊢
  cases settles with
  | ok kept =>
      cases others with
      | ok other => exact .ok ⟨kept, other⟩
  | error failed =>
      cases others with
      | error other => exact .error ⟨failed, other⟩

/-- What is only needed under a condition that the computation does not change. -/
theorem settles_if {computation : EStateM Error State Value} {condition : Prop}
    (settles : condition → Settles Holds Failed computation before) :
    Settles (fun state => condition → Holds state) (fun error state => condition →
      Failed error state)
      computation before := by
  unfold Settles at settles ⊢
  generalize computation before = result at settles ⊢
  cases result with
  | ok value after =>
      apply Settled.ok
      intro holds
      cases settles holds with
      | ok kept => exact kept
  | error error after =>
      apply Settled.error
      intro holds
      cases settles holds with
      | error failed => exact failed

/-- A property of all states, or of none of them, is kept. -/
theorem maintains_blind {Weaker : State → Prop} (blind : ∀ before after, Holds before → Holds after)
    (fails : ∀ before after, Holds before → Weaker after)
    (computation : EStateM Error State Value) :
    Maintains Holds (fun _ => Weaker) computation := by
  intro before holds
  unfold Settles
  cases computation before with
  | ok value after => exact .ok (blind before after holds)
  | error error after => exact .error (fails before after holds)

variable {error : Error}

/-- The error of a whole computation is the error of its second part when the first part
does not have it. -/
theorem error_of_bind {first : EStateM Error State Value}
    {rest : Value → EStateM Error State Result}
    {after : State} (begins : Maintains Holds (fun found _ => found ≠ error) first)
    (holds : Holds before)
    (failed : (first >>= rest) before = .error error after) :
    ∃ value middle, first before = .ok value middle ∧ rest value middle = .error error after := by
  have settles := begins before holds
  unfold Settles at settles
  cases outcome : first before with
  | ok value middle =>
      rw [state_bind_ok outcome] at failed
      exact ⟨value, middle, rfl, failed⟩
  | error found middle =>
      rw [state_bind_error outcome] at failed
      rw [outcome] at settles
      cases failed
      cases settles with
      | error different => exact absurd rfl different

/-- The error of a whole computation is the error of its first part when the second part
does not have it. -/
theorem error_of_first {first : EStateM Error State Value}
    {rest : Value → EStateM Error State Result}
    {after : State} (everywhere : ∀ state, Holds state)
    (ends : ∀ value, Maintains Holds (fun found _ => found ≠ error) (rest value))
    (failed : (first >>= rest) before = .error error after) :
    first before = .error error after := by
  cases outcome : first before with
  | ok value middle =>
      rw [state_bind_ok outcome] at failed
      have settles := ends value middle (everywhere middle)
      unfold Settles at settles
      rw [failed] at settles
      cases settles with
      | error different => exact absurd rfl different
  | error found middle =>
      rw [state_bind_error outcome] at failed
      cases failed
      rfl

end Campix.Lib.Outcome
