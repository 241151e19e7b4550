import Campix.Lib.Fallible

/-!
# Services

A service takes one call after the other, and a call that fails is followed by the next
one. It refines a model when the model's reply to each call is what the call returns, and
the states stay related. The model may have no reply: then nothing is said of the call.
-/

namespace Campix.Lib.Service

set_option autoImplicit false

variable {Call Query Answer Reply Error State Model : Type}

def serve (run : Call → EStateM Error State Answer) : List Call → State →
    List (Except Error Answer) × State
  | [], state => ([], state)
  | call :: calls, state =>
      match run call state with
      | .ok answer after =>
          let (answers, last) := serve run calls after
          (.ok answer :: answers, last)
      | .error error after =>
          let (answers, last) := serve run calls after
          (.error error :: answers, last)

def predict (reply : Query → Model → Option (Reply × Model)) : List Query → Model →
    Option (List Reply × Model)
  | [], model => some ([], model)
  | query :: queries, model => do
      let (first, middle) ← reply query model
      let (replies, last) ← predict reply queries middle
      return (first :: replies, last)

def returning (answer : Except Error Answer) (after : State) : EStateM.Result Error State Answer :=
  match answer with
  | .ok value => .ok value after
  | .error error => .error error after

variable {run : Call → EStateM Error State Answer} {reply : Query → Model → Option (Reply × Model)}
  {state : State} {model later : Model}

theorem predict_cons {first : Query} {queries : List Query} {replies : List Reply}
    (given : predict reply (first :: queries) model = some (replies, later)) :
    ∃ head middle rest, reply first model = some (head, middle) ∧
      predict reply queries middle = some (rest, later) ∧
      replies = head :: rest := by
  rw [predict] at given
  obtain ⟨⟨head, middle⟩, answered, given⟩ := Option.bind_eq_some_iff.mp given
  obtain ⟨⟨rest, last⟩, others, same⟩ := Option.bind_eq_some_iff.mp given
  cases same
  exact ⟨head, middle, rest, answered, others, rfl⟩

theorem predict_of_cons {first : Query} {queries : List Query} {middle : Model} {head : Reply}
    {rest : List Reply}
    (answered : reply first model = some (head, middle))
      (others : predict reply queries middle = some (rest, later)) :
    predict reply (first :: queries) model = some (head :: rest, later) :=
  Option.bind_eq_some_iff.mpr ⟨_, answered, Option.bind_eq_some_iff.mpr ⟨_, others, rfl⟩⟩

theorem predict_append {queries others : List Query} {replies : List Reply} :
    predict reply (queries ++ others) model = some (replies, later) →
      ∃ first middle second, predict reply queries model = some (first, middle) ∧
        predict reply others middle = some (second, later) ∧ replies = first ++ second := by
  induction queries generalizing model replies with
  | nil => exact fun given => ⟨[], model, replies, rfl, given, rfl⟩
  | cons query queries ih =>
      intro given
      obtain ⟨head, middle, rest, answered, behind, rfl⟩ := predict_cons given
      obtain ⟨front, between, back, early, late, rfl⟩ := ih behind
      exact ⟨head :: front, between, back, predict_of_cons answered early, late, rfl⟩

theorem predict_length {queries : List Query} {replies : List Reply}
    (given : predict reply queries model = some (replies, later)) : replies.length =
    queries.length := by
  induction queries generalizing model replies with
  | nil =>
      cases given
      rfl
  | cons query queries ih =>
      obtain ⟨head, middle, rest, -, behind, rfl⟩ := predict_cons given
      exact congrArg (· + 1) (ih behind)

theorem predict_keeps (Holds : Model → Prop) {queries : List Query} {replies : List Reply}
    (keeps : ∀ query ∈ queries, ∀ model after answer, Holds model →
      reply query model = some (answer, after) →
      Holds after)
    (given : predict reply queries model = some (replies, later))
    (holds : Holds model) : Holds later := by
  induction queries generalizing model replies with
  | nil =>
      cases given
      exact holds
  | cons query queries ih =>
      obtain ⟨head, middle, rest, answered, behind, rfl⟩ := predict_cons given
      obtain ⟨here, others⟩ := List.forall_mem_cons.mp keeps
      exact ih others behind (here _ _ _ holds answered)

theorem serve_append (calls others : List Call) (state : State) :
    serve run (calls ++ others) state =
      ((serve run calls state).1 ++ (serve run others (serve run calls state).2).1,
        (serve run others (serve run calls state).2).2) := by
  induction calls generalizing state with
  | nil => rfl
  | cons call calls ih =>
      rw [List.cons_append, serve, serve]
      cases run call state with
      | ok answer after =>
          dsimp only
          rw [ih]
          rfl
      | error error after =>
          dsimp only
          rw [ih]
          rfl

theorem serve_returning {call : Call} {answer : Except Error Answer} {after : State}
    (calls : List Call)
    (returned : run call state = returning answer after) :
    serve run (call :: calls) state =
      (answer :: (serve run calls after).1, (serve run calls after).2) := by
  cases answer with
  | ok value =>
      have called : run call state = .ok value after := returned
      rw [serve, called]
  | error error =>
      have called : run call state = .error error after := returned
      rw [serve, called]

theorem serve_refines (query : Call → Query) (convert : Reply → Except Error Answer)
    (Good : Call → Prop)
    (Relates : State → Model → Prop) (calls : List Call) {replies : List Reply}
    (step : ∀ call state model answer after, Good call → Relates state model →
      reply (query call) model = some (answer, after) →
        ∃ next, run call state = returning (convert answer) next ∧ Relates next after)
    (good : ∀ call ∈ calls, Good call) (related : Relates state model)
    (given : predict reply (calls.map query) model = some (replies, later)) :
    (serve run calls state).1 = replies.map convert ∧ Relates (serve run calls state).2 later := by
  induction calls generalizing state model replies with
  | nil =>
      cases given
      exact ⟨rfl, related⟩
  | cons call calls ih =>
      obtain ⟨here, others⟩ := List.forall_mem_cons.mp good
      obtain ⟨head, middle, rest, answered, behind, rfl⟩ := predict_cons given
      obtain ⟨next, returned, still⟩ := step call state model head middle here related answered
      obtain ⟨same, last⟩ := ih others still behind
      rw [serve_returning calls returned, List.map_cons]
      exact ⟨congrArg (_ :: ·) same, last⟩

end Campix.Lib.Service
