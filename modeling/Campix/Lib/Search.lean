import Mathlib.Data.List.Basic

/-!
# Searches that share a running index

A search goes over places in some steps, each of which looks at a few of them. A step that
finds something ends the whole search, and so does one that reaches the limit; any other step
gives the place where the next one goes on. The result of an ended search is the error of the
step that ended it.
-/

namespace Campix.Lib.Search

set_option autoImplicit false

abbrev Searching := Except (Option Nat)

variable {limit : Nat} {hit : Nat → Prop} {first middle last : Nat}

/-- What is known after the places from `first` up to `last` were looked at. -/
def Looked (limit : Nat) (hit : Nat → Prop) (first last : Nat) : Searching Nat → Prop
  | .ok next => next = last ∧ ∀ place, first ≤ place → place < last → place < limit → ¬hit place
  | .error (some found) =>
      (first ≤ found ∧ found < limit) ∧ hit found ∧ ∀ place, first ≤ place → place < found →
        ¬hit place
  | .error none => ∀ place, first ≤ place → place < limit → ¬hit place

theorem looked_bind {search : Searching Nat} {continue_ : Nat → Searching Nat}
    (ordered : first ≤ middle)
    (front : Looked limit hit first middle search)
    (back : Looked limit hit middle last (continue_ middle)) :
    Looked limit hit first last (search >>= continue_) := by
  cases search with
  | error result => cases result with
    | none => exact front
    | some found => exact front
  | ok next =>
      obtain ⟨rfl, missed⟩ := front
      change Looked limit hit first last (continue_ next)
      have both : ∀ place, first ≤ place → place < limit → (next ≤ place → ¬hit place) →
          ¬hit place := by
        intro place behind below later
        by_cases passed : place < next
        · exact missed place behind passed below
        · exact later (by omega)
      cases result : continue_ next with
      | error result' =>
          rw [result] at back
          cases result' with
          | none =>
              exact fun place behind below => both place behind below fun later =>
                back place later below
          | some found =>
              obtain ⟨⟨least, below⟩, hits, before⟩ := back
              exact ⟨⟨by omega, below⟩, hits, fun place behind less =>
                both place behind (by omega) fun later => before place later less⟩
      | ok reached =>
          rw [result] at back
          obtain ⟨here, missedLater⟩ := back
          exact ⟨here, fun place behind less below =>
            both place behind below fun later => missedLater place later less below⟩

theorem looked_fold {Item : Type*} {step : Nat → Item → Searching Nat} {width : Nat}
    (items : List Item) :
    ∀ first, (∀ (place : Nat) (item : Item), items[place]? = some item →
        Looked limit hit (first + place * width) (first + place * width + width)
          (step (first + place * width) item)) →
      Looked limit hit first (first + items.length * width) (items.foldlM step first) := by
  induction items with
  | nil =>
      intro first _
      refine ⟨by simp, fun place behind less => ?_⟩
      simp only [List.length_nil, Nat.zero_mul, Nat.add_zero] at less
      omega
  | cons item items ih =>
      intro first each
      have begins := each 0 item rfl
      rw [Nat.zero_mul, Nat.add_zero] at begins
      have total : first + (item :: items).length * width = first + width + items.length *
          width := by
        rw [List.length_cons, Nat.succ_mul]
        omega
      rw [List.foldlM_cons, total]
      refine looked_bind (Nat.le_add_right _ _)
        begins (ih (first + width) fun place other here => ?_)
      have later := each (place + 1) other here
      have moved : first + (place + 1) * width = first + width + place * width := by
        rw [Nat.succ_mul]
        omega
      rwa [moved] at later

def ended : Searching Nat → Option Nat
  | .ok _ => none
  | .error result => result

def IsFirst (limit : Nat) (hit : Nat → Prop) : Option Nat → Prop
  | some place => place < limit ∧ hit place ∧ ∀ earlier < place, ¬hit earlier
  | none => ∀ place < limit, ¬hit place

theorem ended_first {search : Searching Nat} (looked : Looked limit hit 0 last search)
    (enough : limit ≤ last) : IsFirst limit hit (ended search) := by
  cases search with
  | ok next => exact fun place below => looked.2 place (Nat.zero_le _) (by omega) below
  | error result => cases result with
    | none => exact fun place below => looked place (Nat.zero_le _) below
    | some place =>
        obtain ⟨⟨_, below⟩, hits, before⟩ := looked
        exact ⟨below, hits, fun earlier less => before earlier (Nat.zero_le _) less⟩

theorem first_congr {other : Nat → Prop} (same : ∀ place < limit, hit place ↔ other place)
    {result : Option Nat} : IsFirst limit hit result ↔ IsFirst limit other result := by
  cases result with
  | none =>
      exact forall_congr' fun place => forall_congr' fun below => not_congr (same place below)
  | some place =>
      refine and_congr_right fun below => and_congr (same place below) ?_
      exact forall_congr' fun earlier => forall_congr' fun less =>
        not_congr (same earlier (by omega))

theorem first_unique {left right : Option Nat} (leftFirst : IsFirst limit hit left)
    (rightFirst : IsFirst limit hit right) : left = right := by
  cases left with
  | none => cases right with
    | none => rfl
    | some place => exact absurd rightFirst.2.1 (leftFirst place rightFirst.1)
  | some place => cases right with
    | none => exact absurd leftFirst.2.1 (rightFirst place leftFirst.1)
    | some other =>
        have notBelow : ¬place < other := fun less => rightFirst.2.2 place less leftFirst.2.1
        have notAbove : ¬other < place := fun less => leftFirst.2.2 other less rightFirst.2.1
        exact congrArg some (by omega)

end Campix.Lib.Search
