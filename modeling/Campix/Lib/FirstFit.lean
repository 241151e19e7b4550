import Mathlib.Algebra.GroupWithZero.Nat
import Mathlib.Data.List.Basic
import Mathlib.Algebra.BigOperators.Group.List.Basic

/-!
# Rows of slots, filled first fit

A space of fixed size is divided into slots. Each slot has an item, which needs a part of
it, and the rest is room. A new item takes the room of the first slot that has enough. The
slot of an item that is removed is added to the slot before it; the first slot has none
before it, and its space is lost.
-/

namespace Campix.Lib.FirstFit

set_option autoImplicit false

@[ext] structure Slot (Item : Type) where
  item : Item
  length : Nat

@[ext] structure Row (Item : Type) where
  lost : Nat
  slots : List (Slot Item)

variable {Item : Type} (need : Item → Nat)

def Slot.room (slot : Slot Item) : Nat := slot.length - need slot.item

def place (item : Item) : List (Slot Item) → Option (List (Slot Item))
  | [] => none
  | slot :: later =>
      if need item ≤ slot.room need then
        some (⟨slot.item, need slot.item⟩ :: ⟨item, slot.room need⟩ :: later)
      else
        (place item later).map (slot :: ·)

def absorb (goes : Item → Bool) : List (Slot Item) → Option (List (Slot Item))
  | previous :: slot :: later =>
      if goes slot.item then
        some (⟨previous.item, previous.length + slot.length⟩ :: later)
      else
        (absorb goes (slot :: later)).map (previous :: ·)
  | _ => none

def remove (goes : Item → Bool) (lost : Nat) : List (Slot Item) → Option (Row Item)
  | [] => none
  | slot :: later =>
      if goes slot.item then
        some ⟨lost + slot.length, later⟩
      else
        (absorb goes (slot :: later)).map (Row.mk lost)

def lengths (slots : List (Slot Item)) : Nat := (slots.map Slot.length).sum

def items (slots : List (Slot Item)) : List Item := slots.map Slot.item

def Holds (slots : List (Slot Item)) : Prop := ∀ slot ∈ slots, need slot.item ≤ slot.length

namespace Row

def insert (row : Row Item) (item : Item) : Option (Row Item) :=
  (place need item row.slots).map (Row.mk row.lost)

def remove (row : Row Item) (goes : Item → Bool) : Option (Row Item) :=
  FirstFit.remove goes row.lost row.slots

def items (row : Row Item) : List Item := FirstFit.items row.slots

def size (row : Row Item) : Nat := row.lost + lengths row.slots

end Row

variable {need} {item : Item} {goes : Item → Bool} {lost : Nat} {slot previous : Slot Item}
variable {slots front back after : List (Slot Item)} {row later : Row Item}

@[simp] theorem lengths_cons : lengths (slot :: slots) = slot.length + lengths slots :=
    List.sum_cons

@[simp] theorem items_cons : items (slot :: slots) = slot.item :: items slots := rfl

@[simp] theorem items_append : items (front ++ back) = items front ++ items back := List.map_append

theorem first_split {Member : Type*} (property : Member → Prop) (list : List Member) :
    (∀ other ∈ list, ¬property other) ∨
      ∃ front found back, list = front ++ found :: back ∧ (∀ other ∈ front, ¬property other) ∧
        property found := by
  induction list with
  | nil => exact .inl fun _ impossible => absurd impossible List.not_mem_nil
  | cons first list ih =>
      by_cases here : property first
      · exact .inr ⟨[], first, list, rfl,
          fun _ impossible => absurd impossible List.not_mem_nil, here⟩
      · rcases ih with none_ | ⟨front, found, back, rfl, before, holds⟩
        · exact .inl (List.forall_mem_cons.mpr ⟨here, none_⟩)
        · exact .inr ⟨first :: front, found, back,
            rfl, List.forall_mem_cons.mpr ⟨here, before⟩, holds⟩

theorem place_eq (tight : ∀ other ∈ front, ¬need item ≤ other.room need)
    (roomy : need item ≤ slot.room need) :
    place need item (front ++ slot :: back) =
      some (front ++ ⟨slot.item, need slot.item⟩ :: ⟨item, slot.room need⟩ :: back) := by
  induction front with
  | nil => exact if_pos roomy
  | cons first front ih =>
      obtain ⟨here, later⟩ := List.forall_mem_cons.mp tight
      rw [List.cons_append, place, if_neg here, ih later]
      rfl

theorem place_none (tight : ∀ other ∈ slots, ¬need item ≤ other.room need) :
    place need item slots = none := by
  induction slots with
  | nil => rfl
  | cons first slots ih =>
      obtain ⟨here, later⟩ := List.forall_mem_cons.mp tight
      rw [place, if_neg here, ih later]
      rfl

theorem placed (found : place need item slots = some after) : ∃ front slot back,
    slots = front ++ slot :: back ∧ (∀ other ∈ front, ¬need item ≤ other.room need) ∧
      need item ≤ slot.room need ∧
      after = front ++ ⟨slot.item, need slot.item⟩ :: ⟨item, slot.room need⟩ :: back := by
  rcases first_split (fun slot : Slot Item => need item ≤ slot.room need) slots with
    tight | ⟨front, slot, back, rfl, tight, roomy⟩
  · rw [place_none tight] at found
    cases found
  · rw [place_eq tight roomy] at found
    exact ⟨front, slot, back, rfl, tight, roomy, (Option.some.inj found).symm⟩

theorem place_of_room (member : slot ∈ slots) (roomy : need item ≤ slot.room need) :
    ∃ after, place need item slots = some after := by
  rcases first_split (fun slot : Slot Item => need item ≤ slot.room need) slots with
    tight | ⟨front, first, back, rfl, tight, here⟩
  · exact absurd roomy (tight slot member)
  · exact ⟨_, place_eq tight here⟩

theorem absorb_eq (stay : ∀ other ∈ front, goes other.item = false)
    (last : goes previous.item = false)
    (gone : goes slot.item = true) :
    absorb goes (front ++ previous :: slot :: back) =
      some (front ++ ⟨previous.item, previous.length + slot.length⟩ :: back) := by
  induction front with
  | nil => exact if_pos gone
  | cons first front ih =>
      obtain ⟨-, later⟩ := List.forall_mem_cons.mp stay
      have rest := ih later
      cases front with
      | nil =>
          change (if goes previous.item then _ else (absorb goes (previous :: slot :: back)).map
            (first :: ·)) = _
          rw [last]
          exact congrArg (Option.map (first :: ·)) rest
      | cons second front =>
          have here : goes second.item = false := later second List.mem_cons_self
          change (if goes second.item then _ else
            (absorb goes (second :: (front ++ previous :: slot :: back))).map (first :: ·)) = _
          rw [here]
          exact congrArg (Option.map (first :: ·)) rest

theorem absorb_none (stay : ∀ other ∈ slots, goes other.item = false) :
    absorb goes slots = none := by
  induction slots with
  | nil => rfl
  | cons first slots ih =>
      obtain ⟨-, later⟩ := List.forall_mem_cons.mp stay
      cases slots with
      | nil => rfl
      | cons second slots =>
          change (if goes second.item then _ else
            (absorb goes (second :: slots)).map (first :: ·)) = _
          rw [later second List.mem_cons_self, ih later]
          rfl

namespace Row

theorem remove_first (split : row.slots = slot :: back) (gone : goes slot.item = true) :
    row.remove goes = some ⟨row.lost + slot.length, back⟩ := by
  rw [remove, split]
  exact if_pos gone

theorem remove_behind (split : row.slots = front ++ previous :: slot :: back)
    (stay : ∀ other ∈ front, goes other.item = false) (last : goes previous.item = false)
    (gone : goes slot.item = true) :
    row.remove goes = some ⟨row.lost,
      front ++ ⟨previous.item, previous.length + slot.length⟩ :: back⟩ := by
  have absorbed := @absorb_eq Item goes slot previous front back stay last gone
  rw [remove, split]
  cases front with
  | nil =>
      change (if goes previous.item then _ else (absorb goes (previous :: slot :: back)).map
        (Row.mk row.lost)) = _
      rw [last]
      exact congrArg (Option.map (Row.mk row.lost)) absorbed
  | cons first front =>
      change (if goes first.item then _ else
        (absorb goes (first :: (front ++ previous :: slot :: back))).map (Row.mk row.lost)) = _
      rw [stay first List.mem_cons_self]
      exact congrArg (Option.map (Row.mk row.lost)) absorbed

theorem remove_none (stay : ∀ other ∈ row.slots, goes other.item = false) :
    row.remove goes = none := by
  have absorbed := absorb_none stay
  unfold remove
  cases found : row.slots with
  | nil => rfl
  | cons first slots =>
      rw [found] at stay absorbed
      change (if goes first.item then _ else
        (absorb goes (first :: slots)).map (Row.mk row.lost)) = _
      rw [stay first List.mem_cons_self, absorbed]
      rfl

/-- What is said of one step, once the item that goes is found. -/
theorem removes (row : Row Item) (goes : Item → Bool) :
    row.remove goes = none ∧ (∀ other ∈ row.slots, goes other.item = false) ∨
      (∃ slot back, row.slots = slot :: back ∧ goes slot.item = true ∧
        row.remove goes = some ⟨row.lost + slot.length, back⟩) ∨
      ∃ front previous slot back, row.slots = front ++ previous :: slot :: back ∧
        (∀ other ∈ front, goes other.item = false) ∧ goes previous.item = false ∧
          goes slot.item = true ∧
        row.remove goes = some ⟨row.lost,
          front ++ ⟨previous.item, previous.length + slot.length⟩ :: back⟩ := by
  rcases first_split (fun slot : Slot Item => goes slot.item = true) row.slots with
    stay | ⟨passed, slot, back, split, stay, gone⟩
  · have stays : ∀ other ∈ row.slots, goes other.item = false :=
      fun other member => Bool.eq_false_iff.mpr (stay other member)
    exact .inl ⟨remove_none stays, stays⟩
  · have stays : ∀ other ∈ passed, goes other.item = false :=
      fun other member => Bool.eq_false_iff.mpr (stay other member)
    rcases List.eq_nil_or_concat' passed with rfl | ⟨front, previous, rfl⟩
    · exact .inr (.inl ⟨slot, back, split, gone, remove_first split gone⟩)
    · rw [List.append_assoc] at split
      have front_stays := fun other member => stays other (List.mem_append_left _ member)
      have last := stays previous (List.mem_append_right _ (List.mem_singleton_self _))
      exact .inr (.inr ⟨front, previous, slot, back, split, front_stays, last, gone,
        remove_behind split front_stays last gone⟩)

theorem insert_items (found : row.insert need item = some later) : ∃ front back,
    front ≠ [] ∧ row.items = front ++ back ∧ later.items = front ++ item :: back := by
  obtain ⟨after, placing, rfl⟩ := Option.map_eq_some_iff.mp found
  obtain ⟨front, slot, back, split, -, -, rfl⟩ := placed placing
  refine ⟨FirstFit.items front ++ [slot.item], FirstFit.items back, by simp, ?_, ?_⟩
  · rw [items, split]
    simp
  · rw [items]
    simp

theorem mem_insert (found : row.insert need item = some later) :
    item ∈ later.items ∧ ∀ other ∈ row.items, other ∈ later.items := by
  obtain ⟨front, back, -, old, new⟩ := insert_items found
  rw [old, new]
  refine ⟨List.mem_append_right _ List.mem_cons_self, fun other member => ?_⟩
  rcases List.mem_append.mp member with before | behind
  · exact List.mem_append_left _ before
  · exact List.mem_append_right _ (List.mem_cons_of_mem _ behind)

theorem remove_items (found : row.remove goes = some later) :
    later.items = row.items.eraseP goes := by
  rcases removes row goes with ⟨none_, -⟩ | ⟨slot, back, split, gone, eq⟩ |
      ⟨front, previous, slot, back, split, stay, last, gone, eq⟩
  · rw [none_] at found
    cases found
  · cases eq.symm.trans found
    rw [items, items, split, items_cons, List.eraseP_cons_of_pos gone]
  · cases eq.symm.trans found
    have others : ∀ other ∈ FirstFit.items front ++ [previous.item], ¬goes other = true := by
      intro other member
      rcases List.mem_append.mp member with before | here
      · obtain ⟨slot, inFront, rfl⟩ := List.mem_map.mp before
        rw [stay slot inFront]
        exact Bool.false_ne_true
      · rw [List.mem_singleton.mp here, last]
        exact Bool.false_ne_true
    have list : row.items = FirstFit.items front ++ [previous.item] ++ slot.item :: FirstFit.items
        back := by
      rw [items, split]
      simp
    rw [list, List.eraseP_append_right _ others, List.eraseP_cons_of_pos gone, items]
    simp

theorem mem_remove (found : row.remove goes = some later) {other : Item}
    (member : other ∈ row.items)
    (stays : goes other = false) : other ∈ later.items := by
  rw [remove_items found]
  exact (List.mem_eraseP_of_neg (by rw [stays]; exact Bool.false_ne_true)).mpr member

/-- An item that goes again leaves no trace, not in the lengths of the slots either. -/
theorem remove_insert (found : row.insert need item = some later) (holds : Holds need row.slots)
    (stay : ∀ other ∈ row.items, goes other = false)
    (gone : goes item = true) : later.remove goes = some row := by
  obtain ⟨after, placing, rfl⟩ := Option.map_eq_some_iff.mp found
  obtain ⟨front, slot, back, split, -, -, rfl⟩ := placed placing
  have fits := holds slot (split ▸ List.mem_append_right _ List.mem_cons_self)
  have stays : ∀ other ∈ row.slots, goes other.item = false :=
    fun other member => stay other.item (List.mem_map_of_mem member)
  rw [split] at stays
  have last : goes (⟨slot.item, need slot.item⟩ : Slot Item).item = false :=
    stays slot (List.mem_append_right _ List.mem_cons_self)
  have new : goes (⟨item, slot.room need⟩ : Slot Item).item = true := gone
  have merged := @remove_behind Item goes ⟨item, slot.room need⟩ ⟨slot.item, need slot.item⟩
    front back
    ⟨row.lost, front ++ ⟨slot.item, need slot.item⟩ :: ⟨item, slot.room need⟩ :: back⟩ rfl
    (fun other member => stays other (List.mem_append_left _ member)) last new
  dsimp only at merged
  have whole : (⟨slot.item, need slot.item + slot.room need⟩ : Slot Item) = slot :=
    Slot.ext rfl (Nat.add_sub_cancel' fits)
  rw [merged, whole, ← split]

theorem remove_of_find {goer : Item} (first : row.items.find? goes = some goer) :
    ∃ later, row.remove goes = some later := by
  cases found : row.remove goes with
  | some later => exact ⟨later, rfl⟩
  | none =>
      exfalso
      rcases removes row goes with ⟨-, stay⟩ | ⟨_, _, _, _, eq⟩ | ⟨_, _, _, _, _, _, _, _, eq⟩
      · obtain ⟨slot, member, rfl⟩ := List.mem_map.mp (List.mem_of_find?_eq_some first)
        have goes_ := List.find?_some first
        rw [stay slot member] at goes_
        cases goes_
      · cases found.symm.trans eq
      · cases found.symm.trans eq

/-- The slot of an item behind another one has room for an item that needs no more. -/
theorem insert_of_removed {goer : Item} (found : row.remove goes = some later)
    (head : ∀ first ∈ row.items.head?, goes first = false) (holds : Holds need row.slots)
    (first : row.items.find? goes = some goer) (less : need item ≤ need goer) :
    ∃ after, later.insert need item = some after := by
  rcases removes row goes with ⟨none_, -⟩ | ⟨slot, back, split, gone, eq⟩ |
      ⟨front, previous, slot, back, split, stay, last, gone, eq⟩
  · rw [none_] at found
    cases found
  · have stays := head slot.item (by rw [items, split]; rfl)
    rw [gone] at stays
    cases stays
  · cases eq.symm.trans found
    rw [split] at holds
    have fits := holds previous (List.mem_append_right _ List.mem_cons_self)
    have goerFits := holds slot (List.mem_append_right _
      (List.mem_cons_of_mem _ List.mem_cons_self))
    have others : ∀ other ∈ FirstFit.items front ++ [previous.item], (!goes other) = true := by
      intro other member
      rcases List.mem_append.mp member with before | here
      · obtain ⟨slot, inFront, rfl⟩ := List.mem_map.mp before
        rw [stay slot inFront]
        rfl
      · rw [List.mem_singleton.mp here, last]
        rfl
    have search : row.items.find? goes = some slot.item := by
      rw [items, split, List.find?_eq_some_iff_append]
      exact ⟨gone, FirstFit.items front ++ [previous.item], FirstFit.items back, by simp, others⟩
    have same : slot.item = goer := Option.some.inj (search.symm.trans first)
    have roomy : need item ≤ Slot.room need ⟨previous.item, previous.length + slot.length⟩ := by
      rw [← same] at less
      unfold Slot.room
      dsimp only
      omega
    obtain ⟨after, placing⟩ := place_of_room (List.mem_append_right front List.mem_cons_self) roomy
    exact ⟨⟨row.lost, after⟩, congrArg (Option.map (Row.mk row.lost)) placing⟩

end Row

end Campix.Lib.FirstFit
