import Campix.Lib.Slice
import Mathlib.Data.List.Basic
import Mathlib.Tactic.Linarith

/-!
# Concatenations of blocks of one size

A sequence cut into blocks of one size; a part of it that lies within one block is that
part of the block.
-/

namespace Campix.Lib.Blocks

open Lib.Slice

set_option autoImplicit false

variable {Item : Type} {blocks : Nat → List Item} {count size : Nat}

def concat (blocks : Nat → List Item) (count : Nat) : List Item := (List.range count).flatMap blocks

theorem concat_succ (blocks : Nat → List Item) (count : Nat) :
    concat blocks (count + 1) = concat blocks count ++ blocks count := by
  simp [concat, List.range_succ]

theorem length_concat (sized : ∀ k, (blocks k).length = size) :
    (concat blocks count).length = count * size := by
  induction count with
  | zero => simp [concat]
  | succ count ih => rw [concat_succ, List.length_append, ih, sized, Nat.succ_mul]

theorem concat_slice {k offset length : Nat} (sized : ∀ k, (blocks k).length = size)
    (inside : k < count) (fits : offset + length ≤ size) :
    ((concat blocks count).drop (k * size + offset)).take length =
      ((blocks k).drop offset).take length := by
  induction count with
  | zero => omega
  | succ count ih =>
      have before : (concat blocks count).length = count * size := length_concat sized
      rw [concat_succ]
      by_cases last : k = count
      · subst last
        have rest : k * size + offset - k * size = offset := by omega
        rw [List.drop_append, before, rest, List.drop_eq_nil_of_le (by rw [before]; omega),
          List.nil_append]
      · have next : (k + 1) * size ≤ count * size := Nat.mul_le_mul_right size (by omega)
        rw [Nat.succ_mul] at next
        rw [List.drop_append_of_le_length (by rw [before]; omega),
          List.take_append_of_le_length (by rw [List.length_drop, before]; omega)]
        exact ih (by omega)

theorem getElem?_concat {k offset : Nat} (sized : ∀ k, (blocks k).length = size)
    (inside : k < count)
    (within : offset < size) : (concat blocks count)[k * size + offset]? = (blocks k)[offset]? := by
  have slice := concat_slice sized inside (show offset + 1 ≤ size from within)
  have first := congrArg (fun items => items[0]?) slice
  simpa [List.getElem?_take, List.getElem?_drop] using first

/-- Two concatenations begin with the same items if their blocks have the same ones there. -/
theorem take_concat_eq_iff {others : Nat → List Item} {bound : Nat}
    (sized : ∀ k, (blocks k).length = size)
    (othersSized : ∀ k, (others k).length = size) (inside : bound ≤ count * size) :
    (concat blocks count).take bound = (concat others count).take bound ↔
      ∀ k < count, ∀ offset < size, k * size + offset < bound →
        (blocks k)[offset]? = (others k)[offset]? := by
  constructor
  · intro same k below offset within before
    have item := congrArg (fun items => items[k * size + offset]?) same
    simp only [List.getElem?_take_of_lt before] at item
    rwa [getElem?_concat sized below within, getElem?_concat othersSized below within] at item
  · intro same
    apply List.ext_getElem?
    intro place
    by_cases before : place < bound
    · have positive : 0 < size := Nat.pos_of_ne_zero fun zero => by
        rw [zero, Nat.mul_zero] at inside
        omega
      have split : place / size * size + place % size = place := by
        rw [Nat.mul_comm]
        exact Nat.div_add_mod ..
      have below : place / size < count := Nat.div_lt_of_lt_mul (by rw [Nat.mul_comm]; omega)
      have within : place % size < size := Nat.mod_lt _ positive
      rw [List.getElem?_take_of_lt before, List.getElem?_take_of_lt before, ← split,
        getElem?_concat sized below within, getElem?_concat othersSized below within]
      exact same _ below _ within (by rwa [split])
    · rw [List.getElem?_eq_none (by rw [List.length_take]; omega),
        List.getElem?_eq_none (by rw [List.length_take]; omega)]

theorem take_concat {more : Nat} (sized : ∀ k, (blocks k).length = size) (less : count ≤ more) :
    (concat blocks more).take (count * size) = concat blocks count := by
  obtain ⟨rest, rfl⟩ := Nat.exists_eq_add_of_le less
  have length : (concat blocks count).length = count * size := length_concat sized
  rw [concat, List.range_add, List.flatMap_append, ← length]
  exact List.take_left

theorem concat_congr {others : Nat → List Item} (same : ∀ k < count, blocks k = others k) :
    concat blocks count = concat others count := by
  unfold concat
  apply List.flatMap_congr
  intro k member
  exact same k (List.mem_range.mp member)

/-- A change inside one block is a change of the concatenation. -/
theorem concat_update {k offset : Nat} {part : List Item} (sized : ∀ k, (blocks k).length = size)
    (inside : k < count) (within : offset + part.length ≤ size) :
    concat (Function.update blocks k (splice (blocks k) offset part)) count =
      splice (concat blocks count) (k * size + offset) part := by
  have updatedSized : ∀ j, (Function.update blocks k (splice (blocks k) offset part) j).length =
      size := by
    intro j
    by_cases here : j = k
    · rw [here, Function.update_self, length_splice (by rw [sized]; exact within), sized]
    · rw [Function.update_of_ne here, sized]
  have ends : k * size + offset + part.length ≤ count * size := by
    have next : (k + 1) * size ≤ count * size := Nat.mul_le_mul_right size inside
    rw [Nat.succ_mul] at next
    omega
  have total : (concat blocks count).length = count * size := length_concat sized
  apply List.ext_getElem?
  intro place
  rw [getElem?_splice (by rw [total]; exact ends)]
  by_cases before : place < count * size
  · have positive : 0 < size := Nat.pos_of_ne_zero fun zero => by
      rw [zero, Nat.mul_zero] at before
      omega
    have split : place / size * size + place % size = place := by
      rw [Nat.mul_comm]
      exact Nat.div_add_mod ..
    have below : place / size < count := Nat.div_lt_of_lt_mul (by rw [Nat.mul_comm]; exact before)
    have part' : place % size < size := Nat.mod_lt _ positive
    generalize place / size = j at split below
    generalize place % size = rest at split part'
    subst split
    rw [getElem?_concat updatedSized below part', getElem?_concat sized below part']
    by_cases here : j = k
    · subst here
      rw [Function.update_self, getElem?_splice (by rw [sized]; exact within)]
      by_cases covered : offset ≤ rest ∧ rest < offset + part.length
      · rw [if_pos covered, if_pos (by omega)]
        congr 1
        omega
      · rw [if_neg covered, if_neg (by omega)]
    · rw [Function.update_of_ne here, if_neg]
      rcases Nat.lt_or_gt_of_ne here with less | more
      · have next : (j + 1) * size ≤ k * size := Nat.mul_le_mul_right size less
        rw [Nat.succ_mul] at next
        omega
      · have next : (k + 1) * size ≤ j * size := Nat.mul_le_mul_right size more
        rw [Nat.succ_mul] at next
        omega
  · rw [if_neg (by omega), List.getElem?_eq_none (by rw [length_concat updatedSized]; omega),
      List.getElem?_eq_none (by rw [total]; omega)]

theorem concat_parts (data : List Item) (size count : Nat) :
    concat (fun k => (data.drop (k * size)).take size) count = data.take (count * size) := by
  induction count with
  | zero => simp [concat]
  | succ count ih => rw [concat_succ, ih, Nat.succ_mul, List.take_add]

end Campix.Lib.Blocks
