import Campix.Lib.Slice
import Mathlib.Algebra.GroupWithZero.Nat

/-!
# Rows of fields

A record is stored as a row of little-endian numbers, each of its own width and without
gaps. A field is read back at the sum of the widths in front of it.
-/

namespace Campix.Lib.Fields

open Lib.Slice

set_option autoImplicit false

structure Field where
  value : Nat
  width : Nat

def pack (row : List Field) : List UInt8 := row.flatMap fun field => toLe field.value field.width

def offsetOf (row : List Field) (place : Nat) : Nat := ((row.take place).map Field.width).sum

theorem length_pack (row : List Field) : (pack row).length = (row.map Field.width).sum := by
  induction row with
  | nil => rfl
  | cons field row ih =>
      have shape : pack (field :: row) = toLe field.value field.width ++ pack row := rfl
      rw [shape, List.length_append, length_to_le, ih, List.map_cons, List.sum_cons]

theorem read_pack {row : List Field} {field : Field} (bound : field.value < 256 ^ field.width)
    (back : List UInt8) :
    ∀ {place : Nat}, row[place]? = some field →
      readLe (pack row ++ back) (offsetOf row place) field.width = field.value := by
  induction row with
  | nil =>
      intro place here
      exact absurd here (by simp)
  | cons first row ih =>
      intro place here
      have shape : pack (first :: row) ++ back =
          toLe first.value first.width ++ (pack row ++ back) := by
        rw [← List.append_assoc]
        rfl
      cases place with
      | zero =>
          obtain rfl : first = field := by simpa using here
          rw [shape]
          exact read_le_first bound
      | succ place =>
          have front : offsetOf (first :: row) (place + 1) = first.width + offsetOf row place := rfl
          rw [shape, front, read_le_later]
          exact ih (by simpa using here)

/-- Only the low bytes of a number are stored. -/
theorem to_le_mod (value width : Nat) : toLe (value % 256 ^ width) width = toLe value width := by
  unfold toLe
  apply List.map_congr_left
  intro place member
  have below : place < width := List.mem_range.mp member
  apply UInt8.toNat_inj.mp
  rw [UInt8.toNat_ofNat', UInt8.toNat_ofNat']
  apply Nat.eq_of_testBit_eq
  intro bit
  have power : 256 ^ width = 2 ^ (8 * width) := Nat.pow_mul 2 8 width |>.symm
  rw [power, Nat.testBit_mod_two_pow, Nat.testBit_mod_two_pow, Nat.testBit_shiftRight,
    Nat.testBit_shiftRight, Nat.testBit_mod_two_pow]
  by_cases low : bit < 8
  · have inside : 8 * place + bit < 8 * width := by omega
    simp [low, inside]
  · simp [low]

end Campix.Lib.Fields
