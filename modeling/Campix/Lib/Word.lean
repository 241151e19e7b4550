import Mathlib.Algebra.Order.Group.Nat
import Mathlib.Data.Nat.Bitwise
import Mathlib.Tactic.Ring

/-!
# Unsigned machine words as naturals

A `w`-bit word is a natural below `2 ^ w`; addition, subtraction and
multiplication wrap. The rules say when they do not, which is what the proofs
of a program that stays in range need.
-/

namespace Campix.Lib.Word

set_option autoImplicit false

def add64 (left right : Nat) : Nat := (left + right) % 2 ^ 64

def sub64 (left right : Nat) : Nat :=
  if right ≤ left then left - right else left + 2 ^ 64 - right

def not64 (word : Nat) : Nat := 0xFFFF_FFFF_FFFF_FFFF - word

def mul64 (left right : Nat) : Nat := (left * right) % 2 ^ 64

def add16 (left right : Nat) : Nat := (left + right) % 2 ^ 16

def sub16 (left right : Nat) : Nat :=
  if right ≤ left then left - right else left + 2 ^ 16 - right

def add32 (left right : Nat) : Nat := (left + right) % 2 ^ 32

def sub32 (left right : Nat) : Nat :=
  if right ≤ left then left - right else left + 2 ^ 32 - right

def mul32 (left right : Nat) : Nat := (left * right) % 2 ^ 32

theorem add64_of_lt {left right : Nat} (bound : left + right < 2 ^ 64) :
    add64 left right = left + right :=
  Nat.mod_eq_of_lt bound

theorem sub64_of_le {left right : Nat} (ordered : right ≤ left) :
    sub64 left right = left - right :=
  if_pos ordered

theorem mul64_of_lt {left right : Nat} (bound : left * right < 2 ^ 64) :
    mul64 left right = left * right :=
  Nat.mod_eq_of_lt bound

theorem and_mask_of_dvd {word shift width : Nat} (aligned : 2 ^ shift ∣ word)
    (bound : word < 2 ^ (shift + width)) : word &&& ((2 ^ width - 1) <<< shift) = word := by
  obtain ⟨high, rfl⟩ := aligned
  have small : high < 2 ^ width := by
    rw [pow_add] at bound
    exact Nat.lt_of_mul_lt_mul_left bound
  rw [Nat.mul_comm, ← Nat.shiftLeft_eq, ← Nat.shiftLeft_and_distrib,
    Nat.and_two_pow_sub_one_eq_mod, Nat.mod_eq_of_lt small]

theorem and_not64_low {word shift : Nat} (bound : word < 2 ^ 64) (range : shift ≤ 64) :
    word &&& not64 (2 ^ shift - 1) = word / 2 ^ shift * 2 ^ shift := by
  have mask : not64 (2 ^ shift - 1) = (2 ^ (64 - shift) - 1) <<< shift := by
    have power : 2 ^ (64 - shift) * 2 ^ shift = 2 ^ 64 := by
      rw [← pow_add, Nat.sub_add_cancel range]
    have positive : 0 < 2 ^ shift := Nat.two_pow_pos shift
    rw [Nat.shiftLeft_eq, Nat.sub_mul, power, not64]
    omega
  have high : word / 2 ^ shift < 2 ^ (64 - shift) := by
    rw [Nat.div_lt_iff_lt_mul (Nat.two_pow_pos shift), ← pow_add, Nat.sub_add_cancel range]
    exact bound
  apply Nat.eq_of_testBit_eq
  intro bit
  rw [mask, ← Nat.shiftLeft_eq, ← Nat.shiftRight_eq_div_pow, Nat.testBit_and,
    Nat.testBit_shiftLeft, Nat.testBit_shiftLeft, Nat.testBit_two_pow_sub_one,
    Nat.testBit_shiftRight]
  by_cases above : shift ≤ bit
  · rw [Nat.add_sub_cancel' above]
    by_cases inside : bit < 64
    · simp [above, show bit - shift < 64 - shift by omega]
    · have zero : word.testBit bit = false :=
        Nat.testBit_lt_two_pow (bound.trans_le (Nat.pow_le_pow_right (by norm_num) (by omega)))
      simp [zero]
  · simp [above]

theorem add64_lt (left right : Nat) : add64 left right < 2 ^ 64 :=
  Nat.mod_lt _ (by norm_num)

end Campix.Lib.Word
