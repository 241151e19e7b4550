import Campix.Ext2.Inode
import Mathlib.Tactic.Linarith

/-!
# The numbering of locations

A location is a number in a mixed radix: twelve direct blocks, then one, two and three
digits below the table size. `locate` and `indexOf` are inverse to one another, and the
functions of `inode.rs` compute them as far as `u32` reaches.
-/

namespace Campix.Ext2

open Lib.Word

set_option autoImplicit false

/-- The number of blocks that an inode can point to. -/
def capacity (t : Nat) : Nat := 12 + t + t * t + t * t * t

def indexOf (t : Nat) : InodeReadingLocationInfo → Nat
  | .direct d => d
  | .single i => 12 + i
  | .double i j => 12 + t + i * t + j
  | .triple i j k => 12 + t + t * t + i * (t * t) + j * t + k

def Digits (t : Nat) : InodeReadingLocationInfo → Prop
  | .direct d => d < 12
  | .single i => i < t
  | .double i j => i < t ∧ j < t
  | .triple i j k => i < t ∧ j < t ∧ k < t

def locate (t idx : Nat) : InodeReadingLocationInfo :=
  if idx < 12 then .direct idx
  else if idx - 12 < t then .single (idx - 12)
  else if idx - 12 - t < t * t then .double ((idx - 12 - t) / t) ((idx - 12 - t) % t)
  else
    .triple ((idx - 12 - t - t * t) / (t * t)) ((idx - 12 - t - t * t) % (t * t) / t)
      ((idx - 12 - t - t * t) % t)

variable {t : Nat}

theorem two_digits {i j : Nat} (small : j < t) : (i * t + j) / t = i ∧ (i * t + j) % t = j := by
  have positive : 0 < t := by omega
  rw [Nat.mul_comm i t, Nat.mul_add_div positive, Nat.mul_add_mod, Nat.div_eq_of_lt small,
    Nat.mod_eq_of_lt small]
  exact ⟨rfl, rfl⟩

theorem two_digits_lt {i j : Nat} (high : i < t) (low : j < t) : i * t + j < t * t := by
  nlinarith

theorem locate_twelve : locate 256 12 = .single 0 := by decide

theorem locate_index_of (location : InodeReadingLocationInfo) (digits : Digits t location) :
    locate t (indexOf t location) = location := by
  cases location with
  | direct d => exact if_pos digits
  | single i =>
      have rest : 12 + i - 12 = i := by omega
      rw [indexOf, locate, if_neg (by omega), rest, if_pos (show i < t from digits)]
  | double i j =>
      obtain ⟨high, low⟩ := digits
      have rest : 12 + t + i * t + j - 12 - t = i * t + j := by omega
      rw [indexOf, locate, if_neg (by omega), if_neg (by omega), rest,
        if_pos (two_digits_lt high low), (two_digits low).1, (two_digits low).2]
  | triple i j k =>
      obtain ⟨high, middle, low⟩ := digits
      have inner : j * t + k < t * t := two_digits_lt middle low
      have rest : 12 + t + t * t + i * (t * t) + j * t + k - 12 - t - t * t =
          i * (t * t) + (j * t + k) := by
        omega
      have outside : ¬12 + t + t * t + i * (t * t) + j * t + k - 12 - t < t * t := by omega
      have last : (i * (t * t) + (j * t + k)) % t = k := by
        have regroup : i * (t * t) + (j * t + k) = (i * t + j) * t + k := by ring
        rw [regroup, (two_digits low).2]
      rw [indexOf, locate, if_neg (by omega), if_neg (by omega), if_neg outside, rest,
        (two_digits inner).1, (two_digits inner).2, (two_digits low).1, last]

theorem index_of_locate {idx : Nat} (inside : idx < capacity t) :
    indexOf t (locate t idx) = idx ∧ Digits t (locate t idx) := by
  unfold locate capacity at *
  split_ifs with direct single double
  · exact ⟨rfl, direct⟩
  · exact ⟨by rw [indexOf]; omega, single⟩
  · have positive : 0 < t := by
      by_contra zero
      obtain rfl : t = 0 := by omega
      omega
    have digits := Nat.div_add_mod (idx - 12 - t) t
    refine ⟨?_, Nat.div_lt_of_lt_mul double, Nat.mod_lt _ positive⟩
    rw [indexOf, Nat.mul_comm _ t]
    omega
  · have positive : 0 < t := by
      by_contra zero
      obtain rfl : t = 0 := by omega
      omega
    have square : 0 < t * t := Nat.mul_pos positive positive
    have outer := Nat.div_add_mod (idx - 12 - t - t * t) (t * t)
    have inner := Nat.div_add_mod ((idx - 12 - t - t * t) % (t * t)) t
    have low : (idx - 12 - t - t * t) % (t * t) % t = (idx - 12 - t - t * t) % t :=
      Nat.mod_mod_of_dvd _ (Nat.dvd_mul_left t t)
    refine ⟨?_, Nat.div_lt_of_lt_mul (by omega), Nat.div_lt_of_lt_mul (Nat.mod_lt _ square),
      Nat.mod_lt _ positive⟩
    have outerDigit := Nat.mul_comm ((idx - 12 - t - t * t) / (t * t)) (t * t)
    have innerDigit := Nat.mul_comm ((idx - 12 - t - t * t) % (t * t) / t) t
    rw [low] at inner
    rw [indexOf, outerDigit, innerDigit]
    omega

/-- `InodeReadingLocation::new`, where the square of the table size does not overflow
or is not needed. -/
theorem new_locate {idx : Nat} (inside : idx < capacity t) (fits : idx < 12 + t ∨ t * t < 2 ^ 32) :
    InodeReadingLocation.new t idx = some ⟨locate t idx, t⟩ := by
  unfold InodeReadingLocation.new locate
  dsimp only
  by_cases direct : idx < 12
  · rw [if_pos direct, if_pos direct]
  · rw [if_neg direct, if_neg direct]
    by_cases single : idx - 12 < t
    · rw [if_pos single, if_pos single]
    · have square : mul32 t t = t * t := Nat.mod_eq_of_lt (fits.resolve_left (by omega))
      rw [if_neg single, if_neg single, square]
      by_cases double : idx - 12 - t < t * t
      · rw [if_pos double, if_pos double]
      · have positive : 0 < t := by
          by_contra zero
          obtain rfl : t = 0 := by omega
          unfold capacity at inside
          omega
        have nonzero : ¬(t * t = 0 ∨ t = 0) := by
          have := Nat.mul_pos positive positive
          omega
        rw [if_neg double, if_neg double, if_neg nonzero]

theorem current_block_idx_eq (location : InodeReadingLocationInfo) (digits : Digits t location) :
    (InodeReadingLocation.mk location t).currentBlockIdx = indexOf t location % 2 ^ 32 := by
  cases location with
  | direct d =>
      have small : d < 2 ^ 32 := lt_trans (show d < 12 from digits) (by decide)
      exact (Nat.mod_eq_of_lt small).symm
  | single i => rfl
  | double i j => simp [InodeReadingLocation.currentBlockIdx, indexOf, add32, mul32]
  | triple i j k =>
      simp [InodeReadingLocation.currentBlockIdx, indexOf, add32, mul32, Nat.mul_assoc]

theorem advance_locate {idx : Nat} (bound : t < 2 ^ 32) (more : idx + 1 < capacity t) :
    (InodeReadingLocation.mk (locate t idx) t).advance = some ⟨locate t (idx + 1), t⟩ := by
  obtain ⟨index, digits⟩ := index_of_locate (show idx < capacity t by omega)
  suffices moves : ∃ next, (InodeReadingLocation.mk (locate t idx) t).advance = some ⟨next, t⟩ ∧
      Digits t next ∧ indexOf t next = idx + 1 by
    obtain ⟨next, advanced, nextDigits, nextIndex⟩ := moves
    rw [advanced, ← nextIndex, locate_index_of next nextDigits]
  have last : 0 < t → sub32 t 1 = t - 1 := fun positive => if_pos positive
  have step : ∀ digit, digit < t → digit ≠ t - 1 → add32 digit 1 = digit + 1 ∧ digit + 1 < t := by
    intro digit small other
    exact ⟨Nat.mod_eq_of_lt (by omega), by omega⟩
  generalize locate t idx = location at digits index ⊢
  subst index
  unfold InodeReadingLocation.advance
  cases location with
  | direct d =>
      have small : d < 12 := digits
      dsimp only
      split_ifs with eleven
      · have positive : 0 < t := by
          by_contra zero
          obtain rfl : t = 0 := by omega
          simp [capacity, indexOf, eleven] at more
        exact ⟨.single 0, rfl, positive, by simp [indexOf, eleven]⟩
      · have next : add32 d 1 = d + 1 := Nat.mod_eq_of_lt (by omega)
        exact ⟨.direct (d + 1), by rw [next], show d + 1 < 12 by omega, rfl⟩
  | single i =>
      have small : i < t := digits
      dsimp only
      rw [last (by omega)]
      split_ifs with full
      · refine ⟨.double 0 0, rfl, ⟨by omega, by omega⟩, ?_⟩
        simp only [indexOf]
        omega
      · obtain ⟨next, inside⟩ := step i small full
        exact ⟨.single (i + 1), by rw [next], inside, by simp only [indexOf]; omega⟩
  | double i j =>
      obtain ⟨high, low⟩ : i < t ∧ j < t := digits
      dsimp only
      rw [last (by omega)]
      split_ifs with full carry
      · refine ⟨.triple 0 0 0, rfl, ⟨by omega, by omega, by omega⟩, ?_⟩
        have square : (t - 1) * t + t = t * t := by
          rw [← Nat.succ_mul, Nat.succ_eq_add_one, Nat.sub_add_cancel (by omega)]
        simp only [indexOf, full.1, full.2]
        omega
      · obtain ⟨next, inside⟩ := step i high (fun top => full ⟨top, carry⟩)
        refine ⟨.double (i + 1) 0, by rw [next], ⟨inside, by omega⟩, ?_⟩
        simp only [indexOf, carry, Nat.succ_mul]
        omega
      · obtain ⟨next, inside⟩ := step j low carry
        exact ⟨.double i (j + 1), by rw [next], ⟨high, inside⟩, by simp only [indexOf]; omega⟩
  | triple i j k =>
      obtain ⟨high, middle, low⟩ : i < t ∧ j < t ∧ k < t := digits
      have square : (t - 1) * t + t = t * t := by
        rw [← Nat.succ_mul, Nat.succ_eq_add_one, Nat.sub_add_cancel (by omega)]
      have cube : (t - 1) * (t * t) + t * t = t * t * t := by
        rw [← Nat.succ_mul, Nat.succ_eq_add_one, Nat.sub_add_cancel (by omega), Nat.mul_assoc]
      dsimp only
      rw [last (by omega)]
      split_ifs with full carry2 carry1
      · simp only [capacity, indexOf, full.1, full.2.1, full.2.2] at more
        omega
      · obtain ⟨next, inside⟩ := step i high (fun top => full ⟨top, carry2⟩)
        refine ⟨.triple (i + 1) 0 0, by rw [next], ⟨inside, by omega, by omega⟩, ?_⟩
        simp only [indexOf, carry2.1, carry2.2, Nat.succ_mul]
        omega
      · obtain ⟨next, inside⟩ := step j middle (fun top => carry2 ⟨top, carry1⟩)
        refine ⟨.triple i (j + 1) 0, by rw [next], ⟨high, inside, by omega⟩, ?_⟩
        simp only [indexOf, carry1, Nat.succ_mul]
        omega
      · obtain ⟨next, inside⟩ := step k low carry1
        exact ⟨.triple i j (k + 1), by rw [next], ⟨high, middle, inside⟩, by simp only [indexOf]; omega⟩

theorem advance_last {idx : Nat} (positive : 0 < t) (last : idx + 1 = capacity t) :
    (InodeReadingLocation.mk (locate t idx) t).advance = none := by
  obtain ⟨index, digits⟩ := index_of_locate (show idx < capacity t by omega)
  have square : 0 < t * t := Nat.mul_pos positive positive
  have cube : 0 < t * t * t := Nat.mul_pos square positive
  have lastDigit : sub32 t 1 = t - 1 := if_pos positive
  generalize locate t idx = location at digits index ⊢
  unfold capacity at last
  cases location with
  | direct d =>
      have small : d < 12 := digits
      simp only [indexOf] at index
      omega
  | single i =>
      have small : i < t := digits
      simp only [indexOf] at index
      omega
  | double i j =>
      obtain ⟨high, low⟩ : i < t ∧ j < t := digits
      have small := two_digits_lt high low
      simp only [indexOf] at index
      omega
  | triple i j k =>
      obtain ⟨high, middle, low⟩ : i < t ∧ j < t ∧ k < t := digits
      simp only [indexOf] at index
      have small := two_digits_lt middle low
      -- each digit is as large as it can be
      have first : i = t - 1 := by
        have bound : t * (t * t) ≤ (i + 1) * (t * t) := by
          rw [Nat.succ_mul, ← Nat.mul_assoc]
          omega
        have top := Nat.le_of_mul_le_mul_right bound square
        omega
      have second : j = t - 1 := by
        have whole : (t - 1) * (t * t) + t * t = t * t * t := by
          rw [← Nat.succ_mul, Nat.succ_eq_add_one, Nat.sub_add_cancel (by omega), Nat.mul_assoc]
        rw [first] at index
        have bound : t * t ≤ (j + 1) * t := by
          rw [Nat.succ_mul]
          omega
        have top := Nat.le_of_mul_le_mul_right bound positive
        omega
      have third : k = t - 1 := by
        have whole : (t - 1) * (t * t) + t * t = t * t * t := by
          rw [← Nat.succ_mul, Nat.succ_eq_add_one, Nat.sub_add_cancel (by omega), Nat.mul_assoc]
        have row : (t - 1) * t + t = t * t := by
          rw [← Nat.succ_mul, Nat.succ_eq_add_one, Nat.sub_add_cancel (by omega)]
        rw [first, second] at index
        omega
      unfold InodeReadingLocation.advance
      dsimp only
      rw [lastDigit, if_pos ⟨first, second, third⟩]

def InodeReadingLocation.advanceInPlace (self : InodeReadingLocation) :
    Bool × InodeReadingLocation :=
  match self.advance with
  | none => (false, self)
  | some next => (true, next)

theorem capacity_eq (t : Nat) : capacity t = 12 + t + t ^ 2 + t ^ 3 := by
  unfold capacity
  ring

/-- Division in `new`, multiplication in `current_block_idx` and the carries in `advance`
speak of the same locations. -/
theorem locations_number_blocks (t i : Nat) (positive : 1 ≤ t) (square : t * t < 2 ^ 32)
    (word : i < 2 ^ 32) (inside : i < 12 + t + t ^ 2 + t ^ 3) :
    ∃ location, InodeReadingLocation.new t i = some location ∧
      Digits t location.location ∧ location.tableSize = t ∧ location.currentBlockIdx = i ∧
      (i + 1 < 2 ^ 32 → i + 1 < 12 + t + t ^ 2 + t ^ 3 →
        location.advanceInPlace.1 = true ∧
          InodeReadingLocation.new t (i + 1) = some location.advanceInPlace.2) ∧
      (i + 1 = 12 + t + t ^ 2 + t ^ 3 → location.advanceInPlace = (false, location)) := by
  rw [← capacity_eq] at inside ⊢
  have small : t < 2 ^ 32 := lt_of_le_of_lt (Nat.le_mul_of_pos_left t positive) square
  obtain ⟨index, digits⟩ := index_of_locate inside
  have here := new_locate inside (Or.inr square)
  refine ⟨_, here, digits, rfl, ?_, ?_, ?_⟩
  · rw [current_block_idx_eq _ digits, index, Nat.mod_eq_of_lt word]
  · intro _ more
    have moved := advance_locate small more
    unfold InodeReadingLocation.advanceInPlace
    rw [moved]
    exact ⟨rfl, new_locate more (Or.inr square)⟩
  · intro last
    unfold InodeReadingLocation.advanceInPlace
    rw [advance_last positive last]

/-- The last location of the smallest tables. -/
theorem smallest_tables_number_blocks :
    ∃ location, InodeReadingLocation.new 1 14 = some location ∧
      Digits 1 location.location ∧ location.tableSize = 1 ∧ location.currentBlockIdx = 14 ∧
      (14 + 1 < 2 ^ 32 → 14 + 1 < 12 + 1 + 1 ^ 2 + 1 ^ 3 →
        location.advanceInPlace.1 = true ∧
          InodeReadingLocation.new 1 (14 + 1) = some location.advanceInPlace.2) ∧
      (14 + 1 = 12 + 1 + 1 ^ 2 + 1 ^ 3 → location.advanceInPlace = (false, location)) :=
  locations_number_blocks 1 14 (by decide) (by decide) (by decide) (by decide)

end Campix.Ext2
