import Mathlib.Algebra.Order.Group.Nat
import Mathlib.Tactic.Ring

/-!
# Words in a memory of bytes

A memory gives a byte for every address. A little-endian word of `width`
bytes is read digit by digit, and reading it back gives what its digits were
taken from.
-/

namespace Campix.Lib.Bytes

set_option autoImplicit false

def readWord (bytes : Nat → UInt8) : Nat → Nat → Nat
  | 0, _ => 0
  | width + 1, addr => (bytes addr).toNat + 256 * readWord bytes width (addr + 1)

def wordByte (value place : Nat) : UInt8 := UInt8.ofNat (value / 256 ^ place)

def writeBytes (bytes : Nat → UInt8) (start : Nat) (value : UInt8) (count : Nat) : Nat → UInt8 :=
  fun addr => if start ≤ addr ∧ addr < start + count then value else bytes addr

def writeWord (bytes : Nat → UInt8) (width start value : Nat) : Nat → UInt8 :=
  fun addr => if start ≤ addr ∧ addr < start + width then wordByte value (addr - start)
    else bytes addr

theorem read_word_frame {bytes after : Nat → UInt8} (width : Nat) :
    ∀ {addr : Nat}, (∀ place < width, after (addr + place) = bytes (addr + place)) →
      readWord after width addr = readWord bytes width addr := by
  induction width with
  | zero => exact fun _ => rfl
  | succ width ih =>
      intro addr same
      have first : after addr = bytes addr := same 0 (by omega)
      have later : readWord after width (addr + 1) = readWord bytes width (addr + 1) := by
        apply ih
        intro place bound
        have shifted := same (1 + place) (by omega)
        rwa [← Nat.add_assoc] at shifted
      rw [readWord, readWord, first, later]

theorem read_word_digits {bytes : Nat → UInt8} (width : Nat) :
    ∀ {addr value : Nat}, value < 256 ^ width →
      (∀ place < width, bytes (addr + place) = wordByte value place) →
      readWord bytes width addr = value := by
  induction width with
  | zero =>
      intro addr value bound _
      rw [pow_zero] at bound
      rw [readWord]
      omega
  | succ width ih =>
      intro addr value bound digits
      have first : bytes addr = wordByte value 0 := digits 0 (by omega)
      have quotient : value / 256 < 256 ^ width := by
        rw [Nat.div_lt_iff_lt_mul (by decide), ← pow_succ]
        exact bound
      have later : readWord bytes width (addr + 1) = value / 256 := by
        apply ih quotient
        intro place below
        have shifted := digits (1 + place) (by omega)
        rw [← Nat.add_assoc] at shifted
        rw [shifted, wordByte, wordByte, Nat.add_comm 1 place, pow_succ, Nat.mul_comm,
          Nat.div_div_eq_div_mul]
      rw [readWord, first, later, wordByte, pow_zero, Nat.div_one, UInt8.toNat_ofNat']
      omega

theorem read_word_lt (bytes : Nat → UInt8) (width : Nat) :
    ∀ addr : Nat, readWord bytes width addr < 256 ^ width := by
  induction width with
  | zero => exact fun _ => by rw [readWord]; decide
  | succ width ih =>
      intro addr
      have later := ih (addr + 1)
      have first := (bytes addr).toNat_lt
      rw [readWord, pow_succ]
      omega

theorem word_byte_read {bytes : Nat → UInt8} (width : Nat) :
    ∀ {addr place : Nat}, place < width →
      wordByte (readWord bytes width addr) place = bytes (addr + place) := by
  induction width with
  | zero => exact fun below => absurd below (Nat.not_lt_zero _)
  | succ width ih =>
      intro addr place below
      have first := (bytes addr).toNat_lt
      rw [readWord, wordByte]
      cases place with
      | zero =>
          apply UInt8.toNat_inj.mp
          rw [pow_zero, Nat.div_one, UInt8.toNat_ofNat',
            Nat.add_mul_mod_self_left, Nat.mod_eq_of_lt first, Nat.add_zero]
      | succ place =>
          have rest : wordByte (readWord bytes width (addr + 1)) place = bytes (addr + 1 + place) :=
            ih (show place < width by omega)
          have quotient : ((bytes addr).toNat + 256 * readWord bytes width (addr + 1)) / 256 =
              readWord bytes width (addr + 1) := by omega
          rw [pow_succ, Nat.mul_comm (256 ^ place), ← Nat.div_div_eq_div_mul, quotient]
          rw [wordByte] at rest
          rw [rest]
          congr 1
          omega

-- the rules above are all there is to know; unfolding it makes unification slow
attribute [irreducible] readWord

section Writes

variable {bytes : Nat → UInt8} {width start value : Nat}

theorem write_word_inside {place : Nat} (below : place < width) :
    writeWord bytes width start value (start + place) = wordByte value place := by
  rw [writeWord, if_pos (by omega), Nat.add_sub_cancel_left]

theorem write_word_outside {addr : Nat} (outside : ¬(start ≤ addr ∧ addr < start + width)) :
    writeWord bytes width start value addr = bytes addr := by
  rw [writeWord, if_neg outside]

end Writes

end Campix.Lib.Bytes
