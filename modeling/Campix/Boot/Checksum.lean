import Campix.Lib.Bytes
import Campix.Lib.Folds
import Mathlib.Logic.Function.Basic
import Mathlib.Data.Fin.VecNotation
import Mathlib.Data.List.FinRange
import Mathlib.Data.Fintype.Pi
import Mathlib.Data.UInt
import Mathlib.Tactic.FinCases

/-!
# The checksum of the boot parameters

The parameters stand in memory as the boot loader left them; an address below counts from the
start of the structure. The checksum is computed in place: its own field is cleared, the bytes
are folded into eight words, and the field is put back.
-/

namespace Campix.Boot.Checksum

open Lib.Bytes Lib.Folds

set_option autoImplicit false

abbrev Words := Fin 8 → UInt32

def spread : UInt32 := 0x01100111

/-- One turn of the loop in `update`: the words and the exclusive or so far. -/
def shiftWord (state : Words × UInt32) (i : Fin 7) : Words × UInt32 :=
  let result := Function.update state.1 i.castSucc (state.1 i.succ)
  (result, state.2 ^^^ result i.castSucc)

def update (result : Words) (byte : UInt8) : Words :=
  let (result, xored) := (List.finRange 7).foldl shiftWord (result, result 0)
  Function.update result 7 (xored + byte.toUInt32 * spread)

def structSizeOffset : Nat := 0

def checksumOffset : Nat := 8

def obsibootStructSize (bytes : Nat → UInt8) : Nat := readWord bytes 4 structSizeOffset

def obsibootStructChecksum (bytes : Nat → UInt8) : Words :=
  fun i => UInt32.ofNat (readWord bytes 4 (checksumOffset + 4 * i))

def storeWord (words : Words) (bytes : Nat → UInt8) (i : Fin 8) : Nat → UInt8 :=
  writeWord bytes 4 (checksumOffset + 4 * i) (words i).toNat

def setStructChecksum (bytes : Nat → UInt8) (words : Words) : Nat → UInt8 :=
  (List.finRange 8).foldl (storeWord words) bytes

def calculateChecksum (bytes : Nat → UInt8) : Words × (Nat → UInt8) :=
  let prev := obsibootStructChecksum bytes
  let bytes := setStructChecksum bytes 0
  let result := (List.range (obsibootStructSize bytes)).foldl
    (fun result i => update result (bytes i)) 0
  (result, setStructChecksum bytes prev)

def verifyChecksum (bytes : Nat → UInt8) : Bool × (Nat → UInt8) :=
  let (checksum, bytes) := calculateChecksum bytes
  let expected := obsibootStructChecksum bytes
  (decide (checksum = expected), bytes)

def xorAll (result : Words) : UInt32 :=
  result 0 ^^^ result 1 ^^^ result 2 ^^^ result 3 ^^^ result 4 ^^^ result 5 ^^^ result 6 ^^^
    result 7

theorem update_eq (result : Words) (byte : UInt8) :
    update result byte = ![result 1, result 2, result 3, result 4, result 5, result 6, result 7,
      xorAll result + byte.toUInt32 * spread] := by
  funext i
  fin_cases i <;> rfl

theorem spread_injective {left right : UInt8}
    (same : left.toUInt32 * spread = right.toUInt32 * spread) : left = right := by
  have unit : spread * 0x01ef0ff1 = 1 := by decide
  have undone := congrArg (fun word => word * 0x01ef0ff1) same
  simp only [UInt32.mul_assoc, unit, UInt32.mul_one] at undone
  exact UInt8.toUInt32_inj.mp undone

theorem update_tells (result : Words) : Function.Injective (update result) := by
  intro left right same
  have last := congrFun same 7
  rw [update_eq, update_eq] at last
  change xorAll result + _ = xorAll result + _ at last
  exact spread_injective (UInt32.add_right_inj _ |>.mp last)

/-- The words that move down are given back by the step, and the one that drops out is what is
missing from their exclusive or. -/
theorem update_keeps (byte : UInt8) : Function.Injective fun result => update result byte := by
  intro left right same
  simp only [update_eq] at same
  have later : ∀ i : Fin 7, left i.succ = right i.succ := by
    intro i
    have word := congrFun same i.castSucc
    fin_cases i <;> exact word
  have xored : xorAll left = xorAll right := by
    have word := congrFun same 7
    exact UInt32.add_left_inj _ |>.mp word
  have first : left 0 = right 0 := by
    have one : left 1 = right 1 := later 0
    have two : left 2 = right 2 := later 1
    have three : left 3 = right 3 := later 2
    have four : left 4 = right 4 := later 3
    have five : left 5 = right 5 := later 4
    have six : left 6 = right 6 := later 5
    have seven : left 7 = right 7 := later 6
    unfold xorAll at xored
    rw [one, two, three, four, five, six, seven] at xored
    simpa only [UInt32.xor_left_inj] using xored
  funext i
  cases i using Fin.cases with
  | zero => exact first
  | succ i => exact later i

theorem store_words_outside (words : Words) {addr : Nat} (order : List (Fin 8)) :
    ∀ bytes : Nat → UInt8,
      (∀ i ∈ order, ¬(checksumOffset + 4 * i ≤ addr ∧ addr < checksumOffset + 4 * i + 4)) →
      order.foldl (storeWord words) bytes addr = bytes addr := by
  induction order with
  | nil => exact fun _ _ => rfl
  | cons i order ih =>
      intro bytes outside
      rw [List.foldl_cons, ih _ fun other member => outside other (List.mem_cons_of_mem _ member)]
      exact write_word_outside (outside i List.mem_cons_self)

theorem store_words_inside (words : Words) {i : Fin 8} {place : Nat} (below : place < 4)
    (order : List (Fin 8)) :
    ∀ bytes : Nat → UInt8, i ∈ order →
      order.foldl (storeWord words) bytes (checksumOffset + 4 * i + place) =
        wordByte (words i).toNat place := by
  induction order with
  | nil => exact fun _ member => absurd member List.not_mem_nil
  | cons first order ih =>
      intro bytes member
      rw [List.foldl_cons]
      by_cases again : i ∈ order
      · exact ih _ again
      · obtain rfl : i = first := (List.mem_cons.mp member).resolve_right again
        rw [store_words_outside]
        · exact write_word_inside below
        · intro other later
          have apart : (other : Nat) ≠ i := fun same => again (Fin.ext same ▸ later)
          omega

theorem set_struct_checksum_word (bytes : Nat → UInt8) (words : Words) (i : Fin 8) {place : Nat}
    (below : place < 4) :
    setStructChecksum bytes words (checksumOffset + 4 * i + place) =
      wordByte (words i).toNat place :=
  store_words_inside words below _ bytes (List.mem_finRange i)

def InChecksum (addr : Nat) : Prop := checksumOffset ≤ addr ∧ addr < checksumOffset + 32

instance (addr : Nat) : Decidable (InChecksum addr) := inferInstanceAs (Decidable (_ ∧ _))

theorem in_checksum_word {addr : Nat} (inside : InChecksum addr) :
    ∃ (i : Fin 8) (place : Nat), place < 4 ∧ addr = checksumOffset + 4 * i + place := by
  unfold InChecksum at inside
  refine ⟨⟨(addr - checksumOffset) / 4, by omega⟩, (addr - checksumOffset) % 4, by omega, ?_⟩
  simp only
  omega

theorem set_struct_checksum_outside (bytes : Nat → UInt8) (words : Words) {addr : Nat}
    (outside : ¬InChecksum addr) : setStructChecksum bytes words addr = bytes addr := by
  apply store_words_outside
  intro i _ covered
  apply outside
  have below := i.isLt
  unfold InChecksum
  omega

/-- Putting the field back leaves no trace of what stood there meanwhile. -/
theorem set_struct_checksum_back (bytes : Nat → UInt8) (words : Words) :
    setStructChecksum (setStructChecksum bytes words) (obsibootStructChecksum bytes) = bytes := by
  funext addr
  by_cases inside : InChecksum addr
  · obtain ⟨i, place, below, rfl⟩ := in_checksum_word inside
    have fits := read_word_lt bytes 4 (checksumOffset + 4 * i)
    have word : (obsibootStructChecksum bytes i).toNat =
        readWord bytes 4 (checksumOffset + 4 * i) :=
      UInt32.toNat_ofNat_of_lt' fits
    rw [set_struct_checksum_word _ _ i below, word, word_byte_read 4 below]
  · rw [set_struct_checksum_outside _ _ inside, set_struct_checksum_outside _ _ inside]

theorem struct_size_set_checksum (bytes : Nat → UInt8) (words : Words) :
    obsibootStructSize (setStructChecksum bytes words) = obsibootStructSize bytes := by
  apply read_word_frame
  intro place below
  apply set_struct_checksum_outside
  unfold InChecksum checksumOffset structSizeOffset
  omega

theorem cleared_byte (bytes : Nat → UInt8) (addr : Nat) :
    setStructChecksum bytes 0 addr = if InChecksum addr then 0 else bytes addr := by
  by_cases inside : InChecksum addr
  · rw [if_pos inside]
    obtain ⟨i, place, below, rfl⟩ := in_checksum_word inside
    rw [set_struct_checksum_word _ _ i below]
    change wordByte 0 place = 0
    rw [wordByte, Nat.zero_div]
    rfl
  · rw [if_neg inside, set_struct_checksum_outside _ _ inside]

def zeroedBytes (bytes : Nat → UInt8) : List UInt8 :=
  (List.range (obsibootStructSize bytes)).map fun addr => if InChecksum addr then 0 else bytes addr

theorem calculate_checksum_eq (bytes : Nat → UInt8) :
    calculateChecksum bytes = ((zeroedBytes bytes).foldl update 0, bytes) := by
  have folded : (List.range (obsibootStructSize (setStructChecksum bytes 0))).foldl
      (fun result addr => update result (setStructChecksum bytes 0 addr)) 0 =
        (zeroedBytes bytes).foldl update 0 := by
    rw [zeroedBytes, struct_size_set_checksum, List.foldl_map]
    simp only [cleared_byte]
  rw [calculateChecksum, folded, set_struct_checksum_back]

theorem verify_checksum_eq (bytes : Nat → UInt8) :
    verifyChecksum bytes =
      (decide ((zeroedBytes bytes).foldl update 0 = obsibootStructChecksum bytes), bytes) := by
  rw [verifyChecksum, calculate_checksum_eq]

theorem single_corrupted_byte_detected :
    (∀ left right : List UInt8, left.length = right.length →
      (∃! index, DifferAt left right index) → left.foldl update 0 ≠ right.foldl update 0) ∧
    ∀ bytes : Nat → UInt8,
      (calculateChecksum bytes).2 = bytes ∧ (verifyChecksum bytes).2 = bytes ∧
      ((verifyChecksum bytes).1 = true ↔
        obsibootStructChecksum bytes = (zeroedBytes bytes).foldl update 0) := by
  constructor
  · rintro left right lengths ⟨index, differ, once⟩
    exact foldl_detects update_keeps update_tells lengths differ once 0
  · intro bytes
    rw [calculate_checksum_eq, verify_checksum_eq, decide_eq_true_iff]
    exact ⟨rfl, rfl, eq_comm⟩

theorem corrupted_first_byte_detected :
    [7, 1].foldl update (0 : Words) ≠ [3, 1].foldl update 0 := by
  apply single_corrupted_byte_detected.1 [7, 1] [3, 1] rfl
  refine ⟨0, fun same => absurd (Option.some.inj same) (by decide), ?_⟩
  intro index differ
  by_contra later
  apply differ
  match index with
  | 0 => exact absurd rfl later
  | 1 => rfl
  | _ + 2 => rfl

end Campix.Boot.Checksum
