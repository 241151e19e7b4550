import Campix.Ext2.Allocators

/-!
# Bits of a bitmap

What the operations of `Bitmap` do, bit by bit, and that the two scans find what they
look for.
-/

namespace Campix.Ext2.Bitmap

set_option autoImplicit false

def bitAt (data : List UInt8) (idx : Nat) : Bool := bit (data.getD (idx / 8) 0) (idx % 8)

theorem bit_mask {place other : Nat} (inside : place < 8) (otherInside : other < 8) :
    bit (UInt8.ofNat (1 <<< place)) other = decide (place = other) := by
  have all : ∀ left right : Fin 8,
      bit (UInt8.ofNat (1 <<< left.val)) right.val = decide (left.val = right.val) := by
    decide
  exact all ⟨place, inside⟩ ⟨other, otherInside⟩

theorem bit_or (left right : UInt8) (place : Nat) :
    bit (left ||| right) place = (bit left place || bit right place) := by
  simp [bit]

theorem bit_and (left right : UInt8) (place : Nat) :
    bit (left &&& right) place = (bit left place && bit right place) := by
  simp [bit]

theorem bit_xor (left right : UInt8) (place : Nat) :
    bit (left ^^^ right) place = (bit left place ^^ bit right place) := by
  simp [bit]

theorem bit_not (byte : UInt8) {place : Nat} (inside : place < 8) :
    bit (~~~byte) place = !bit byte place := by
  have spread : (~~~byte).toBitVec.getLsbD place = !byte.toBitVec.getLsbD place := by
    rw [UInt8.toBitVec_not, BitVec.getLsbD_not, decide_eq_true inside, Bool.true_and]
  exact spread

variable {bitmap : Bitmap} {idx other : Nat}

theorem get_bit_eq (inside : idx < bitmap.size) :
    bitmap.getBit idx = some (bitAt bitmap.data idx) := by
  rw [getBit, if_pos inside]
  rfl

theorem get_bit_true (set : bitmap.getBit idx = some true) :
    idx < bitmap.size ∧ bitAt bitmap.data idx = true := by
  unfold getBit at set
  split_ifs at set with inside
  exact ⟨inside, Option.some.inj set⟩

theorem stored_of_bit_at {data : List UInt8} (set : bitAt data idx = true) :
    idx / 8 < data.length := by
  by_contra outside
  have zero : Nat.testBit 0 (idx % 8) = true := by
    rwa [bitAt, List.getD_eq_default _ _ (not_lt.mp outside)] at set
  rw [Nat.zero_testBit] at zero
  exact absurd zero Bool.false_ne_true

/-- Replacing the byte of an index changes only bits of that byte. -/
theorem bit_at_set {data : List UInt8} (stored : idx / 8 < data.length) (byte : UInt8)
    (other : Nat) :
    bitAt (data.set (idx / 8) byte) other =
      if other / 8 = idx / 8 then bit byte (other % 8) else bitAt data other := by
  unfold bitAt
  by_cases same : other / 8 = idx / 8
  · rw [if_pos same, same, List.getD_eq_getElem?_getD, List.getElem?_set_self stored]
    rfl
  · rw [if_neg same, List.getD_eq_getElem?_getD, List.getElem?_set_ne (Ne.symm same),
      ← List.getD_eq_getElem?_getD]

theorem index_split (left right : Nat) : left = right ↔ left / 8 = right / 8 ∧
    left % 8 = right % 8 := by
  omega

/-- Replacing one bit of the byte of an index changes the bit of that index only. -/
theorem bit_at_change {data : List UInt8} {byte : UInt8} {value : Bool}
    (stored : idx / 8 < data.length)
    (changed : ∀ place < 8, bit byte place =
      if idx % 8 = place then value else bit (data.getD (idx / 8) 0) place) (other : Nat) :
    bitAt (data.set (idx / 8) byte) other = if other = idx then value else bitAt data other := by
  rw [bit_at_set stored]
  by_cases same : other / 8 = idx / 8
  · rw [if_pos same, changed _ (Nat.mod_lt _ (by decide))]
    by_cases place : idx % 8 = other % 8
    · rw [if_pos place, if_pos ((index_split other idx).mpr ⟨same, place.symm⟩)]
    · rw [if_neg place, if_neg fun equal => place (by rw [equal]), bitAt, same]
  · rw [if_neg same, if_neg fun equal => same (by rw [equal])]

theorem set_bit_length (enabled : Bool) :
    (bitmap.setBit idx enabled).data.length = bitmap.data.length := by
  unfold setBit
  split_ifs
  · exact List.length_set
  · exact List.length_set
  · rfl

theorem set_bit_size (enabled : Bool) : (bitmap.setBit idx enabled).size = bitmap.size := by
  unfold setBit
  split_ifs
  · rfl
  · rfl
  · rfl

theorem bit_at_set_bit (inside : idx < bitmap.size) (stored : idx / 8 < bitmap.data.length)
    (enabled : Bool) (other : Nat) :
    bitAt (bitmap.setBit idx enabled).data other =
      if other = idx then enabled else bitAt bitmap.data other := by
  rw [setBit, if_pos inside]
  apply bit_at_change stored
  intro place small
  have mask := bit_mask (Nat.mod_lt idx (by decide)) small
  cases enabled with
  | true =>
      rw [if_pos rfl, bit_or, mask]
      by_cases here : idx % 8 = place
      · simp [here]
      · simp [here]
  | false =>
      rw [if_neg (by decide), bit_and, bit_not _ small, mask]
      by_cases here : idx % 8 = place
      · simp [here]
      · simp [here]

theorem toggle_bit_length : (bitmap.toggleBit idx).data.length = bitmap.data.length := by
  unfold toggleBit
  split_ifs
  · exact List.length_set
  · rfl

theorem toggle_bit_size : (bitmap.toggleBit idx).size = bitmap.size := by
  unfold toggleBit
  split_ifs
  · rfl
  · rfl

theorem bit_at_toggle (inside : idx < bitmap.size) (stored : idx / 8 < bitmap.data.length)
    (other : Nat) :
    bitAt (bitmap.toggleBit idx).data other =
      if other = idx then !bitAt bitmap.data idx else bitAt bitmap.data other := by
  rw [toggleBit, if_pos inside]
  apply bit_at_change stored
  intro place small
  rw [bit_xor, bit_mask (Nat.mod_lt idx (by decide)) small]
  by_cases here : idx % 8 = place
  · simp [bitAt, here]
  · simp [here]

theorem bit_at_cons {byte : UInt8} {bytes : List UInt8} {place : Nat} (inside : place < 8) :
    bitAt (byte :: bytes) place = bit byte place := by
  rw [bitAt, Nat.div_eq_of_lt inside, Nat.mod_eq_of_lt inside]
  rfl

theorem bit_at_cons_later (byte : UInt8) (bytes : List UInt8) (place : Nat) :
    bitAt (byte :: bytes) (place + 8) = bitAt bytes place := by
  rw [bitAt, bitAt, Nat.add_div_right _ (by decide), Nat.add_mod_right]
  rfl

theorem find_unset_spec {size : Nat} {bytes : List UInt8} :
    ∀ {start found : Nat}, findUnset size start bytes = some found →
      found < size ∧ ∃ place, found = start + place ∧ place < 8 * bytes.length ∧
        bitAt bytes place = false := by
  induction bytes with
  | nil =>
      intro start found scan
      exact absurd scan (by simp [findUnset])
  | cons byte bytes ih =>
      intro start found scan
      have later : ∀ {found : Nat}, findUnset size (start + 8) bytes = some found →
          found < size ∧ ∃ place, found = start + place ∧ place < 8 * (byte :: bytes).length ∧
            bitAt (byte :: bytes) place = false := by
        intro found scan
        obtain ⟨inside, place, here, bound, unset⟩ := ih scan
        refine ⟨inside, place + 8, by omega, by rw [List.length_cons]; omega, ?_⟩
        rw [bit_at_cons_later]
        exact unset
      unfold findUnset at scan
      split_ifs at scan
      · split at scan
        · rename_i i search
          split_ifs at scan with outside
          obtain rfl := Option.some.inj scan
          have low : i < 8 := List.mem_range.mp (List.mem_of_find?_eq_some search)
          have stop := List.find?_some search
          have unset : bit byte i = false := by simpa [outside] using stop
          refine ⟨by omega, i, rfl, by rw [List.length_cons]; omega, ?_⟩
          rw [bit_at_cons low]
          exact unset
        · exact later scan
      · exact later scan

theorem find_first_unset_spec (found : bitmap.findFirstUnset = some idx) :
    idx < bitmap.size ∧ idx / 8 < bitmap.data.length ∧ bitAt bitmap.data idx = false := by
  obtain ⟨inside, place, here, bound, unset⟩ := find_unset_spec found
  rw [Nat.zero_add] at here
  subst here
  exact ⟨inside, by omega, unset⟩

theorem find_set_none {size : Nat} {bytes : List UInt8} :
    ∀ {start : Nat}, (∀ place, start + place < size → bitAt bytes place = false) →
      findSet size start bytes = none := by
  induction bytes with
  | nil =>
      intro start _
      rfl
  | cons byte bytes ih =>
      intro start unset
      have later : findSet size (start + 8) bytes = none := by
        apply ih
        intro place inside
        have bit := unset (place + 8) (by omega)
        rwa [bit_at_cons_later] at bit
      unfold findSet
      split_ifs
      · split
        · rename_i i search
          have low : i < 8 := List.mem_range.mp (List.mem_of_find?_eq_some search)
          have stop := List.find?_some search
          split_ifs with outside
          · rfl
          · have clear := unset i (by omega)
            rw [bit_at_cons low] at clear
            simp [outside, clear] at stop
        · exact later
      · exact later

theorem find_first_set_none (unset : ∀ place, place < bitmap.size →
    bitAt bitmap.data place = false) :
    bitmap.findFirstSet = none := by
  apply find_set_none
  intro place inside
  exact unset place (by omega)

end Campix.Ext2.Bitmap
