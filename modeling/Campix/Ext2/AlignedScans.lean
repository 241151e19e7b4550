import Campix.Ext2.GroupRanges
import Campix.Lib.Search
import Mathlib.Data.List.Find

/-!
# The scans of a bitmap, word by word

`find_first_unset` and `find_first_set` of `bitmap.rs` as they run: `align_to` cuts the data
into some bytes, some words and some bytes again, and three loops share one running index.
Where it cuts depends on the address of the data. The scans over bytes that the allocators use
are what all these cuts have in common. The data of a bitmap lies in memory, so that the
running index does not overflow.
-/

namespace Campix.Ext2

open Lib.Slice Lib.Search

set_option autoImplicit false

def wordBytes (word : UInt64) : List UInt8 := toLe word.toNat 8

/-- What `align_to::<usize>` may make of some bytes. -/
structure AlignTo (data : List UInt8) where
  head : List UInt8
  body : List UInt64
  tail : List UInt8
  whole : data = head ++ body.flatMap wordBytes ++ tail

/-- The loop over the bits of a byte or word. It returns from the whole function where it
reaches the size of the bitmap or finds the value. -/
def scanBits (size width : Nat) (value : Bool) (unit bitIndex : Nat) : Searching Nat :=
  (List.range width).foldlM (fun bitIndex i =>
    if bitIndex ≥ size then .error none
    else if unit.testBit i = value then .error (some bitIndex)
    else .ok (bitIndex + 1)) bitIndex

def scanUnits (size width : Nat) (value : Bool) (skipped : Nat) (units : List Nat)
    (bitIndex : Nat) :
    Searching Nat :=
  units.foldlM (fun bitIndex unit =>
    if unit ≠ skipped then scanBits size width value unit bitIndex
    else .ok (bitIndex + width)) bitIndex

namespace AlignTo

variable {bitmap : Bitmap}

def findFirstUnset (parts : AlignTo bitmap.data) : Option Nat :=
  ended do
    let bitIndex ← scanUnits bitmap.size 8 false 0xFF (parts.head.map UInt8.toNat) 0
    let bitIndex ← scanUnits bitmap.size 64 false 0xFFFF_FFFF_FFFF_FFFF
      (parts.body.map UInt64.toNat) bitIndex
    scanUnits bitmap.size 8 false 0xFF (parts.tail.map UInt8.toNat) bitIndex

def findFirstSet (parts : AlignTo bitmap.data) : Option Nat :=
  ended do
    let bitIndex ← scanUnits bitmap.size 8 true 0x00 (parts.head.map UInt8.toNat) 0
    let bitIndex ← scanUnits bitmap.size 64 true 0 (parts.body.map UInt64.toNat) bitIndex
    scanUnits bitmap.size 8 true 0x00 (parts.tail.map UInt8.toNat) bitIndex

end AlignTo

section Loops

variable {size width first : Nat} {value : Bool} {hit : Nat → Prop}

theorem bits_looked {unit : Nat} (bits : ∀ i < width, hit (first + i) ↔ unit.testBit i = value) :
    Looked size hit first (first + width) (scanBits size width value unit first) := by
  have total : first + width = first + (List.range width).length * 1 := by
    rw [List.length_range, Nat.mul_one]
  rw [total]
  apply looked_fold
  intro i item listed
  obtain ⟨inside, rfl⟩ := List.getElem?_eq_some_iff.mp listed
  rw [List.length_range] at inside
  rw [List.getElem_range, Nat.mul_one]
  split_ifs with beyond same
  · intro place behind below
    omega
  · exact ⟨⟨Nat.le_refl _, by omega⟩, (bits i inside).mpr same, fun place behind less => by omega⟩
  · refine ⟨rfl, fun place behind less _ hits => ?_⟩
    obtain rfl : place = first + i := by omega
    exact same ((bits i inside).mp hits)

theorem units_looked {skipped : Nat} {units : List Nat}
    (passed : ∀ i < width, skipped.testBit i ≠ value)
    (bits : ∀ (place unit : Nat), units[place]? = some unit → ∀ i < width,
      hit (first + place * width + i) ↔ unit.testBit i = value) :
    Looked size hit first (first + units.length * width)
      (scanUnits size width value skipped units first) := by
  apply looked_fold
  intro place unit here
  split_ifs with some_
  · exact bits_looked (bits place unit here)
  · refine ⟨rfl, fun other behind less _ hits => ?_⟩
    obtain ⟨i, rfl⟩ := Nat.exists_eq_add_of_le behind
    have value' := (bits place unit here i (by omega)).mp hits
    rw [not_not.mp some_] at value'
    exact passed i (by omega) value'

end Loops

namespace Bitmap

variable {front back : List UInt8}

theorem bit_at_append_left {place : Nat} (inside : place < 8 * front.length) :
    bitAt (front ++ back) place = bitAt front place := by
  rw [bitAt, bitAt, List.getD_eq_getElem?_getD, List.getD_eq_getElem?_getD,
    List.getElem?_append_left (by omega)]

theorem bit_at_append_right (front back : List UInt8) (place : Nat) :
    bitAt (front ++ back) (8 * front.length + place) = bitAt back place := by
  have quotient : (8 * front.length + place) / 8 = front.length + place / 8 := by omega
  have remainder : (8 * front.length + place) % 8 = place % 8 := by omega
  rw [bitAt, bitAt, quotient, remainder, List.getD_eq_getElem?_getD, List.getD_eq_getElem?_getD,
    List.getElem?_append_right (by omega), Nat.add_sub_cancel_left]

theorem bit_at_byte {data : List UInt8} {place i : Nat} {byte : UInt8}
    (here : data[place]? = some byte)
    (inside : i < 8) : bitAt data (place * 8 + i) = byte.toNat.testBit i := by
  have quotient : (place * 8 + i) / 8 = place := by omega
  have remainder : (place * 8 + i) % 8 = i := by omega
  rw [bitAt, quotient, remainder, List.getD_eq_getElem?_getD, here]
  rfl

theorem bit_at_to_le (value : Nat) {width place : Nat} (inside : place < 8 * width) :
    bitAt (toLe value width) place = value.testBit place := by
  have here : (toLe value width)[place / 8]? = some
      (UInt8.ofNat (value >>> (8 * (place / 8)))) := by
    rw [toLe, List.getElem?_map, List.getElem?_range (by omega)]
    rfl
  have split : 8 * (place / 8) + place % 8 = place := Nat.div_add_mod place 8
  have low : place % 8 < 8 := Nat.mod_lt _ (by decide)
  rw [bitAt, List.getD_eq_getElem?_getD, here, Option.getD_some, bit, UInt8.toNat_ofNat',
    Nat.testBit_mod_two_pow, Nat.testBit_shiftRight, split, decide_eq_true low, Bool.true_and]

theorem bit_at_words {words : List UInt64} :
    ∀ {place : Nat} {word : UInt64}, words[place]? = some word →
    ∀ i < 64, bitAt (words.flatMap wordBytes) (place * 64 + i) = word.toNat.testBit i := by
  induction words with
  | nil =>
      intro place word here
      exact absurd here (by simp)
  | cons first words ih =>
      intro place word here i inside
      have length : (wordBytes first).length = 8 := length_to_le _ _
      rw [List.flatMap_cons]
      cases place with
      | zero =>
          obtain rfl := Option.some.inj here
          rw [Nat.zero_mul, Nat.zero_add, bit_at_append_left (by omega)]
          exact bit_at_to_le _ (by omega)
      | succ place =>
          have moved : (place + 1) * 64 + i = 8 * (wordBytes first).length +
              (place * 64 + i) := by omega
          rw [moved, bit_at_append_right]
          exact ih here i inside

theorem length_words (words : List UInt64) :
    (words.flatMap wordBytes).length = words.length * 8 := by
  induction words with
  | nil => rfl
  | cons word words ih =>
      have length : (wordBytes word).length = 8 := length_to_le _ _
      rw [List.flatMap_cons, List.length_append, length, ih, List.length_cons]
      omega

def FirstWith (bitmap : Bitmap) (value : Bool) : Option Nat → Prop
  | some idx => idx < bitmap.size ∧ bitmap.getBit idx = some value ∧
      ∀ earlier < idx, bitmap.getBit earlier ≠ some value
  | none => ∀ idx < bitmap.size, bitmap.getBit idx ≠ some value

variable {bitmap : Bitmap} {value : Bool}

theorem first_with_iff (result : Option Nat) :
    FirstWith bitmap value result ↔
      IsFirst bitmap.size (fun place => bitAt bitmap.data place = value) result := by
  have read : ∀ place < bitmap.size, bitmap.getBit place = some value ↔
      bitAt bitmap.data place = value := by
    intro place inside
    rw [get_bit_eq inside, Option.some_inj]
  cases result with
  | none =>
      exact forall_congr' fun place => forall_congr' fun inside => not_congr (read place inside)
  | some idx =>
      refine and_congr_right fun inside => and_congr (read idx inside) ?_
      exact forall_congr' fun place => forall_congr' fun less => not_congr (read place (by omega))

theorem bytes_looked {size first skipped : Nat} {data bytes : List UInt8}
    (passed : ∀ i < 8, skipped.testBit i ≠ value)
    (stored : ∀ place < 8 * bytes.length, bitAt data (first + place) = bitAt bytes place) :
    Looked size (fun place => bitAt data place = value) first (first + 8 * bytes.length)
      (scanUnits size 8 value skipped (bytes.map UInt8.toNat) first) := by
  have total : 8 * bytes.length = (bytes.map UInt8.toNat).length * 8 := by
    rw [List.length_map, Nat.mul_comm]
  rw [total]
  apply units_looked passed
  intro place unit here i inside
  rw [List.getElem?_map, Option.map_eq_some_iff] at here
  obtain ⟨byte, here, rfl⟩ := here
  have within : place < bytes.length := (List.getElem?_eq_some_iff.mp here).1
  rw [Nat.add_assoc, stored _ (by omega), bit_at_byte here inside]

theorem words_looked {size first skipped : Nat} {data : List UInt8} {words : List UInt64}
    (passed : ∀ i < 64, skipped.testBit i ≠ value)
    (stored : ∀ place < 64 * words.length,
      bitAt data (first + place) = bitAt (words.flatMap wordBytes) place) :
    Looked size (fun place => bitAt data place = value) first (first + 64 * words.length)
      (scanUnits size 64 value skipped (words.map UInt64.toNat) first) := by
  have total : 64 * words.length = (words.map UInt64.toNat).length * 64 := by
    rw [List.length_map, Nat.mul_comm]
  rw [total]
  apply units_looked passed
  intro place unit here i inside
  rw [List.getElem?_map, Option.map_eq_some_iff] at here
  obtain ⟨word, here, rfl⟩ := here
  have within : place < words.length := (List.getElem?_eq_some_iff.mp here).1
  rw [Nat.add_assoc, stored _ (by omega), bit_at_words here i inside]

theorem loops_looked (size : Nat) {data head tail : List UInt8} {body : List UInt64}
    {byte word : Nat}
    (whole : data = head ++ body.flatMap wordBytes ++ tail)
    (bytePassed : ∀ i < 8, byte.testBit i ≠ value) (wordPassed : ∀ i < 64, word.testBit i ≠ value) :
    Looked size (fun place => bitAt data place = value) 0 (8 * data.length) (do
      let bitIndex ← scanUnits size 8 value byte (head.map UInt8.toNat) 0
      let bitIndex ← scanUnits size 64 value word (body.map UInt64.toNat) bitIndex
      scanUnits size 8 value byte (tail.map UInt8.toNat) bitIndex) := by
  subst whole
  have words := length_words body
  have headLooked := @bytes_looked value size 0 byte (head ++ body.flatMap wordBytes ++ tail) head
    bytePassed (by
      intro place inside
      rw [Nat.zero_add, List.append_assoc, bit_at_append_left inside])
  have bodyLooked := @words_looked value size (0 + 8 * head.length) word
    (head ++ body.flatMap wordBytes ++ tail) body wordPassed (by
      intro place inside
      rw [Nat.zero_add, List.append_assoc, bit_at_append_right, bit_at_append_left (by omega)])
  have behind : 0 + 8 * head.length + 64 * body.length = 8 *
      (head ++ body.flatMap wordBytes).length := by
    rw [List.length_append, words]
    omega
  have tailLooked := @bytes_looked value size (0 + 8 * head.length + 64 * body.length) byte
    (head ++ body.flatMap wordBytes ++ tail) tail bytePassed (by
      intro place _
      rw [behind, bit_at_append_right])
  have total : 8 * (head ++ body.flatMap wordBytes ++ tail).length =
      0 + 8 * head.length + 64 * body.length + 8 * tail.length := by
    rw [behind, List.length_append]
    omega
  rw [total]
  exact looked_bind (Nat.le_add_right _ _) headLooked
    (looked_bind (Nat.le_add_right _ _) bodyLooked tailLooked)

theorem full_byte_passed : ∀ i < 8, Nat.testBit 0xFF i ≠ false := by decide

theorem full_word_passed : ∀ i < 64, Nat.testBit 0xFFFF_FFFF_FFFF_FFFF i ≠ false := by decide

theorem zero_passed (width : Nat) : ∀ i < width, Nat.testBit 0 i ≠ true := by
  intro i _
  rw [Nat.zero_testBit]
  exact Bool.false_ne_true

theorem size_le (enough : divCeil bitmap.size 8 ≤ bitmap.data.length) :
    bitmap.size ≤ 8 * bitmap.data.length := by
  unfold divCeil at enough
  omega

/-- However the data is cut, the scans find what a look at one bit after the other finds. -/
theorem aligned_scans_find_first (bitmap : Bitmap)
    (enough : divCeil bitmap.size 8 ≤ bitmap.data.length) (parts : AlignTo bitmap.data) :
    FirstWith bitmap false parts.findFirstUnset ∧ FirstWith bitmap true parts.findFirstSet := by
  have covered := size_le enough
  constructor
  · rw [first_with_iff]
    exact ended_first (loops_looked _ parts.whole full_byte_passed full_word_passed) covered
  · rw [first_with_iff]
    exact ended_first (loops_looked _ parts.whole (zero_passed 8) (zero_passed 64)) covered

/-- The first unset bit lies in the tail, behind a full head and a full word. -/
theorem tail_scan_finds_first :
    FirstWith ⟨0xFF :: wordBytes 0xFFFF_FFFF_FFFF_FFFF ++ [0x0F], 77⟩ false (some 76) ∧
      FirstWith ⟨0xFF :: wordBytes 0xFFFF_FFFF_FFFF_FFFF ++ [0x0F], 77⟩ true (some 0) :=
  aligned_scans_find_first ⟨0xFF :: wordBytes 0xFFFF_FFFF_FFFF_FFFF ++ [0x0F], 77⟩ (by decide)
    ⟨[0xFF], [0xFFFF_FFFF_FFFF_FFFF], [0x0F], by decide⟩

theorem find_first_unset_is_first (covered : bitmap.size ≤ 8 * bitmap.data.length) :
    IsFirst bitmap.size (fun place => bitAt bitmap.data place = false) bitmap.findFirstUnset := by
  cases result : bitmap.findFirstUnset with
  | none =>
      intro place inside unset
      obtain ⟨first, _, found, _⟩ := find_first_unset_first inside (by omega) unset
      exact Option.some_ne_none _ (found.symm.trans result)
  | some idx =>
      obtain ⟨inside, _, unset⟩ := find_first_unset_spec result
      obtain ⟨first, _, found, before⟩ := find_first_unset_first inside (by omega) unset
      obtain rfl := Option.some.inj (found.symm.trans result)
      refine ⟨inside, unset, fun earlier less clear => ?_⟩
      exact Bool.noConfusion ((before earlier less).symm.trans clear)

def complement (data : List UInt8) : List UInt8 := data.map (~~~·)

theorem bit_at_complement {data : List UInt8} {place : Nat} (inside : place < 8 * data.length) :
    bitAt (complement data) place = !bitAt data place := by
  have stored : place / 8 < data.length := by omega
  rw [bitAt, bitAt, complement, List.getD_eq_getElem?_getD, List.getD_eq_getElem?_getD,
    List.getElem?_map, List.getElem?_eq_getElem stored]
  exact bit_not _ (Nat.mod_lt _ (by decide))

theorem find_set_complement (size : Nat) (bytes : List UInt8) :
    ∀ start, findSet size start bytes = findUnset size start (complement bytes) := by
  induction bytes with
  | nil => exact fun _ => rfl
  | cons byte bytes ih =>
      intro start
      have full : byte ≠ 0x00 ↔ ~~~byte ≠ 0xFF := by
        rw [not_iff_not]
        constructor
        · rintro rfl
          rfl
        · intro all
          rw [← UInt8.not_not (a := byte), all]
          rfl
      have search : (List.range 8).find? (fun i => decide (start + i ≥ size) || bit byte i) =
          (List.range 8).find? (fun i => decide (start + i ≥ size) || !bit (~~~byte) i) := by
        apply List.find?_congr
        intro i member
        rw [bit_not byte (List.mem_range.mp member), Bool.not_not]
      rw [complement, List.map_cons, findSet, findUnset, search, ih (start + 8), ← complement]
      exact if_congr full rfl rfl

theorem find_first_set_is_first (covered : bitmap.size ≤ 8 * bitmap.data.length) :
    IsFirst bitmap.size (fun place => bitAt bitmap.data place = true) bitmap.findFirstSet := by
  have length : (complement bitmap.data).length = bitmap.data.length := List.length_map _
  have first := @find_first_unset_is_first ⟨complement bitmap.data, bitmap.size⟩
    (by rw [length]; exact covered)
  have same : (⟨complement bitmap.data, bitmap.size⟩ : Bitmap).findFirstUnset =
      bitmap.findFirstSet :=
    (find_set_complement _ _ 0).symm
  rw [same] at first
  refine (first_congr fun place inside => ?_).mp first
  change bitAt (complement bitmap.data) place = false ↔ _
  rw [bit_at_complement (by omega), Bool.not_eq_false']

theorem aligned_scans_eq (enough : divCeil bitmap.size 8 ≤ bitmap.data.length)
    (parts : AlignTo bitmap.data) :
    parts.findFirstUnset = bitmap.findFirstUnset ∧ parts.findFirstSet = bitmap.findFirstSet := by
  have covered := size_le enough
  have unset := ended_first (loops_looked bitmap.size parts.whole full_byte_passed full_word_passed)
    covered
  have set := ended_first (loops_looked bitmap.size parts.whole (zero_passed 8) (zero_passed 64))
    covered
  exact ⟨first_unique unset (find_first_unset_is_first covered),
    first_unique set (find_first_set_is_first covered)⟩

end Bitmap

end Campix.Ext2
