import Mathlib.Algebra.Group.Nat.Defs
import Mathlib.Data.List.Basic

/-!
# Slices of byte buffers

Bounds-checked access to parts of a list; `none` is an index out of range. Numbers are
stored in little-endian order.
-/

namespace Campix.Lib.Slice

set_option autoImplicit false

def getSlice (data : List UInt8) (begin_ end_ : Nat) : Option (List UInt8) :=
  if begin_ ≤ end_ ∧ end_ ≤ data.length then some ((data.take end_).drop begin_) else none

def copyFromSlice (buffer : List UInt8) (begin_ end_ : Nat) (source : List UInt8) :
    Option (List UInt8) :=
  if begin_ ≤ end_ ∧ end_ ≤ buffer.length ∧ source.length = end_ - begin_ then
    some (buffer.take begin_ ++ source ++ buffer.drop end_)
  else
    none

/-- `buffer` with a part of it replaced. -/
def splice {Item : Type} (buffer : List Item) (begin_ : Nat) (source : List Item) : List Item :=
  buffer.take begin_ ++ source ++ buffer.drop (begin_ + source.length)

section Splices

variable {Item : Type} {data buffer source : List Item} {begin_ : Nat}

theorem length_splice (inside : begin_ + source.length ≤ buffer.length) :
    (splice buffer begin_ source).length = buffer.length := by
  simp only [splice, List.length_append, List.length_take, List.length_drop]
  omega

theorem take_splice (inside : begin_ + source.length ≤ buffer.length) :
    (splice buffer begin_ source).take (begin_ + source.length) = buffer.take begin_ ++ source := by
  have length : (buffer.take begin_ ++ source).length = begin_ + source.length := by
    rw [List.length_append, List.length_take, Nat.min_eq_left (by omega)]
  rw [splice, ← length, List.take_left]

theorem take_splice_zero {count : Nat} (length : source.length = count)
    (inside : count ≤ buffer.length) :
    (splice buffer 0 source).take count = source := by
  have front := take_splice (show 0 + source.length ≤ buffer.length by omega)
  rwa [Nat.zero_add, length, List.take_zero, List.nil_append] at front

theorem drop_splice {place : Nat} (inside : begin_ + source.length ≤ buffer.length)
    (behind : begin_ + source.length ≤ place) :
    (splice buffer begin_ source).drop place = buffer.drop place := by
  have length : (buffer.take begin_ ++ source).length = begin_ + source.length := by
    rw [List.length_append, List.length_take, Nat.min_eq_left (by omega)]
  rw [splice, List.drop_append, length, List.drop_eq_nil_of_le (by omega), List.nil_append,
    List.drop_drop]
  congr 1
  omega

theorem splice_splice {next : List Item}
    (inside : begin_ + source.length + next.length ≤ buffer.length) :
    splice (splice buffer begin_ source) (begin_ + source.length) next =
      splice buffer begin_ (source ++ next) := by
  rw [splice, take_splice (by omega), drop_splice (by omega) (by omega), splice, List.length_append,
    List.append_assoc, List.append_assoc, List.append_assoc, List.append_assoc, Nat.add_assoc]

theorem splice_parts {place first rest : Nat} (enough : place + first + rest ≤ data.length)
    (inside : begin_ + first + rest ≤ buffer.length) :
    splice (splice buffer begin_ ((data.drop place).take first)) (begin_ + first)
        ((data.drop (place + first)).take rest) =
      splice buffer begin_ ((data.drop place).take (first + rest)) := by
  have firstLength : ((data.drop place).take first).length = first := by
    rw [List.length_take, List.length_drop]
    omega
  have restLength : ((data.drop (place + first)).take rest).length = rest := by
    rw [List.length_take, List.length_drop]
    omega
  have joined := splice_splice
    (show begin_ + ((data.drop place).take first).length +
      ((data.drop (place + first)).take rest).length ≤ buffer.length by omega)
  rw [firstLength] at joined
  rw [joined, List.take_add, List.drop_drop]

/-- A part that is there already is not replaced. -/
theorem splice_again (inside : begin_ + source.length ≤ buffer.length) :
    splice (splice buffer begin_ source) begin_ source = splice buffer begin_ source := by
  have length : (buffer.take begin_).length = begin_ := List.length_take_of_le (by omega)
  have front : (splice buffer begin_ source).take begin_ = buffer.take begin_ := by
    rw [splice, List.append_assoc, List.take_left' length]
  rw [splice, front, drop_splice inside (Nat.le_refl _), splice]

theorem splice_nil : splice buffer begin_ [] = buffer := by
  simp [splice]

theorem splice_whole (length : source.length = buffer.length) :
    splice buffer 0 source = source := by
  rw [splice, List.take_zero, List.nil_append,
    Nat.zero_add, length, List.drop_length, List.append_nil]

theorem splice_between {front old new back : List Item} (length : old.length = new.length)
    (place : front.length = begin_) : splice
    (front ++ old ++ back) begin_ new = front ++ new ++ back := by
  have whole : (front ++ old).length = begin_ + new.length := by
    rw [List.length_append, length, place]
  rw [splice, ← whole, List.drop_left, List.append_assoc front, List.take_left' place]

theorem getElem?_splice (inside : begin_ + source.length ≤ buffer.length) (place : Nat) :
    (splice buffer begin_ source)[place]? =
      if begin_ ≤ place ∧ place < begin_ + source.length then source[place - begin_]? else
        buffer[place]? := by
  have front : (buffer.take begin_).length = begin_ := by
    rw [List.length_take]
    omega
  rw [splice]
  by_cases before : place < begin_
  · rw [if_neg (by omega), List.append_assoc, List.getElem?_append_left (by omega),
      List.getElem?_take_of_lt before]
  · by_cases within : place < begin_ + source.length
    · rw [if_pos ⟨by omega, within⟩,
        List.append_assoc, List.getElem?_append_right (by omega), front,
        List.getElem?_append_left (by omega)]
    · rw [if_neg (by omega), List.getElem?_append_right (by rw [List.length_append]; omega),
        List.length_append, front, List.getElem?_drop]
      congr 1
      omega

end Splices

section Copies

variable {data buffer source : List UInt8} {begin_ end_ : Nat}

theorem get_slice_eq (ordered : begin_ ≤ end_) (inside : end_ ≤ data.length) :
    getSlice data begin_ end_ = some ((data.drop begin_).take (end_ - begin_)) := by
  rw [getSlice, if_pos ⟨ordered, inside⟩, List.drop_take]

theorem copy_from_slice_eq (length : source.length = end_ - begin_) (ordered : begin_ ≤ end_)
    (inside : end_ ≤ buffer.length) :
    copyFromSlice buffer begin_ end_ source = some (splice buffer begin_ source) := by
  have total : begin_ + source.length = end_ := by omega
  rw [copyFromSlice, if_pos ⟨ordered, inside, length⟩, splice, total]

/-- What was written is read back. -/
theorem get_slice_splice (inside : begin_ + source.length ≤ buffer.length) :
    getSlice (splice buffer begin_ source) begin_ (begin_ + source.length) = some source := by
  have front : (buffer.take begin_).length = begin_ := by
    rw [List.length_take]
    omega
  rw [get_slice_eq (by omega) (by rw [length_splice inside]; exact inside), Nat.add_sub_cancel_left,
    splice, List.append_assoc, List.drop_left' front, List.take_left' rfl]

/-- A part beside the one that was written stays. -/
theorem get_slice_splice_apart {first last : Nat} (inside : begin_ + source.length ≤ buffer.length)
    (apart : last ≤ begin_ ∨ begin_ + source.length ≤ first) :
    getSlice (splice buffer begin_ source) first last = getSlice buffer first last := by
  rw [getSlice, getSlice, length_splice inside]
  by_cases within : first ≤ last ∧ last ≤ buffer.length
  · rw [if_pos within, if_pos within]
    congr 1
    apply List.ext_getElem?
    intro place
    rw [List.getElem?_drop, List.getElem?_drop, List.getElem?_take, List.getElem?_take]
    split_ifs with before
    · rw [getElem?_splice inside, if_neg (by omega)]
    · rfl
  · rw [if_neg within, if_neg within]

end Copies

def readLe (bytes : List UInt8) (offset width : Nat) : Nat :=
  ((bytes.drop offset).take width).foldr (fun byte rest => byte.toNat + 256 * rest) 0

def toLe (value width : Nat) : List UInt8 :=
  (List.range width).map fun place => UInt8.ofNat (value >>> (8 * place))

theorem length_to_le (value width : Nat) : (toLe value width).length = width := by
  rw [toLe, List.length_map, List.length_range]

theorem read_le_to_le (value width : Nat) :
    (toLe value width).foldr (fun byte rest => byte.toNat + 256 * rest)
      0 = value % 256 ^ width := by
  induction width generalizing value with
  | zero =>
      rw [Nat.pow_zero, Nat.mod_one]
      rfl
  | succ width ih =>
      have shape : toLe value (width + 1) = UInt8.ofNat value :: toLe (value >>> 8) width := by
        unfold toLe
        rw [List.range_succ_eq_map, List.map_cons, List.map_map]
        congr 1
        apply List.map_congr_left
        intro place _
        rw [Function.comp_apply, ← Nat.shiftRight_add, Nat.mul_succ, Nat.add_comm]
      rw [shape, List.foldr_cons, ih, Nat.pow_succ, Nat.mul_comm (256 ^ width), Nat.mod_mul,
        Nat.shiftRight_eq_div_pow, UInt8.toNat_ofNat']

/-- The field in front of a row of fields. -/
theorem read_le_first {back : List UInt8} {value width : Nat} (bound : value < 256 ^ width) :
    readLe (toLe value width ++ back) 0 width = value := by
  have length := length_to_le value width
  rw [readLe, List.drop_zero, List.take_append_of_le_length (by omega),
    List.take_of_length_le (by omega), read_le_to_le, Nat.mod_eq_of_lt bound]

theorem read_le_later (back : List UInt8) (value width place later : Nat) :
    readLe (toLe value width ++ back) (width + place) later = readLe back place later := by
  have length := length_to_le value width
  rw [readLe, readLe, List.drop_append, length, List.drop_eq_nil_of_le (by omega), List.nil_append,
    Nat.add_sub_cancel_left]

theorem read_le_behind {front back : List UInt8} {begin_ : Nat} (place : front.length = begin_)
    (offset width : Nat) : readLe (front ++ back)
    (begin_ + offset) width = readLe back offset width := by
  rw [readLe, readLe, List.drop_append, place, List.drop_eq_nil_of_le (by omega), List.nil_append,
    Nat.add_sub_cancel_left]

theorem read_le_before {front : List UInt8} {offset width : Nat}
    (inside : offset + width ≤ front.length)
    (back : List UInt8) : readLe (front ++ back) offset width = readLe front offset width := by
  rw [readLe, readLe, List.drop_append_of_le_length (by omega),
    List.take_append_of_le_length (by rw [List.length_drop]; omega)]

theorem read_le_lt (bytes : List UInt8) (offset width : Nat) :
    readLe bytes offset width < 256 ^ width := by
  have bound : ∀ digits : List UInt8,
      digits.foldr (fun byte rest => byte.toNat + 256 * rest) 0 < 256 ^ digits.length := by
    intro digits
    induction digits with
    | nil => exact Nat.one_pos
    | cons digit digits ih =>
        have small := digit.toNat_lt
        rw [List.foldr_cons, List.length_cons, Nat.pow_succ]
        omega
  have length : ((bytes.drop offset).take width).length ≤ width := List.length_take_le _ _
  exact Nat.lt_of_lt_of_le (bound _) (Nat.pow_le_pow_right (by decide) length)

end Campix.Lib.Slice
