import Campix.Lib.Slice

/-!
# Ring buffers

A queue stored in a list that is read around its end: the window of so many items from a
start on. Reading takes from the front of the window, writing puts items behind it.
-/

namespace Campix.Lib.Ring

open Lib.Slice

set_option autoImplicit false

variable {Item : Type} {data source : List Item} {start count taken : Nat}

def wrap (length place : Nat) : Nat := if place < length then place else place - length

def window (data : List Item) (start count : Nat) : List Item :=
    ((data ++ data).drop start).take count

/-- The items written from a place on, around the end when they do not fit before it. -/
def put (data : List Item) (place : Nat) (source : List Item) : List Item :=
  if place + source.length ≤ data.length then
    splice data place source
  else
    splice (splice data place (source.take (data.length - place)))
      0 (source.drop (data.length - place))

theorem getElem?_window (place : Nat) :
    (window data start count)[place]? =
      if place < count then data[wrap data.length (start + place)]? else none := by
  unfold window wrap
  by_cases within : place < count
  · rw [if_pos within, List.getElem?_take_of_lt within, List.getElem?_drop]
    by_cases first : start + place < data.length
    · rw [if_pos first, List.getElem?_append_left first]
    · rw [if_neg first, List.getElem?_append_right (by omega)]
  · rw [if_neg within, List.getElem?_take_eq_none (by omega)]

theorem length_window (inside : start + count ≤ data.length + data.length) :
    (window data start count).length = count := by
  rw [window, List.length_take, List.length_drop, List.length_append]
  omega

theorem window_of_le (inside : start + count ≤ data.length) :
    window data start count = (data.drop start).take count := by
  rw [window, List.drop_append_of_le_length (by omega),
    List.take_append_of_le_length (by rw [List.length_drop]; omega)]

/-- A window that goes around the end is the end of the list followed by its beginning. -/
theorem window_of_gt (begins : start ≤ data.length) (around : data.length ≤ start + count) :
    window data start count = data.drop start ++ data.take (start + count - data.length) := by
  have rest : count - (data.drop start).length = start + count - data.length := by
    rw [List.length_drop]
    omega
  rw [window, List.drop_append_of_le_length begins, List.take_append, rest,
    List.take_of_length_le (by rw [List.length_drop]; omega)]

theorem take_window (fewer : taken ≤ count) :
    (window data start count).take taken = window data start taken := by
  rw [window, window, List.take_take, Nat.min_eq_left fewer]

theorem drop_window (begins : start < data.length) (inside : count ≤ data.length)
    (fewer : taken ≤ count) :
    (window data start count).drop taken = window data (wrap data.length (start + taken))
      (count - taken) := by
  apply List.ext_getElem?
  intro place
  rw [List.getElem?_drop, getElem?_window, getElem?_window]
  by_cases within : taken + place < count
  · rw [if_pos within, if_pos (by omega)]
    congr 1
    unfold wrap
    split_ifs <;> omega
  · rw [if_neg within, if_neg (by omega)]

theorem length_put {place : Nat} (begins : place ≤ data.length)
    (room : source.length ≤ data.length) :
    (put data place source).length = data.length := by
  unfold put
  split_ifs with fits
  · exact length_splice fits
  · have first : (splice data place (source.take (data.length - place))).length = data.length := by
      apply length_splice
      rw [List.length_take]
      omega
    rw [length_splice, first]
    rw [first, List.length_drop]
    omega

/-- What is stored at a place, by its distance from the first item written. -/
theorem getElem?_put {place at_ : Nat} (begins : place ≤ data.length)
    (room : source.length ≤ data.length)
    (inside : at_ < data.length) :
    (put data place source)[at_]? =
      if (if place ≤ at_ then at_ - place else at_ + data.length - place) < source.length then
        source[if place ≤ at_ then at_ - place else at_ + data.length - place]?
      else data[at_]? := by
  unfold put
  by_cases fits : place + source.length ≤ data.length
  · rw [if_pos fits, getElem?_splice fits]
    by_cases behind : place ≤ at_
    · simp only [if_pos behind]
      congr 1
      rw [eq_iff_iff]
      omega
    · simp only [if_neg behind]
      rw [if_neg (by omega), if_neg (by omega)]
  · rw [if_neg fits]
    have firstLength : (source.take (data.length - place)).length = data.length - place := by
      rw [List.length_take]
      omega
    have restLength : (source.drop (data.length - place)).length = place + source.length -
        data.length := by
      rw [List.length_drop]
      omega
    have length : (splice data place (source.take (data.length - place))).length = data.length :=
      length_splice (by omega)
    rw [getElem?_splice (by omega), getElem?_splice (by omega), restLength, firstLength]
    by_cases behind : place ≤ at_
    · simp only [if_pos behind]
      rw [if_neg (by omega), if_pos (by omega),
        if_pos (by omega), List.getElem?_take_of_lt (by omega)]
    · simp only [if_neg behind]
      by_cases written : at_ < place + source.length - data.length
      · rw [if_pos (by omega), if_pos (by omega), List.getElem?_drop]
        congr 1
        omega
      · rw [if_neg (by omega), if_neg (by omega), if_neg (by omega)]

theorem window_put (begins : start < data.length) (room : count + source.length ≤ data.length) :
    window (put data (wrap data.length (start + count)) source) start (count + source.length) =
      window data start count ++ source := by
  have place : wrap data.length (start + count) ≤ data.length := by
    unfold wrap
    split_ifs <;> omega
  have length : (put data (wrap data.length (start + count)) source).length = data.length :=
    length_put place (by omega)
  have front : (window data start count).length = count := length_window (by omega)
  apply List.ext_getElem?
  intro item
  rw [getElem?_window, length]
  by_cases within : item < count + source.length
  · have inside : wrap data.length (start + item) < data.length := by
      unfold wrap
      split_ifs <;> omega
    rw [if_pos within, getElem?_put place (by omega) inside]
    by_cases old : item < count
    · rw [List.getElem?_append_left (by omega), getElem?_window, if_pos old, if_neg]
      unfold wrap
      split_ifs <;> omega
    · have distance : (if wrap data.length (start + count) ≤ wrap data.length (start + item) then
          wrap data.length (start + item) - wrap data.length (start + count)
          else wrap data.length (start + item) + data.length - wrap data.length (start + count)) =
          item - count := by
        unfold wrap
        split_ifs <;> omega
      rw [distance, if_pos (by omega), List.getElem?_append_right (by omega), front]
  · rw [if_neg within, List.getElem?_eq_none]
    rw [List.length_append, front]
    omega

end Campix.Lib.Ring
