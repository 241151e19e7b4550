import Campix.Lib.Slice

/-!
# Files as items and a position

What an open file is to its callers: a list of items, and a position in it. A write goes
over the items at the position and goes on behind the last of them, a read returns those
from the position on.
-/

namespace Campix.Lib.OpenFile

open Lib.Slice

set_option autoImplicit false

variable {Item : Type}

/-- A part that is replaced, and may reach behind the end. -/
theorem length_splice_over {buffer part : List Item} {place : Nat}
    (inside : place ≤ buffer.length) :
    (splice buffer place part).length = max buffer.length (place + part.length) := by
  simp only [splice, List.length_append, List.length_take, List.length_drop]
  omega

/-- Where the buffer is longer than what is taken of it, the part is replaced in that. -/
theorem take_splice_over {buffer part : List Item} {place size : Nat} (inside : place ≤ size)
    (room : max size (place + part.length) ≤ buffer.length) :
    (splice buffer place part).take (max size (place + part.length)) = splice
      (buffer.take size) place part := by
  have length : (buffer.take place ++ part).length = place + part.length := by
    rw [List.length_append, List.length_take, Nat.min_eq_left (by omega)]
  rw [splice, splice, List.take_take, Nat.min_eq_left inside, List.drop_take, List.take_append,
    length]
  congr 1
  · exact List.take_of_length_le (by rw [length]; exact Nat.le_max_right _ _)
  · congr 1
    omega

@[ext] structure ByteFile (Item : Type) where
  items : List Item
  position : Nat
  inside : position ≤ items.length

namespace ByteFile

variable (file : ByteFile Item)

def opened (items : List Item) : ByteFile Item := ⟨items, 0, Nat.zero_le _⟩

def write (part : List Item) : ByteFile Item where
  items := splice file.items file.position part
  position := file.position + part.length
  inside := by
    rw [length_splice_over file.inside]
    exact Nat.le_max_right _ _

/-- So many items from the position on, or those that are left. -/
def read (count : Nat) : List Item := (file.items.drop file.position).take count

def skip (count : Nat) : ByteFile Item where
  items := file.items
  position := min (file.position + count) file.items.length
  inside := Nat.min_le_right _ _

/-- The position behind the end is no position. -/
def moveTo (target : Nat) : Option (ByteFile Item) :=
  if inside : target ≤ file.items.length then some ⟨file.items, target, inside⟩ else none

/-- A write does not see what stood behind the end, once there is room for it. -/
theorem write_of_longer {longer file : ByteFile Item} {part : List Item}
    (front : longer.items.take file.items.length = file.items)
    (position : longer.position = file.position)
    (room : longer.items.length = max file.items.length (file.position + part.length)) :
    longer.write part = file.write part := by
  have items : (longer.write part).items = (file.write part).items := by
    have whole := take_splice_over file.inside
      (show max file.items.length (file.position + part.length) ≤ longer.items.length by omega)
    rw [front, List.take_of_length_le] at whole
    · change splice longer.items longer.position part = _
      rw [position]
      exact whole
    · rw [length_splice_over (by rw [room]; exact Nat.le_trans file.inside (Nat.le_max_left _ _))]
      omega
  exact ByteFile.ext items (congrArg (· + part.length) position)

end ByteFile

end Campix.Lib.OpenFile
