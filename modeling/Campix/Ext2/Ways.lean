import Campix.Ext2.Path
import Mathlib.Data.List.Nodup

/-!
# Linking new blocks

The pointers on the way to a block of a file, holes included: nothing lies behind a
pointer that is zero. New blocks are linked to each other along the way by writing the
entry of each table in turn; `thread` is what the blocks hold then.
-/

namespace Campix.Ext2

open Lib.Slice

set_option autoImplicit false

def head (inode : Inode) : InodeReadingLocationInfo → Nat
  | .direct d => if inside : d < 12 then inode.directBlockPointers ⟨d, inside⟩ else 0
  | .single _ => inode.singleIndirectBlockPointer
  | .double _ _ => inode.doubleIndirectBlockPointer
  | .triple _ _ _ => inode.tripleIndirectBlockPointer

def turns : InodeReadingLocationInfo → List Nat
  | .direct _ => []
  | .single i => [i]
  | .double i j => [i, j]
  | .triple i j k => [i, j, k]

def chase (contents : Contents) : Nat → List Nat → List Nat
  | pointer, [] => [pointer]
  | pointer, turn :: turns =>
      pointer :: chase contents (if pointer = 0 then 0 else entry (contents pointer) turn) turns

def way (inode : Inode) (contents : Contents) (location : InodeReadingLocationInfo) : List Nat :=
  chase contents (head inode location) (turns location)

def thread (contents : Contents) : Nat → List Nat → List Nat → Contents
  | pointer, turn :: turns, block :: blocks =>
      thread (Function.update contents pointer (setEntry (contents pointer) turn block))
        block turns blocks
  | _, _, _ => contents

theorem turns_small {tableSize : Nat} {location : InodeReadingLocationInfo}
    (digits : Digits tableSize location) :
    ∀ turn ∈ turns location, turn < tableSize := by
  intro turn member
  cases location with
  | direct d => exact absurd member List.not_mem_nil
  | single i =>
      obtain rfl := List.mem_singleton.mp member
      exact digits
  | double i j =>
      simp only [turns, List.mem_cons, List.not_mem_nil, or_false] at member
      rcases member with rfl | rfl
      · exact digits.1
      · exact digits.2
  | triple i j k =>
      simp only [turns, List.mem_cons, List.not_mem_nil, or_false] at member
      rcases member with rfl | rfl | rfl
      · exact digits.1
      · exact digits.2.1
      · exact digits.2.2

theorem turns_length (location : InodeReadingLocationInfo) : (turns location).length ≤ 3 := by
  cases location <;> simp [turns]

section Entries

variable {table : Block} {idx other value : Nat}

theorem length_set_entry (inside : idx * 4 + 4 ≤ table.length) :
    (setEntry table idx value).length = table.length := by
  simp only [setEntry, List.length_append, List.length_take, List.length_drop, length_to_le]
  omega

theorem entry_set_entry (inside : idx * 4 + 4 ≤ table.length) (word : value < 2 ^ 32) :
    entry (setEntry table idx value) idx = value := by
  have front : (table.take (idx * 4)).length = idx * 4 := by
    rw [List.length_take]
    omega
  rw [entry, readLe, setEntry, List.append_assoc, List.drop_append_of_le_length (by rw [front]),
    List.drop_eq_nil_of_le (by rw [front]), List.nil_append,
    List.take_append_of_le_length (by rw [length_to_le]),
    List.take_of_length_le (by rw [length_to_le]), read_le_to_le]
  exact Nat.mod_eq_of_lt word

theorem entry_set_entry_other (inside : idx * 4 + 4 ≤ table.length) (apart : other ≠ idx) :
    entry (setEntry table idx value) other = entry table other := by
  have part : ((setEntry table idx value).drop (other * 4)).take 4 =
      (table.drop (other * 4)).take 4 := by
    apply List.ext_getElem?
    intro place
    rw [List.getElem?_take, List.getElem?_take]
    by_cases small : place < 4
    swap
    · rw [if_neg small, if_neg small]
    rw [if_pos small, if_pos small, List.getElem?_drop, List.getElem?_drop]
    have shape : setEntry table idx value = splice table (idx * 4) (toLe value 4) := by
      rw [splice, length_to_le]
      rfl
    rw [shape, getElem?_splice (by rw [length_to_le]; exact inside), length_to_le,
      if_neg (by omega)]
  rw [entry, readLe, part]
  rfl

end Entries

section Threads

variable {contents : Contents} {pointer block size : Nat} {turns blocks : List Nat}

/-- A thread writes to its tables only. -/
theorem thread_other (turns : List Nat) :
    ∀ (contents : Contents) (pointer : Nat) (blocks : List Nat)
    {lba : Nat}, lba ≠ pointer → lba ∉ blocks →
    thread contents pointer turns blocks lba = contents lba := by
  induction turns with
  | nil =>
      intro contents pointer blocks lba _ _
      rfl
  | cons turn turns ih =>
      intro contents pointer blocks lba apart outside
      cases blocks with
      | nil => rfl
      | cons block blocks =>
          rw [List.mem_cons, not_or] at outside
          rw [thread, ih _ _ _ outside.1 outside.2, Function.update_of_ne apart]

theorem chase_thread (turns : List Nat) :
    ∀ (contents : Contents) (pointer : Nat) (blocks : List Nat),
    (∀ lba, (contents lba).length = size) → (∀ turn ∈ turns, turn < size / 4) →
    blocks.length = turns.length → (pointer :: blocks).Nodup → pointer ≠ 0 →
    (∀ block ∈ blocks, block ≠ 0 ∧ block < 2 ^ 32) →
    chase (thread contents pointer turns blocks) pointer turns = pointer :: blocks := by
  induction turns with
  | nil =>
      intro contents pointer blocks _ _ length _ _ _
      rw [List.length_eq_zero_iff.mp length]
      rfl
  | cons turn turns ih =>
      intro contents pointer blocks sized small length nodup nonzero good
      cases blocks with
      | nil => exact absurd length (by simp)
      | cons block blocks =>
          obtain ⟨outside, nodupLater⟩ := List.nodup_cons.mp nodup
          have bound := small turn List.mem_cons_self
          have goodBlock := good block List.mem_cons_self
          have apart : pointer ≠ block := fun same => outside (same ▸ List.mem_cons_self)
          have inside : turn * 4 + 4 ≤ (contents pointer).length := by
            rw [sized]
            omega
          have updated : ∀ lba, (Function.update contents pointer
              (setEntry (contents pointer) turn block) lba).length = size := by
            intro lba
            by_cases here : lba = pointer
            · rw [here, Function.update_self, length_set_entry inside, sized]
            · rw [Function.update_of_ne here, sized]
          have first : entry (thread contents pointer (turn :: turns) (block :: blocks)
              pointer) turn =
              block := by
            rw [thread, thread_other _ _ _ _ apart
              fun member => outside (List.mem_cons_of_mem _ member),
              Function.update_self, entry_set_entry inside goodBlock.2]
          rw [chase, if_neg nonzero, first, thread, ih _ _ _ updated
            (fun later member => small later (List.mem_cons_of_mem _ member))
              (by simpa using length)
            nodupLater goodBlock.1 fun later member => good later (List.mem_cons_of_mem _ member)]

theorem entry_thread (turns : List Nat) :
    ∀ (contents : Contents) (pointer : Nat) (blocks : List Nat),
    (∀ lba, (contents lba).length = size) → (∀ turn ∈ turns, turn < size / 4) →
    blocks.length = turns.length → (pointer :: blocks).Nodup →
    ∀ place table turn idx : Nat, (pointer :: blocks)[place]? = some table →
      turns[place]? = some turn →
      idx ≠ turn → entry (thread contents pointer turns blocks table) idx = entry (contents table)
        idx := by
  induction turns with
  | nil =>
      intro contents pointer blocks _ _ _ _ place table turn idx _ here
      exact absurd here (by simp)
  | cons first turns ih =>
      intro contents pointer blocks sized small length nodup place table turn idx found here apart
      cases blocks with
      | nil => exact absurd length (by simp)
      | cons block blocks =>
          obtain ⟨outside, nodupLater⟩ := List.nodup_cons.mp nodup
          have bound := small first List.mem_cons_self
          have inside : first * 4 + 4 ≤ (contents pointer).length := by
            rw [sized]
            omega
          have updated : ∀ lba, (Function.update contents pointer
              (setEntry (contents pointer) first block) lba).length = size := by
            intro lba
            by_cases same : lba = pointer
            · rw [same, Function.update_self, length_set_entry inside, sized]
            · rw [Function.update_of_ne same, sized]
          rw [thread]
          cases place with
          | zero =>
              obtain rfl : pointer = table := by simpa using found
              obtain rfl : first = turn := by simpa using here
              rw [List.mem_cons, not_or] at outside
              rw [thread_other _ _ _ _ outside.1 outside.2, Function.update_self,
                entry_set_entry_other inside apart]
          | succ place =>
              rw [List.getElem?_cons_succ] at found here
              have other : table ≠ pointer := by
                rintro rfl
                exact outside (List.mem_of_getElem? found)
              rw [ih _ _ _ updated (fun later member => small later (List.mem_cons_of_mem _ member))
                (by simpa using length) nodupLater place table turn idx found here apart,
                Function.update_of_ne other]

end Threads

section Chases

variable {contents other : Contents} {pointer : Nat}

theorem length_chase (turns : List Nat) : ∀ pointer : Nat,
    (chase contents pointer turns).length = turns.length + 1 := by
  induction turns with
  | nil =>
      intro pointer
      rfl
  | cons turn turns ih =>
      intro pointer
      rw [chase, List.length_cons, ih, List.length_cons]

theorem chase_head (turns : List Nat) (pointer : Nat) :
    (chase contents pointer turns)[0]? = some pointer := by
  cases turns with
  | nil => rfl
  | cons turn turns => rfl

theorem chase_zero (turns : List Nat) :
    chase contents 0 turns = List.replicate (turns.length + 1) 0 := by
  induction turns with
  | nil => rfl
  | cons turn turns ih => rw [chase, if_pos rfl, ih, List.length_cons, ← List.replicate_succ]

/-- Where two volumes agree on the tables that are passed, their ways agree too. -/
theorem chase_split (count : Nat) : ∀ (turns : List Nat) (pointer found : Nat),
    (∀ place < count, ∀ table, (chase contents pointer turns)[place]? = some table →
      table ≠ 0 ∧ other table = contents table) →
    (chase contents pointer turns)[count]? = some found →
    chase other pointer turns =
      (chase contents pointer turns).take count ++ chase other found (turns.drop count) := by
  induction count with
  | zero =>
      intro turns pointer found _ here
      rw [chase_head] at here
      rw [Option.some.inj here]
      rfl
  | succ count ih =>
      intro turns pointer found agree here
      cases turns with
      | nil => exact absurd here (by simp [chase])
      | cons turn turns =>
          obtain ⟨nonzero, same⟩ := agree 0 (by omega) pointer rfl
          rw [chase, if_neg nonzero, List.getElem?_cons_succ] at here
          have later := ih turns (entry (contents pointer) turn)
            found (fun place small table at_ => by
            apply agree (place + 1) (by omega) table
            rw [chase, if_neg nonzero, List.getElem?_cons_succ]
            exact at_) here
          rw [chase, chase, if_neg nonzero, if_neg nonzero, same, later]
          rfl

theorem chase_step {turns : List Nat} {place table turn : Nat}
    (found : (chase contents pointer turns)[place]? = some table)
    (there : ∀ before ≤ place, ∀ table, (chase contents pointer turns)[before]? = some table →
      table ≠ 0)
    (here : turns[place]? = some turn) :
    (chase contents pointer turns)[place + 1]? = some (entry (contents table) turn) := by
  have nonzero := there place (Nat.le_refl _) table found
  have shape : chase contents pointer turns = (chase contents pointer turns).take place ++
      chase contents table (turns.drop place) :=
    chase_split place turns pointer table
      (fun before small other at_ => ⟨there before (Nat.le_of_lt small) other at_, rfl⟩) found
  have length : ((chase contents pointer turns).take place).length = place := by
    rw [List.length_take, length_chase]
    have bound := (List.getElem?_eq_some_iff.mp here).1
    omega
  have rest : turns.drop place = turn :: turns.drop (place + 1) := by
    rw [List.drop_eq_getElem?_toList_append, here]
    rfl
  rw [shape, List.getElem?_append_right (by rw [length]; omega), length, rest, chase,
    if_neg nonzero, Nat.add_sub_cancel_left, List.getElem?_cons_succ]
  exact chase_head _ _

theorem chase_hole {turns : List Nat} {place : Nat}
    (hole : (chase contents pointer turns)[place]? = some 0)
    (there : ∀ before < place, ∀ table, (chase contents pointer turns)[before]? = some table →
      table ≠ 0) :
    chase contents pointer turns = (chase contents pointer turns).take place ++
      List.replicate (turns.length + 1 - place) 0 := by
  have bound := (List.getElem?_eq_some_iff.mp hole).1
  rw [length_chase] at bound
  have shape := chase_split place turns pointer 0
    (fun before small other at_ => ⟨there before small other at_, rfl⟩) hole
  rw [chase_zero, List.length_drop] at shape
  rw [show turns.length + 1 - place = turns.length - place + 1 by omega]
  exact shape

end Chases

end Campix.Ext2
