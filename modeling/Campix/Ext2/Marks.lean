import Campix.Ext2.Bitmaps
import Campix.Ext2.Growth
import Campix.Ext2.Contents

/-!
# The marks of blocks

The bit of a block in the bitmap of its group, in the numbering of the allocators, and
what the inner function `balloc` of `allocate_new_block` does to the marks: it hands out
a block that was not marked, and marks that one only.
-/

namespace Campix.Ext2

open Lib.Fallible Lib.Outcome Lib.Word

set_option autoImplicit false

namespace Ext2Volume

def marked (volume : Ext2Volume) (block : Nat) : Bool :=
  Bitmap.bitAt (volume.bitmaps ((block - 1) / volume.blocksPerGroup))
    ((block - 1) % volume.blocksPerGroup)

/-- The bits behind the last block of a group are set. -/
structure Padded (volume : Ext2Volume) : Prop where
  perGroup : 0 < volume.blocksPerGroup
  word : volume.blockCount < 2 ^ 32
  padding : ∀ group < volume.blockGroupCount, ∀ bit < 8 * (volume.bitmaps group).length,
    Bitmap.bitAt (volume.bitmaps group) bit = false →
      bit < volume.blocksPerGroup ∧ group * volume.blocksPerGroup + 1 + bit < volume.blockCount

/-- A block that was handed out: it was free, and is the only one that has been marked. -/
structure HandedOut (volume : Ext2Volume) (block : Nat) (after : Ext2Volume) : Prop where
  nonzero : block ≠ 0
  inside : block < volume.blockCount
  free : volume.marked block = false
  marks : ∀ other, other ≠ 0 → after.marked other = (volume.marked other || decide (other = block))
  padded : after.Padded
  rest : after = { volume with bitmaps := after.bitmaps }

variable {volume after : Ext2Volume} {group block : Nat}

theorem alloc_block_handed_out (padded : volume.Padded) {allocator taken : BlockAllocator}
    (found : volume.getBlockAllocatorForGroup group = some allocator)
    (allocated : allocator.allocBlock = .ok (block, taken)) :
    HandedOut volume block
      { volume with bitmaps := Function.update volume.bitmaps group taken.bitmap.data } := by
  unfold getBlockAllocatorForGroup at found
  split_ifs at found with locked outside
  obtain rfl := Option.some.inj found
  unfold BlockAllocator.allocBlock at allocated
  split at allocated
  swap
  · cases allocated
  rename_i bit search
  cases allocated
  obtain ⟨inside, stored, unset⟩ := Bitmap.find_first_unset_spec search
  have changed := Bitmap.bit_at_set_bit inside stored true
  dsimp only at inside stored unset
  obtain ⟨small, fits⟩ := padded.padding group (by omega) bit (by omega) unset
  have word := padded.word
  have positive := padded.perGroup
  have number : add32 (add32 (mul32 group volume.blocksPerGroup) 1) bit =
      group * volume.blocksPerGroup + 1 + bit := by
    unfold add32 mul32
    rw [Nat.mod_eq_of_lt (show group * volume.blocksPerGroup < 2 ^ 32 by omega),
      Nat.mod_eq_of_lt (show group * volume.blocksPerGroup + 1 < 2 ^ 32 by omega),
      Nat.mod_eq_of_lt (by omega)]
  dsimp only
  rw [number]
  have index : group * volume.blocksPerGroup + 1 + bit - 1 = group * volume.blocksPerGroup +
      bit := by
    omega
  have quotient : (group * volume.blocksPerGroup + bit) / volume.blocksPerGroup = group := by
    rw [Nat.mul_comm, Nat.mul_add_div positive, Nat.div_eq_of_lt small, Nat.add_zero]
  have remainder : (group * volume.blocksPerGroup + bit) % volume.blocksPerGroup = bit := by
    rw [Nat.mul_comm, Nat.mul_add_mod, Nat.mod_eq_of_lt small]
  refine ⟨by omega, fits, ?_, ?_, ?_, rfl⟩
  · unfold marked
    rw [index, quotient, remainder]
    exact unset
  · intro other nonzero
    unfold marked
    dsimp only
    by_cases here : (other - 1) / volume.blocksPerGroup = group
    · rw [here, Function.update_self, changed]
      have split := Nat.div_add_mod (other - 1) volume.blocksPerGroup
      rw [here, Nat.mul_comm] at split
      by_cases same : (other - 1) % volume.blocksPerGroup = bit
      · rw [if_pos same, decide_eq_true (by omega), Bool.or_true]
      · rw [if_neg same, decide_eq_false (by omega), Bool.or_false]
    · rw [Function.update_of_ne here]
      have apart : other ≠ group * volume.blocksPerGroup + 1 + bit := by
        rintro rfl
        exact here (by rw [index, quotient])
      rw [decide_eq_false apart, Bool.or_false]
  · refine ⟨positive, word, fun each eachInside place bound clear => ?_⟩
    dsimp only at bound clear
    by_cases here : each = group
    · subst here
      rw [Function.update_self] at bound clear
      rw [Bitmap.set_bit_length] at bound
      rw [changed] at clear
      by_cases same : place = bit
      · rw [if_pos same] at clear
        exact absurd clear (by decide)
      · rw [if_neg same] at clear
        exact padded.padding each eachInside place bound clear
    · rw [Function.update_of_ne here] at bound clear
      exact padded.padding each eachInside place bound clear

theorem alloc_block_from_handed_out (padded : volume.Padded) (groups : Nat) :
    ∀ group, Yields (fun block after => HandedOut volume block after) (fun _ => True)
      (allocBlockFrom groups group volume) := by
  induction groups with
  | zero =>
      intro group
      exact .error trivial
  | succ groups ih =>
      intro group
      rw [allocBlockFrom, state_bind_get]
      cases found : volume.getBlockAllocatorForGroup group with
      | none => exact ih (group + 1)
      | some allocator =>
          dsimp only
          cases allocated : allocator.allocBlock with
          | error error => exact ih (group + 1)
          | ok result =>
              obtain ⟨block, taken⟩ := result
              exact .ok (alloc_block_handed_out padded found allocated)

/-- The block that `balloc` takes next, with the group in which it goes on. -/
def handOut (volume : Ext2Volume) (group : Nat) : Option (Nat × Nat × Ext2Volume) :=
  match volume.getBlockAllocatorForGroup group with
  | none => none
  | some allocator =>
      match allocator.allocBlock with
      | .ok (block, allocator) =>
          some (block, group,
            { volume with bitmaps := Function.update volume.bitmaps group allocator.bitmap.data })
      | .error _ =>
          match allocBlockAny volume with
          | .ok block after => some (block, sub32 block 1 / after.blocksPerGroup, after)
          | .error _ _ => none

/-- The blocks that `balloc` takes in this many calls. -/
def handOuts : Nat → Ext2Volume → Nat → List Nat
  | 0, _, _ => []
  | count + 1, volume, group =>
      match volume.handOut group with
      | none => []
      | some (block, next, after) => block :: handOuts count after next

theorem hand_out_spec (padded : volume.Padded) {next : Nat}
    (out : volume.handOut group = some (block, next, after)) : HandedOut volume block after := by
  unfold handOut at out
  split at out
  · cases out
  rename_i allocator found
  split at out
  · rename_i result taken allocated
    cases out
    exact alloc_block_handed_out padded found allocated
  · have any := alloc_block_from_handed_out padded volume.blockGroupCount 0
    change Yields _ _ (allocBlockAny volume) at any
    split at out
    · rename_i result outcome
      cases out
      rw [outcome] at any
      cases any with
      | ok holds => exact holds
    · cases out

def framed {Value : Type} : EStateM.Result Failure Ext2Volume Value →
    EStateM.Result Failure Ext2Volume Value
  | .ok value after => .ok value after.frame
  | .error failure after => .error failure after.frame

theorem alloc_block_from_frame (groups : Nat) : ∀ group,
    allocBlockFrom groups group volume.frame = framed (allocBlockFrom groups group volume) := by
  induction groups with
  | zero =>
      intro group
      rfl
  | succ groups ih =>
      intro group
      have search : ∀ any : Ext2Volume, allocBlockFrom (groups + 1) group any =
          (match any.getBlockAllocatorForGroup group with
          | none => allocBlockFrom groups (group + 1)
          | some allocator =>
              match allocator.allocBlock with
              | .ok (block, allocator) => do
                  setBlockAllocator group allocator
                  return block
              | .error _ => allocBlockFrom groups (group + 1) : OnVolume Nat) any := fun _ => rfl
      have same : volume.frame.getBlockAllocatorForGroup group =
          volume.getBlockAllocatorForGroup group := rfl
      rw [search, search, same]
      cases volume.getBlockAllocatorForGroup group with
      | none => exact ih (group + 1)
      | some allocator =>
          dsimp only
          cases allocator.allocBlock with
          | error error => exact ih (group + 1)
          | ok result => rfl

theorem hand_out_frame (volume : Ext2Volume) (group : Nat) :
    volume.frame.handOut group =
      (volume.handOut group).map fun out => (out.1, out.2.1, out.2.2.frame) := by
  have same : volume.frame.getBlockAllocatorForGroup group =
      volume.getBlockAllocatorForGroup group := rfl
  have any : allocBlockAny volume.frame = framed (allocBlockAny volume) :=
    alloc_block_from_frame volume.blockGroupCount 0
  unfold handOut
  rw [same, any]
  cases volume.getBlockAllocatorForGroup group with
  | none => rfl
  | some allocator =>
      dsimp only
      cases allocator.allocBlock with
      | ok result => rfl
      | error error =>
          dsimp only
          cases allocBlockAny volume with
          | ok block after => rfl
          | error failure after => rfl

theorem hand_outs_frame (count : Nat) : ∀ (volume : Ext2Volume) (group : Nat),
    handOuts count volume.frame group = handOuts count volume group := by
  induction count with
  | zero =>
      intro volume group
      rfl
  | succ count ih =>
      intro volume group
      unfold handOuts
      rw [hand_out_frame]
      cases volume.handOut group with
      | none => rfl
      | some out => exact congrArg (out.1 :: ·) (ih out.2.2 out.2.1)

theorem hand_outs_of_frame (same : after.frame = volume.frame) (count group : Nat) :
    handOuts count after group = handOuts count volume group := by
  rw [← hand_outs_frame, same, hand_outs_frame]

theorem hand_outs_take (count : Nat) : ∀ (volume : Ext2Volume) (group : Nat),
    handOuts count volume group = (handOuts (count + 1) volume group).take count := by
  induction count with
  | zero =>
      intro volume group
      rfl
  | succ count ih =>
      intro volume group
      unfold handOuts
      cases volume.handOut group with
      | none => rfl
      | some out => exact congrArg (out.1 :: ·) (ih out.2.2 out.2.1)

theorem hand_outs_free (count : Nat) : ∀ {volume : Ext2Volume} {group : Nat}, volume.Padded →
    ∀ block ∈ handOuts count volume group, block ≠ 0 ∧ volume.marked block = false := by
  induction count with
  | zero =>
      intro volume group _ block member
      exact absurd member List.not_mem_nil
  | succ count ih =>
      intro volume group padded block member
      unfold handOuts at member
      cases out : volume.handOut group with
      | none =>
          rw [out] at member
          exact absurd member List.not_mem_nil
      | some result =>
          obtain ⟨first, next, after⟩ := result
          have spec := hand_out_spec padded out
          rw [out] at member
          rcases List.mem_cons.mp member with rfl | later
          · exact ⟨spec.nonzero, spec.free⟩
          · obtain ⟨nonzero, free⟩ := ih spec.padded block later
            rw [spec.marks block nonzero, Bool.or_eq_false_iff] at free
            exact ⟨nonzero, free.1⟩

end Ext2Volume

namespace Cursor

variable {cursor : Cursor} {allocation : Allocation}

theorem balloc_spec :
    Yields (fun result after => ∃ volume, after = { cursor with volume := volume } ∧
        cursor.volume.handOut allocation.group = some (result.1, result.2.group, volume) ∧
        result.2.allocCount = add32 allocation.allocCount 1)
      (fun _ => True) (balloc allocation cursor) := by
  rw [balloc, state_bind_get]
  cases found : cursor.volume.getBlockAllocatorForGroup allocation.group with
  | none => exact .error trivial
  | some allocator =>
      dsimp only
      cases allocated : allocator.allocBlock with
      | ok result =>
          obtain ⟨block, taken⟩ := result
          refine .ok ⟨_, rfl, ?_, rfl⟩
          unfold Ext2Volume.handOut
          rw [found]
          dsimp only
          rw [allocated]
      | error error =>
          dsimp only
          cases any : Ext2Volume.allocBlockAny cursor.volume with
          | error failure volume =>
              have fails : onVolume Ext2Volume.allocBlockAny cursor =
                  .error failure { cursor with volume := volume } := by
                unfold onVolume
                rw [any]
              rw [state_bind_error fails]
              exact .error trivial
          | ok block volume =>
              have returns : onVolume Ext2Volume.allocBlockAny cursor =
                  .ok block { cursor with volume := volume } := by
                unfold onVolume
                rw [any]
              rw [state_bind_ok returns]
              refine .ok ⟨volume, rfl, ?_, rfl⟩
              unfold Ext2Volume.handOut
              rw [found]
              dsimp only
              rw [allocated]
              dsimp only
              rw [any]

end Cursor

end Campix.Ext2
