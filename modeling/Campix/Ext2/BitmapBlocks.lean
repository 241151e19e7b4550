import Campix.Ext2.Bitmaps
import Campix.Ext2.Contents

/-!
# The blocks that hold bitmaps

A block of the volume has one content when the device and the cache of blocks agree on
it. Reading a bitmap into an allocator, writing the changed parts back and writing the
copies of superblock and descriptors are described by the blocks that they leave alone.
-/

namespace Campix.Ext2

open Lib.Outcome Lib.Slice

set_option autoImplicit false

namespace Ext2Volume

structure HoldsAt (volume : Ext2Volume) (lba : Nat) (block : Block) : Prop where
  device : volume.device lba = block
  cached : ∀ item ∈ volume.blockCache, item.1 = lba → item.2 = block

/-- Nothing but blocks changed, and these blocks are what they were. -/
structure Unmoved (keep : Nat → Prop) (volume after : Ext2Volume) : Prop where
  frame : after.frame = volume.frame
  holds : ∀ lba block, keep lba → volume.HoldsAt lba block → after.HoldsAt lba block

variable {volume middle after : Ext2Volume} {keep : Nat → Prop}

theorem unmoved_refl : Unmoved keep volume volume := ⟨rfl, fun _ _ _ holds => holds⟩

theorem unmoved_trans (first : Unmoved keep volume middle) (second : Unmoved keep middle after) :
    Unmoved keep volume after :=
  ⟨second.frame.trans first.frame,
    fun lba block kept holds => second.holds lba block kept (first.holds lba block kept holds)⟩

theorem unmoved_weaken {fewer : Nat → Prop} (unmoved : Unmoved keep volume after)
    (weaker : ∀ lba, fewer lba → keep lba) : Unmoved fewer volume after :=
  ⟨unmoved.frame, fun lba block kept => unmoved.holds lba block (weaker lba kept)⟩

theorem holds_touch {lba other : Nat} {block seen : Block} (holds : volume.HoldsAt other block)
    (fits : other = lba → seen = block) : (volume.touch lba seen).HoldsAt other block := by
  refine ⟨holds.device, fun item member key => ?_⟩
  rcases List.mem_cons.mp (List.mem_of_mem_take member) with rfl | old
  · exact fits key.symm
  · exact holds.cached item (List.mem_of_mem_filter old) key

theorem cached_holds {lba : Nat} {block seen : Block} (holds : volume.HoldsAt lba block)
    (found : volume.cached lba = some seen) : seen = block := by
  obtain ⟨item, search, rfl⟩ := Option.map_eq_some_iff.mp found
  have key : item.1 = lba := by simpa using List.find?_some search
  exact holds.cached item (List.mem_of_find?_eq_some search) key

/-- A read moves nothing, and finds what device and cache agree on. -/
theorem read_block_holds (lba : Nat) (buf : Block) :
    Yields (fun result after => Unmoved (fun _ => True) volume after ∧ lba < volume.blockCount ∧
        ∀ block, volume.HoldsAt lba block → block.length = volume.blockSize →
          buf.length = volume.blockSize → result.2 = block)
      (fun _ => True) (readBlock lba buf volume) := by
  change Yields _ _ ((if buf.length < volume.blockSize then _ else _ : OnVolume (Nat × Block))
    volume)
  by_cases short : buf.length < volume.blockSize
  · rw [if_pos short]
    exact .error trivial
  rw [if_neg short]
  by_cases outside : lba ≥ volume.blockCount
  · rw [if_pos outside]
    exact .error trivial
  rw [if_neg outside]
  cases found : volume.cached lba with
  | none =>
      have moved : Unmoved (fun _ => True) volume (volume.touch lba (volume.device lba)) :=
        ⟨rfl, fun other block _ holds => holds_touch holds (by rintro rfl; exact holds.device)⟩
      refine .ok ⟨moved, by omega, fun block holds length whole => ?_⟩
      have rest : buf.drop (volume.device lba).length = [] := by
        rw [holds.device]
        exact List.drop_eq_nil_of_le (by omega)
      change volume.device lba ++ buf.drop (volume.device lba).length = block
      rw [rest, List.append_nil]
      exact holds.device
  | some seen =>
      have moved : Unmoved (fun _ => True) volume (volume.touch lba seen) :=
        ⟨rfl, fun other block _ holds =>
          holds_touch holds (by rintro rfl; exact cached_holds holds found)⟩
      change Yields _ _ ((if buf.length ≠ seen.length then _ else _ : OnVolume (Nat × Block)) _)
      by_cases unequal : buf.length ≠ seen.length
      · rw [if_pos unequal]
        exact .error trivial
      · rw [if_neg unequal]
        exact .ok ⟨moved, by omega, fun block holds _ _ => cached_holds holds found⟩

theorem write_block_holds (lba : Nat) (buf : Block) :
    Yields (fun _ after => Unmoved (fun other => other ≠ lba) volume after ∧
        (lba < volume.blockCount → after.HoldsAt lba (buf.take volume.blockSize)))
      (fun _ => True) (writeBlock lba buf volume) := by
  change Yields _ _ ((if buf.length < volume.blockSize then _ else _ : OnVolume Nat) volume)
  by_cases short : buf.length < volume.blockSize
  · rw [if_pos short]
    exact .error trivial
  rw [if_neg short]
  by_cases locked : volume.readOnly
  · rw [if_pos locked]
    exact .error trivial
  rw [if_neg locked]
  by_cases beyond : lba > volume.blockCount
  · rw [if_pos beyond]
    exact .error trivial
  rw [if_neg beyond]
  by_cases atEnd : lba = volume.blockCount
  · rw [if_pos atEnd]
    exact .ok ⟨unmoved_refl, fun inside => absurd inside (by omega)⟩
  rw [if_neg atEnd]
  dsimp only
  have written : ∀ other block, other ≠ lba → volume.HoldsAt other block →
      { volume with device := Function.update volume.device lba (buf.take volume.blockSize) }.HoldsAt
        other block := by
    intro other block apart holds
    refine ⟨?_, holds.cached⟩
    rw [← holds.device]
    exact Function.update_of_ne apart _ _
  have here : Function.update volume.device lba (buf.take volume.blockSize) lba =
      buf.take volume.blockSize := Function.update_self _ _ _
  cases found : volume.cached lba with
  | none =>
      have uncached : { volume with
          device := Function.update volume.device lba (buf.take volume.blockSize) }.cached lba =
            none := found
      rw [uncached]
      refine .ok ⟨⟨rfl, written⟩, fun _ => ⟨here, fun item member key => ?_⟩⟩
      have missing := List.find?_eq_none.mp (Option.map_eq_none_iff.mp found) item member
      exact absurd key (by simpa using missing)
  | some seen =>
      have hit : { volume with
          device := Function.update volume.device lba (buf.take volume.blockSize) }.cached lba =
            some seen := found
      rw [hit]
      refine .ok ⟨⟨rfl, fun other block apart holds =>
        holds_touch (written other block apart holds) (fun same => absurd same apart)⟩,
        fun _ => ⟨here, fun item member key => ?_⟩⟩
      rcases List.mem_cons.mp (List.mem_of_mem_take member) with rfl | old
      · rfl
      · exact absurd key (by simpa using (List.mem_filter.mp old).2)

end Ext2Volume

open Ext2Volume

section Copies

variable {volume : Ext2Volume}

theorem write_device_unmoved (lba offset : Nat) (bytes : List UInt8) :
    Yields (fun _ after => Unmoved (fun other => other ≠ lba) volume after) (fun _ => True)
      (Accounts.writeDevice lba offset bytes volume) := by
  change Yields _ _ ((if lba > volume.blockCount then _ else _ : OnVolume Unit) volume)
  by_cases beyond : lba > volume.blockCount
  · rw [if_pos beyond]
    exact .error trivial
  rw [if_neg beyond]
  by_cases atEnd : lba = volume.blockCount
  · rw [if_pos atEnd]
    exact .ok unmoved_refl
  rw [if_neg atEnd]
  refine .ok ⟨rfl, fun other block apart holds => ⟨?_, holds.cached⟩⟩
  rw [← holds.device]
  exact Function.update_of_ne apart _ _

theorem write_superblocks_unmoved (bytes : List UInt8) (blocksPerGroup : Nat) (groups : List Nat) :
    ∀ volume, Yields (fun _ after => Unmoved
        (fun other => ∀ group ∈ groups, other ≠ group * blocksPerGroup + 1) volume after)
      (fun _ => True) (Accounts.writeSuperblocks bytes blocksPerGroup groups volume) := by
  induction groups with
  | nil => exact fun volume => .ok unmoved_refl
  | cons group groups ih =>
      intro volume
      refine yields_bind (write_device_unmoved _ 0 bytes) fun _ middle first => ?_
      refine yields_weaken (ih middle) (fun _ after second => ?_) (fun _ _ => trivial)
      exact unmoved_trans
        (unmoved_weaken first fun other apart => apart group List.mem_cons_self)
        (unmoved_weaken second fun other apart later member =>
          apart later (List.mem_cons_of_mem _ member))

theorem write_descriptors_unmoved (raw : List UInt8) (blocksPerGroup blockIndex offset : Nat)
    (groups : List Nat) :
    ∀ buffer volume, Yields (fun _ after => Unmoved
        (fun other => ∀ group ∈ groups, other ≠ group * blocksPerGroup + blockIndex + 2)
          volume after)
      (fun _ => True)
      (Accounts.writeDescriptors raw blocksPerGroup blockIndex offset groups buffer volume) := by
  induction groups with
  | nil => exact fun _ volume => .ok unmoved_refl
  | cons group groups ih =>
      intro buffer volume
      refine yields_bind (read_block_holds _ buffer) fun read middle first => ?_
      refine yields_bind (write_block_holds _ _) fun _ written second => ?_
      refine yields_weaken (ih _ written) (fun _ after third => ?_) (fun _ _ => trivial)
      have readKept := unmoved_weaken first.1
        (fun other (_ : ∀ later ∈ group :: groups,
          other ≠ later * blocksPerGroup + blockIndex + 2) => trivial)
      exact unmoved_trans (unmoved_trans readKept
        (unmoved_weaken second.1 fun other apart => apart group List.mem_cons_self))
        (unmoved_weaken third fun other apart later member =>
          apart later (List.mem_cons_of_mem _ member))

end Copies

def part (data : List UInt8) (bs i : Nat) : Block := (data.drop (i * bs)).take bs

section Bitmaps

variable {volume : Ext2Volume} {data : List UInt8} {bs count first : Nat}

theorem part_length {i : Nat} (length : data.length = count * bs) (inside : i < count) :
    (part data bs i).length = bs := by
  have room : (i + 1) * bs ≤ count * bs := Nat.mul_le_mul_right bs inside
  rw [Nat.succ_mul] at room
  rw [part, List.length_take, List.length_drop]
  omega

theorem slice_part {i : Nat} (length : data.length = count * bs) (inside : i < count) :
    getSlice data (i * bs) ((i + 1) * bs) = some (part data bs i) := by
  have room : (i + 1) * bs ≤ count * bs := Nat.mul_le_mul_right bs inside
  have step : (i + 1) * bs = i * bs + bs := Nat.succ_mul i bs
  have width : (i + 1) * bs - i * bs = bs := by omega
  rw [get_slice_eq (by omega) (by omega), width, part]

theorem part_set {i place : Nat} (positive : 0 < bs) (byte : UInt8) (apart : i ≠ place / bs) :
    part (data.set place byte) bs i = part data bs i := by
  unfold part
  apply List.ext_getElem?
  intro offset
  rw [List.getElem?_take, List.getElem?_take, List.getElem?_drop, List.getElem?_drop]
  by_cases inside : offset < bs
  · rw [if_pos inside, if_pos inside]
    apply List.getElem?_set_ne
    intro same
    apply apart
    rw [same, Nat.mul_comm, Nat.mul_add_div positive, Nat.div_eq_of_lt inside, Nat.add_zero]
  · rw [if_neg inside, if_neg inside]

theorem part_set_bit {i idx : Nat} {bitmap : Bitmap} (positive : 0 < bs) (enabled : Bool)
    (apart : i ≠ idx / (8 * bs)) :
    part (bitmap.setBit idx enabled).data bs i = part bitmap.data bs i := by
  rw [← Nat.div_div_eq_div_mul] at apart
  unfold Bitmap.setBit
  split_ifs
  · exact part_set positive _ apart
  · exact part_set positive _ apart
  · rfl

theorem read_blocks_spec (length : data.length = count * bs) (remaining : Nat) :
    ∀ i slice volume, i + remaining = count → slice.length = count * bs →
      volume.blockSize = bs → slice.take (i * bs) = data.take (i * bs) →
      (∀ j < count, volume.HoldsAt (first + j) (part data bs j)) →
      Yields (fun result after => result = data ∧ Unmoved (fun _ => True) volume after)
        (fun _ => True)
        (GroupAllocator.readBlocks bs (List.range' (first + i) remaining) i slice volume) := by
  induction remaining with
  | zero =>
      intro i slice volume total sliceLength _ front _
      obtain rfl : i = count := by omega
      rw [List.take_of_length_le sliceLength.le, List.take_of_length_le length.le] at front
      exact .ok ⟨front, unmoved_refl⟩
  | succ remaining ih =>
      intro i slice volume total sliceLength size front holds
      have inside : i < count := by omega
      have step : (i + 1) * bs = i * bs + bs := Nat.succ_mul i bs
      have room : (i + 1) * bs ≤ count * bs := Nat.mul_le_mul_right bs inside
      rw [List.range'_succ]
      unfold GroupAllocator.readBlocks
      rw [slice_part sliceLength inside]
      refine yields_bind (read_block_holds _ _) fun read middle ⟨unmoved, _, found⟩ => ?_
      have here : read.2 = part data bs i := found _ (holds i inside)
        ((part_length length inside).trans size.symm)
        ((part_length sliceLength inside).trans size.symm)
      have partLength := part_length length inside
      have fits : i * bs + read.2.length ≤ slice.length := by
        rw [here, partLength]
        omega
      have sized : middle.blockSize = bs := (block_size_of_frame unmoved.frame).trans size
      refine yields_weaken (ih (i + 1) _ middle (by omega) ?_ sized ?_ ?_)
        (fun result after ⟨same, later⟩ => ⟨same, unmoved_trans unmoved later⟩) (fun _ _ => trivial)
      · rw [length_splice fits]
        exact sliceLength
      · have grown := take_splice fits
        rw [here, partLength] at grown
        rw [here, step, grown, front, List.take_add]
        rfl
      · exact fun j bound => unmoved.holds _ _ trivial (holds j bound)

def Kept (volume : Ext2Volume) (first bs count : Nat) (data : List UInt8) (dirty : Bitmap) : Prop :=
  ∀ j < count, Bitmap.bitAt dirty.data j = false → volume.HoldsAt (first + j) (part data bs j)

theorem write_blocks_spec {self : GroupAllocator}
    (length : self.bitmap.data.length = count * self.bs)
    (remaining : Nat) :
    ∀ i dirty volume, i + remaining = count → volume.blockSize = self.bs →
      first + count ≤ volume.blockCount → dirty.size = count → count ≤ 8 * dirty.data.length →
      (∀ j < i, Bitmap.bitAt dirty.data j = false) →
      Kept volume first self.bs count self.bitmap.data dirty →
      Yields (fun result after =>
          Unmoved (fun lba => lba < first ∨ first + count ≤ lba) volume after ∧
            (∀ j < count, after.HoldsAt (first + j) (part self.bitmap.data self.bs j)) ∧
            result.size = count ∧ ∀ j < count, Bitmap.bitAt result.data j = false)
        (fun _ => True) (self.writeBlocks (List.range' (first + i) remaining) i dirty volume) := by
  induction remaining with
  | zero =>
      intro i dirty volume total _ _ size _ clean kept
      obtain rfl : i = count := by omega
      exact .ok ⟨unmoved_refl, fun j bound => kept j bound (clean j bound), size, clean⟩
  | succ remaining ih =>
      intro i dirty volume total blockSize fits size stored clean kept
      have inside : i < count := by omega
      rw [List.range'_succ]
      unfold GroupAllocator.writeBlocks
      by_cases marked : dirty.getBit i = some true
      · rw [if_pos marked, slice_part length inside]
        refine yields_bind (write_block_holds _ _) fun _ middle ⟨unmoved, written⟩ => ?_
        have partLength := part_length length inside
        have here : middle.HoldsAt (first + i) (part self.bitmap.data self.bs i) := by
          have block := written (by omega)
          rwa [List.take_of_length_le (by omega)] at block
        have toggled := Bitmap.bit_at_toggle (size ▸ inside : i < dirty.size)
          (by omega : i / 8 < dirty.data.length)
        have sized : middle.blockSize = self.bs :=
          (block_size_of_frame unmoved.frame).trans blockSize
        have counted : middle.blockCount = volume.blockCount := block_count_of_frame unmoved.frame
        refine yields_weaken (ih (i + 1) (dirty.toggleBit i) middle (by omega) sized (by omega)
          (Bitmap.toggle_bit_size.trans size) ?_ ?_ ?_)
          (fun result after ⟨later, rest⟩ => ⟨unmoved_trans
            (unmoved_weaken unmoved fun lba outside => by omega) later, rest⟩) (fun _ _ => trivial)
        · rw [Bitmap.toggle_bit_length]
          exact stored
        · intro j bound
          rw [toggled]
          by_cases same : j = i
          · rw [if_pos same, (Bitmap.get_bit_true marked).2]
            rfl
          · rw [if_neg same]
            exact clean j (by omega)
        · intro j bound unmarked
          rw [toggled] at unmarked
          by_cases same : j = i
          · rw [same]
            exact here
          · rw [if_neg same] at unmarked
            exact unmoved.holds _ _ (by omega) (kept j bound unmarked)
      · rw [if_neg marked]
        refine ih (i + 1) dirty volume (by omega) blockSize fits size stored ?_ kept
        intro j bound
        by_cases same : j = i
        · rw [Bitmap.get_bit_eq (size ▸ inside)] at marked
          rw [same]
          simpa using marked
        · exact clean j (by omega)

end Bitmaps

end Campix.Ext2
