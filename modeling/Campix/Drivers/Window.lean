import Campix.Drivers.Vfs
import Campix.Lib.Outcome
import Mathlib.Logic.Function.Basic

/-!
# Partitions as windows on a disk

A disk is a device that behaves as an array of blocks. A partition should be a
window on that array: block `lba` of the partition is block `begin_block + lba` of
the disk. `SubBlockDevice` checks `lba` against the window and hands it on as it
is, so this holds only for windows that start at block 0 or are empty, and two
windows that hold a block each always share the first blocks of the disk.
-/

namespace Campix.Drivers

open Lib.Word Lib.Outcome

set_option autoImplicit false

variable {δ : Type}

structure BlockArray (δ : Type) extends BlockDevice δ where
  block : δ → Nat → List UInt8
  read_array : ∀ {disk : δ} {lba : Nat} {buf : List UInt8}, lba < getBlockCount disk →
    buf.length = getBlockSize disk →
      readBlock disk lba buf = .ok (getBlockSize disk, block disk lba)
  write_array : ∀ {disk : δ} {lba : Nat} {buf : List UInt8}, lba < getBlockCount disk →
    buf.length = getBlockSize disk →
    ∃ after, writeBlock lba buf disk = .ok (getBlockSize disk) after ∧
      block after = Function.update (block disk) lba buf
  write_refused : ∀ {disk : δ} {lba : Nat} {buf : List UInt8}, buf.length ≠ getBlockSize disk →
    block (stateAfter (writeBlock lba buf disk)) = block disk
  flush_array : ∀ disk : δ, block (stateAfter (flush disk)) = block disk
  write_shape : ∀ (disk : δ) (lba : Nat) (buf : List UInt8),
    getGeneration (stateAfter (writeBlock lba buf disk)) = getGeneration disk ∧
      getBlockSize (stateAfter (writeBlock lba buf disk)) = getBlockSize disk ∧
      getBlockCount (stateAfter (writeBlock lba buf disk)) = getBlockCount disk
  flush_shape : ∀ disk : δ, getGeneration (stateAfter (flush disk)) = getGeneration disk ∧
    getBlockSize (stateAfter (flush disk)) = getBlockSize disk ∧
      getBlockCount (stateAfter (flush disk)) = getBlockCount disk

structure SameView (array : BlockArray δ) (left right : δ) : Prop where
  block : array.block left = array.block right
  generation : array.getGeneration left = array.getGeneration right
  size : array.getBlockSize left = array.getBlockSize right
  count : array.getBlockCount left = array.getBlockCount right

/-- The partition is the window of the disk that starts at its `begin_block`. -/
structure IsWindow (array : BlockArray δ) (disk : δ) (sub : SubBlockDevice δ) : Prop where
  reads : ∀ lba < sub.endBlock - sub.beginBlock, ∀ buf : List UInt8,
    buf.length = array.getBlockSize disk →
    sub.readBlock disk lba buf =
      .ok (array.getBlockSize disk, array.block disk (sub.beginBlock + lba))
  writes : ∀ lba < sub.endBlock - sub.beginBlock, ∀ buf : List UInt8,
    buf.length = array.getBlockSize disk →
    ∃ after, sub.writeBlock lba buf disk = .ok (array.getBlockSize disk) after ∧
      array.block after = Function.update (array.block disk) (sub.beginBlock + lba) buf

def WindowLaw (beginBlock endBlock : Nat) : Prop :=
  ∀ {δ : Type} (array : BlockArray δ) (disk : δ), endBlock ≤ array.getBlockCount disk →
    IsWindow array disk (SubBlockDevice.new array.toBlockDevice disk beginBlock endBlock)

inductive Access where
  | read (lba : Nat) (buf : List UInt8)
  | write (lba : Nat) (buf : List UInt8)
  | flush

inductive Side where
  | left
  | right
  deriving DecidableEq

def SubBlockDevice.access (sub : SubBlockDevice δ) (disk : δ) : Access → δ
  | .read _ _ => disk
  | .write lba buf => stateAfter (sub.writeBlock lba buf disk)
  | .flush => stateAfter (sub.flush disk)

def interleave (subs : Side → SubBlockDevice δ) (disk : δ) : List (Side × Access) → δ
  | [] => disk
  | (side, access) :: accesses => interleave subs ((subs side).access disk access) accesses

/-- What the partition on `side` reads after any interleaving is what it reads
when the other one does nothing. -/
def Undisturbed (array : BlockArray δ) (disk : δ) (subs : Side → SubBlockDevice δ) (side : Side) :
    Prop :=
  ∀ accesses lba (buf : List UInt8), lba < (subs side).endBlock - (subs side).beginBlock →
    buf.length = array.getBlockSize disk →
    (subs side).readBlock (interleave subs disk accesses) lba buf =
      (subs side).readBlock
        (interleave subs disk (accesses.filter fun access => access.1 = side)) lba buf

/-- Neither of two partitions disturbs the other one, on any disk that holds both. -/
def Isolated (beginBlock endBlock : Side → Nat) : Prop :=
  ∀ {δ : Type} (array : BlockArray δ) (disk : δ),
    (∀ side, endBlock side ≤ array.getBlockCount disk) → ∀ side, Undisturbed array disk
      (fun which => SubBlockDevice.new array.toBlockDevice disk (beginBlock which) (endBlock which))
      side

variable {array : BlockArray δ}

theorem same_view_refl (disk : δ) : SameView array disk disk := ⟨rfl, rfl, rfl, rfl⟩

theorem same_view_trans {first second third : δ} (left : SameView array first second)
    (right : SameView array second third) : SameView array first third :=
  ⟨left.block.trans right.block, left.generation.trans right.generation,
    left.size.trans right.size, left.count.trans right.count⟩

theorem flush_same_view {first second : δ} (same : SameView array first second) :
    SameView array (stateAfter (array.flush first)) (stateAfter (array.flush second)) := by
  have keptFirst := array.flush_shape first
  have keptSecond := array.flush_shape second
  have blocks := same.block
  rw [← array.flush_array first, ← array.flush_array second] at blocks
  exact ⟨blocks, (keptFirst.1.trans same.generation).trans keptSecond.1.symm,
    (keptFirst.2.1.trans same.size).trans keptSecond.2.1.symm,
    (keptFirst.2.2.trans same.count).trans keptSecond.2.2.symm⟩

theorem write_same_view {first second : δ} {lba : Nat} (buf : List UInt8)
    (same : SameView array first second) (inside : lba < array.getBlockCount first) :
    SameView array (stateAfter (array.writeBlock lba buf first))
      (stateAfter (array.writeBlock lba buf second)) := by
  have keptFirst := array.write_shape first lba buf
  have keptSecond := array.write_shape second lba buf
  refine ⟨?_, (keptFirst.1.trans same.generation).trans keptSecond.1.symm,
    (keptFirst.2.1.trans same.size).trans keptSecond.2.1.symm,
    (keptFirst.2.2.trans same.count).trans keptSecond.2.2.symm⟩
  by_cases fits : buf.length = array.getBlockSize first
  · have fitsSecond : buf.length = array.getBlockSize second := fits.trans same.size
    have insideSecond : lba < array.getBlockCount second := same.count ▸ inside
    obtain ⟨afterFirst, wroteFirst, blocksFirst⟩ := array.write_array inside fits
    obtain ⟨afterSecond, wroteSecond, blocksSecond⟩ := array.write_array insideSecond fitsSecond
    rw [wroteFirst, wroteSecond]
    change array.block afterFirst = array.block afterSecond
    rw [blocksFirst, blocksSecond, same.block]
  · have misfits : buf.length ≠ array.getBlockSize second := same.size ▸ fits
    rw [array.write_refused fits, array.write_refused misfits, same.block]

structure PartOf (array : BlockArray δ) (disk : δ) (sub : SubBlockDevice δ) : Prop where
  device : sub.device = array.toBlockDevice
  ordered : sub.beginBlock ≤ sub.endBlock
  fits : sub.endBlock ≤ array.getBlockCount disk

theorem block_count_of_part {disk : δ} {sub : SubBlockDevice δ} (part : PartOf array disk sub) :
    sub.getBlockCount = sub.endBlock - sub.beginBlock :=
  sub64_of_le part.ordered

theorem access_keeps_shape {disk : δ} {sub : SubBlockDevice δ} (part : PartOf array disk sub)
    (access : Access) : array.getBlockSize (sub.access disk access) = array.getBlockSize disk ∧
      array.getBlockCount (sub.access disk access) = array.getBlockCount disk := by
  cases access with
  | read lba buf => exact ⟨rfl, rfl⟩
  | flush =>
      simp only [SubBlockDevice.access, SubBlockDevice.flush, part.device]
      exact (array.flush_shape disk).2
  | write lba buf =>
      simp only [SubBlockDevice.access, SubBlockDevice.writeBlock, part.device]
      split_ifs with outside stale
      · exact ⟨rfl, rfl⟩
      · exact ⟨rfl, rfl⟩
      · exact (array.write_shape disk lba buf).2

theorem access_keeps_part {disk : δ} {sub other : SubBlockDevice δ} (part : PartOf array disk sub)
    (otherPart : PartOf array disk other) (access : Access) :
    PartOf array (sub.access disk access) other := by
  have kept := (access_keeps_shape part access).2
  exact ⟨otherPart.device, otherPart.ordered, kept ▸ otherPart.fits⟩

theorem interleave_keeps_shape {subs : Side → SubBlockDevice δ} (accesses : List (Side × Access)) :
    ∀ {disk : δ}, (∀ which, PartOf array disk (subs which)) →
      (∀ which, PartOf array (interleave subs disk accesses) (subs which)) ∧
        array.getBlockSize (interleave subs disk accesses) = array.getBlockSize disk := by
  induction accesses with
  | nil =>
      intro disk parts
      exact ⟨parts, rfl⟩
  | cons head accesses ih =>
      intro disk parts
      obtain ⟨which, access⟩ := head
      obtain ⟨kept, size⟩ := ih fun other => access_keeps_part (parts which) (parts other) access
      exact ⟨kept, size.trans (access_keeps_shape (parts which) access).1⟩

theorem access_same_view {first second : δ} {sub : SubBlockDevice δ}
    (part : PartOf array first sub) (same : SameView array first second) (access : Access) :
    SameView array (sub.access first access) (sub.access second access) := by
  cases access with
  | read lba buf => exact same
  | flush =>
      simp only [SubBlockDevice.access, SubBlockDevice.flush, part.device]
      exact flush_same_view same
  | write lba buf =>
      simp only [SubBlockDevice.access, SubBlockDevice.writeBlock, part.device, same.generation]
      split_ifs with outside stale
      · exact same
      · exact same
      · have inside : lba < array.getBlockCount first := by
          have bound := part.fits
          rw [block_count_of_part part] at outside
          omega
        exact write_same_view buf same inside

theorem empty_access_same_view {disk : δ} {sub : SubBlockDevice δ} (part : PartOf array disk sub)
    (hollow : sub.beginBlock = sub.endBlock) (access : Access) :
    SameView array (sub.access disk access) disk := by
  cases access with
  | read lba buf => exact same_view_refl disk
  | flush =>
      have kept := array.flush_shape disk
      simp only [SubBlockDevice.access, SubBlockDevice.flush, part.device]
      exact ⟨array.flush_array disk, kept.1, kept.2.1, kept.2.2⟩
  | write lba buf =>
      have none : lba ≥ sub.getBlockCount := by
        rw [block_count_of_part part]
        omega
      simp only [SubBlockDevice.access, SubBlockDevice.writeBlock, if_pos none]
      exact same_view_refl disk

theorem read_same_view {first second : δ} {sub : SubBlockDevice δ} {lba : Nat} {buf : List UInt8}
    (part : PartOf array first sub) (same : SameView array first second)
    (inside : lba < sub.endBlock - sub.beginBlock) (fits : buf.length = array.getBlockSize first) :
    sub.readBlock first lba buf = sub.readBlock second lba buf := by
  have within : ¬lba ≥ sub.getBlockCount := by
    rw [block_count_of_part part]
    omega
  have onDisk : lba < array.getBlockCount first := by
    have bound := part.fits
    omega
  have onSecond : lba < array.getBlockCount second := same.count ▸ onDisk
  have fitsSecond : buf.length = array.getBlockSize second := fits.trans same.size
  rw [SubBlockDevice.readBlock, SubBlockDevice.readBlock, if_neg within, if_neg within,
    part.device, array.read_array onDisk fits, array.read_array onSecond fitsSecond, same.block,
    same.size]

/-- Dropping the accesses of empty partitions changes nothing that can be seen. -/
theorem interleave_same_view {subs : Side → SubBlockDevice δ} {side : Side}
    (hollow : ∀ other, other ≠ side → (subs other).beginBlock = (subs other).endBlock)
    (accesses : List (Side × Access)) :
    ∀ {first second : δ}, (∀ which, PartOf array first (subs which)) →
      SameView array first second →
      SameView array (interleave subs first accesses)
        (interleave subs second (accesses.filter fun access => access.1 = side)) := by
  induction accesses with
  | nil =>
      intro first second _ same
      exact same
  | cons head accesses ih =>
      intro first second parts same
      obtain ⟨which, access⟩ := head
      have partsAfter : ∀ other, PartOf array ((subs which).access first access) (subs other) :=
        fun other => access_keeps_part (parts which) (parts other) access
      by_cases own : which = side
      · rw [List.filter_cons_of_pos (by simpa using own)]
        exact ih partsAfter (access_same_view (parts which) same access)
      · have dropped := empty_access_same_view (parts which) (hollow which own) access
        rw [List.filter_cons_of_neg (by simpa using own)]
        exact ih partsAfter (same_view_trans dropped same)

theorem isolated_of_empty {beginBlock endBlock : Side → Nat}
    (ordered : ∀ side, beginBlock side ≤ endBlock side) {hollow : Side}
    (empty : beginBlock hollow = endBlock hollow) : Isolated beginBlock endBlock := by
  intro δ array disk fits side accesses lba buf inside size
  have parts : ∀ which, PartOf array disk
      (SubBlockDevice.new array.toBlockDevice disk (beginBlock which) (endBlock which)) :=
    fun which => ⟨rfl, ordered which, fits which⟩
  by_cases own : side = hollow
  · subst own
    have range : lba < endBlock side - beginBlock side := inside
    omega
  · have others : ∀ other, other ≠ side → beginBlock other = endBlock other := by
      intro other different
      have same : other = hollow := by
        cases other <;> cases side <;> cases hollow <;> simp_all
      rw [same, empty]
    have same := interleave_same_view others accesses parts (same_view_refl disk)
    obtain ⟨kept, sizeKept⟩ := interleave_keeps_shape accesses parts
    exact read_same_view (kept side) same inside (size.trans sizeKept.symm)

structure MemoryDisk where
  count : Nat
  block : Nat → List UInt8

namespace MemoryDisk

def writeBlock (lba : Nat) (buf : List UInt8) : EStateM VfsError MemoryDisk Nat := fun disk =>
  if buf.length ≠ 512 then
    .error .badBufferSize disk
  else if lba < disk.count then
    .ok 512 ⟨disk.count, Function.update disk.block lba buf⟩
  else
    .error .driverError disk

def blockArray : BlockArray MemoryDisk where
  getGeneration _ := 0
  getBlockSize _ := 512
  getBlockCount := count
  readBlock disk lba buf :=
    if buf.length ≠ 512 then .error .badBufferSize
    else if lba < disk.count then .ok (512, disk.block lba)
    else .error .driverError
  writeBlock := writeBlock
  flush := pure ()
  block := block
  read_array := by
    intro disk lba buf inside fits
    simp only [fits, ne_eq, not_true_eq_false, if_false, if_pos inside]
  write_array := by
    intro disk lba buf inside fits
    refine ⟨⟨disk.count, Function.update disk.block lba buf⟩, ?_, rfl⟩
    simp only [writeBlock, fits, ne_eq, not_true_eq_false, if_false, if_pos inside]
  write_refused := by
    intro disk lba buf misfits
    simp only [writeBlock, if_pos misfits, stateAfter]
  flush_array _ := rfl
  write_shape := by
    intro disk lba buf
    refine ⟨rfl, rfl, ?_⟩
    unfold writeBlock
    split_ifs <;> rfl
  flush_shape _ := ⟨rfl, rfl, rfl⟩

def filled (byte : UInt8) : List UInt8 := List.replicate 512 byte

theorem filled_length (byte : UInt8) : (filled byte).length = 512 := List.length_replicate

theorem filled_injective {left right : UInt8} (same : filled left = filled right) :
    left = right := by
  have heads := congrArg List.head? same
  rw [filled, filled, List.head?_replicate, List.head?_replicate] at heads
  exact Option.some.inj heads

def marked (count : Nat) : MemoryDisk := ⟨count, fun lba => if lba = 0 then filled 1 else filled 0⟩

end MemoryDisk

open MemoryDisk

theorem window_law_of_start {beginBlock endBlock : Nat} (ordered : beginBlock ≤ endBlock)
    (start : beginBlock = 0 ∨ beginBlock = endBlock) : WindowLaw beginBlock endBlock := by
  intro δ array disk fits
  have part : PartOf array disk
      (SubBlockDevice.new array.toBlockDevice disk beginBlock endBlock) := ⟨rfl, ordered, fits⟩
  have place : ∀ lba < endBlock - beginBlock, beginBlock + lba = lba ∧
      lba < array.getBlockCount disk ∧
      ¬lba ≥ (SubBlockDevice.new array.toBlockDevice disk beginBlock endBlock).getBlockCount := by
    intro lba inside
    rw [block_count_of_part part]
    change _ ∧ _ ∧ ¬lba ≥ endBlock - beginBlock
    omega
  constructor
  · intro lba inside buf size
    obtain ⟨same, onDisk, within⟩ := place lba inside
    rw [SubBlockDevice.readBlock, if_neg within]
    change array.readBlock disk lba buf = .ok (_, array.block disk (beginBlock + lba))
    rw [same, array.read_array onDisk size]
  · intro lba inside buf size
    obtain ⟨same, onDisk, within⟩ := place lba inside
    obtain ⟨after, wrote, blocks⟩ := array.write_array onDisk size
    refine ⟨after, ?_, ?_⟩
    · rw [SubBlockDevice.writeBlock, if_neg within, if_neg (by exact not_not.mpr rfl)]
      exact wrote
    · change array.block after = Function.update (array.block disk) (beginBlock + lba) buf
      rw [same, blocks]

theorem first_block_read {disk : MemoryDisk} {beginBlock endBlock : Nat}
    (inside : beginBlock < endBlock) (fits : endBlock ≤ disk.count) (origin : MemoryDisk) :
    (SubBlockDevice.new blockArray.toBlockDevice origin beginBlock endBlock).readBlock disk 0
      (filled 0) = .ok (512, disk.block 0) := by
  have within : ¬0 ≥ (SubBlockDevice.new blockArray.toBlockDevice origin
      beginBlock endBlock).getBlockCount := by
    change ¬0 ≥ sub64 endBlock beginBlock
    rw [sub64_of_le inside.le]
    omega
  have onDisk : 0 < disk.count := by omega
  rw [SubBlockDevice.readBlock, if_neg within]
  exact blockArray.read_array onDisk (filled_length 0)

theorem start_of_window_law {beginBlock endBlock : Nat} (ordered : beginBlock ≤ endBlock)
    (law : WindowLaw beginBlock endBlock) : beginBlock = 0 ∨ beginBlock = endBlock := by
  by_contra neither
  have inside : beginBlock < endBlock := by omega
  have window := law blockArray (marked endBlock) (Nat.le_refl endBlock)
  have expected := window.reads 0 (by change 0 < endBlock - beginBlock; omega) (filled 0)
    (filled_length 0)
  rw [first_block_read inside (Nat.le_refl endBlock)] at expected
  have equal : (marked endBlock).block 0 = (marked endBlock).block beginBlock :=
    (Prod.mk.inj (Except.ok.inj expected)).2
  have later : beginBlock ≠ 0 := fun zero => neither (Or.inl zero)
  simp only [marked, if_true, if_neg later] at equal
  exact absurd (filled_injective equal) (by decide)

theorem first_block_written {disk : MemoryDisk} {beginBlock endBlock : Nat} (byte : UInt8)
    (inside : beginBlock < endBlock) (fits : endBlock ≤ disk.count) (origin : MemoryDisk) :
    (SubBlockDevice.new blockArray.toBlockDevice origin beginBlock endBlock).access disk
      (.write 0 (filled byte)) = ⟨disk.count, Function.update disk.block 0 (filled byte)⟩ := by
  have within : ¬0 ≥ (SubBlockDevice.new blockArray.toBlockDevice origin
      beginBlock endBlock).getBlockCount := by
    change ¬0 ≥ sub64 endBlock beginBlock
    rw [sub64_of_le inside.le]
    omega
  have onDisk : 0 < disk.count := by omega
  have fitting : ¬(filled byte).length ≠ 512 := by rw [filled_length]; decide
  have device : (SubBlockDevice.new blockArray.toBlockDevice origin beginBlock endBlock).device =
      blockArray.toBlockDevice := rfl
  have writer : blockArray.writeBlock = MemoryDisk.writeBlock := rfl
  have wrote : MemoryDisk.writeBlock 0 (filled byte) disk =
      .ok 512 ⟨disk.count, Function.update disk.block 0 (filled byte)⟩ := by
    rw [MemoryDisk.writeBlock, if_neg fitting, if_pos onDisk]
  rw [SubBlockDevice.access, SubBlockDevice.writeBlock, if_neg within,
    if_neg (by exact not_not.mpr rfl), device, writer, wrote, stateAfter]

/-- Two partitions that hold a block each share the first block of the disk. -/
theorem empty_of_isolated {beginBlock endBlock : Side → Nat}
    (ordered : ∀ side, beginBlock side ≤ endBlock side) (isolated : Isolated beginBlock endBlock) :
    beginBlock .left = endBlock .left ∨ beginBlock .right = endBlock .right := by
  by_contra neither
  have insideLeft : beginBlock .left < endBlock .left := by
    have bound := ordered .left
    omega
  have insideRight : beginBlock .right < endBlock .right := by
    have bound := ordered .right
    omega
  have size : ∀ side, endBlock side ≤ max (endBlock .left) (endBlock .right) := by
    intro side
    cases side <;> simp
  have same := isolated blockArray (marked (max (endBlock .left) (endBlock .right))) size .right
    [(.left, .write 0 (filled 2))] 0 (filled 0)
    (by change 0 < endBlock .right - beginBlock .right; omega) (filled_length 0)
  rw [List.filter_cons_of_neg (by decide), List.filter_nil, interleave, interleave, interleave,
    first_block_written 2 insideLeft (size .left), first_block_read insideRight (size .right),
    first_block_read insideRight (size .right)] at same
  have equal : filled 2 = filled 1 := by
    simpa [marked] using (Prod.mk.inj (Except.ok.inj same)).2
  exact absurd (filled_injective equal) (by decide)

/-- A partition is a window, and two partitions are isolated, exactly in these cases. -/
theorem partitions_are_windows_iff (beginBlock endBlock : Side → Nat)
    (ordered : ∀ side, beginBlock side ≤ endBlock side) :
    (∀ side, WindowLaw (beginBlock side) (endBlock side) ↔
      beginBlock side = 0 ∨ beginBlock side = endBlock side) ∧
    (Isolated beginBlock endBlock ↔
      beginBlock .left = endBlock .left ∨ beginBlock .right = endBlock .right) := by
  refine ⟨fun side => ⟨start_of_window_law (ordered side), window_law_of_start (ordered side)⟩,
    empty_of_isolated ordered, ?_⟩
  rintro (empty | empty)
  · exact isolated_of_empty ordered empty
  · exact isolated_of_empty ordered empty

theorem halves_of_a_disk_windows :
    let beginBlock : Side → Nat := fun side => match side with | .left => 0 | .right => 4
    let endBlock : Side → Nat := fun side => match side with | .left => 4 | .right => 8
    (∀ side, WindowLaw (beginBlock side) (endBlock side) ↔
      beginBlock side = 0 ∨ beginBlock side = endBlock side) ∧
    (Isolated beginBlock endBlock ↔
      beginBlock .left = endBlock .left ∨ beginBlock .right = endBlock .right) :=
  partitions_are_windows_iff _ _ fun side => by cases side <;> decide

/-- The partition of blocks 4 to 7 reads block 0 of the disk as its block 0. -/
theorem later_partition_not_window :
    ¬IsWindow blockArray (marked 8)
      (SubBlockDevice.new blockArray.toBlockDevice (marked 8) 4 8) := by
  intro window
  have expected := window.reads 0 (by decide) (filled 0) (filled_length 0)
  rw [first_block_read (by decide) (Nat.le_refl 8)] at expected
  have equal : filled 1 = filled 0 := (Prod.mk.inj (Except.ok.inj expected)).2
  exact absurd (filled_injective equal) (by decide)

end Campix.Drivers
