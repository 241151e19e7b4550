import Campix.Ext2.Mount

/-!
# The geometry of a mounted volume

A mount checks that the fields of the superblock fit together, not that each lies in the
range that the rest of the driver takes for granted. The shift by `log_block_size`
comes before every check, inodes may be smaller than the 128 bytes that are accessed,
and the square of the number of pointers in a block need not fit a word. Here are the
devices that mount without a fault and have a usable geometry, in terms of the fields.
-/

namespace Campix.Ext2

open Lib.Slice Lib.Word Lib.Checked Lib.Fallible Drivers

set_option autoImplicit false

namespace SuperblockFields

def blockSize (superblock : SuperblockFields) : Nat :=
  (1024 <<< superblock.logBlockSize) % 2 ^ 32

def groups (superblock : SuperblockFields) : Nat :=
  divCeil superblock.blocksCount superblock.blocksPerGroup

/-- What the mount checks behind the signature. -/
structure Coherent (superblock : SuperblockFields) (size : Nat) : Prop where
  size : size = superblock.blockSize * superblock.blocksCount
  features : superblock.requiredFeatures &&& supportedRequiredFeatures = superblock.requiredFeatures
  blocksPerGroup : superblock.blocksPerGroup ≠ 0
  inodesPerGroup : superblock.inodesPerGroup ≠ 0
  groups : superblock.groups = divCeil superblock.inodesCount superblock.inodesPerGroup
  inodeSize : superblock.inodeSize ≠ 0
  inodeFits : superblock.inodeSize ≤ superblock.blockSize

def inodeSlots (superblock : SuperblockFields) : Nat :=
  min (superblock.blockSize / superblock.inodeSize)
    (min superblock.inodesPerGroup superblock.inodesCount)

def InodesFit (superblock : SuperblockFields) : Prop :=
  superblock.inodeSlots ≠ 0 →
    (superblock.inodeSlots - 1) * superblock.inodeSize + 128 ≤ superblock.blockSize

end SuperblockFields

open SuperblockFields

namespace MountedVolume

variable {device : DeviceFile} {superblock : SuperblockFields} {size : Nat}
variable {blockCacheSize blockBitmaps inodeBitmaps : PNat}

structure Presents (device : DeviceFile) (superblock : SuperblockFields) (size : Nat) : Prop where
  mode : ¬(device.openMode &&& openModeRead = 0 ∨
    device.openMode &&& openModeAppend = openModeAppend)
  stats : device.stats = .ok size
  signature : superblock.signature = signatureValue
  read : SuperblockFields.fromDevice device = .ok superblock

def mounted (device : DeviceFile) (superblock : SuperblockFields)
    (blockCacheSize blockBitmaps inodeBitmaps : PNat) : MountedVolume where
  readOnly := device.openMode &&& openModeWrite = 0 ∨
    superblock.readonlyOrSupportFeatures &&& supportedRoFeatures ≠
      superblock.readonlyOrSupportFeatures
  superblock := superblock
  blockSize := superblock.blockSize
  sectorsPerBlock := superblock.blockSize / 512
  blockCount := superblock.blocksCount
  blockGroupCount := superblock.groups
  blocksPerGroup := superblock.blocksPerGroup
  blockGroupDescriptorTable := []
  inodeSize := superblock.inodeSize
  inodesPerBlock := superblock.blockSize / superblock.inodeSize
  blockCacheCapacity := divCeil blockCacheSize superblock.blockSize
  blockBitmapCacheCapacity := divCeil blockBitmaps
    (divCeil (superblock.blocksPerGroup * (superblock.blockSize * 8)) 8)
  inodeBitmapCacheCapacity := divCeil inodeBitmaps
    (divCeil (superblock.blocksPerGroup * (superblock.blockSize * 8)) 8)

theorem from_device_shift (presents : Presents device superblock size)
    (long : 32 ≤ superblock.logBlockSize) :
    fromDevice device blockCacheSize blockBitmaps inodeBitmaps =
      .error (.fault .overlongShift) := by
  unfold fromDevice
  rw [if_neg presents.mode, presents.stats, presents.read]
  simp only [ok_bind]
  rw [if_neg (not_not.mpr presents.signature), shl_of_ge long, error_bind]

theorem shift_eq (short : superblock.logBlockSize < 32) :
    (shl 32 1024 superblock.logBlockSize : Machine MountError Nat) = .ok superblock.blockSize :=
  shl_of_lt short

theorem quot_ceil_eq {left right : Nat} (positive : right ≠ 0) :
    (quotCeil left right : Machine MountError Nat) = .ok (divCeil left right) :=
  quot_ceil_of_ne positive

theorem block_size_lt (superblock : SuperblockFields) : superblock.blockSize < 2 ^ 32 :=
  Nat.mod_lt _ (by decide)

theorem count_block_groups_eq (blocks : superblock.blocksPerGroup ≠ 0)
    (inodes : superblock.inodesPerGroup ≠ 0)
    (same : superblock.groups = divCeil superblock.inodesCount superblock.inodesPerGroup) :
    superblock.countBlockGroups = .ok superblock.groups := by
  have nonzero : ¬(superblock.blocksPerGroup = 0 ∨ superblock.inodesPerGroup = 0) := by
    intro zero
    rcases zero with zero | zero
    · exact blocks zero
    · exact inodes zero
  unfold countBlockGroups
  rw [if_neg nonzero, quot_ceil_eq blocks, ok_bind, quot_ceil_eq inodes, ok_bind, ← same,
    SuperblockFields.groups, if_neg (not_not.mpr rfl)]
  rfl

theorem count_block_groups_refused
    (incoherent : superblock.blocksPerGroup ≠ 0 → superblock.inodesPerGroup ≠ 0 →
      superblock.groups ≠ divCeil superblock.inodesCount superblock.inodesPerGroup) :
    ∃ error, superblock.countBlockGroups = refuse error := by
  unfold countBlockGroups
  by_cases zero : superblock.blocksPerGroup = 0 ∨ superblock.inodesPerGroup = 0
  · rw [if_pos zero]
    exact ⟨_, rfl⟩
  · have blocks : superblock.blocksPerGroup ≠ 0 := fun none => zero (.inl none)
    have inodes : superblock.inodesPerGroup ≠ 0 := fun none => zero (.inr none)
    have differ := incoherent blocks inodes
    rw [SuperblockFields.groups] at differ
    rw [if_neg zero, quot_ceil_eq blocks, ok_bind, quot_ceil_eq inodes, ok_bind, if_pos differ]
    exact ⟨_, rfl⟩

theorem expected_lt (bound : superblock.blocksCount < 2 ^ 32) :
    superblock.blockSize * superblock.blocksCount < 2 ^ 64 := by
  have size := block_size_lt superblock
  calc superblock.blockSize * superblock.blocksCount
      ≤ 2 ^ 32 * superblock.blocksCount := Nat.mul_le_mul_right _ size.le
    _ < 2 ^ 64 := by omega

theorem from_device_refused (presents : Presents device superblock size)
    (bound : superblock.blocksCount < 2 ^ 32) (short : superblock.logBlockSize < 32)
    (incoherent : ¬superblock.Coherent size) :
    ∃ error, fromDevice device blockCacheSize blockBitmaps inodeBitmaps = refuse error := by
  unfold fromDevice
  rw [if_neg presents.mode, presents.stats, presents.read]
  simp only [ok_bind]
  rw [if_neg (not_not.mpr presents.signature), shift_eq short, ok_bind, quot_of_ne (by decide),
    ok_bind, mul_of_lt (expected_lt bound), ok_bind]
  by_cases sized : size ≠ superblock.blockSize * superblock.blocksCount
  · rw [if_pos sized]
    exact ⟨_, rfl⟩
  rw [if_neg sized]
  by_cases featured : superblock.requiredFeatures &&& supportedRequiredFeatures ≠
      superblock.requiredFeatures
  · rw [if_pos featured]
    exact ⟨_, rfl⟩
  rw [if_neg featured]
  by_cases counted : superblock.blocksPerGroup ≠ 0 ∧ superblock.inodesPerGroup ≠ 0 ∧
      superblock.groups = divCeil superblock.inodesCount superblock.inodesPerGroup
  · have groups : superblock.countBlockGroups = .ok superblock.groups :=
      count_block_groups_eq counted.1 counted.2.1 counted.2.2
    rw [groups, ok_bind]
    by_cases empty : superblock.inodeSize = 0
    · rw [if_pos empty]
      exact ⟨_, rfl⟩
    rw [if_neg empty, quot_of_ne empty, ok_bind]
    by_cases none : superblock.blockSize / superblock.inodeSize = 0
    · rw [if_pos none]
      exact ⟨_, rfl⟩
    -- every check is passed
    have fits : superblock.inodeSize ≤ superblock.blockSize := by
      by_contra larger
      exact none (Nat.div_eq_of_lt (by omega))
    exact absurd ⟨not_not.mp sized, not_not.mp featured, counted.1, counted.2.1, counted.2.2,
      empty, fits⟩
      incoherent
  · obtain ⟨error, refused⟩ := @count_block_groups_refused superblock fun blocks inodes same =>
      counted ⟨blocks, inodes, same⟩
    rw [refused]
    exact ⟨error, rfl⟩

theorem div_ceil_pos {left right : Nat} (left_pos : 0 < left) (right_pos : 0 < right) :
    divCeil left right ≠ 0 := by
  have positive : 0 < divCeil left right := Nat.div_pos (by omega) right_pos
  omega

theorem block_size_pos (coherent : superblock.Coherent size) : 0 < superblock.blockSize := by
  have fits := coherent.inodeFits
  have positive := coherent.inodeSize
  omega

theorem from_device_coherent (presents : Presents device superblock size)
    (bound : superblock.blocksCount < 2 ^ 32) (short : superblock.logBlockSize < 32)
    (coherent : superblock.Coherent size) :
    fromDevice device blockCacheSize blockBitmaps inodeBitmaps =
      if superblock.blocksPerGroup * (superblock.blockSize * 8) < 2 ^ 64 then
        readBlockGroupDescriptorTable device
          (mounted device superblock blockCacheSize blockBitmaps inodeBitmaps)
      else
        .error (.fault .overflow) := by
  have blockSize := block_size_pos coherent
  have small := block_size_lt superblock
  have inodes : superblock.blockSize / superblock.inodeSize ≠ 0 := by
    have positive := coherent.inodeSize
    have one : 0 < superblock.blockSize / superblock.inodeSize :=
      Nat.div_pos coherent.inodeFits (by omega)
    omega
  have capacity : divCeil blockCacheSize superblock.blockSize ≠ 0 :=
    div_ceil_pos blockCacheSize.pos blockSize
  unfold fromDevice
  rw [if_neg presents.mode, presents.stats, presents.read]
  simp only [ok_bind]
  rw [if_neg (not_not.mpr presents.signature), shift_eq short, ok_bind, quot_of_ne (by decide),
    ok_bind, mul_of_lt (expected_lt bound), ok_bind, if_neg (not_not.mpr coherent.size),
    if_neg (not_not.mpr coherent.features),
    count_block_groups_eq coherent.blocksPerGroup coherent.inodesPerGroup coherent.groups, ok_bind,
    if_neg coherent.inodeSize, quot_of_ne coherent.inodeSize, ok_bind, if_neg inodes,
    if_neg coherent.blocksPerGroup, quot_ceil_eq (by omega), ok_bind, non_zero_of_ne capacity,
      ok_bind]
  have bits : (mul 64 superblock.blockSize 8 : Machine MountError Nat) =
      .ok (superblock.blockSize * 8) := mul_of_lt (by omega)
  by_cases fits : superblock.blocksPerGroup * (superblock.blockSize * 8) < 2 ^ 64
  · have positive : 0 < superblock.blocksPerGroup * (superblock.blockSize * 8) :=
      Nat.mul_pos (Nat.pos_of_ne_zero coherent.blocksPerGroup) (by omega)
    have bitmap : divCeil (superblock.blocksPerGroup * (superblock.blockSize * 8)) 8 ≠ 0 :=
      div_ceil_pos positive (by decide)
    have group : groupBitmapSize superblock.blocksPerGroup superblock.blockSize =
        .ok (divCeil (superblock.blocksPerGroup * (superblock.blockSize * 8)) 8) := by
      rw [groupBitmapSize, bits, ok_bind, mul_of_lt fits, ok_bind, quot_ceil_eq (by decide)]
    have blocks := div_ceil_pos blockBitmaps.pos (Nat.pos_of_ne_zero bitmap)
    have inodes := div_ceil_pos inodeBitmaps.pos (Nat.pos_of_ne_zero bitmap)
    rw [if_pos fits, group]
    simp only [ok_bind]
    rw [quot_ceil_eq bitmap, ok_bind, non_zero_of_ne blocks, ok_bind, quot_ceil_eq bitmap, ok_bind,
      non_zero_of_ne inodes, ok_bind]
    rfl
  · have group : groupBitmapSize superblock.blocksPerGroup superblock.blockSize =
        .error (.fault .overflow) := by
      rw [groupBitmapSize, bits, ok_bind, mul_of_ge (by omega), error_bind]
    rw [if_neg fits, group, error_bind]

theorem push_descriptors_length {table : List UInt8} (left : Nat) :
    ∀ {i : Nat} {entries : List BlockGroupDescriptor}, table.length = (i + left) * 32 →
      (i + left) * 32 < 2 ^ 32 →
      ∃ all, pushDescriptors table left i entries = .ok all ∧
        all.length = entries.length + left := by
  induction left with
  | zero =>
      intro i entries _ _
      exact ⟨entries, rfl, rfl⟩
  | succ left ih =>
      intro i entries length bound
      have slice : getSlice table (i * 32) ((i + 1) * 32) =
          some ((table.drop (i * 32)).take ((i + 1) * 32 - i * 32)) :=
        get_slice_eq (by omega) (by omega)
      have decoded : BlockGroupDescriptor.fromBytes
          ((table.drop (i * 32)).take ((i + 1) * 32 - i * 32)) =
          some (.ofRaw ((table.drop (i * 32)).take ((i + 1) * 32 - i * 32))) := by
        rw [BlockGroupDescriptor.fromBytes, if_neg]
        rw [List.length_take, List.length_drop, blockGroupDescriptorSize]
        omega
      obtain ⟨all, pushed, counted⟩ := @ih (i + 1)
        (entries ++ [.ofRaw ((table.drop (i * 32)).take ((i + 1) * 32 - i * 32))])
        (by omega) (by omega)
      refine ⟨all, ?_, ?_⟩
      · rw [pushDescriptors, blockGroupDescriptorSize, mul_of_lt (by omega), ok_bind,
          mul_of_lt (by omega), ok_bind, slice]
        dsimp only
        rw [decoded]
        exact pushed
      · rw [counted, List.length_append, List.length_singleton]
        omega

def tableStart (superblock : SuperblockFields) : Nat :=
  if superblock.blockSize = 1024 then 2048 else superblock.blockSize

def TableReadable (device : DeviceFile) (superblock : SuperblockFields) : Prop :=
  ∃ data, device.read (tableStart superblock) (superblock.groups * 32) = .ok data

theorem read_table_overflows (self : MountedVolume) (many : 2 ^ 32 ≤ self.blockGroupCount * 32) :
    readBlockGroupDescriptorTable device self = .error (.fault .overflow) := by
  rw [readBlockGroupDescriptorTable, blockGroupDescriptorSize, mul_of_ge many]
  rfl

theorem read_table_eq (few : superblock.groups * 32 < 2 ^ 32) :
    readBlockGroupDescriptorTable device
        (mounted device superblock blockCacheSize blockBitmaps inodeBitmaps) =
      (do
        let table ← device.readInto (tableStart superblock) (superblock.groups * 32)
        let entries ← pushDescriptors table superblock.groups 0 []
        return { mounted device superblock blockCacheSize blockBitmaps inodeBitmaps with
          blockGroupDescriptorTable := entries }) := by
  change mul 32 superblock.groups 32 >>= _ = _
  rw [mul_of_lt few]
  rfl

theorem read_table_refused {error : VfsError} (few : superblock.groups * 32 < 2 ^ 32)
    (failed : device.read (tableStart superblock) (superblock.groups * 32) = .error error) :
    readBlockGroupDescriptorTable device
        (mounted device superblock blockCacheSize blockBitmaps inodeBitmaps) =
      refuse (.vfs error) := by
  have read : device.readInto (tableStart superblock) (superblock.groups * 32) =
      refuse (.vfs error) := by
    rw [DeviceFile.readInto, failed]
  rw [read_table_eq few, read]
  rfl

theorem read_table_mounts (few : superblock.groups * 32 < 2 ^ 32)
    (readable : TableReadable device superblock) :
    ∃ table, table.length = superblock.groups ∧ readBlockGroupDescriptorTable device
        (mounted device superblock blockCacheSize blockBitmaps inodeBitmaps) =
      .ok { mounted device superblock blockCacheSize blockBitmaps inodeBitmaps with
        blockGroupDescriptorTable := table } := by
  obtain ⟨data, returned⟩ := readable
  have read : device.readInto (tableStart superblock) (superblock.groups * 32) =
      .ok (data.take (superblock.groups * 32) ++
        List.replicate (superblock.groups * 32 - data.length) 0) := by
    rw [DeviceFile.readInto, returned]
  have length : (data.take (superblock.groups * 32) ++
      List.replicate (superblock.groups * 32 - data.length) 0).length =
      (0 + superblock.groups) * 32 := by
    rw [List.length_append, List.length_take, List.length_replicate]
    omega
  obtain ⟨table, pushed, counted⟩ :=
    @push_descriptors_length _ superblock.groups 0 [] length (by omega)
  refine ⟨table, by simpa using counted, ?_⟩
  rw [read_table_eq few, read, ok_bind, pushed]
  rfl

/-- The inode that `get_inode` accesses lies in the buffer of one block, and the location
of every block of a file can be computed. -/
structure Usable (volume : MountedVolume) : Prop where
  inodes : ∀ inode, volume.acceptsInode inode → ∃ lba offset,
    volume.inodePlace inode = some (lba, offset) ∧ offset + 128 ≤ volume.blockSize
  locations : ∀ blockIdx < 2 ^ 32, ∃ location,
    InodeReadingLocation.newChecked (volume.blockSize / 4) blockIdx = .ok location

theorem accepts_inode_iff (volume : MountedVolume) (inode : Nat) :
    volume.acceptsInode inode ↔ 0 < inode ∧ inode ≤ volume.superblock.inodesCount := by
  rw [acceptsInode, decide_eq_true_iff]
  omega

theorem inode_group_lt {inode count perGroup : Nat} (positive : 0 < inode) (inside : inode ≤ count)
    (groups : perGroup ≠ 0) : (inode - 1) / perGroup < divCeil count perGroup := by
  have shift : count + perGroup - 1 = count - 1 + perGroup := by omega
  have ordered : (inode - 1) / perGroup ≤ (count - 1) / perGroup :=
    Nat.div_le_div_right (by omega)
  rw [divCeil, shift, Nat.add_div_right _ (by omega)]
  omega

structure MountOf (volume : MountedVolume) (superblock : SuperblockFields) : Prop where
  fields : volume.superblock = superblock
  blockSize : volume.blockSize = superblock.blockSize
  inodeSize : volume.inodeSize = superblock.inodeSize
  inodesPerBlock : volume.inodesPerBlock = superblock.blockSize / superblock.inodeSize
  table : volume.blockGroupDescriptorTable.length = superblock.groups

theorem inode_place_eq {volume : MountedVolume} (coherent : superblock.Coherent size)
    (mounted : volume.MountOf superblock) {inode : Nat} (accepted : volume.acceptsInode inode) :
    ∃ lba, volume.inodePlace inode = some (lba, (inode - 1) % superblock.inodesPerGroup %
      (superblock.blockSize / superblock.inodeSize) * superblock.inodeSize) := by
  rw [accepts_inode_iff, mounted.fields] at accepted
  have inside : (inode - 1) / superblock.inodesPerGroup <
      volume.blockGroupDescriptorTable.length := by
    rw [mounted.table, coherent.groups]
    exact inode_group_lt accepted.1 accepted.2 coherent.inodesPerGroup
  unfold inodePlace
  rw [mounted.fields, mounted.inodesPerBlock, mounted.inodeSize]
  dsimp only
  rw [List.getElem?_eq_getElem inside]
  exact ⟨_, rfl⟩

theorem inodes_usable_iff {volume : MountedVolume} (coherent : superblock.Coherent size)
    (mounted : volume.MountOf superblock) :
    (∀ inode, volume.acceptsInode inode → ∃ lba offset,
        volume.inodePlace inode = some (lba, offset) ∧ offset + 128 ≤ volume.blockSize) ↔
      superblock.InodesFit := by
  have perGroup := coherent.inodesPerGroup
  have perBlock : 0 < superblock.blockSize / superblock.inodeSize := by
    have positive := coherent.inodeSize
    exact Nat.div_pos coherent.inodeFits (by omega)
  constructor
  · intro usable slots
    -- the inode in the last slot that is used
    have accepted : volume.acceptsInode superblock.inodeSlots := by
      rw [accepts_inode_iff, mounted.fields]
      unfold inodeSlots at slots ⊢
      omega
    have remainder : (superblock.inodeSlots - 1) % superblock.inodesPerGroup %
        (superblock.blockSize / superblock.inodeSize) = superblock.inodeSlots - 1 := by
      have first : superblock.inodeSlots - 1 < superblock.inodesPerGroup := by
        unfold inodeSlots at slots ⊢
        omega
      have second : superblock.inodeSlots - 1 < superblock.blockSize / superblock.inodeSize := by
        unfold inodeSlots at slots ⊢
        omega
      rw [Nat.mod_eq_of_lt first, Nat.mod_eq_of_lt second]
    obtain ⟨lba, offset, found, fits⟩ := usable _ accepted
    obtain ⟨other, place⟩ := inode_place_eq coherent mounted accepted
    rw [found, remainder] at place
    cases place
    rw [mounted.blockSize] at fits
    exact fits
  · intro fits inode accepted
    obtain ⟨lba, place⟩ := inode_place_eq coherent mounted accepted
    rw [accepts_inode_iff, mounted.fields] at accepted
    have slot : (inode - 1) % superblock.inodesPerGroup %
        (superblock.blockSize / superblock.inodeSize) < superblock.inodeSlots := by
      have first : (inode - 1) % superblock.inodesPerGroup < superblock.inodesPerGroup :=
        Nat.mod_lt _ (by omega)
      have least : (inode - 1) % superblock.inodesPerGroup ≤ inode - 1 := Nat.mod_le _ _
      have second := Nat.mod_lt ((inode - 1) % superblock.inodesPerGroup) perBlock
      have less := Nat.mod_le ((inode - 1) % superblock.inodesPerGroup)
        (superblock.blockSize / superblock.inodeSize)
      unfold inodeSlots
      omega
    have last := fits (by omega)
    have bounded : (inode - 1) % superblock.inodesPerGroup %
        (superblock.blockSize / superblock.inodeSize) * superblock.inodeSize ≤
        (superblock.inodeSlots - 1) * superblock.inodeSize :=
      Nat.mul_le_mul_right _ (by omega)
    refine ⟨lba, _, place, ?_⟩
    rw [mounted.blockSize]
    omega

theorem new_checked_ok {tableSize blockIdx : Nat} (positive : tableSize ≠ 0)
    (square : tableSize * tableSize < 2 ^ 32) :
    ∃ location, InodeReadingLocation.newChecked tableSize blockIdx = .ok location ∧
      InodeReadingLocation.new tableSize blockIdx = some location := by
  have squared : tableSize * tableSize ≠ 0 := Nat.mul_ne_zero positive positive
  have wrapped : mul32 tableSize tableSize = tableSize * tableSize := Nat.mod_eq_of_lt square
  unfold InodeReadingLocation.newChecked InodeReadingLocation.new
  rw [mul_of_lt square, ok_bind, wrapped]
  dsimp only
  split_ifs with direct single double zero
  · exact ⟨_, rfl, rfl⟩
  · exact ⟨_, rfl, rfl⟩
  · rw [quot_of_ne positive, ok_bind, remainder, if_neg positive, ok_bind]
    exact ⟨_, rfl, rfl⟩
  · omega
  · rw [quot_of_ne squared, ok_bind, remainder, if_neg squared, ok_bind, quot_of_ne positive,
      ok_bind,
      remainder, if_neg positive, ok_bind]
    exact ⟨_, rfl, rfl⟩

theorem new_checked_iff {tableSize : Nat} (positive : tableSize ≠ 0) :
    (∀ blockIdx < 2 ^ 32, ∃ location,
        InodeReadingLocation.newChecked tableSize blockIdx = .ok location) ↔
      tableSize * tableSize < 2 ^ 32 := by
  constructor
  · intro locates
    by_contra large
    obtain ⟨location, located⟩ := locates 0 (by decide)
    rw [InodeReadingLocation.newChecked, mul_of_ge (by omega)] at located
    cases located
  · intro square blockIdx _
    obtain ⟨location, located, _⟩ := @new_checked_ok _ blockIdx positive square
    exact ⟨location, located⟩

/-- The pointers of a block, for each shift that leaves a block. -/
theorem table_square_iff : ∀ log < 32, (1024 <<< log) % 2 ^ 32 ≠ 0 →
    ((1024 <<< log) % 2 ^ 32 / 4 ≠ 0 ∧
      ((1024 <<< log) % 2 ^ 32 / 4 * ((1024 <<< log) % 2 ^ 32 / 4) < 2 ^ 32 ↔ log < 8)) := by
  decide

theorem usable_iff {volume : MountedVolume} (short : superblock.logBlockSize < 32)
    (coherent : superblock.Coherent size) (mounted : volume.MountOf superblock) :
    volume.Usable ↔ superblock.logBlockSize < 8 ∧ superblock.InodesFit := by
  have blockSize := block_size_pos coherent
  obtain ⟨positive, square⟩ := table_square_iff superblock.logBlockSize short
    (Nat.ne_of_gt blockSize)
  have locations : (∀ blockIdx < 2 ^ 32, ∃ location,
      InodeReadingLocation.newChecked (volume.blockSize / 4) blockIdx = .ok location) ↔
      superblock.logBlockSize < 8 := by
    rw [mounted.blockSize, ← square]
    exact new_checked_iff positive
  constructor
  · intro usable
    exact ⟨locations.mp usable.locations, (inodes_usable_iff coherent mounted).mp usable.inodes⟩
  · intro bounds
    exact ⟨(inodes_usable_iff coherent mounted).mpr bounds.2, locations.mpr bounds.1⟩

theorem mount_of_mounted {table : List BlockGroupDescriptor}
    (counted : table.length = superblock.groups) :
    MountOf { mounted device superblock blockCacheSize blockBitmaps inodeBitmaps with
      blockGroupDescriptorTable := table } superblock :=
  ⟨rfl, rfl, rfl, rfl, counted⟩

theorem blocks_count_lt (read : SuperblockFields.fromDevice device = .ok superblock) :
    superblock.blocksCount < 2 ^ 32 := by
  unfold SuperblockFields.fromDevice at read
  obtain ⟨data, _, returned⟩ := bind_eq_ok.mp read
  cases returned
  exact read_le_lt data 4 4

theorem from_device_absent (absent : ∀ superblock size, ¬Presents device superblock size) :
    ∃ error, fromDevice device blockCacheSize blockBitmaps inodeBitmaps = refuse error := by
  unfold fromDevice
  by_cases mode : device.openMode &&& openModeRead = 0 ∨
      device.openMode &&& openModeAppend = openModeAppend
  · rw [if_pos mode]
    exact ⟨_, rfl⟩
  rw [if_neg mode]
  cases stats : device.stats with
  | error error => exact ⟨.vfs error, rfl⟩
  | ok size =>
      simp only [ok_bind]
      have refused : ∀ error, device.read 1024 1024 = .error error →
          SuperblockFields.fromDevice device = refuse (.vfs error) := by
        intro error failed
        rw [SuperblockFields.fromDevice, DeviceFile.readInto, failed]
        rfl
      have read : ∀ data, device.read 1024 1024 = .ok data → SuperblockFields.fromDevice device =
          .ok (ofBytes (data.take 1024 ++ List.replicate (1024 - data.length) 0)) := by
        intro data returned
        rw [SuperblockFields.fromDevice, DeviceFile.readInto, returned]
        rfl
      cases outcome : device.read 1024 1024 with
      | error error =>
          rw [refused error outcome]
          exact ⟨.vfs error, rfl⟩
      | ok data =>
          have found := read data outcome
          rw [found, ok_bind, if_pos]
          · exact ⟨_, rfl⟩
          · intro signature
            exact absent _ size ⟨mode, stats, signature, found⟩

/-- The mount returns or reports an error, and what it returns is usable. -/
def MountsUsable (device : DeviceFile) (blockCacheSize blockBitmaps inodeBitmaps : PNat) : Prop :=
  Runs (fromDevice device blockCacheSize blockBitmaps inodeBitmaps) ∧
    ∀ volume, fromDevice device blockCacheSize blockBitmaps inodeBitmaps = .ok volume →
      volume.Usable

theorem mounts_usable_refused
    (refused : ∃ error, fromDevice device blockCacheSize blockBitmaps inodeBitmaps = refuse error) :
    MountsUsable device blockCacheSize blockBitmaps inodeBitmaps := by
  obtain ⟨error, refused⟩ := refused
  unfold MountsUsable
  rw [refused]
  constructor
  · exact runs_refuse error
  · intro volume impossible
    cases impossible

theorem not_mounts_usable_fault {fault : Fault}
    (stopped : fromDevice device blockCacheSize blockBitmaps inodeBitmaps = .error (.fault fault)) :
    ¬MountsUsable device blockCacheSize blockBitmaps inodeBitmaps := by
  intro usable
  exact usable.1 fault stopped

structure Bounded (device : DeviceFile) (superblock : SuperblockFields) : Prop where
  bitmap : superblock.blocksPerGroup * (superblock.blockSize * 8) < 2 ^ 64
  table : superblock.groups * 32 < 2 ^ 32
  geometry : TableReadable device superblock → superblock.logBlockSize < 8 ∧ superblock.InodesFit

theorem mounts_usable_coherent_iff (presents : Presents device superblock size)
    (short : superblock.logBlockSize < 32) (coherent : superblock.Coherent size) :
    MountsUsable device blockCacheSize blockBitmaps inodeBitmaps ↔ Bounded device superblock := by
  have mounts := @from_device_coherent _ _ _ blockCacheSize blockBitmaps inodeBitmaps presents
    (blocks_count_lt presents.read) short coherent
  by_cases bits : superblock.blocksPerGroup * (superblock.blockSize * 8) < 2 ^ 64
  · rw [if_pos bits] at mounts
    by_cases few : superblock.groups * 32 < 2 ^ 32
    · cases outcome : device.read (tableStart superblock) (superblock.groups * 32) with
      | error error =>
          rw [read_table_refused few outcome] at mounts
          constructor
          · intro _
            refine ⟨bits, few, ?_⟩
            intro readable
            obtain ⟨data, returned⟩ := readable
            rw [outcome] at returned
            cases returned
          · intro _
            exact mounts_usable_refused ⟨_, mounts⟩
      | ok data =>
          obtain ⟨table, counted, mounted⟩ := @read_table_mounts _ _ blockCacheSize blockBitmaps
            inodeBitmaps few ⟨data, outcome⟩
          rw [mounted] at mounts
          have usable := usable_iff short coherent (@mount_of_mounted device superblock
            blockCacheSize blockBitmaps inodeBitmaps table counted)
          constructor
          · intro holds
            exact ⟨bits, few, fun _ => usable.mp (holds.2 _ mounts)⟩
          · intro bounded
            unfold MountsUsable
            rw [mounts]
            refine ⟨runs_ok _, ?_⟩
            intro volume same
            cases same
            exact usable.mpr (bounded.geometry ⟨data, outcome⟩)
    · have counted : (mounted device superblock blockCacheSize blockBitmaps
          inodeBitmaps).blockGroupCount = superblock.groups := rfl
      rw [read_table_overflows _ (by rw [counted]; omega)] at mounts
      constructor
      · intro holds
        exact absurd holds (not_mounts_usable_fault mounts)
      · intro bounded
        exact absurd bounded.table few
  · rw [if_neg bits] at mounts
    constructor
    · intro holds
      exact absurd holds (not_mounts_usable_fault mounts)
    · intro bounded
      exact absurd bounded.bitmap bits

/-- The devices that mount without a fault and with a usable geometry. -/
theorem mounts_usable_iff (device : DeviceFile) (blockCacheSize blockBitmaps inodeBitmaps : PNat) :
    MountsUsable device blockCacheSize blockBitmaps inodeBitmaps ↔
      ∀ superblock size, Presents device superblock size →
        superblock.logBlockSize < 32 ∧ (superblock.Coherent size → Bounded device superblock) := by
  constructor
  · intro usable superblock size presents
    have short : superblock.logBlockSize < 32 := by
      by_contra long
      exact not_mounts_usable_fault (from_device_shift presents (by omega)) usable
    refine ⟨short, ?_⟩
    intro coherent
    exact (mounts_usable_coherent_iff presents short coherent).mp usable
  · intro bounds
    by_cases present : ∃ superblock size, Presents device superblock size
    · obtain ⟨superblock, size, presents⟩ := present
      obtain ⟨short, bounded⟩ := bounds superblock size presents
      by_cases coherent : superblock.Coherent size
      · exact (mounts_usable_coherent_iff presents short coherent).mpr (bounded coherent)
      · exact mounts_usable_refused
          (from_device_refused presents (blocks_count_lt presents.read) short coherent)
    · push Not at present
      exact mounts_usable_refused (from_device_absent present)

def smallDevice (logBlockSize inodeStructSize : Nat) : DeviceFile where
  openMode := 3
  stats := .ok 8192
  read start _ :=
    if start = 1024 then
      .ok (toLe 16 4 ++ toLe 8 4 ++ List.replicate 16 0 ++ toLe logBlockSize 4 ++
        List.replicate 4 0 ++ toLe 8 4 ++ List.replicate 4 0 ++ toLe 16 4 ++ List.replicate 12 0 ++
        toLe 0xEF53 2 ++ List.replicate 18 0 ++ toLe 1 4 ++ List.replicate 8 0 ++
        toLe inodeStructSize 2 ++ List.replicate 934 0)
    else
      .ok []

def inodeEnd (result : Machine MountError MountedVolume) (inode : Nat) : Option (Nat × Nat) :=
  match result with
  | .ok volume =>
      if volume.acceptsInode inode then
        (volume.inodePlace inode).map fun place => (place.2 + 128, volume.blockSize)
      else
        none
  | .error _ => none

theorem inode_end_inside {result : Machine MountError MountedVolume} {inode stop bytes : Nat}
    (usable : ∀ volume, result = .ok volume → volume.Usable)
    (found : inodeEnd result inode = some (stop, bytes)) : stop ≤ bytes := by
  cases result with
  | error reason => cases found
  | ok volume =>
      unfold inodeEnd at found
      dsimp only at found
      split_ifs at found with accepted
      obtain ⟨lba, offset, place, inside⟩ := (usable volume rfl).inodes inode accepted
      rw [place] at found
      cases found
      exact inside

def stops (result : Machine MountError MountedVolume) : Bool :=
  match result with
  | .error (.fault _) => true
  | _ => false

theorem not_runs_of_stops {result : Machine MountError MountedVolume}
    (stopped : stops result = true) : ¬Runs result := by
  intro runs
  unfold stops at stopped
  split at stopped
  · rename_i fault
    exact runs fault rfl
  · cases stopped

/-- A shift by 32 stops the mount, and the last of sixteen inodes of 64 bytes is accessed
past the end of its block. -/
theorem small_devices_not_usable :
    ¬MountsUsable (smallDevice 32 128) 1 1 1 ∧ ¬MountsUsable (smallDevice 0 64) 1 1 1 := by
  constructor
  · intro usable
    exact not_runs_of_stops (by decide +kernel) usable.1
  · intro usable
    have inside := inode_end_inside usable.2
      (show inodeEnd (fromDevice (smallDevice 0 64) 1 1 1) 16 = some (1088, 1024) by decide +kernel)
    omega

end MountedVolume

end Campix.Ext2
