import Campix.Ext2.DescriptorTable
import Campix.Ext2.Location
import Campix.Lib.Checked

/-!
# Mounting an ext2 volume

`Ext2Volume::from_device` with the superblock it reads, `count_block_groups` and
`read_block_group_descriptor_table`, the places where `get_inode` and
`update_inode_raw` access an inode, and `InodeReadingLocation::new`. The arithmetic
of the first and of the last stops where a checked build stops. The device is any
function that a seek and a read into a buffer of zeros amount to.
-/

namespace Campix.Ext2

open Lib.Slice Lib.Word Lib.Checked Drivers

set_option autoImplicit false

structure SuperblockFields where
  inodesCount : Nat
  blocksCount : Nat
  logBlockSize : Nat
  blocksPerGroup : Nat
  inodesPerGroup : Nat
  signature : Nat
  majorVersionLevel : Nat
  inodeStructSize : Nat
  requiredFeatures : Nat
  readonlyOrSupportFeatures : Nat
  deriving DecidableEq

inductive Ext2Error where
  | badSuperblockMagic (signature : Nat)
  | badDeviceSize (expected actual : Nat)
  | unsupportedRequiredFeatures (supported required missing : Nat)
  | badSuperblock (reason : String) (superblock : SuperblockFields)
  | badBlockGroupDescriptorTableEntrySize (first second : Nat)
  | badBlockGroupDescriptorTable
  | badInodeIndex (inode : Nat)

inductive MountError where
  | vfs (error : VfsError)
  | ext2 (error : Ext2Error)

/-- `read start length` is a seek and a read into `length` zeros. -/
structure DeviceFile where
  openMode : Nat
  stats : Except VfsError Nat
  read : Nat → Nat → Except VfsError (List UInt8)

namespace DeviceFile

def readInto (device : DeviceFile) (start length : Nat) : Machine MountError (List UInt8) :=
  match device.read start length with
  | .error error => refuse (.vfs error)
  | .ok data => .ok (data.take length ++ List.replicate (length - data.length) 0)

end DeviceFile

namespace SuperblockFields

def ofBytes (data : List UInt8) : SuperblockFields where
  inodesCount := readLe data 0 4
  blocksCount := readLe data 4 4
  logBlockSize := readLe data 24 4
  blocksPerGroup := readLe data 32 4
  inodesPerGroup := readLe data 40 4
  signature := readLe data 56 2
  majorVersionLevel := readLe data 76 4
  inodeStructSize := readLe data 88 2
  requiredFeatures := readLe data 96 4
  readonlyOrSupportFeatures := readLe data 100 4

def fromDevice (device : DeviceFile) : Machine MountError SuperblockFields := do
  let data ← device.readInto 1024 1024
  return ofBytes data

def signatureValue : Nat := 0xEF53

def supportedRequiredFeatures : Nat := 2

def supportedRoFeatures : Nat := 3

def countBlockGroups (superblock : SuperblockFields) : Machine MountError Nat :=
  let bpg := superblock.blocksPerGroup
  let ipg := superblock.inodesPerGroup
  if bpg = 0 ∨ ipg = 0 then
    refuse (.ext2 (.badSuperblock "blocks_per_group == 0 || inodes_per_group == 0" superblock))
  else do
    let r1 ← quotCeil superblock.blocksCount bpg
    let r2 ← quotCeil superblock.inodesCount ipg
    if r1 ≠ r2 then
      refuse (.ext2 (.badBlockGroupDescriptorTableEntrySize r1 r2))
    else
      return r1

def inodeSize (superblock : SuperblockFields) : Nat :=
  if superblock.majorVersionLevel ≥ 1 then superblock.inodeStructSize else 128

end SuperblockFields

def groupBitmapSize (blocksPerGroup blockSize : Nat) : Machine MountError Nat := do
  let blockBits ← mul 64 blockSize 8
  let bitmapBits ← mul 64 blocksPerGroup blockBits
  quotCeil bitmapBits 8

structure MountedVolume where
  readOnly : Bool
  superblock : SuperblockFields
  blockSize : Nat
  sectorsPerBlock : Nat
  blockCount : Nat
  blockGroupCount : Nat
  blocksPerGroup : Nat
  blockGroupDescriptorTable : List BlockGroupDescriptor
  inodeSize : Nat
  inodesPerBlock : Nat
  blockCacheCapacity : Nat
  blockBitmapCacheCapacity : Nat
  inodeBitmapCacheCapacity : Nat

namespace MountedVolume

/-- The loop over the entries from `i` on. -/
def pushDescriptors (table : List UInt8) :
    Nat → Nat → List BlockGroupDescriptor → Machine MountError (List BlockGroupDescriptor)
  | 0, _, entries => .ok entries
  | left + 1, i, entries => do
      let start ← mul 32 i blockGroupDescriptorSize
      let stop ← mul 32 (i + 1) blockGroupDescriptorSize
      match getSlice table start stop with
      | none => .error (.fault .unwrapped)
      | some bytes =>
          match BlockGroupDescriptor.fromBytes bytes with
          | none => refuse (.ext2 .badBlockGroupDescriptorTable)
          | some descriptor => pushDescriptors table left (i + 1) (entries ++ [descriptor])

def readBlockGroupDescriptorTable (device : DeviceFile) (self : MountedVolume) :
    Machine MountError MountedVolume := do
  let entryCount := self.blockGroupCount
  let tableSize ← mul 32 entryCount blockGroupDescriptorSize
  let startByte := if self.blockSize = 1024 then 2048 else self.blockSize
  let table ← device.readInto startByte tableSize
  let entries ← pushDescriptors table entryCount 0 self.blockGroupDescriptorTable
  return { self with blockGroupDescriptorTable := entries }

def fromDevice (device : DeviceFile) (blockCacheSize blockUsageBitmapCacheSize
    inodeUsageBitmapCacheSize : PNat) : Machine MountError MountedVolume :=
  if device.openMode &&& openModeRead = 0 ∨
      device.openMode &&& openModeAppend = openModeAppend then
    refuse (.vfs .invalidOpenMode)
  else do
    let size ← match device.stats with
      | .error error => refuse (.vfs error)
      | .ok size => .ok size
    let superblock ← SuperblockFields.fromDevice device
    if superblock.signature ≠ SuperblockFields.signatureValue then
      refuse (.ext2 (.badSuperblockMagic superblock.signature))
    else do
      let blockSize ← shl 32 1024 superblock.logBlockSize
      let blockCount := superblock.blocksCount
      let sectorsPerBlock ← quot blockSize 512
      let expected ← mul 64 blockSize blockCount
      if size ≠ expected then
        refuse (.ext2 (.badDeviceSize expected size))
      else
        let requiredFeatures := superblock.requiredFeatures
        let roFeatures := superblock.readonlyOrSupportFeatures
        let supported := SuperblockFields.supportedRequiredFeatures
        if requiredFeatures &&& supported ≠ requiredFeatures then
          refuse (.ext2 (.unsupportedRequiredFeatures supported requiredFeatures
            (requiredFeatures &&& (2 ^ 32 - 1 - supported))))
        else do
          let readOnly := device.openMode &&& openModeWrite = 0 ∨
            roFeatures &&& SuperblockFields.supportedRoFeatures ≠ roFeatures
          let blockGroupCount ← superblock.countBlockGroups
          let inodeSize := superblock.inodeSize
          if inodeSize = 0 then
            refuse (.ext2 (.badSuperblock "inode_size == 0" superblock))
          else do
            let inodesPerBlock ← quot blockSize inodeSize
            if inodesPerBlock = 0 then
              refuse (.ext2 (.badSuperblock "inodes_per_block == 0" superblock))
            else
              let blocksPerGroup := superblock.blocksPerGroup
              if blocksPerGroup = 0 then
                refuse (.ext2 (.badSuperblock "blocks_per_group == 0" superblock))
              else do
                let blockCacheCapacity ← quotCeil blockCacheSize blockSize
                let blockCacheCapacity ← nonZero blockCacheCapacity
                let bitmapSize ← groupBitmapSize blocksPerGroup blockSize
                let blockBitmapCacheCapacity ←
                  quotCeil blockUsageBitmapCacheSize bitmapSize
                let blockBitmapCacheCapacity ← nonZero blockBitmapCacheCapacity
                let bitmapSize ← groupBitmapSize blocksPerGroup blockSize
                let inodeBitmapCacheCapacity ←
                  quotCeil inodeUsageBitmapCacheSize bitmapSize
                let inodeBitmapCacheCapacity ← nonZero inodeBitmapCacheCapacity
                readBlockGroupDescriptorTable device {
                  readOnly
                  superblock
                  blockSize
                  sectorsPerBlock
                  blockCount
                  blockGroupCount
                  blocksPerGroup
                  blockGroupDescriptorTable := []
                  inodeSize
                  inodesPerBlock
                  blockCacheCapacity
                  blockBitmapCacheCapacity
                  inodeBitmapCacheCapacity }

def acceptsInode (self : MountedVolume) (inode : Nat) : Bool :=
  ¬(inode = 0 ∨ inode > self.superblock.inodesCount)

/-- The block, and the byte in it, at which `get_inode` and `update_inode_raw` access the
128 bytes of an inode; `None` is a group without a descriptor. -/
def inodePlace (self : MountedVolume) (inode : Nat) : Option (Nat × Nat) :=
  let group := (inode - 1) / self.superblock.inodesPerGroup
  let index := (inode - 1) % self.superblock.inodesPerGroup
  match self.blockGroupDescriptorTable[group]? with
  | none => none
  | some descriptor =>
      let blockIndex := index / self.inodesPerBlock
      let offsetInBlock := index % self.inodesPerBlock * self.inodeSize
      some (add32 descriptor.inodeTableBlock blockIndex, offsetInBlock)

end MountedVolume

/-- `InodeReadingLocation::new`, where each operation stops as a checked one does. -/
def InodeReadingLocation.newChecked (tableSize blockIdx : Nat) :
    Machine MountError InodeReadingLocation := do
  let tableSize2 ← mul 32 tableSize tableSize
  if blockIdx < 12 then
    return ⟨.direct blockIdx, tableSize⟩
  else
    let idx := blockIdx - 12
    if idx < tableSize then
      return ⟨.single idx, tableSize⟩
    else
      let idx := idx - tableSize
      if idx < tableSize2 then do
        let idx1 ← quot idx tableSize
        let idx2 ← remainder idx tableSize
        return ⟨.double idx1 idx2, tableSize⟩
      else do
        let idx := idx - tableSize2
        let idx1 ← quot idx tableSize2
        let idx2 ← quot (← remainder idx tableSize2) tableSize
        let idx3 ← remainder idx tableSize
        return ⟨.triple idx1 idx2 idx3, tableSize⟩

end Campix.Ext2
