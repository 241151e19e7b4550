import Campix.Drivers.Vfs
import Campix.Lib.Outcome
import Campix.Lib.Slice

/-!
# Blocks of an ext2 volume

`read_block` and `write_block` of `Ext2Volume`, with the LRU cache of blocks in front of
the device, and the bitmaps of used blocks (`balloc.rs`, `bitmap.rs`). Device I/O
succeeds. The bitmap of a group is what the cache of allocators holds for it or would
read from the disk; that cache and its write-back are not modelled.
-/

namespace Campix.Ext2

open Lib.Word Drivers

set_option autoImplicit false

/-- `running` is a loop that has not ended within the rounds it was given. -/
inductive Failure where
  | error (error : VfsError)
  | panic
  | running
  deriving DecidableEq

abbrev Block := List UInt8

/-- `size` is in bits. -/
structure Bitmap where
  data : List UInt8
  size : Nat

namespace Bitmap

def bit (byte : UInt8) (place : Nat) : Bool := byte.toNat.testBit place

def getBit (bitmap : Bitmap) (idx : Nat) : Option Bool :=
  if idx < bitmap.size then some (bit (bitmap.data.getD (idx / 8) 0) (idx % 8)) else none

def setBit (bitmap : Bitmap) (idx : Nat) (enabled : Bool) : Bitmap :=
  if idx < bitmap.size then
    let byte := bitmap.data.getD (idx / 8) 0
    let mask := UInt8.ofNat (1 <<< (idx % 8))
    { bitmap with data := bitmap.data.set (idx / 8) (if enabled then byte ||| mask else byte &&& ~~~mask) }
  else
    bitmap

/-- The scan, byte by byte; a whole word of the aligned part is eight of them. -/
def findUnset (size : Nat) : Nat → List UInt8 → Option Nat
  | _, [] => none
  | bitIndex, byte :: bytes =>
      if byte ≠ 0xFF then
        match (List.range 8).find? fun i => decide (bitIndex + i ≥ size) || !bit byte i with
        | some i => if bitIndex + i ≥ size then none else some (bitIndex + i)
        | none => findUnset size (bitIndex + 8) bytes
      else
        findUnset size (bitIndex + 8) bytes

def findFirstUnset (bitmap : Bitmap) : Option Nat := findUnset bitmap.size 0 bitmap.data

end Bitmap

structure BlockAllocator where
  minBlockInclusive : Nat
  maxBlockExclusive : Nat
  bitmap : Bitmap

namespace BlockAllocator

def allocBlock (self : BlockAllocator) : Except VfsError (Nat × BlockAllocator) :=
  match self.bitmap.findFirstUnset with
  | some bitIndex =>
      .ok (add32 self.minBlockInclusive bitIndex,
        { self with bitmap := self.bitmap.setBit bitIndex true })
  | none => .error .outOfSpace

def deallocBlock (self : BlockAllocator) (block : Nat) : Except VfsError BlockAllocator :=
  if block < self.minBlockInclusive ∨ block ≥ self.maxBlockExclusive then
    .error .invalidArgument
  else
    let bitIndex := block - self.minBlockInclusive
    if self.bitmap.getBit bitIndex ≠ some true then
      .error .driverError
    else
      .ok { self with bitmap := self.bitmap.setBit bitIndex false }

end BlockAllocator

/-- `device` and `bitmaps` are indexed by block and by group. The numbers are those of
the superblock; `inodeTables` is the column of the group descriptors. -/
structure Ext2Volume where
  device : Nat → Block
  blockCache : List (Nat × Block)
  blockCacheSize : Nat
  bitmaps : Nat → List UInt8
  readOnly : Bool
  fileSize64 : Bool
  blockSize : Nat
  blockCount : Nat
  sectorsPerBlock : Nat
  blockGroupCount : Nat
  blocksPerGroup : Nat
  superblockBlock : Nat
  inodesPerGroup : Nat
  inodesPerBlock : Nat
  inodeSize : Nat
  inodeTables : List Nat

abbrev OnVolume := EStateM Failure Ext2Volume

namespace Ext2Volume

/-- `get` of the LRU cache makes its entry the most recent one, `push` drops the oldest
entry when the cache is full. -/
def cached (volume : Ext2Volume) (lba : Nat) : Option Block :=
  (volume.blockCache.find? fun entry => entry.1 = lba).map Prod.snd

def touch (volume : Ext2Volume) (lba : Nat) (block : Block) : Ext2Volume :=
  { volume with
    blockCache := ((lba, block) :: volume.blockCache.filter fun entry => entry.1 ≠ lba).take
      volume.blockCacheSize }

def readBlock (lba : Nat) (buf : Block) : OnVolume (Nat × Block) := do
  let volume ← get
  if buf.length < volume.blockSize then
    throw (.error .badBufferSize)
  else if lba ≥ volume.blockCount then
    throw (.error .outOfBounds)
  else
    match volume.cached lba with
    | some block =>
        set (volume.touch lba block)
        if buf.length ≠ block.length then throw .panic else return (volume.blockSize, block)
    | none =>
        let slice := volume.device lba
        set (volume.touch lba slice)
        return (slice.length, slice ++ buf.drop slice.length)

def writeBlock (lba : Nat) (buf : Block) : OnVolume Nat := do
  let volume ← get
  if buf.length < volume.blockSize then
    throw (.error .badBufferSize)
  else if volume.readOnly then
    throw (.error .actionNotAllowed)
  else if lba > volume.blockCount then
    throw (.error .invalidSeekPosition)
  else if lba = volume.blockCount then
    -- at the end of the device nothing is left to write to
    return 0
  else
    let written := buf.take volume.blockSize
    let volume := { volume with device := Function.update volume.device lba written }
    match volume.cached lba with
    | some _ =>
        set (volume.touch lba written)
        return volume.blockSize
    | none =>
        set volume
        return written.length

def getBlockAllocatorForGroup (volume : Ext2Volume) (group : Nat) : Option BlockAllocator :=
  if volume.readOnly then
    none
  else if group ≥ volume.blockGroupCount then
    none
  else
    let minBlockInclusive := add32 (mul32 group volume.blocksPerGroup) 1
    let maxBlockExclusive := min (add32 minBlockInclusive volume.blocksPerGroup) volume.blockCount
    let bitmapBytes := (sub32 maxBlockExclusive minBlockInclusive + 7) / 8
    let bitmapBlocks := (bitmapBytes + volume.blockSize - 1) / volume.blockSize
    some {
      minBlockInclusive
      maxBlockExclusive
      bitmap := { data := volume.bitmaps group, size := bitmapBlocks * volume.blockSize * 8 } }

def setBlockAllocator (group : Nat) (allocator : BlockAllocator) : OnVolume Unit :=
  modify fun volume =>
    { volume with bitmaps := Function.update volume.bitmaps group allocator.bitmap.data }

def allocBlockFrom : Nat → Nat → OnVolume Nat
  | 0, _ => throw (.error .outOfSpace)
  | groups + 1, group => do
      match (← get).getBlockAllocatorForGroup group with
      | none => allocBlockFrom groups (group + 1)
      | some allocator =>
          match allocator.allocBlock with
          | .ok (block, allocator) =>
              setBlockAllocator group allocator
              return block
          | .error _ => allocBlockFrom groups (group + 1)

def allocBlockAny : OnVolume Nat := do
  allocBlockFrom (← get).blockGroupCount 0

end Ext2Volume

end Campix.Ext2
