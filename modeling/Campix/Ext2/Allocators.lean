import Campix.Ext2.Volume
import Campix.Lib.Caching

/-!
# Free space through the caches of bitmaps

The allocators of blocks and of inodes of a group (`balloc.rs`, `ialloc.rs`), the caches
in which `Ext2Volume` keeps them, and what it does with one that a cache gives up: the
changed parts of its bitmap are written to the disk, and its pending difference goes into
the superblock and into the descriptor of the group, with their copies on the disk. The
two kinds of allocators differ in the range of numbers and in the size of the bitmap; the
caches are any bounded map. An allocator is noted in `dropped` when a call is done with
it. A block never has fewer than 1024 bytes, so the bytes of the superblock lie within
one block.
-/

namespace Campix.Ext2

open Lib.Slice Lib.Word Lib.Caching Drivers

set_option autoImplicit false

def divCeil (dividend divisor : Nat) : Nat := (dividend + divisor - 1) / divisor

namespace Bitmap

def new (size : Nat) : Bitmap where
  data := List.replicate (divCeil size 8) 0
  size := size

def newWithSizeMultiple (size multiple : Nat) : Bitmap where
  data := List.replicate (divCeil (divCeil size 8) multiple * multiple) 0
  size := size

def toggleBit (bitmap : Bitmap) (idx : Nat) : Bitmap :=
  if idx < bitmap.size then
    let byte := bitmap.data.getD (idx / 8) 0
    let mask := UInt8.ofNat (1 <<< (idx % 8))
    { bitmap with data := bitmap.data.set (idx / 8) (byte ^^^ mask) }
  else
    bitmap

def clear (bitmap : Bitmap) : Bitmap :=
  { bitmap with data := List.replicate bitmap.data.length 0 }

def findSet (size : Nat) : Nat → List UInt8 → Option Nat
  | _, [] => none
  | bitIndex, byte :: bytes =>
      if byte ≠ 0x00 then
        match (List.range 8).find? fun i => decide (bitIndex + i ≥ size) || bit byte i with
        | some i => if bitIndex + i ≥ size then none else some (bitIndex + i)
        | none => findSet size (bitIndex + 8) bytes
      else
        findSet size (bitIndex + 8) bytes

def findFirstSet (bitmap : Bitmap) : Option Nat := findSet bitmap.size 0 bitmap.data

end Bitmap

inductive Space where
  | blocks
  | inodes
  deriving DecidableEq

structure GroupAllocator where
  minInclusive : Nat
  maxExclusive : Nat
  bitmapBeginInclusive : Nat
  bitmapEndExclusive : Nat
  bs : Nat
  bitmap : Bitmap
  dirtyBlocksBitmap : Bitmap
  diffUsage : Int

/-- The number that an allocation returns, and the bit that stands for it. -/
structure Taken where
  number : Nat
  bit : Nat

namespace GroupAllocator

def newBlocks (minInclusive maxExclusive bitmapBeginInclusive bitmapEndExclusive blockSize : Nat) :
    GroupAllocator where
  minInclusive := minInclusive
  maxExclusive := maxExclusive
  bitmapBeginInclusive := bitmapBeginInclusive
  bitmapEndExclusive := bitmapEndExclusive
  bs := blockSize
  bitmap := .new (sub32 bitmapEndExclusive bitmapBeginInclusive * blockSize * 8)
  dirtyBlocksBitmap := .new (sub32 bitmapEndExclusive bitmapBeginInclusive)
  diffUsage := 0

/-- `InodeAllocator::new`; `None` is the division by a number of bits that wrapped
around to zero. -/
def newInodes (minInclusive maxExclusive bitmapBeginInclusive bitmapEndExclusive blockSize : Nat) :
    Option GroupAllocator :=
  let numInodes := sub32 maxExclusive minInclusive
  if mul32 8 blockSize = 0 then
    none
  else
    some {
      minInclusive := minInclusive
      maxExclusive := maxExclusive
      bitmapBeginInclusive := bitmapBeginInclusive
      bitmapEndExclusive := bitmapEndExclusive
      bs := blockSize
      bitmap := .newWithSizeMultiple numInodes blockSize
      dirtyBlocksBitmap := .new (divCeil numInodes (mul32 8 blockSize))
      diffUsage := 0 }

def bitmapBlocks (self : GroupAllocator) : List Nat :=
  List.range' self.bitmapBeginInclusive (self.bitmapEndExclusive - self.bitmapBeginInclusive)

def readBlocks (bs : Nat) : List Nat → Nat → List UInt8 → OnVolume (List UInt8)
  | [], _, slice => pure slice
  | lba :: lbas, i, slice =>
      match getSlice slice (i * bs) ((i + 1) * bs) with
      | none => throw .panic
      | some buf => do
          let (_, buf) ← Ext2Volume.readBlock lba buf
          readBlocks bs lbas (i + 1) (splice slice (i * bs) buf)

def readAll (self : GroupAllocator) : OnVolume GroupAllocator := do
  let data ← readBlocks self.bs self.bitmapBlocks 0 self.bitmap.data
  return { self with
    bitmap := { self.bitmap with data := data }
    dirtyBlocksBitmap := self.dirtyBlocksBitmap.clear }

def writeBlocks (self : GroupAllocator) : List Nat → Nat → Bitmap → OnVolume Bitmap
  | [], _, dirty => pure dirty
  | lba :: lbas, i, dirty =>
      if dirty.getBit i = some true then
        match getSlice self.bitmap.data (i * self.bs) ((i + 1) * self.bs) with
        | none => throw .panic
        | some buf => do
            let _ ← Ext2Volume.writeBlock lba buf
            self.writeBlocks lbas (i + 1) (dirty.toggleBit i)
      else
        self.writeBlocks lbas (i + 1) dirty

def writeDirty (self : GroupAllocator) : OnVolume GroupAllocator := do
  let dirty ← self.writeBlocks self.bitmapBlocks 0 self.dirtyBlocksBitmap
  return { self with dirtyBlocksBitmap := dirty }

def markDirty (self : GroupAllocator) (bitIndex : Nat) : GroupAllocator :=
  { self with
    dirtyBlocksBitmap := self.dirtyBlocksBitmap.setBit (bitIndex / (8 * self.bs)) true }

def alloc (self : GroupAllocator) : Except VfsError (Taken × GroupAllocator) :=
  match self.bitmap.findFirstUnset with
  | some bitIndex =>
      .ok (⟨add32 self.minInclusive bitIndex, bitIndex⟩,
        { self with
          bitmap := self.bitmap.setBit bitIndex true
          diffUsage := self.diffUsage + 1 }.markDirty bitIndex)
  | none => .error .outOfSpace

/-- `dealloc_block` and `dealloc_inode`, with the bit that is cleared. -/
def dealloc (self : GroupAllocator) (number : Nat) : Except VfsError (Nat × GroupAllocator) :=
  if number < self.minInclusive ∨ number ≥ self.maxExclusive then
    .error .invalidArgument
  else
    let bitIndex := number - self.minInclusive
    if self.bitmap.getBit bitIndex ≠ some true then
      .error .driverError
    else
      .ok (bitIndex,
        { self with
          bitmap := self.bitmap.setBit bitIndex false
          diffUsage := self.diffUsage - 1 }.markDirty bitIndex)

end GroupAllocator

/-- The first three words of the superblock, the two counters and the rest. -/
structure Superblock where
  head : List UInt8
  unallocated : Space → Nat
  tail : List UInt8
  inodesCount : Nat
  sparseDescriptorTables : Bool

def Superblock.bytes (self : Superblock) : List UInt8 :=
  self.head ++ toLe (self.unallocated .blocks) 4 ++ toLe (self.unallocated .inodes) 4 ++ self.tail

structure BlockGroupDescriptor where
  usageBitmap : Space → Nat
  inodeTableBlock : Nat
  freeCount : Space → Nat
  directoryCount : Nat

def BlockGroupDescriptor.toRaw (self : BlockGroupDescriptor) : List UInt8 :=
  toLe (self.usageBitmap .blocks) 4 ++ toLe (self.usageBitmap .inodes) 4 ++
    toLe self.inodeTableBlock 4 ++ toLe (self.freeCount .blocks) 2 ++
    toLe (self.freeCount .inodes) 2 ++ toLe self.directoryCount 2 ++ List.replicate 14 0

def blockGroupDescriptorSize : Nat := 32

structure Accounts (lru : BoundedMap Nat GroupAllocator) where
  volume : Ext2Volume
  superblock : Superblock
  blockGroupDescriptorTable : List BlockGroupDescriptor
  caches : Space → lru.Cache
  dropped : List GroupAllocator

variable {lru : BoundedMap Nat GroupAllocator}

abbrev OnAccounts (lru : BoundedMap Nat GroupAllocator) := EStateM Failure (Accounts lru)

namespace Accounts

def onVolume {Value : Type} (action : OnVolume Value) : OnAccounts lru Value := fun self =>
  match action self.volume with
  | .ok value volume => .ok value { self with volume := volume }
  | .error failure volume => .error failure { self with volume := volume }

def setCache (self : Accounts lru) (space : Space) (cache : lru.Cache) : Accounts lru :=
  { self with caches := Function.update self.caches space cache }

/-- The powers of a base behind this one, up to the number of groups. No power of
three has more than 21 factors in a word of 32 bits. -/
def powers (groupCount base : Nat) : Nat → Nat → List Nat
  | 0, _ => []
  | rounds + 1, power =>
      let next := power * base
      if next ≥ 2 ^ 32 then []
      else if next > groupCount then []
      else next :: powers groupCount base rounds next

def getBackupGroups (self : Accounts lru) : List Nat :=
  let groupCount := self.volume.blockGroupCount
  if self.superblock.sparseDescriptorTables then
    if groupCount ≤ 1 then
      List.range groupCount
    else
      [0, 1] ++ powers groupCount 3 32 1 ++ powers groupCount 5 32 1 ++ powers groupCount 7 32 1
  else
    List.range self.blockGroupDescriptorTable.length

def writeDevice (lba offset : Nat) (bytes : List UInt8) : OnVolume Unit := do
  let volume ← get
  if lba > volume.blockCount then
    throw (.error .invalidSeekPosition)
  else if lba = volume.blockCount then
    return ()
  else
    set { volume with
      device := Function.update volume.device lba (splice (volume.device lba) offset bytes) }

def writeSuperblocks (bytes : List UInt8) (blocksPerGroup : Nat) : List Nat → OnVolume Unit
  | [] => pure ()
  | backupGroup :: groups => do
      writeDevice (backupGroup * blocksPerGroup + 1) 0 bytes
      writeSuperblocks bytes blocksPerGroup groups

def setSuperblock (superblock : Superblock) : OnAccounts lru Unit := do
  if (← get).volume.readOnly then
    throw (.error .actionNotAllowed)
  else
    modify fun self => { self with superblock := superblock }
    let self ← get
    onVolume (writeDevice (1024 / self.volume.blockSize) (1024 % self.volume.blockSize)
      superblock.bytes)
    onVolume (writeSuperblocks superblock.bytes self.volume.blocksPerGroup
      (self.getBackupGroups.drop 1))

def writeDescriptors (raw : List UInt8) (blocksPerGroup blockIndex offsetInBlock : Nat) :
    List Nat → Block → OnVolume Unit
  | [], _ => pure ()
  | backupGroup :: groups, buffer => do
      let backup := backupGroup * blocksPerGroup + blockIndex + 2
      let (_, buffer) ← Ext2Volume.readBlock backup buffer
      let buffer := splice buffer offsetInBlock raw
      let _ ← Ext2Volume.writeBlock backup buffer
      writeDescriptors raw blocksPerGroup blockIndex offsetInBlock groups buffer

def setBlockGroupDescriptor (group : Nat) (descriptor : BlockGroupDescriptor) :
    OnAccounts lru Unit := do
  let self ← get
  if self.volume.readOnly then
    throw (.error .actionNotAllowed)
  else if group ≥ self.blockGroupDescriptorTable.length then
    throw .panic
  else
    modify fun self =>
      { self with
        blockGroupDescriptorTable := self.blockGroupDescriptorTable.set group descriptor }
    let byteIndex := group * blockGroupDescriptorSize
    onVolume (writeDescriptors descriptor.toRaw self.volume.blocksPerGroup
      (byteIndex / self.volume.blockSize) (byteIndex % self.volume.blockSize) self.getBackupGroups
      (List.replicate self.volume.blockSize 0))

/-- A counter of a number of bits after a difference is taken off. -/
def lessDiff (width counter : Nat) (diff : Int) : Nat :=
  (((counter : Int) - diff) % 2 ^ width).toNat

def lessSuperblock (self : Superblock) (space : Space) (diff : Int) : Superblock :=
  { self with
    unallocated := Function.update self.unallocated space
      (lessDiff 32 (self.unallocated space) diff) }

def lessDescriptor (self : BlockGroupDescriptor) (space : Space) (diff : Int) :
    BlockGroupDescriptor :=
  { self with
    freeCount := Function.update self.freeCount space (lessDiff 16 (self.freeCount space) diff) }

def lessUnallocated (space : Space) (diff : Int) : OnAccounts lru Unit := do
  setSuperblock (lessSuperblock (← get).superblock space diff)

def lessFree (space : Space) (group : Nat) (diff : Int) : OnAccounts lru Unit := do
  match (← get).blockGroupDescriptorTable[group]? with
  | none => throw .panic
  | some descriptor => setBlockGroupDescriptor group (lessDescriptor descriptor space diff)

/-- `handle_evicted_block_bitmap_cache` and `handle_evicted_inode_bitmap_cache`. -/
def handleEvicted (space : Space) (group : Nat) (allocator : GroupAllocator) :
    OnAccounts lru Unit := do
  let allocator ← onVolume allocator.writeDirty
  let diff := allocator.diffUsage
  let allocator := { allocator with diffUsage := 0 }
  lessUnallocated space diff
  lessFree space group diff
  modify fun self => { self with dropped := allocator :: self.dropped }

def rangeOf (self : Accounts lru) (space : Space) (group : Nat) : Nat × Nat :=
  match space with
  | .blocks =>
      let minInclusive := add32 (mul32 group self.volume.blocksPerGroup) 1
      (minInclusive, min (add32 minInclusive self.volume.blocksPerGroup) self.volume.blockCount)
  | .inodes =>
      let start := mul32 group self.volume.inodesPerGroup
      let end_ := mul32 (add32 group 1) self.volume.inodesPerGroup
      (add32 start 1, min (add32 end_ 1) self.superblock.inodesCount)

def bitmapBlockCount (self : Accounts lru) (space : Space) (group : Nat) : Nat :=
  let (minInclusive, maxExclusive) := self.rangeOf space group
  divCeil (divCeil (sub32 maxExclusive minInclusive) 8) self.volume.blockSize

def newAllocator (self : Accounts lru) (space : Space) (group : Nat)
    (descriptor : BlockGroupDescriptor) : Option GroupAllocator :=
  let (minInclusive, maxExclusive) := self.rangeOf space group
  let bitmapBegin := descriptor.usageBitmap space
  let bitmapEnd := add32 bitmapBegin (self.bitmapBlockCount space group)
  match space with
  | .blocks =>
      some (.newBlocks minInclusive maxExclusive bitmapBegin bitmapEnd self.volume.blockSize)
  | .inodes =>
      GroupAllocator.newInodes minInclusive maxExclusive bitmapBegin bitmapEnd self.volume.blockSize

def handlePushed (space : Space) : Option (Nat × GroupAllocator) → OnAccounts lru Unit
  | some (group, allocator) => handleEvicted space group allocator
  | none => pure ()

def loadAllocator (space : Space) (group : Nat) (descriptor : BlockGroupDescriptor) :
    OnAccounts lru (Option GroupAllocator) := do
  match (← get).newAllocator space group descriptor with
  | none => throw .panic
  | some allocator => do
      let allocator ← onVolume allocator.readAll
      let self ← get
      let (evicted, cache) := lru.push (self.caches space) group allocator
      set (self.setCache space cache)
      handlePushed space evicted
      let self ← get
      let (cached, cache) := lru.getMut (self.caches space) group
      set (self.setCache space cache)
      return cached

def getAllocatorForGroup (space : Space) (group : Nat) :
    OnAccounts lru (Option GroupAllocator) := do
  let self ← get
  if self.volume.readOnly then
    return none
  else
    let (cached, cache) := lru.getMut (self.caches space) group
    set (self.setCache space cache)
    match cached with
    | some allocator => return some allocator
    | none =>
        match self.blockGroupDescriptorTable[group]? with
        | none => return none
        | some descriptor => loadAllocator space group descriptor

def keepAllocator (space : Space) (group : Nat) (allocator : GroupAllocator) :
    OnAccounts lru Unit :=
  modify fun self => self.setCache space (lru.assign (self.caches space) group allocator)

/-- `alloc_block_any` and `alloc_inode_any`, from this group on, with the group in
which the number was found. -/
def allocFrom (space : Space) : Nat → Nat → OnAccounts lru (Nat × Taken)
  | 0, _ => throw (.error .outOfSpace)
  | groups + 1, group => do
      match ← getAllocatorForGroup space group with
      | none => allocFrom space groups (group + 1)
      | some allocator =>
          match allocator.alloc with
          | .ok (taken, allocator) => do
              keepAllocator space group allocator
              return (group, taken)
          | .error _ => allocFrom space groups (group + 1)

def allocAny (space : Space) : OnAccounts lru (Nat × Taken) := do
  allocFrom space (← get).volume.blockGroupCount 0

/-- An allocation in a group, as the users of the allocators make it. -/
def allocIn (space : Space) (group : Nat) : OnAccounts lru Taken := do
  match ← getAllocatorForGroup space group with
  | none => throw (.error .driverError)
  | some allocator =>
      match allocator.alloc with
      | .ok (taken, allocator) => do
          keepAllocator space group allocator
          return taken
      | .error error => throw (.error error)

def deallocIn (space : Space) (group number : Nat) : OnAccounts lru Nat := do
  match ← getAllocatorForGroup space group with
  | none => throw (.error .driverError)
  | some allocator =>
      match allocator.dealloc number with
      | .ok (bit, allocator) => do
          keepAllocator space group allocator
          return bit
      | .error error => throw (.error error)

def flushBitmapCache (space : Space) (group : Nat) : OnAccounts lru Unit := do
  let self ← get
  let (popped, cache) := lru.pop (self.caches space) group
  set (self.setCache space cache)
  match popped with
  | some allocator => handleEvicted space group allocator
  | none => pure ()

def flushGroups (space : Space) : List Nat → OnAccounts lru Unit
  | [] => pure ()
  | group :: groups => do
      flushBitmapCache space group
      flushGroups space groups

def flush : OnAccounts lru Unit := do
  flushGroups .blocks (lru.keys ((← get).caches .blocks))
  flushGroups .inodes (lru.keys ((← get).caches .inodes))

end Accounts

end Campix.Ext2
