import Campix.Ext2.Growth

/-!
# File handles

`FileHandle` of `file.rs`. A handle buffers one block; the buffer is written back by
`flush`, at the block where the location stands then.
-/

namespace Campix.Ext2

open Lib.Slice Lib.Word Drivers

set_option autoImplicit false

structure BlockCacheInfo where
  block : Nat
  size : Nat
  dirty : Bool

/-- An open handle with the volume it is on; the location is part of the cursor. -/
structure Handle where
  cursor : Cursor
  openMode : Nat
  offset : Nat
  size : Nat
  blockCache : Block
  blockCacheInfo : Option BlockCacheInfo

abbrev OnHandle := EStateM Failure Handle

def onCursor {Value : Type} (operation : OnCursor Value) : OnHandle Value := fun handle =>
  match operation handle.cursor with
  | .ok value cursor => .ok value { handle with cursor := cursor }
  | .error failure cursor => .error failure { handle with cursor := cursor }

def orPanic {Value : Type} : Option Value → OnHandle Value
  | some value => pure value
  | none => throw .panic

namespace Handle

/-- `FileHandle::new`; the bytes of the buffers are those of the heap. -/
def new (volume : Ext2Volume) (inode : Inode) (openMode : Nat)
    (table1 table2 table3 blockCache : Block) :
    Option Handle := do
  let size := inode.getSize volume.fileSize64
  let location ← InodeReadingLocation.new (volume.blockSize / 4) 0
  return {
    cursor := {
      volume
      location := {
        location, inode
        maxBlockExclusive := (size + volume.blockSize - 1) / volume.blockSize
        tables := fun level => ⟨[table1, table2, table3].get level, 0, false⟩
        inodeDirty := false } }
    openMode, offset := 0, size, blockCache, blockCacheInfo := none }

def flush : OnHandle Unit := do
  onCursor Cursor.flush
  let handle ← get
  match handle.blockCacheInfo with
  | none => return
  | some info =>
      if info.dirty then
        let _ ← onCursor (Cursor.writeBlock handle.blockCache)
        modify fun handle => { handle with blockCacheInfo := some { info with dirty := false } }

def dirty : OnHandle Unit :=
  modify fun handle =>
    { handle with blockCacheInfo := handle.blockCacheInfo.map fun info => { info with dirty := true } }

def internalUpdateBuffer : OnHandle Unit := fun handle =>
  match Cursor.readBlock handle.blockCache handle.cursor with
  | .ok (read, buffer) cursor =>
      .ok () { handle with
        cursor := cursor
        blockCache := buffer
        blockCacheInfo := some ⟨cursor.location.location.currentBlockIdx, read, false⟩ }
  | .error failure cursor => .error failure { handle with cursor := cursor, blockCacheInfo := none }

/-- A block index that does not fit `u32` is an error. -/
def seek (position : SeekPosition) : OnHandle Unit := do
  let handle ← get
  match fseekHelper position handle.offset handle.size with
  | none => throw (.error .invalidSeekPosition)
  | some newOffset =>
      let blockOffset := newOffset / handle.cursor.volume.blockSize
      if blockOffset ≥ 2 ^ 32 then
        throw (.error .driverError)
      else
        modify fun handle => { handle with offset := newOffset }
        onCursor (Cursor.seek blockOffset)
        internalUpdateBuffer

def fillBuffer : OnHandle Unit := do
  if (← get).blockCacheInfo.isNone then
    internalUpdateBuffer

def readLoop (infoSize maxCount : Nat) : Nat → Nat → Block → OnHandle (Nat × Block)
  | 0, _, _ => throw .running
  | rounds + 1, read, buffer => do
      if read < maxCount then
        if ← onCursor Cursor.advance then
          internalUpdateBuffer
          let remCopy := min (maxCount - read) infoSize
          let part ← orPanic (getSlice (← get).blockCache 0 remCopy)
          let buffer ← orPanic (copyFromSlice buffer read (read + remCopy) part)
          modify fun handle => { handle with offset := handle.offset + remCopy }
          readLoop infoSize maxCount rounds (read + remCopy) buffer
        else
          return (read, buffer)
      else
        return (read, buffer)

def readFirst (maxCount : Nat) (buffer : Block) : OnHandle (Nat × Block) := do
  let handle ← get
  let bs := handle.cursor.volume.blockSize
  let currOff := handle.offset % bs
  let toCopy := min maxCount (bs - currOff)
  let part ← orPanic (getSlice handle.blockCache currOff (currOff + toCopy))
  let buffer ← orPanic (copyFromSlice buffer 0 toCopy part)
  modify fun handle => { handle with offset := handle.offset + toCopy }
  return (toCopy, buffer)

/-- The rounds are enough whenever a block brings at least one byte. -/
def readBuffered (currentBlock maxCount : Nat) (info : BlockCacheInfo) (buffer : Block) :
    OnHandle (Nat × Block) := do
  if currentBlock = info.block then
    let (read, buffer) ← readFirst maxCount buffer
    readLoop info.size maxCount (maxCount + 1) read buffer
  else
    readLoop info.size maxCount (maxCount + 1) 0 buffer

def read (buffer : Block) : OnHandle (Nat × Block) := do
  let handle ← get
  let maxCount := min buffer.length (sub64 handle.size handle.offset)
  flush
  let currentBlock := handle.offset / handle.cursor.volume.blockSize % 2 ^ 32
  fillBuffer
  match (← get).blockCacheInfo with
  | none => return (0, buffer)
  | some info => readBuffered currentBlock maxCount info buffer

end Handle

end Campix.Ext2
