import Campix.Ext2.FileHandle

/-!
# Writing to a file and changing its size

`truncate`, `grow` and `write` of `FileHandle`, and the calls of `Ext2Volume` on an open
handle. The loops over blocks get as many rounds as they can take: a round that returns
changes the number of blocks by one.
-/

namespace Campix.Ext2

open Lib.Slice Lib.Word Drivers

set_option autoImplicit false

namespace Handle

/-- `get_inode_mut`: the inode is changed without being marked as dirty. -/
def modifyInode (change : Inode → Inode) : OnHandle Unit :=
  onCursor (Cursor.modifyLocation fun location =>
    { location with inode := change location.inode })

def updateInode : OnHandle Unit := do
  let inode := (← get).cursor.location.inode
  onCursor (onVolume (Cursor.updateInode inode))

def blockCount (handle : Handle) : Nat := Cursor.blockCount handle.cursor.location

/-- The block count of a size; one that does not fit `u32` is an error. -/
def blocksFor (newSize : Nat) : OnHandle Nat := do
  let bs := (← get).cursor.volume.blockSize
  let newBlockCount := (newSize + bs - 1) / bs
  if newBlockCount ≥ 2 ^ 32 then
    throw (.error .driverError)
  else
    return newBlockCount

def truncateLoop (newBlockCount : Nat) : Nat → OnHandle Unit
  | 0 => throw .running
  | rounds + 1 => do
      if (← get).blockCount > newBlockCount then
        onCursor Cursor.freeLastBlock
        truncateLoop newBlockCount rounds

def truncate (newSize : Nat) : OnHandle Unit := do
  let handle ← get
  if newSize > handle.size then
    throw (.error .invalidArgument)
  else
    let newBlockCount ← blocksFor newSize
    truncateLoop newBlockCount (handle.blockCount + 1)
    modify fun handle => { handle with size := newSize }
    modifyInode fun inode => inode.setSize handle.cursor.volume.fileSize64 newSize
    updateInode
    flush
    modify fun handle => { handle with blockCacheInfo := none }
    seek (.fromStart newSize)

def growLoop (newBlockCount : Nat) : Nat → Nat → OnHandle Nat
  | 0, _ => throw .running
  | rounds + 1, diffAlloc => do
      if (← get).blockCount < newBlockCount then
        let allocatedBlockCount ← onCursor Cursor.allocateNewBlock
        growLoop newBlockCount rounds (add32 diffAlloc allocatedBlockCount)
      else
        return diffAlloc

def grow (newSize : Nat) : OnHandle Unit := do
  let handle ← get
  if newSize < handle.size then
    throw (.error .invalidArgument)
  else
    let currPos := handle.offset
    let newBlockCount ← blocksFor newSize
    let diffAlloc ← growLoop newBlockCount (newBlockCount + 1) 0
    modify fun handle => { handle with size := newSize }
    modifyInode fun inode =>
      let inode := inode.setSize handle.cursor.volume.fileSize64 newSize
      let sectors := mul32 diffAlloc handle.cursor.volume.sectorsPerBlock
      { inode with sectorsCount := add32 inode.sectorsCount sectors }
    updateInode
    flush
    modify fun handle => { handle with blockCacheInfo := none }
    seek (.fromStart currPos)

/-- `checked_next_multiple_of`; `None` is a multiple that does not fit. -/
def nextMultipleOf (value multiple : Nat) : Option Nat :=
  if (value + multiple - 1) / multiple * multiple < 2 ^ 64 then
    some ((value + multiple - 1) / multiple * multiple)
  else
    none

def putBytes (start : Nat) (bytes : Block) : OnHandle Unit := do
  let cache ← orPanic (copyFromSlice (← get).blockCache start (start + bytes.length) bytes)
  modify fun handle => { handle with
    blockCache := cache
    offset := handle.offset + bytes.length }
  dirty

def readUnlessWhole (remCopy : Nat) : OnHandle Unit := do
  if remCopy ≠ (← get).cursor.volume.blockSize then
    internalUpdateBuffer

def writeLoop (infoSize maxCount : Nat) (buffer : Block) : Nat → Nat → OnHandle Nat
  | 0, _ => throw .running
  | rounds + 1, written => do
      if written < maxCount then
        flush
        if ← onCursor Cursor.advance then
          let remCopy := min (maxCount - written) infoSize
          readUnlessWhole remCopy
          let part ← orPanic (getSlice buffer written (written + remCopy))
          putBytes 0 part
          writeLoop infoSize maxCount buffer rounds (written + remCopy)
        else
          return written
      else
        return written

def writeFirst (maxCount : Nat) (buffer : Block) : OnHandle Nat := do
  let handle ← get
  let bs := handle.cursor.volume.blockSize
  let currOff := handle.offset % bs
  let toCopy := min maxCount (bs - currOff)
  let part ← orPanic (getSlice buffer 0 toCopy)
  putBytes currOff part
  return toCopy

def writeBuffered (currentBlock maxCount : Nat) (buffer : Block) : OnHandle Nat := do
  match (← get).blockCacheInfo with
  | none => return 0
  | some info =>
      if currentBlock = info.block then
        let written ← writeFirst maxCount buffer
        writeLoop info.size maxCount buffer (maxCount + 1) written
      else
        writeLoop info.size maxCount buffer (maxCount + 1) 0

def setNewSize (newSize : Nat) : OnHandle Unit := do
  let handle ← get
  if newSize ≠ handle.size then
    modify fun handle => { handle with size := newSize }
    modifyInode fun inode => inode.setSize handle.cursor.volume.fileSize64 newSize
    updateInode

def write (buffer : Block) : OnHandle Nat := do
  let handle ← get
  let bs := handle.cursor.volume.blockSize
  let maxSize := (nextMultipleOf handle.size bs).getD handle.size
  let maxCount := min buffer.length (sub64 maxSize handle.offset)
  flush
  let currentBlock := handle.offset / bs % 2 ^ 32
  fillBuffer
  let written ← writeBuffered currentBlock maxCount buffer
  setNewSize (max handle.size (handle.offset + written))
  return written

def fseek (position : SeekPosition) : OnHandle Nat := do
  seek position
  return (← get).offset

def fread (buf : Block) : OnHandle (Nat × Block) := do
  if (← get).openMode &&& openModeRead = 0 then
    throw (.error .actionNotAllowed)
  else
    read buf

def fwrite (buf : Block) : OnHandle Nat := do
  let handle ← get
  if handle.openMode &&& openModeWrite = 0 then
    throw (.error .actionNotAllowed)
  else if handle.openMode &&& openModeNoResize = openModeNoResize then
    if handle.offset > handle.size then
      throw (.error .actionNotAllowed)
    else
      let checkedBuf ← orPanic (getSlice buf 0 (handle.size - handle.offset))
      write checkedBuf
  else
    let last := add64 handle.offset buf.length
    if last > handle.size then
      grow last
      write buf
    else
      write buf

def ftruncate : OnHandle Nat := do
  let handle ← get
  if handle.openMode &&& openModeWrite = 0 then
    throw (.error .actionNotAllowed)
  else if handle.openMode &&& openModeNoResize = openModeNoResize then
    throw (.error .actionNotAllowed)
  else
    truncate handle.offset
    return (← get).size

def fflush : OnHandle Unit := do
  if (← get).openMode &&& openModeWrite = 0 then
    throw (.error .actionNotAllowed)
  else
    flush

def fclose : OnHandle Unit := flush

end Handle

end Campix.Ext2
