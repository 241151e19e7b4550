import Campix.Ext2.Inode

/-!
# The location of a file handle

`CachedInodeReadingLocation` of `inode.rs`: the position in the tree of pointers, the
inode and the three tables on the way, each with the block it was read from and whether
it was changed since.
-/

namespace Campix.Ext2

open Lib.Slice Lib.Word

set_option autoImplicit false

instance neZeroTables : NeZero 3 := ⟨by decide⟩

structure CachedTable where
  table : Block
  addr : Nat
  dirty : Bool

/-- `tables 0` to `tables 2` are `table1` to `table3` of the source, with their
addresses and dirty flags. -/
structure CachedInodeReadingLocation where
  location : InodeReadingLocation
  inode : Inode
  maxBlockExclusive : Int
  tables : Fin 3 → CachedTable
  inodeDirty : Bool

structure Cursor where
  volume : Ext2Volume
  location : CachedInodeReadingLocation

abbrev OnCursor := EStateM Failure Cursor

def onVolume {Value : Type} (operation : OnVolume Value) : OnCursor Value := fun cursor =>
  match operation cursor.volume with
  | .ok value volume => .ok value { cursor with volume := volume }
  | .error failure volume => .error failure { cursor with volume := volume }

def entry (table : Block) (idx : Nat) : Nat := readLe table (idx * 4) 4

def setEntry (table : Block) (idx value : Nat) : Block :=
  table.take (idx * 4) ++ toLe value 4 ++ table.drop (idx * 4 + 4)

namespace Cursor

def modifyLocation (change : CachedInodeReadingLocation → CachedInodeReadingLocation) :
    OnCursor Unit :=
  modify fun cursor => { cursor with location := change cursor.location }

def setTable (level : Fin 3) (change : CachedTable → CachedTable) : OnCursor Unit :=
  modifyLocation fun location =>
    { location with tables := Function.update location.tables level (change (location.tables level)) }

def updateInode (inode : Inode) : OnVolume Unit := do
  let volume ← get
  let group := sub32 inode.inodeI 1 / volume.inodesPerGroup
  let index := sub32 inode.inodeI 1 % volume.inodesPerGroup
  match volume.inodeTables[group]? with
  | none => throw (.error .driverError)
  | some block =>
      let lba := add32 block (index / volume.inodesPerBlock)
      let offsetInBlock := index % volume.inodesPerBlock * volume.inodeSize
      let (_, buffer) ← Ext2Volume.readBlock lba (List.replicate volume.blockSize 0)
      let raw := { inode with generationNumber := add32 inode.generationNumber 1 }.getRaw
      match copyFromSlice buffer offsetInBlock (offsetInBlock + raw.length) raw with
      | none => throw .panic
      | some buffer =>
          let _ ← Ext2Volume.writeBlock lba buffer

def saveIfAddressesDiffer (level : Fin 3) (toLoadAddr : Nat) : OnCursor Unit := do
  let cursor ← get
  let cached := cursor.location.tables level
  if cached.dirty ∧ cached.addr ≠ 0 ∧ cached.addr ≠ toLoadAddr then
    let written ← onVolume (Ext2Volume.writeBlock cached.addr cached.table)
    if written ≠ cursor.volume.blockSize then
      throw (.error .unknownError)
    else
      setTable level fun table => { table with dirty := false }

def loadTable (level : Fin 3) (addr : Nat) : OnCursor Unit := fun cursor =>
  match Ext2Volume.readBlock addr (cursor.location.tables level).table cursor.volume with
  | .ok (_, table) volume =>
      setTable level (fun old => { old with table := table, addr := addr })
        { cursor with volume := volume }
  | .error failure volume =>
      (do
        setTable level fun old => { old with addr := 0 }
        throw failure : OnCursor Unit) { cursor with volume := volume }

def checkTable (level : Fin 3) (addr : Nat) : OnCursor Unit := do
  saveIfAddressesDiffer level addr
  let cached := (← get).location.tables level
  if addr = 0 then
    setTable level fun table => { table with addr := 0 }
  else if cached.addr ≠ addr then
    loadTable level addr

def follow (level : Fin 3) (idx : Nat) : OnCursor Nat := do
  let table := ((← get).location.tables level).table
  if idx * 4 < table.length then return entry table idx else throw (.error .outOfBounds)

def checkTable1 : OnCursor Unit := do
  let location := (← get).location
  let addr :=
    match location.location.location with
    | .direct _ => 0
    | .single _ => location.inode.singleIndirectBlockPointer
    | .double _ _ => location.inode.doubleIndirectBlockPointer
    | .triple _ _ _ => location.inode.tripleIndirectBlockPointer
  checkTable 0 addr

def addrOfTable2 : OnCursor Nat := do
  match (← get).location.location.location with
  | .direct _ => return 0
  | .single _ => return 0
  | .double p1 _ => follow 0 p1
  | .triple p1 _ _ => follow 0 p1

def checkTable2 : OnCursor Unit := do
  let addr ← addrOfTable2
  checkTable 1 addr

/-- For a double indirect location this is the data block. -/
def addrOfTable3 : OnCursor Nat := do
  match (← get).location.location.location with
  | .direct _ => return 0
  | .single _ => return 0
  | .double _ p2 => follow 1 p2
  | .triple _ p2 _ => follow 1 p2

def checkTable3 : OnCursor Unit := do
  let addr ← addrOfTable3
  checkTable 2 addr

def checkTables : OnCursor Unit := do
  checkTable1
  checkTable2
  checkTable3

def seek (block : Nat) : OnCursor Unit := do
  match InodeReadingLocation.new ((← get).volume.blockSize / 4) block with
  | none => throw .panic
  | some location =>
      modifyLocation fun cached => { cached with location := location }
      checkTables

def getNextBlock : OnCursor Nat := do
  let location := (← get).location
  match location.location.location with
  | .direct direct =>
      if inside : direct < 12 then
        return location.inode.directBlockPointers ⟨direct, inside⟩
      else
        throw (.error .driverError)
  | .single single => follow 0 single
  | .double _ double => follow 1 double
  | .triple _ _ triple => follow 2 triple

/-- How much of the block at the location belongs to the file. -/
def usedSize (cursor : Cursor) : Nat :=
  if (cursor.location.location.currentBlockIdx : Int) < cursor.location.maxBlockExclusive - 1 then
    cursor.volume.blockSize
  else
    let rest := cursor.location.inode.sizeLo % cursor.volume.blockSize
    if rest = 0 then cursor.volume.blockSize else rest

def readBlock (buffer : Block) : OnCursor (Nat × Block) := do
  if buffer.length < (← get).volume.blockSize then
    throw (.error .badBufferSize)
  else
    let block ← getNextBlock
    let (_, buffer) ← onVolume (Ext2Volume.readBlock block buffer)
    return ((← get).usedSize, buffer)

def writeBlock (buffer : Block) : OnCursor Nat := do
  if buffer.length < (← get).volume.blockSize then
    throw (.error .badBufferSize)
  else
    let block ← getNextBlock
    let _ ← onVolume (Ext2Volume.writeBlock block buffer)
    return (← get).usedSize

def advance : OnCursor Bool := do
  let location := (← get).location
  if (location.location.currentBlockIdx : Int) ≥ location.maxBlockExclusive - 1 then
    return false
  else
    match location.location.advance with
    | none => return false
    | some next =>
        modifyLocation fun cached => { cached with location := next }
        checkTables
        return true

def flushTable (level : Fin 3) : OnCursor Unit := do
  let cached := (← get).location.tables level
  if cached.dirty ∧ cached.addr ≠ 0 then
    let _ ← onVolume (Ext2Volume.writeBlock cached.addr cached.table)
    setTable level fun table => { table with dirty := false }

def flush : OnCursor Unit := do
  flushTable 0
  flushTable 1
  flushTable 2
  let location := (← get).location
  if location.inodeDirty then
    onVolume (updateInode location.inode)
    modifyLocation fun cached => { cached with inodeDirty := false }

def blockCount (location : CachedInodeReadingLocation) : Nat :=
  (location.maxBlockExclusive % 2 ^ 32).toNat

end Cursor

end Campix.Ext2
