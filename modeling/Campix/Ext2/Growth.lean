import Campix.Ext2.Location

/-!
# Appending and freeing blocks

`allocate_new_block` and `free_last_block` of `inode.rs`.
-/

namespace Campix.Ext2.Cursor

open Lib.Word

set_option autoImplicit false

def modifyInode (change : Inode → Inode) : OnCursor Unit :=
  modifyLocation fun location =>
    { location with inode := change location.inode, inodeDirty := true }

def setTableEntry (level : Fin 3) (idx value : Nat) : OnCursor Unit :=
  setTable level fun cached => { cached with table := setEntry cached.table idx value, dirty := true }

def tableEntry (level : Fin 3) (idx : Nat) : OnCursor Nat := do
  return entry ((← get).location.tables level).table idx

def setDirect (direct value : Nat) (inode : Inode) : Inode :=
  { inode with directBlockPointers := fun place =>
      if place.val = direct then value else inode.directBlockPointers place }

/-- The group in which to look for blocks, and the number of blocks taken so far. -/
structure Allocation where
  group : Nat
  allocCount : Nat

def balloc (allocation : Allocation) : OnCursor (Nat × Allocation) := do
  match (← get).volume.getBlockAllocatorForGroup allocation.group with
  | none => throw (.error .driverError)
  | some allocator =>
      match allocator.allocBlock with
      | .ok (block, allocator) =>
          onVolume (Ext2Volume.setBlockAllocator allocation.group allocator)
          return (block, { allocation with allocCount := add32 allocation.allocCount 1 })
      | .error _ =>
          let block ← onVolume Ext2Volume.allocBlockAny
          return (block, {
            group := sub32 block 1 / (← get).volume.blocksPerGroup
            allocCount := add32 allocation.allocCount 1 })

def moveBehindLast : OnCursor Nat := do
  let cursor ← get
  if cursor.location.maxBlockExclusive = 0 then
    seek 0
    return 0
  else
    seek (sub32 (blockCount cursor.location) 1)
    let block ← getNextBlock
    let cursor ← get
    match cursor.location.location.advance with
    | none => throw (.error .maximumSizeReached)
    | some next =>
        modifyLocation fun cached => { cached with location := next }
        return sub32 block 1 / cursor.volume.blocksPerGroup

def linkTable1 (pointer : Inode → Nat) (setPointer : Nat → Inode → Inode)
    (allocation : Allocation) :
    OnCursor Allocation := do
  if pointer (← get).location.inode = 0 then
    let (block, allocation) ← balloc allocation
    modifyInode (setPointer block)
    checkTable1
    return allocation
  else
    return allocation

def fillEntry (level : Fin 3) (idx : Nat) (load : OnCursor Unit) (allocation : Allocation) :
    OnCursor Allocation := do
  if (← tableEntry level idx) = 0 then
    let (block, allocation) ← balloc allocation
    setTableEntry level idx block
    load
    return allocation
  else
    return allocation

def setSingle (value : Nat) (inode : Inode) : Inode :=
    { inode with singleIndirectBlockPointer := value }
def setDouble (value : Nat) (inode : Inode) : Inode :=
    { inode with doubleIndirectBlockPointer := value }
def setTriple (value : Nat) (inode : Inode) : Inode :=
    { inode with tripleIndirectBlockPointer := value }

def appendBlock (allocation : Allocation) : OnCursor Allocation := do
  let location := (← get).location
  match location.location.location with
  | .direct direct =>
      if inside : direct < 12 then
        if location.inode.directBlockPointers ⟨direct, inside⟩ = 0 then
          let (block, allocation) ← balloc allocation
          modifyInode (setDirect direct block)
          return allocation
        else
          return allocation
      else
        throw .panic
  | .single idx0 =>
      let allocation ← linkTable1 Inode.singleIndirectBlockPointer setSingle allocation
      fillEntry 0 idx0 (pure ()) allocation
  | .double idx0 idx1 =>
      let allocation ← linkTable1 Inode.doubleIndirectBlockPointer setDouble allocation
      let allocation ← fillEntry 0 idx0 checkTable2 allocation
      fillEntry 1 idx1 (pure ()) allocation
  | .triple idx0 idx1 idx2 =>
      let allocation ← linkTable1 Inode.tripleIndirectBlockPointer setTriple allocation
      let allocation ← fillEntry 0 idx0 checkTable2 allocation
      let allocation ← fillEntry 1 idx1 checkTable3 allocation
      fillEntry 2 idx2 (pure ()) allocation

def allocateNewBlock : OnCursor Nat := do
  let group ← moveBehindLast
  let cursor ← get
  let currentSectorCount := mul32 (blockCount cursor.location) cursor.volume.sectorsPerBlock
  if currentSectorCount + 4 * cursor.volume.sectorsPerBlock > 0xFFFF_FFFF then
    throw (.error .maximumSizeReached)
  else
    let allocation ← appendBlock ⟨group, 0⟩
    modifyLocation fun location =>
      { location with maxBlockExclusive := location.maxBlockExclusive + 1 }
    return allocation.allocCount

def dealloc (group block : Nat) : OnCursor Unit := do
  match (← get).volume.getBlockAllocatorForGroup group with
  | none => throw (.error .driverError)
  | some allocator =>
      match allocator.deallocBlock block with
      | .error error => throw (.error error)
      | .ok allocator => onVolume (Ext2Volume.setBlockAllocator group allocator)

def freeEntry (group : Nat) (level : Fin 3) (idx : Nat) : OnCursor Unit := do
  dealloc group (← tableEntry level idx)
  setTableEntry level idx 0

def unlinkTable1 (group : Nat) (setPointer : Nat → Inode → Inode) : OnCursor Unit := do
  modifyInode (setPointer 0)
  dealloc group ((← get).location.tables 0).addr

def freeLastBlock : OnCursor Unit := do
  let cursor ← get
  if cursor.location.maxBlockExclusive = 0 then
    return
  else
    seek (sub32 (blockCount cursor.location) 1)
    let block ← getNextBlock
    let group := sub32 block 1 / cursor.volume.blocksPerGroup
    dealloc group block
    match (← get).location.location.location with
    | .direct direct => modifyInode (setDirect direct 0)
    | .single idx0 =>
        setTableEntry 0 idx0 0
        if idx0 = 0 then unlinkTable1 group setSingle
    | .double idx0 idx1 =>
        setTableEntry 1 idx1 0
        if idx1 = 0 then
          freeEntry group 0 idx0
          if idx0 = 0 then unlinkTable1 group setDouble
    | .triple idx0 idx1 idx2 =>
        setTableEntry 2 idx2 0
        if idx2 = 0 then
          freeEntry group 1 idx1
          if idx1 = 0 then
            freeEntry group 0 idx0
            if idx0 = 0 then unlinkTable1 group setTriple
    modifyLocation fun location =>
      { location with maxBlockExclusive := location.maxBlockExclusive - 1 }

end Campix.Ext2.Cursor
