import Campix.Ext2.Resizing

/-!
# Directories

`DirectoryIterator` and `Directory` of `file.rs`. The iterator keeps one block of the
directory in a buffer and walks along the records by their lengths. Headers are read and
written through a raw pointer; one that does not lie in the buffer is `outside`.
-/

namespace Campix.Ext2

open Lib.Slice Lib.Word Drivers

set_option autoImplicit false

/-- `outside` is an access to memory behind the buffer, which has no defined result. -/
inductive Stop where
  | failure (failure : Failure)
  | outside
  deriving DecidableEq

inductive DirectoryEntryType where
  | unknown
  | file
  | directory
  | characterDevice
  | blockDevice
  | bufferFile
  | socketFile
  | symlink

def DirectoryEntryType.toRaw : DirectoryEntryType → Nat
  | .unknown => 0
  | .file => 1
  | .directory => 2
  | .characterDevice => 3
  | .blockDevice => 4
  | .bufferFile => 5
  | .socketFile => 6
  | .symlink => 7

structure DirectoryEntryRaw where
  inode : Nat
  entrySize : Nat
  lenLo : Nat
  typeOrLenHi : Nat

namespace DirectoryEntryRaw

def size : Nat := 8

def read (bytes : Block) (offset : Nat) : DirectoryEntryRaw where
  inode := readLe bytes offset 4
  entrySize := readLe bytes (offset + 4) 2
  lenLo := readLe bytes (offset + 6) 1
  typeOrLenHi := readLe bytes (offset + 7) 1

def bytes (raw : DirectoryEntryRaw) : List UInt8 :=
  toLe raw.inode 4 ++ toLe raw.entrySize 2 ++ toLe raw.lenLo 1 ++ toLe raw.typeOrLenHi 1

def nameLen (haveTypeField : Bool) (raw : DirectoryEntryRaw) : Nat :=
  if haveTypeField then raw.lenLo else raw.typeOrLenHi <<< 8 + raw.lenLo

end DirectoryEntryRaw

structure DirectoryEntry where
  inode : Nat
  name : List Char
  deriving DecidableEq

structure DirectoryIteratorEntry where
  entry : DirectoryEntry
  prevEntryOffset : Option Nat
  offset : Nat
  recLen : Nat
  deriving DecidableEq

/-- The handle has the volume; `haveTypeField` is a feature of its superblock. -/
structure DirectoryIterator where
  handle : Handle
  size : Nat
  buffer : Block
  bufferIdx : Nat
  idx : Nat
  haveTypeField : Bool
  lastEntryOffset : Option Nat

abbrev OnIterator := EStateM Stop DirectoryIterator

/-- What the heap had where the buffers of an iterator and of its handle are allocated. -/
structure Buffers where
  buffer : Block
  table1 : Block
  table2 : Block
  table3 : Block
  blockCache : Block

def onHandle {Value : Type} (operation : OnHandle Value) : OnIterator Value := fun self =>
  match operation self.handle with
  | .ok value handle => .ok value { self with handle := handle }
  | .error failure handle => .error (.failure failure) { self with handle := handle }

/-- A slice of the buffer out of range panics. -/
def sliced {Value : Type} : Option Value → OnIterator Value
  | some value => pure value
  | none => throw (.failure .panic)

def succeeds {Value : Type} (operation : OnIterator Value) : OnIterator (Option Value) :=
    fun self =>
  match operation self with
  | .ok value after => .ok (some value) after
  | .error (.failure (.error _)) after => .ok none after
  | .error stop after => .error stop after

namespace DirectoryIterator

def new (volume : Ext2Volume) (haveTypeField : Bool) (inode : Inode) (openMode : Nat)
    (heap : Buffers) :
    Except Failure DirectoryIterator :=
  let size := inode.getSize volume.fileSize64
  let bs := volume.blockSize
  if bs = 0 then
    .error .panic
  else if size % bs ≠ 0 then
    .error (.error .invalidDataStructure)
  else
    match Handle.new volume inode openMode heap.table1 heap.table2 heap.table3 heap.blockCache with
    | none => .error .panic
    | some handle =>
        .ok {
          handle, size
          buffer := heap.buffer
          bufferIdx := 2 ^ 64 - 1
          idx := 0
          haveTypeField
          lastEntryOffset := none }

def blockSize (self : DirectoryIterator) : Nat := self.handle.cursor.volume.blockSize

def readBuffer : OnIterator Nat := do
  let self ← get
  let bufferIdx := self.idx / self.blockSize
  let idx := self.idx % self.blockSize
  if bufferIdx ≠ self.bufferIdx then
    let (_, buffer) ← onHandle (Handle.read self.buffer)
    modify fun self => { self with buffer := buffer, bufferIdx := bufferIdx }
  return idx

/-- `read_volatile` of a header at an offset from the start of the buffer. -/
def readHeader (offset : Nat) : OnIterator DirectoryEntryRaw := do
  let buffer := (← get).buffer
  if offset + DirectoryEntryRaw.size ≤ buffer.length then
    return DirectoryEntryRaw.read buffer offset
  else
    throw .outside

def writeHeader (offset : Nat) (raw : DirectoryEntryRaw) : OnIterator Unit := do
  let buffer := (← get).buffer
  if offset + DirectoryEntryRaw.size ≤ buffer.length then
    modify fun self => { self with buffer := splice buffer offset raw.bytes }
  else
    throw .outside

/-- `copy_from_slice` into the buffer at an offset. -/
def putName (offset : Nat) (name : List UInt8) : OnIterator Unit := do
  let buffer ← sliced (copyFromSlice (← get).buffer offset (offset + name.length) name)
  modify fun self => { self with buffer := buffer }

def nextLoop : Nat → OnIterator (Option DirectoryIteratorEntry)
  | 0 => throw (.failure .running)
  | rounds + 1 => do
      let self ← get
      if self.idx ≥ self.size then
        return none
      else
        match ← succeeds readBuffer with
        | none => return none
        | some idx =>
            -- the index of the directory is used where the one of the block belongs
            let entryRaw ← readHeader self.idx
            let nameOffset := idx + DirectoryEntryRaw.size
            let nameLen := entryRaw.nameLen self.haveTypeField
            let name ← sliced (getSlice (← get).buffer nameOffset (nameOffset + nameLen))
            modify fun self => { self with idx := add64 self.idx entryRaw.entrySize }
            if entryRaw.inode ≠ 0 then
              modify fun after => { after with lastEntryOffset := some self.idx }
              return some {
                entry := { inode := entryRaw.inode, name := name.map fun c => Char.ofNat c.toNat }
                prevEntryOffset := self.lastEntryOffset
                offset := self.idx
                recLen := entryRaw.entrySize }
            else if entryRaw.entrySize = 0 then
              return none
            else
              nextLoop rounds

def next : OnIterator (Option DirectoryIteratorEntry) := do
  nextLoop ((← get).size + 1)

/-- `done!`: the buffer is written to its block. -/
def writeBuffer : OnIterator Unit := do
  let self ← get
  let pos := mul64 self.bufferIdx self.blockSize
  onHandle (Handle.seek (.fromStart pos))
  let _ ← onHandle (Handle.write self.buffer)
  onHandle Handle.flush

def deleteDone (entry : DirectoryIteratorEntry) : OnIterator Unit := do
  writeBuffer
  modify fun self => { self with idx := add64 entry.offset entry.recLen }
  let _ ← readBuffer

def previousInBuffer (self : DirectoryIterator) (entry : DirectoryIteratorEntry) : Option Nat :=
  entry.prevEntryOffset.filter fun previous => previous / self.blockSize = self.bufferIdx

def deleteEntry (entry : DirectoryIteratorEntry) : OnIterator Unit := do
  modify fun self => { self with idx := entry.offset }
  let idx ← readBuffer
  let self ← get
  let entryRaw ← readHeader self.idx
  let nameLen := entryRaw.nameLen self.haveTypeField
  putName (idx + DirectoryEntryRaw.size) (List.replicate nameLen 0)
  let previous := self.previousInBuffer entry
  let entrySize := if previous.isSome then 0 else entryRaw.entrySize
  writeHeader self.idx { inode := 0, entrySize, lenLo := 0, typeOrLenHi := 0 }
  match previous with
  | none => deleteDone entry
  | some previous =>
      modify fun self => { self with idx := previous }
      let idx := previous % self.blockSize
      let prevEntryRaw ← readHeader idx
      let recLen := prevEntryRaw.entrySize + entry.recLen
      writeHeader idx (if recLen < 2 ^ 16 then { prevEntryRaw with entrySize := recLen }
        else prevEntryRaw)
      deleteDone entry

/-- `self.next().ok_or(VfsError::UnknownError)`. -/
def nextOrUnknown : OnIterator DirectoryIteratorEntry := do
  match ← next with
  | some entry => return entry
  | none => throw (.failure (.error .unknownError))

def typeField (haveTypeField : Bool) (entryType : DirectoryEntryType) : Nat :=
  if haveTypeField then entryType.toRaw else 0

/-- `next_multiple_of(4)`. -/
def roundUp (length : Nat) : Nat := (length + 3) / 4 * 4

def reuseRecord (inodeI : Nat) (name : List UInt8) (entryType : DirectoryEntryType)
    (entry : DirectoryIteratorEntry) : OnIterator DirectoryIteratorEntry := do
  modify fun self => { self with idx := entry.offset }
  let idx ← readBuffer
  let entryRaw ← readHeader idx
  putName (idx + DirectoryEntryRaw.size) name
  writeHeader idx { entryRaw with
    inode := inodeI, typeOrLenHi := typeField (← get).haveTypeField entryType, lenLo :=
      name.length }
  writeBuffer
  nextOrUnknown

def splitRecord (inodeI : Nat) (name : List UInt8) (entryType : DirectoryEntryType)
    (entry : DirectoryIteratorEntry)
    (intrinsicSize freeSize : Nat) : OnIterator DirectoryIteratorEntry := do
  modify fun self => { self with idx := entry.offset }
  let idx ← readBuffer
  let oldEntryRaw ← readHeader idx
  writeHeader idx { oldEntryRaw with entrySize := intrinsicSize % 2 ^ 16 }
  modify fun self => { self with idx := add64 self.idx intrinsicSize }
  let idx := idx + intrinsicSize
  let _ ← readHeader idx
  putName (idx + DirectoryEntryRaw.size) name
  writeHeader idx {
    inode := inodeI
    entrySize := freeSize % 2 ^ 16
    lenLo := name.length
    typeOrLenHi := typeField (← get).haveTypeField entryType }
  writeBuffer
  nextOrUnknown

def appendRecord (inodeI : Nat) (name : List UInt8) (entryType : DirectoryEntryType) :
    OnIterator DirectoryIteratorEntry := do
  let self ← get
  let bs := self.blockSize
  if bs > 0xFFFF then
    throw (.failure (.error .invalidDataStructure))
  else if self.idx % bs ≠ 0 then
    throw (.failure (.error .invalidDataStructure))
  else
    modify fun self => { self with idx := self.size, size := add64 self.size bs }
    onHandle (Handle.grow (← get).size)
    modify fun self => { self with bufferIdx := self.idx / bs, buffer := List.replicate self.buffer.length 0 }
    putName DirectoryEntryRaw.size name
    writeHeader 0 {
      inode := inodeI
      entrySize := bs
      lenLo := name.length
      typeOrLenHi := typeField self.haveTypeField entryType }
    writeBuffer
    nextOrUnknown

def insertLoop (inodeI : Nat) (name : List UInt8) (entryType : DirectoryEntryType)
    (neededSpace : Nat) :
    Nat → OnIterator DirectoryIteratorEntry
  | 0 => throw (.failure .running)
  | rounds + 1 => do
      match ← next with
      | none => appendRecord inodeI name entryType
      | some entry =>
          if entry.entry.inode = 0 ∧ entry.recLen ≥ neededSpace then
            reuseRecord inodeI name entryType entry
          else
            let intrinsicSize := DirectoryEntryRaw.size + roundUp entry.entry.name.length
            let freeSize := sub64 entry.recLen intrinsicSize
            if freeSize ≥ neededSpace then
              splitRecord inodeI name entryType entry intrinsicSize freeSize
            else
              insertLoop inodeI name entryType neededSpace rounds

def insertEntry (rounds : Nat) (inodeI : Nat) (name : List UInt8) (entryType : DirectoryEntryType) :
    OnIterator DirectoryIteratorEntry := do
  if name.length > 255 then
    throw (.failure (.error .nameTooLong))
  else
    insertLoop inodeI name entryType (roundUp name.length + DirectoryEntryRaw.size) rounds

def entries : Nat → OnIterator (List DirectoryEntry)
  | 0 => throw (.failure .running)
  | rounds + 1 => do
      match ← next with
      | none => return []
      | some entry => return entry.entry :: (← entries rounds)

def deleteLoop (entryInode : Nat) : Nat → OnIterator Unit
  | 0 => throw (.failure .running)
  | rounds + 1 => do
      match ← next with
      | none => throw (.failure (.error .entryNotFound))
      | some entry =>
          if entry.entry.inode = entryInode then
            deleteEntry entry
          else
            deleteLoop entryInode rounds

def withIterator {Value : Type} (haveTypeField : Bool) (inode : Inode) (openMode : Nat)
    (heap : Buffers)
    (operation : OnIterator Value) : EStateM Stop Ext2Volume Value := fun volume =>
  match new volume haveTypeField inode openMode heap with
  | .error failure => .error (.failure failure) volume
  | .ok iterator =>
      match operation iterator with
      | .ok value after => .ok value after.handle.cursor.volume
      | .error stop after => .error stop after.handle.cursor.volume

end DirectoryIterator

structure Directory where
  entries : List DirectoryEntry
  inode : Inode

namespace Directory

def new (haveTypeField : Bool) (inode : Inode) (openMode : Nat) (heap : Buffers) (rounds : Nat) :
    EStateM Stop Ext2Volume Directory := do
  let entries ← DirectoryIterator.withIterator haveTypeField inode openMode heap
    (DirectoryIterator.entries rounds)
  return { entries, inode }

def deleteEntry (haveTypeField : Bool) (inode : Inode) (entryInode : Nat) (heap : Buffers)
    (rounds : Nat) :
    EStateM Stop Ext2Volume Unit :=
  DirectoryIterator.withIterator haveTypeField inode openModeWrite heap
    (DirectoryIterator.deleteLoop entryInode rounds)

end Directory

end Campix.Ext2
