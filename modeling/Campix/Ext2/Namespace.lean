import Campix.Drivers.Mounting
import Campix.Ext2.Directory
import Campix.Ext2.RawInodes

/-!
# The files of a volume

`create_child`, `delete_file`, lookups and listings of `Ext2Volume`, with what they do to
inodes and directories. The bitmap of a group of inodes is what the cache of allocators
holds for it or would read from the disk, as for the blocks of a volume, and the counts of
directories are those of the descriptors in memory; the write-back of both is not modelled
here. The numbers are those of the release build, which wrap around.
-/

namespace Campix.Ext2

open Lib.Word Drivers

set_option autoImplicit false

structure FoundDirectory where
  entries : List DirectoryEntry
  inode : FoundInode

inductive Ext2FsSpecificFileData where
  | inode (inode : FoundInode)
  | directory (directory : FoundDirectory)

abbrev Ext2File := VfsFile Ext2FsSpecificFileData

structure InodeAllocator where
  minInodeInclusive : Nat
  maxInodeExclusive : Nat
  bitmap : Bitmap

namespace InodeAllocator

def allocInode (self : InodeAllocator) : Except VfsError (Nat × InodeAllocator) :=
  match self.bitmap.findFirstUnset with
  | some bitIndex =>
      .ok (add32 self.minInodeInclusive bitIndex,
        { self with bitmap := self.bitmap.setBit bitIndex true })
  | none => .error .outOfSpace

def deallocInode (self : InodeAllocator) (inode : Nat) : Except VfsError InodeAllocator :=
  if inode < self.minInodeInclusive ∨ inode ≥ self.maxInodeExclusive then
    .error .invalidArgument
  else
    let bitIndex := inode - self.minInodeInclusive
    if self.bitmap.getBit bitIndex ≠ some true then
      .error .driverError
    else
      .ok { self with bitmap := self.bitmap.setBit bitIndex false }

end InodeAllocator

def RawInode.empty : RawInode where
  typeAndPermissions := 0
  uid := 0
  sizeLo := 0
  atime := 0
  ctime := 0
  mtime := 0
  dtime := 0
  gid := 0
  linksCount := 0
  sectorsCount := 0
  flags := 0
  ossv1 := 0
  directBlockPointers := fun _ => 0
  singleIndirectBlockPointer := 0
  doubleIndirectBlockPointer := 0
  tripleIndirectBlockPointer := 0
  generationNumber := 0
  extendedAttributeBlock := 0
  sizeHiOrDirAcl := 0
  fragmentBlock := 0
  ossv2 := fun _ => 0

namespace DirectoryEntry

def hasName (self : DirectoryEntry) (name : List Char) : Bool := self.name == name

end DirectoryEntry

namespace DirectoryIterator

def moveToEntry (entry : DirectoryIteratorEntry) : OnIterator Unit := do
  modify fun self => { self with idx := entry.offset }
  let _ ← readBuffer

end DirectoryIterator

/-- The volume with its bitmaps of inodes; `inodeBitmaps` is indexed by group, and
`directoryCounts` is the column of the group descriptors. -/
structure Namespace where
  volume : Ext2Volume
  inodeBitmaps : Nat → List UInt8
  inodesCount : Nat
  directoryCounts : List Nat
  haveTypeField : Bool
  osId : Nat
  parentOsId : Nat
  rootDirFsData : Option FoundDirectory

abbrev OnNamespace := EStateM Stop Namespace

/-- The time of a call, what the heap has where its buffers are allocated one after the
other, and the rounds that its loops over a directory may take. -/
structure Surroundings where
  time : Nat
  heap : Nat → Buffers
  rounds : Nat

namespace Namespace

variable {Value : Type}

def fail (error : VfsError) : OnNamespace Value := throw (.failure (.error error))

def onDirectory (operation : EStateM Stop Ext2Volume Value) : OnNamespace Value := fun self =>
  match operation self.volume with
  | .ok value volume => .ok value { self with volume := volume }
  | .error stop volume => .error stop { self with volume := volume }

def onBlocks (operation : OnVolume Value) : OnNamespace Value := fun self =>
  match operation self.volume with
  | .ok value volume => .ok value { self with volume := volume }
  | .error failure volume => .error (.failure failure) { self with volume := volume }

def withHandle (inode : Inode) (openMode : Nat) (heap : Buffers) (operation : OnHandle Value) :
    OnNamespace Value := do
  let self ← get
  match Handle.new self.volume inode openMode heap.table1 heap.table2 heap.table3
    heap.blockCache with
  | none => throw (.failure .panic)
  | some handle =>
      match operation handle with
      | .ok value after =>
          set { self with volume := after.cursor.volume }
          return value
      | .error failure after =>
          set { self with volume := after.cursor.volume }
          throw (.failure failure)

def getInodeRangeForGroup (self : Namespace) (group : Nat) : Nat × Nat :=
  let start := mul32 group self.volume.inodesPerGroup
  let end_ := mul32 (add32 group 1) self.volume.inodesPerGroup
  (add32 start 1, min (add32 end_ 1) self.inodesCount)

def getInodeAllocatorForGroup (self : Namespace) (group : Nat) : Option InodeAllocator :=
  if self.volume.readOnly then
    none
  else if group ≥ self.volume.inodeTables.length then
    none
  else
    let (minInodeInclusive, maxInodeExclusive) := self.getInodeRangeForGroup group
    some {
      minInodeInclusive
      maxInodeExclusive
      bitmap := { data := self.inodeBitmaps group, size := sub32 maxInodeExclusive minInodeInclusive } }

def setInodeAllocator (group : Nat) (allocator : InodeAllocator) : OnNamespace Unit :=
  modify fun self =>
    { self with inodeBitmaps := Function.update self.inodeBitmaps group allocator.bitmap.data }

def allocInodeFrom : Nat → Nat → OnNamespace Nat
  | 0, _ => fail .outOfSpace
  | groups + 1, group => do
      match (← get).getInodeAllocatorForGroup group with
      | none => allocInodeFrom groups (group + 1)
      | some allocator =>
          match allocator.allocInode with
          | .ok (inode, allocator) =>
              setInodeAllocator group allocator
              return inode
          | .error _ => allocInodeFrom groups (group + 1)

def allocInodeAny : OnNamespace Nat := do
  allocInodeFrom (← get).volume.blockGroupCount 0

def getInode (inode : Nat) (parentInode : Option Nat) : OnNamespace FoundInode := do
  onBlocks (Ext2Volume.getInode (← get).inodesCount inode parentInode)

def updateInode (inode : Inode) : OnNamespace Unit := onBlocks (Cursor.updateInode inode)

def changeDirectoryCount (inodeI : Nat) (change : Nat → Nat) : OnNamespace Unit := do
  let self ← get
  let group := self.volume.getInodeGroup inodeI
  match self.directoryCounts[group]? with
  | none => fail .driverError
  | some count =>
      if self.volume.readOnly then
        fail .actionNotAllowed
      else
        set { self with directoryCounts := self.directoryCounts.set group (change count) }

def allocateInode (around : Surroundings) (uid gid : UInt16) (itype : InodeType) (permissions : Nat)
    (flags : UInt32) (ctime : Option UInt32) : OnNamespace Nat := do
  let inodeI ← allocInodeAny
  if itype = .directory then
    changeDirectoryCount inodeI fun count => add16 count 1
  let time := ctime.getD (UInt32.ofNat around.time)
  onBlocks (Ext2Volume.updateInodeRaw inodeI { RawInode.empty with
    uid, gid, flags
    typeAndPermissions := UInt16.ofNat (itype.toRaw ||| permissions)
    ctime := time
    mtime := time
    atime := time })
  return inodeI

/-- The number is given back to the allocator of its group. -/
def releaseInode (inodeI : Nat) : OnNamespace Unit := do
  let self ← get
  let group := self.volume.getInodeGroup inodeI
  match self.getInodeAllocatorForGroup group with
  | none => fail .driverError
  | some allocator =>
      match allocator.deallocInode inodeI with
      | .error error => fail error
      | .ok allocator => setInodeAllocator group allocator

def deallocInode (heap : Buffers) (inode : Inode) : OnNamespace Unit := do
  withHandle inode (openModeRead ||| openModeWrite) heap do
    Handle.truncate 0
    Handle.flush
  releaseInode inode.inodeI

def charByte (c : Char) : UInt8 := UInt8.ofNat c.toNat

def onIterator (inode : Inode) (heap : Buffers) (operation : OnIterator Value) :
    OnNamespace Value := do
  let self ← get
  onDirectory (DirectoryIterator.withIterator
    self.haveTypeField inode (openModeRead ||| openModeWrite) heap
    operation)

def changeLinks (inodeI : Nat) (change : Nat → Nat) : OnNamespace Unit := do
  let inode ← getInode inodeI none
  updateInode { inode.toInode with linksCount := change inode.linksCount }

def addInodeToDirectory (around : Surroundings) (heap : Buffers) (dirInode inodeI : Nat)
    (name : List Char)
    (entryType : DirectoryEntryType) : OnNamespace Unit := do
  changeLinks inodeI fun count => add16 count 1
  let inode ← getInode dirInode (some dirInode)
  let _ ← onIterator inode.toInode heap
    (DirectoryIterator.insertEntry around.rounds inodeI (name.map charByte) entryType)

def initDirectoryInode (around : Surroundings) (heap : Buffers) (inodeI parentInode : Nat) :
    OnNamespace Unit := do
  let inode ← getInode inodeI (some parentInode)
  let own := if inodeI = parentInode then 2 else 1
  if inodeI ≠ parentInode then
    changeLinks parentInode fun count => add16 count 1
  let inode := { inode.toInode with linksCount := add16 inode.linksCount own }
  updateInode inode
  onIterator inode heap do
    let entrySelf ← DirectoryIterator.insertEntry around.rounds inodeI [0x2E] .directory
    DirectoryIterator.moveToEntry entrySelf
    let _ ← DirectoryIterator.insertEntry around.rounds parentInode [0x2E, 0x2E] .directory

/-- `get_unix_timestamp() as u32`, but never zero. -/
def deletionTime (time : Nat) : Nat := if time % 2 ^ 32 = 0 then 1 else time % 2 ^ 32

def dropLinks (inode : Inode) (parent : Nat) : OnNamespace Nat := do
  if inode.inodeType = .directory then
    changeDirectoryCount inode.inodeI fun count => sub16 count 1
    let linksCount := sub16 inode.linksCount 2
    if parent = inode.inodeI then
      return sub16 linksCount 1
    else
      changeLinks parent fun count => sub16 count 1
      return linksCount
  else
    return sub16 inode.linksCount 1

def deleteInode (around : Surroundings) (inode : FoundInode) : OnNamespace Unit := do
  if inode.inodeType ≠ .file ∧ inode.inodeType ≠ .directory then
    fail .actionNotAllowed
  else
    match inode.parentInode with
    | none => fail .driverError
    | some parent =>
        changeLinks parent fun count => sub16 count 1
        let dirInode ← getInode parent none
        onDirectory (Directory.deleteEntry (← get).haveTypeField dirInode.toInode inode.inodeI
          (around.heap 2)
          around.rounds)
        let linksCount ← dropLinks inode.toInode parent
        let newInode := { inode.toInode with dtime := deletionTime around.time, linksCount }
        if linksCount = 0 then
          deallocInode (around.heap 3) newInode
        else
          updateInode newInode

def newDirectory (around : Surroundings) (heap : Buffers) (inode : FoundInode) :
    OnNamespace FoundDirectory := do
  let directory ← onDirectory (Directory.new (← get).haveTypeField inode.toInode openModeRead heap
    around.rounds)
  return { entries := directory.entries, inode }

def initRootInodeCache (around : Surroundings) : OnNamespace Unit := do
  let inode ← getInode 2 none
  let directory ← newDirectory around (around.heap 4) inode
  modify fun self => { self with rootDirFsData := some directory }

def refreshRoot (around : Surroundings) (isRoot : Bool) : OnNamespace Unit := do
  if isRoot then
    initRootInodeCache around

def getFileForInode (around : Surroundings) (heap : Buffers) (inodeI : Nat)
    (parentInode : Option Nat)
    (name : List Char) : OnNamespace Ext2File := do
  let inode ← getInode inodeI parentInode
  let self ← get
  let size := inode.getSize self.volume.fileSize64
  let parentFs := if inodeI = 2 then self.parentOsId else self.osId
  match inode.inodeType with
  | .directory =>
      let directory ← newDirectory around heap inode
      return ⟨.directory, name, size, parentFs, self.osId, some (.directory directory)⟩
  | .file => return ⟨.file, name, size, parentFs, self.osId, some (.inode inode)⟩
  | _ => fail .unknownError

def dataOf (file : Ext2File) : OnNamespace Ext2FsSpecificFileData := do
  if file.fs ≠ (← get).osId then
    fail .fileSystemMismatch
  else
    match file.fsSpecific with
    | none => fail .fileSystemMismatch
    | some data => return data

def getRoot : OnNamespace Ext2File := do
  let self ← get
  match self.rootDirFsData with
  | none => fail .fileSystemNotMounted
  | some directory =>
      return ⟨.directory, ['/'], 0, self.parentOsId, self.osId, some (.directory directory)⟩

def getChild (around : Surroundings) (file : Ext2File) (child : List Char) :
    OnNamespace Ext2File := do
  match ← dataOf file with
  | .inode _ => fail .notDirectory
  | .directory dir =>
      match dir.entries.find? fun entry => entry.hasName child with
      | none => fail .pathNotFound
      | some entry =>
          getFileForInode around (around.heap 1) entry.inode (some dir.inode.inodeI)
            (file.name ++ entry.name)

def listFiles (around : Surroundings) (parent : Nat) : List DirectoryEntry →
    OnNamespace (List Ext2File)
  | [] => return []
  | entry :: entries => do
      if entry.hasName ['.'] ∨ entry.hasName ['.', '.'] then
        listFiles around parent entries
      else
        let file ← getFileForInode around (around.heap 1) entry.inode (some parent) entry.name
        return file :: (← listFiles around parent entries)

def listChildren (around : Surroundings) (file : Ext2File) : OnNamespace (List Ext2File) := do
  match ← dataOf file with
  | .inode _ => fail .notDirectory
  | .directory dir => listFiles around dir.inode.inodeI dir.entries

/-- `OwnerRead` and `OtherWrite`. -/
def childPermissions : Nat := 0o400 ||| 0o002

def createChild (around : Surroundings) (directory : Ext2File) (name : List Char)
    (kind : VfsFileKind) :
    OnNamespace Ext2File := do
  if directory.fs ≠ (← get).osId then
    fail .fileSystemMismatch
  else if directory.kind ≠ .directory then
    fail .notDirectory
  else
    let parentInode := match ← dataOf directory with
      | .inode inode => inode.inodeI
      | .directory dir => dir.inode.inodeI
    match kind with
    | .file =>
        let inode ← allocateInode around 0 0 .file childPermissions 0 none
        addInodeToDirectory around (around.heap 1) parentInode inode name .file
        refreshRoot around (directory.name == ['/'])
        getFileForInode around (around.heap 5) inode (some parentInode) name
    | .directory =>
        let inode ← allocateInode around 0 0 .directory childPermissions 0 none
        addInodeToDirectory around (around.heap 1) parentInode inode name .directory
        initDirectoryInode around (around.heap 2) inode parentInode
        refreshRoot around (directory.name == ['/'])
        getFileForInode around (around.heap 5) inode (some parentInode) name
    | _ => fail .actionNotAllowed

def deleteFile (around : Surroundings) (file : Ext2File) : OnNamespace Unit := do
  match ← dataOf file with
  | .inode inode =>
      deleteInode around inode
      refreshRoot around (inode.parentInode == some 2)
  | .directory directory =>
      if directory.entries.length > 2 then
        fail .directoryNotEmpty
      else
        deleteInode around directory.inode
        refreshRoot around (directory.inode.parentInode == some 2)

end Namespace

end Campix.Ext2
