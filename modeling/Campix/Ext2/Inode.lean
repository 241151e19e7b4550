import Campix.Ext2.Volume

/-!
# Where the blocks of a file are

`InodeReadingLocation` and `CachedInodeReadingLocation` of `inode.rs`. The numbers are
`u32` and wrap. A location walks up to three tables of block pointers, which it keeps
in memory with the block each was read from.
-/

namespace Campix.Ext2

open Lib.Slice Lib.Word

set_option autoImplicit false

inductive InodeType where
  | fifo
  | characterDevice
  | directory
  | blockDevice
  | file
  | symlink
  | socket
  deriving DecidableEq

def InodeType.toRaw : InodeType → Nat
  | .fifo => 0x1000
  | .characterDevice => 0x2000
  | .directory => 0x4000
  | .blockDevice => 0x6000
  | .file => 0x8000
  | .symlink => 0xA000
  | .socket => 0xC000

structure Inode where
  inodeType : InodeType
  permissions : Nat
  uid : Nat
  sizeLo : Nat
  atime : Nat
  ctime : Nat
  mtime : Nat
  dtime : Nat
  gid : Nat
  linksCount : Nat
  sectorsCount : Nat
  flags : Nat
  ossv1 : Nat
  directBlockPointers : Fin 12 → Nat
  singleIndirectBlockPointer : Nat
  doubleIndirectBlockPointer : Nat
  tripleIndirectBlockPointer : Nat
  generationNumber : Nat
  extendedAttributeBlock : Nat
  sizeHiOrDirAcl : Nat
  fragmentBlock : Nat
  ossv2 : List UInt8
  inodeI : Nat

namespace Inode

def getRaw (inode : Inode) : List UInt8 :=
  toLe (inode.inodeType.toRaw ||| inode.permissions) 2 ++ toLe inode.uid 2 ++ toLe inode.sizeLo 4 ++
    toLe inode.atime 4 ++ toLe inode.ctime 4 ++ toLe inode.mtime 4 ++ toLe inode.dtime 4 ++
    toLe inode.gid 2 ++ toLe inode.linksCount 2 ++ toLe inode.sectorsCount 4 ++ toLe
      inode.flags 4 ++
    toLe inode.ossv1 4 ++ (List.finRange 12).flatMap
      (fun direct => toLe (inode.directBlockPointers direct) 4) ++
    toLe inode.singleIndirectBlockPointer 4 ++ toLe inode.doubleIndirectBlockPointer 4 ++
    toLe inode.tripleIndirectBlockPointer 4 ++ toLe inode.generationNumber 4 ++
    toLe inode.extendedAttributeBlock 4 ++ toLe inode.sizeHiOrDirAcl 4 ++ toLe
      inode.fragmentBlock 4 ++
    inode.ossv2

def getSize (inode : Inode) (fileSize64 : Bool) : Nat :=
  if inode.inodeType = .file ∧ fileSize64 then
    inode.sizeHiOrDirAcl <<< 32 ||| inode.sizeLo
  else
    inode.sizeLo

def setSize (inode : Inode) (fileSize64 : Bool) (size : Nat) : Inode :=
  if inode.inodeType = .file ∧ fileSize64 then
    { inode with sizeHiOrDirAcl := (size >>> 32) % 2 ^ 32, sizeLo := size % 2 ^ 32 }
  else
    { inode with sizeLo := size % 2 ^ 32 }

end Inode

inductive InodeReadingLocationInfo where
  | direct (direct : Nat)
  | single (single : Nat)
  | double (double1 double2 : Nat)
  | triple (triple1 triple2 triple3 : Nat)
  deriving DecidableEq

structure InodeReadingLocation where
  location : InodeReadingLocationInfo
  tableSize : Nat

namespace InodeReadingLocation

/-- A division by zero panics. -/
def new (tableSize blockIdx : Nat) : Option InodeReadingLocation :=
  let tableSize2 := mul32 tableSize tableSize
  if blockIdx < 12 then
    some ⟨.direct blockIdx, tableSize⟩
  else
    let idx := blockIdx - 12
    if idx < tableSize then
      some ⟨.single idx, tableSize⟩
    else
      let idx := idx - tableSize
      if idx < tableSize2 then
        some ⟨.double (idx / tableSize) (idx % tableSize), tableSize⟩
      else
        let idx := idx - tableSize2
        if tableSize2 = 0 ∨ tableSize = 0 then
          none
        else
          some ⟨.triple (idx / tableSize2) (idx % tableSize2 / tableSize) (idx % tableSize),
            tableSize⟩

def currentBlockIdx (self : InodeReadingLocation) : Nat :=
  match self.location with
  | .direct direct => direct
  | .single single => add32 12 single
  | .double double1 double2 =>
      add32 (add32 (add32 12 self.tableSize) (mul32 double1 self.tableSize)) double2
  | .triple triple1 triple2 triple3 =>
      add32
        (add32
          (add32 (add32 (add32 12 self.tableSize) (mul32 self.tableSize self.tableSize))
            (mul32 (mul32 triple1 self.tableSize) self.tableSize))
          (mul32 triple2 self.tableSize))
        triple3

/-- `None` is the result `false`, with which the location stays. -/
def advance (self : InodeReadingLocation) : Option InodeReadingLocation :=
  let last := sub32 self.tableSize 1
  match self.location with
  | .direct direct =>
      if direct = 11 then some { self with location := .single 0 }
      else some { self with location := .direct (add32 direct 1) }
  | .single single =>
      if single = last then some { self with location := .double 0 0 }
      else some { self with location := .single (add32 single 1) }
  | .double double1 double2 =>
      if double1 = last ∧ double2 = last then some { self with location := .triple 0 0 0 }
      else if double2 = last then some { self with location := .double (add32 double1 1) 0 }
      else some { self with location := .double double1 (add32 double2 1) }
  | .triple triple1 triple2 triple3 =>
      if triple1 = last ∧ triple2 = last ∧ triple3 = last then none
      else if triple2 = last ∧ triple3 = last then
        some { self with location := .triple (add32 triple1 1) 0 0 }
      else if triple3 = last then some { self with location := .triple triple1 (add32 triple2 1) 0 }
      else some { self with location := .triple triple1 triple2 (add32 triple3 1) }

end InodeReadingLocation

end Campix.Ext2
