import Campix.Ext2.BitmapBlocks
import Campix.Lib.Fields

/-!
# Raw inodes and where they are

`RawInode`, `Inode::from_raw` and `Inode::get_raw`, and the accesses of `get_inode` and
`update_inode_raw` to the inode tables. A transmute to a type that there is not and an
access behind the buffer are undefined behaviour, here a panic. The number of inodes is
a parameter, since nothing else of the superblock is read for it.
-/

namespace Campix.Ext2

open Lib.Slice Lib.Word Lib.Fields

set_option autoImplicit false

@[ext]
structure RawInode where
  typeAndPermissions : UInt16
  uid : UInt16
  sizeLo : UInt32
  atime : UInt32
  ctime : UInt32
  mtime : UInt32
  dtime : UInt32
  gid : UInt16
  linksCount : UInt16
  sectorsCount : UInt32
  flags : UInt32
  ossv1 : UInt32
  directBlockPointers : Fin 12 → UInt32
  singleIndirectBlockPointer : UInt32
  doubleIndirectBlockPointer : UInt32
  tripleIndirectBlockPointer : UInt32
  generationNumber : UInt32
  extendedAttributeBlock : UInt32
  sizeHiOrDirAcl : UInt32
  fragmentBlock : UInt32
  ossv2 : Fin 12 → UInt8

namespace RawInode

/-- The numbers of the record in the order in which they are stored. -/
def row (raw : RawInode) : List Field :=
  [⟨raw.typeAndPermissions.toNat, 2⟩,
    ⟨raw.uid.toNat, 2⟩, ⟨raw.sizeLo.toNat, 4⟩, ⟨raw.atime.toNat, 4⟩,
    ⟨raw.ctime.toNat, 4⟩, ⟨raw.mtime.toNat, 4⟩, ⟨raw.dtime.toNat, 4⟩, ⟨raw.gid.toNat, 2⟩,
    ⟨raw.linksCount.toNat, 2⟩, ⟨raw.sectorsCount.toNat, 4⟩, ⟨raw.flags.toNat, 4⟩,
      ⟨raw.ossv1.toNat, 4⟩] ++
  (List.finRange 12).map (fun direct => ⟨(raw.directBlockPointers direct).toNat, 4⟩) ++
  [⟨raw.singleIndirectBlockPointer.toNat, 4⟩, ⟨raw.doubleIndirectBlockPointer.toNat, 4⟩,
    ⟨raw.tripleIndirectBlockPointer.toNat, 4⟩, ⟨raw.generationNumber.toNat, 4⟩,
    ⟨raw.extendedAttributeBlock.toNat, 4⟩, ⟨raw.sizeHiOrDirAcl.toNat, 4⟩,
      ⟨raw.fragmentBlock.toNat, 4⟩]

def bytes (raw : RawInode) : List UInt8 := pack raw.row ++ List.ofFn raw.ossv2

def ofBytes (data : List UInt8) : RawInode where
  typeAndPermissions := UInt16.ofNat (readLe data 0 2)
  uid := UInt16.ofNat (readLe data 2 2)
  sizeLo := UInt32.ofNat (readLe data 4 4)
  atime := UInt32.ofNat (readLe data 8 4)
  ctime := UInt32.ofNat (readLe data 12 4)
  mtime := UInt32.ofNat (readLe data 16 4)
  dtime := UInt32.ofNat (readLe data 20 4)
  gid := UInt16.ofNat (readLe data 24 2)
  linksCount := UInt16.ofNat (readLe data 26 2)
  sectorsCount := UInt32.ofNat (readLe data 28 4)
  flags := UInt32.ofNat (readLe data 32 4)
  ossv1 := UInt32.ofNat (readLe data 36 4)
  directBlockPointers := fun direct => UInt32.ofNat (readLe data (40 + 4 * direct.val) 4)
  singleIndirectBlockPointer := UInt32.ofNat (readLe data 88 4)
  doubleIndirectBlockPointer := UInt32.ofNat (readLe data 92 4)
  tripleIndirectBlockPointer := UInt32.ofNat (readLe data 96 4)
  generationNumber := UInt32.ofNat (readLe data 100 4)
  extendedAttributeBlock := UInt32.ofNat (readLe data 104 4)
  sizeHiOrDirAcl := UInt32.ofNat (readLe data 108 4)
  fragmentBlock := UInt32.ofNat (readLe data 112 4)
  ossv2 := fun place => data.getD (116 + place.val) 0

end RawInode

def InodeType.ofRaw : Nat → Option InodeType
  | 0x1000 => some .fifo
  | 0x2000 => some .characterDevice
  | 0x4000 => some .directory
  | 0x6000 => some .blockDevice
  | 0x8000 => some .file
  | 0xA000 => some .symlink
  | 0xC000 => some .socket
  | _ => none

structure FoundInode extends Inode where
  parentInode : Option Nat

namespace Inode

def fromRaw (rawInode : RawInode) (inodeI : Nat) (parentInode : Option Nat) : Option FoundInode :=
  match InodeType.ofRaw (rawInode.typeAndPermissions &&& 0xF000).toNat with
  | none => none
  | some inodeType => some {
      inodeType
      permissions := (rawInode.typeAndPermissions &&& 0x0FFF).toNat
      uid := rawInode.uid.toNat
      sizeLo := rawInode.sizeLo.toNat
      atime := rawInode.atime.toNat
      ctime := rawInode.ctime.toNat
      mtime := rawInode.mtime.toNat
      dtime := rawInode.dtime.toNat
      gid := rawInode.gid.toNat
      linksCount := rawInode.linksCount.toNat
      sectorsCount := rawInode.sectorsCount.toNat
      flags := rawInode.flags.toNat
      ossv1 := rawInode.ossv1.toNat
      directBlockPointers := fun direct => (rawInode.directBlockPointers direct).toNat
      singleIndirectBlockPointer := rawInode.singleIndirectBlockPointer.toNat
      doubleIndirectBlockPointer := rawInode.doubleIndirectBlockPointer.toNat
      tripleIndirectBlockPointer := rawInode.tripleIndirectBlockPointer.toNat
      generationNumber := rawInode.generationNumber.toNat
      extendedAttributeBlock := rawInode.extendedAttributeBlock.toNat
      sizeHiOrDirAcl := rawInode.sizeHiOrDirAcl.toNat
      fragmentBlock := rawInode.fragmentBlock.toNat
      ossv2 := List.ofFn rawInode.ossv2
      inodeI
      parentInode }

/-- `get_raw`, field by field; `getRaw` is the same in bytes. -/
def toRawInode (self : Inode) : RawInode where
  typeAndPermissions := UInt16.ofNat (self.inodeType.toRaw ||| self.permissions)
  uid := UInt16.ofNat self.uid
  sizeLo := UInt32.ofNat self.sizeLo
  atime := UInt32.ofNat self.atime
  ctime := UInt32.ofNat self.ctime
  mtime := UInt32.ofNat self.mtime
  dtime := UInt32.ofNat self.dtime
  gid := UInt16.ofNat self.gid
  linksCount := UInt16.ofNat self.linksCount
  sectorsCount := UInt32.ofNat self.sectorsCount
  flags := UInt32.ofNat self.flags
  ossv1 := UInt32.ofNat self.ossv1
  directBlockPointers := fun direct => UInt32.ofNat (self.directBlockPointers direct)
  singleIndirectBlockPointer := UInt32.ofNat self.singleIndirectBlockPointer
  doubleIndirectBlockPointer := UInt32.ofNat self.doubleIndirectBlockPointer
  tripleIndirectBlockPointer := UInt32.ofNat self.tripleIndirectBlockPointer
  generationNumber := UInt32.ofNat self.generationNumber
  extendedAttributeBlock := UInt32.ofNat self.extendedAttributeBlock
  sizeHiOrDirAcl := UInt32.ofNat self.sizeHiOrDirAcl
  fragmentBlock := UInt32.ofNat self.fragmentBlock
  ossv2 := fun place => self.ossv2.getD place.val 0

end Inode

namespace Ext2Volume

def getInodeGroup (volume : Ext2Volume) (inode : Nat) : Nat := sub32 inode 1 / volume.inodesPerGroup

def getInodeIndexInGroup (volume : Ext2Volume) (inode : Nat) : Nat :=
  sub32 inode 1 % volume.inodesPerGroup

/-- The block of the record, and its first byte there. -/
def inodePlace (volume : Ext2Volume) (inode : Nat) : Option (Nat × Nat) :=
  let group := volume.getInodeGroup inode
  let index := volume.getInodeIndexInGroup inode
  match volume.inodeTables[group]? with
  | none => none
  | some block =>
      let blockIndex := index / volume.inodesPerBlock
      let offsetInBlock := mul32 (index % volume.inodesPerBlock) volume.inodeSize
      some (add32 block blockIndex, offsetInBlock)

def getInode (inodesCount inode : Nat) (parentInode : Option Nat) : OnVolume FoundInode := do
  if inode = 0 ∨ inode > inodesCount then
    throw (.error .driverError)
  else
    let volume ← get
    match volume.inodePlace inode with
    | none => throw (.error .driverError)
    | some (lba, offsetInBlock) =>
        let (_, buffer) ← readBlock lba (List.replicate volume.blockSize 0)
        match getSlice buffer offsetInBlock (offsetInBlock + 128) with
        | none => throw .panic
        | some data =>
            match Inode.fromRaw (RawInode.ofBytes data) inode parentInode with
            | none => throw .panic
            | some found => return found

def updateInodeRaw (inodeI : Nat) (rawInode : RawInode) : OnVolume Unit := do
  let volume ← get
  match volume.inodePlace inodeI with
  | none => throw (.error .driverError)
  | some (lba, offsetInBlock) =>
      let (_, buffer) ← readBlock lba (List.replicate volume.blockSize 0)
      match copyFromSlice buffer offsetInBlock (offsetInBlock + 128) rawInode.bytes with
      | none => throw .panic
      | some buffer =>
          let _ ← writeBlock lba buffer

end Ext2Volume

namespace RawInode

variable {raw : RawInode}

def widths : List Nat :=
  [2, 2, 4, 4, 4, 4, 4, 2, 2, 4, 4, 4] ++ List.replicate 12 4 ++ [4, 4, 4, 4, 4, 4, 4]

theorem row_widths (raw : RawInode) : raw.row.map Field.width = widths := by
  rw [row, List.map_append, List.map_append, List.map_map]
  rfl

theorem length_row (raw : RawInode) : (pack raw.row).length = 116 := by
  rw [length_pack, row_widths]
  decide

theorem length_bytes (raw : RawInode) : raw.bytes.length = 128 := by
  rw [bytes, List.length_append, length_row, List.length_ofFn]

theorem read_field {place value width : Nat} (here : raw.row[place]? = some ⟨value, width⟩)
    (bound : value < 256 ^ width) : readLe raw.bytes ((widths.take place).sum) width = value := by
  have stored := @read_pack raw.row ⟨value, width⟩ bound (List.ofFn raw.ossv2) place here
  rwa [offsetOf, List.map_take, row_widths] at stored

theorem read_word {place offset : Nat} {word : UInt16}
    (here : raw.row[place]? = some ⟨word.toNat, 2⟩)
    (front : (widths.take place).sum = offset) : UInt16.ofNat
    (readLe raw.bytes offset 2) = word := by
  rw [← front, read_field here word.toNat_lt]
  exact UInt16.ofNat_toNat

theorem read_double {place offset : Nat} {word : UInt32}
    (here : raw.row[place]? = some ⟨word.toNat, 4⟩)
    (front : (widths.take place).sum = offset) : UInt32.ofNat
    (readLe raw.bytes offset 4) = word := by
  rw [← front, read_field here word.toNat_lt]
  exact UInt32.ofNat_toNat

theorem read_direct (raw : RawInode) (direct : Fin 12) :
    UInt32.ofNat (readLe raw.bytes (40 + 4 * direct.val) 4) = raw.directBlockPointers direct := by
  have front : ∀ direct : Fin 12,
      (widths.take (12 + direct.val)).sum = 40 + 4 * direct.val := by decide
  refine read_double ?_ (front direct)
  rw [row, List.append_assoc, List.getElem?_append_right (by simp),
    List.getElem?_append_left (by simp)]
  simp

theorem read_ossv2 (raw : RawInode) (place : Fin 12) :
    raw.bytes.getD (116 + place.val) 0 = raw.ossv2 place := by
  have length := length_row raw
  rw [List.getD_eq_getElem?_getD, bytes, List.getElem?_append_right (by omega), length,
    Nat.add_sub_cancel_left, List.getElem?_ofFn, dif_pos place.isLt]
  rfl

theorem of_bytes (raw : RawInode) : ofBytes raw.bytes = raw := by
  apply RawInode.ext
  case typeAndPermissions => exact @read_word raw 0 _ _ rfl rfl
  case uid => exact @read_word raw 1 _ _ rfl rfl
  case sizeLo => exact @read_double raw 2 _ _ rfl rfl
  case atime => exact @read_double raw 3 _ _ rfl rfl
  case ctime => exact @read_double raw 4 _ _ rfl rfl
  case mtime => exact @read_double raw 5 _ _ rfl rfl
  case dtime => exact @read_double raw 6 _ _ rfl rfl
  case gid => exact @read_word raw 7 _ _ rfl rfl
  case linksCount => exact @read_word raw 8 _ _ rfl rfl
  case sectorsCount => exact @read_double raw 9 _ _ rfl rfl
  case flags => exact @read_double raw 10 _ _ rfl rfl
  case ossv1 => exact @read_double raw 11 _ _ rfl rfl
  case directBlockPointers => exact funext (read_direct raw)
  case singleIndirectBlockPointer => exact @read_double raw 24 _ _ rfl rfl
  case doubleIndirectBlockPointer => exact @read_double raw 25 _ _ rfl rfl
  case tripleIndirectBlockPointer => exact @read_double raw 26 _ _ rfl rfl
  case generationNumber => exact @read_double raw 27 _ _ rfl rfl
  case extendedAttributeBlock => exact @read_double raw 28 _ _ rfl rfl
  case sizeHiOrDirAcl => exact @read_double raw 29 _ _ rfl rfl
  case fragmentBlock => exact @read_double raw 30 _ _ rfl rfl
  case ossv2 => exact funext (read_ossv2 raw)

end RawInode

theorem InodeType.to_raw_of_raw {value : Nat} {inodeType : InodeType}
    (known : ofRaw value = some inodeType) :
    inodeType.toRaw = value := by
  unfold ofRaw at known
  split at known <;> cases known <;> rfl

namespace Inode

theorem type_and_permissions (value : UInt16) :
    (value &&& 0xF000).toNat ||| (value &&& 0x0FFF).toNat = value.toNat := by
  rw [UInt16.toNat_and, UInt16.toNat_and, ← Nat.and_or_distrib_left]
  change value.toNat &&& (2 ^ 16 - 1) = value.toNat
  rw [Nat.and_two_pow_sub_one_eq_mod, Nat.mod_eq_of_lt value.toNat_lt]

theorem to_raw_from_raw {raw : RawInode} {inodeI : Nat} {parentInode : Option Nat}
    {found : FoundInode}
    (known : fromRaw raw inodeI parentInode = some found) : found.toRawInode = raw := by
  unfold fromRaw at known
  split at known
  · cases known
  · rename_i inodeType valid
    cases known
    have type := InodeType.to_raw_of_raw valid
    apply RawInode.ext
    case typeAndPermissions =>
      change UInt16.ofNat (inodeType.toRaw ||| (raw.typeAndPermissions &&& 0x0FFF).toNat) = _
      rw [type, type_and_permissions]
      exact UInt16.ofNat_toNat
    case directBlockPointers => exact funext fun _ => UInt32.ofNat_toNat
    case ossv2 =>
      funext place
      change (List.ofFn raw.ossv2).getD place.val 0 = raw.ossv2 place
      rw [List.getD_eq_getElem?_getD, List.getElem?_ofFn, dif_pos place.isLt]
      rfl
    all_goals first | exact UInt16.ofNat_toNat | exact UInt32.ofNat_toNat

theorem to_le_word (value : Nat) : toLe (UInt16.ofNat value).toNat 2 = toLe value 2 := by
  have low : (UInt16.ofNat value).toNat = value % 256 ^ 2 := UInt16.toNat_ofNat'
  rw [low, to_le_mod]

theorem to_le_double (value : Nat) : toLe (UInt32.ofNat value).toNat 4 = toLe value 4 := by
  have low : (UInt32.ofNat value).toNat = value % 256 ^ 4 := UInt32.toNat_ofNat'
  rw [low, to_le_mod]

theorem get_raw_bytes (inode : Inode) (complete : inode.ossv2.length = 12) :
    inode.getRaw = inode.toRawInode.bytes := by
  have rest : List.ofFn (fun place : Fin 12 => inode.ossv2.getD place.val 0) = inode.ossv2 := by
    apply List.ext_getElem?
    intro place
    rw [List.getElem?_ofFn]
    split_ifs with inside
    · rw [List.getD_eq_getElem?_getD, List.getElem?_eq_getElem (by omega)]
      rfl
    · rw [List.getElem?_eq_none (by omega)]
  have numbers : pack inode.toRawInode.row ++ inode.ossv2 = inode.getRaw := by
    -- the equation of a definition this long is too slow to make
    delta getRaw
    simp only [RawInode.row, toRawInode, pack,
      List.flatMap_append, List.flatMap_cons, List.flatMap_nil,
      List.flatMap_map, to_le_word, to_le_double, List.append_assoc, List.append_nil]
  rw [← numbers, RawInode.bytes]
  congr 1
  exact rest.symm

end Inode

end Campix.Ext2
