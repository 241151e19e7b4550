import Campix.Ext2.DirectorySlots
import Campix.Ext2.InodeRecords

/-!
# What a volume keeps

To its callers a directory of a volume is the row of its entries, the records of the
inodes and the numbers in use. Every part of a call changes one of them and leaves the
rest, so long as the block of the directory is none of an inode table.
-/

namespace Campix.Ext2

open Lib.Fallible Lib.FirstFit Lib.Word Drivers Ext2Volume

set_option autoImplicit false

namespace RawInode

def IsFile (raw : RawInode) : Prop :=
    InodeType.ofRaw (raw.typeAndPermissions &&& 0xF000).toNat = some .file

instance (raw : RawInode) : Decidable raw.IsFile :=
  inferInstanceAs (Decidable (InodeType.ofRaw
    (raw.typeAndPermissions &&& 0xF000).toNat = some .file))

-- The index of the first pointer takes this fact by its name.
local instance : NeZero 12 := ⟨Nat.succ_ne_zero 11⟩

/-- The record of a file without blocks, and without a pointer to the first one. -/
def IsEmpty (raw : RawInode) : Prop :=
  raw.sizeLo = 0 ∧ raw.sizeHiOrDirAcl = 0 ∧ raw.directBlockPointers 0 = 0

instance (raw : RawInode) : Decidable raw.IsEmpty :=
  inferInstanceAs (Decidable (raw.sizeLo = 0 ∧
    raw.sizeHiOrDirAcl = 0 ∧ raw.directBlockPointers 0 = 0))

end RawInode

/-- The directory with this number, and all inodes. -/
structure Catalogue where
  number : Nat
  inodesCount : Nat
  row : Row DirectoryEntry
  records : Nat → RawInode
  used : Nat → Bool

namespace Catalogue

def withRow (self : Catalogue) (row : Row DirectoryEntry) : Catalogue := { self with row }

def withRecord (self : Catalogue) (number : Nat) (raw : RawInode) : Catalogue :=
  { self with records := Function.update self.records number raw }

def withMark (self : Catalogue) (number : Nat) (enabled : Bool) : Catalogue :=
  { self with used := Function.update self.used number enabled }

theorem record_self (self : Catalogue) (number : Nat) (raw : RawInode) :
    (self.withRecord number raw).records number = raw :=
  Function.update_self ..

theorem record_other {number other : Nat} (self : Catalogue) (different : other ≠ number)
    (raw : RawInode) :
    (self.withRecord number raw).records other = self.records other :=
  Function.update_of_ne different ..

def relinked (self : Catalogue) (number : Nat) (change : Nat → Nat) : Catalogue :=
  self.withRecord number ((self.records number).linked
    (change (self.records number).linksCount.toNat))

end Catalogue

variable {volume after : Ext2Volume} {catalogue later : Catalogue} {number : Nat} {raw : RawInode}
  {haveTypeField : Bool} {inode : Inode} {row : Row DirectoryEntry}

/-- A directory of one block is where its first direct pointer leads. -/
theorem laid_beside (laid : Laid haveTypeField volume inode row)
    (stores : after.Stores after.device)
    (frame : after.frame = volume.frame)
    (same : after.device (inode.directBlockPointers 0) = volume.device
      (inode.directBlockPointers 0)) :
    Laid haveTypeField after inode row := by
  obtain ⟨⟨⟨-, size, small⟩, mapped, directory, word⟩, one, short, writable, tiles⟩ := id laid
  have blockSize := block_size_of_frame frame
  have count : fileBlocks after inode = 1 :=
    (file_blocks_of_frame frame).trans (one_block laid.on one)
  refine ⟨⟨⟨stores, ?_, ?_⟩, ?_, directory, word⟩, ?_, ?_, ?_, ?_⟩
  · rw [blockSize]
    exact size
  · rw [blockSize]
    exact small
  · intro k below
    obtain rfl : k = 0 := by omega
    obtain ⟨capacity, onVolume⟩ := mapped 0 (by rw [one_block laid.on one]; exact Nat.one_pos)
    rw [blockSize, block_count_of_frame frame]
    exact ⟨capacity, onVolume⟩
  · rw [blockSize]
    exact one
  · rw [blockSize]
    exact short
  · exact (congrArg Ext2Volume.readOnly frame).trans writable
  · have block : firstBlock after inode = firstBlock volume inode := same
    rw [block]
    exact tiles

structure IsDirectory (haveTypeField : Bool) (volume : Ext2Volume) (raw : RawInode) (number : Nat)
    (row : Row DirectoryEntry) (found : FoundInode) : Prop where
  known : Inode.fromRaw raw number none = some found
  laid : Laid haveTypeField volume found.toInode row
  apart : ¬volume.IsTable (found.directBlockPointers 0)

theorem is_directory_linked {found : FoundInode}
    (directory : IsDirectory haveTypeField volume raw number row found)
    (linksCount : Nat) :
    ∃ relinked, IsDirectory haveTypeField volume (raw.linked linksCount) number row relinked := by
  obtain ⟨known, laid, apart⟩ := directory
  exact ⟨_, found_linked known linksCount,
    ⟨⟨laid.on.mounted, laid.on.mapped, laid.on.directory, laid.on.word⟩,
    laid.one, laid.small, laid.writable, laid.tiles⟩, apart⟩

theorem is_directory_beside {found : FoundInode}
    (directory : IsDirectory haveTypeField volume raw number row found)
    (stores : after.Stores after.device) (frame : after.frame = volume.frame)
    (elsewhere : ∀ lba, ¬volume.IsTable lba → after.device lba = volume.device lba) :
    IsDirectory haveTypeField after raw number row found :=
  ⟨directory.known, laid_beside directory.laid stores frame (elsewhere _ directory.apart),
    fun table =>
    directory.apart ((is_table_of_frame frame).mp table)⟩

namespace Namespace

/-- What neither the device, the cache of blocks nor a bitmap holds. -/
def frame (self : Namespace) : Namespace :=
    { self with volume := self.volume.frame, inodeBitmaps := fun _ => [] }

def withVolume (self : Namespace) (volume : Ext2Volume) : Namespace :=
    { self with volume := volume }

structure Houses (names : Namespace) (catalogue : Catalogue) : Prop where
  numbered : names.Numbered
  tables : names.volume.InodeTables
  stores : names.volume.Stores names.volume.device
  count : names.inodesCount = catalogue.inodesCount
  used : ∀ number, 1 ≤ number → names.inUse number = catalogue.used number
  records : ∀ number, 1 ≤ number → names.volume.recordAt number = catalogue.records number
  first : 1 ≤ catalogue.number
  last : catalogue.number < catalogue.inodesCount
  busy : catalogue.used catalogue.number = true
  directory : ∃ found, IsDirectory names.haveTypeField names.volume
    (catalogue.records catalogue.number)
    catalogue.number catalogue.row found

variable {names : Namespace}

theorem inodes_per_group_of_frame (frame : after.frame = volume.frame) :
    after.inodesPerGroup = volume.inodesPerGroup :=
  show after.frame.inodesPerGroup = volume.frame.inodesPerGroup by rw [frame]

theorem numbered_with_volume (numbered : names.Numbered)
    (frame : after.frame = names.volume.frame) :
    (names.withVolume after).Numbered := by
  have inodeTables : after.inodeTables = names.volume.inodeTables :=
    show after.frame.inodeTables = names.volume.frame.inodeTables by rw [frame]
  have perGroup := inodes_per_group_of_frame frame
  have groups : after.blockGroupCount = names.volume.blockGroupCount :=
    show after.frame.blockGroupCount = names.volume.frame.blockGroupCount by rw [frame]
  have locked : after.readOnly = names.volume.readOnly :=
    show after.frame.readOnly = names.volume.frame.readOnly by rw [frame]
  obtain ⟨writable, groupCount, positive, word, reaches, ends, stored⟩ := numbered
  constructor <;> simp only [withVolume, inodeTables, perGroup, groups, locked] <;> assumption

theorem in_use_with_volume (frame : after.frame = names.volume.frame) (number : Nat) :
    (names.withVolume after).inUse number = names.inUse number := by
  have perGroup := inodes_per_group_of_frame frame
  simp only [inUse, withVolume, getInodeGroup, getInodeIndexInGroup, perGroup]

theorem place_of_number (numbered : names.Numbered) (tables : names.volume.InodeTables)
    (first : 1 ≤ number)
    (last : number ≤ names.inodesCount) : ∃ lba offset,
    names.volume.inodePlace number = some (lba, offset) := by
  have ends := numbered.ends
  have before : sub32 number 1 = number - 1 := if_pos first
  have inside : names.volume.getInodeGroup number < names.volume.inodeTables.length := by
    rw [getInodeGroup, before, Nat.div_lt_iff_lt_mul numbered.perGroup]
    omega
  exact ⟨_, _, inode_place_eq tables (List.getElem?_eq_getElem inside)⟩

theorem houses_reads (houses : Houses names catalogue) (reads : Reads names.volume after) :
    Houses (names.withVolume after) catalogue := by
  obtain ⟨numbered, tables, stores, count,
    used, records, first, last, busy, found, directory⟩ := houses
  refine ⟨numbered_with_volume numbered reads.frame, tables_of_frame reads.frame tables,
    reads.stores, count,
    fun number least => ?_, fun number least => ?_, first, last, busy, found, ?_⟩
  · rw [in_use_with_volume reads.frame, used number least]
  · exact (reads_records reads number).trans (records number least)
  · exact is_directory_beside directory reads.stores reads.frame fun lba _ =>
      congrFun reads.device lba

theorem houses_records (houses : Houses names catalogue)
    (wrote : Records names.volume number raw after)
    (linked : number = catalogue.number →
      ∃ linksCount, raw = (catalogue.records number).linked linksCount) :
    Houses (names.withVolume after) (catalogue.withRecord number raw) := by
  obtain ⟨numbered, tables, stores, count,
    used, records, first, last, busy, found, directory⟩ := houses
  have moved := is_directory_beside directory wrote.stores wrote.frame wrote.elsewhere
  refine ⟨numbered_with_volume numbered wrote.frame, tables_of_frame wrote.frame tables,
    wrote.stores, count,
    fun other least => ?_, fun other least => ?_, first, last, busy, ?_⟩
  · rw [in_use_with_volume wrote.frame, used other least]
    rfl
  · refine (wrote.records other least).trans ?_
    change _ = Function.update catalogue.records number raw other
    by_cases same : other = number
    · rw [if_pos same, same, Function.update_self]
    · rw [if_neg same, Function.update_of_ne same, records other least]
  · change ∃ found, IsDirectory _ _ (Function.update catalogue.records number raw catalogue.number)
      _ _ found
    by_cases same : catalogue.number = number
    · subst same
      obtain ⟨linksCount, rfl⟩ := linked rfl
      rw [Function.update_self]
      exact is_directory_linked moved linksCount
    · rw [Function.update_of_ne same]
      exact ⟨found, moved⟩

theorem houses_row {found : FoundInode} (houses : Houses names catalogue)
    (directory : IsDirectory names.haveTypeField names.volume (catalogue.records catalogue.number)
      catalogue.number
      catalogue.row found) (wrote : LaidAfter names.haveTypeField names.volume found.toInode row
        after) :
    Houses (names.withVolume after) (catalogue.withRow row) := by
  obtain ⟨numbered, tables, stores, count, used, records, first, last, busy, -⟩ := houses
  refine ⟨numbered_with_volume numbered wrote.frame, tables_of_frame wrote.frame tables,
    wrote.laid.on.mounted.stores, count, fun other least => ?_, fun other least =>
      ?_, first, last, busy, found,
    directory.known, wrote.laid, fun table =>
      directory.apart ((is_table_of_frame wrote.frame).mp table)⟩
  · rw [in_use_with_volume wrote.frame, used other least]
    rfl
  · refine (record_at_congr wrote.frame fun lba offset place => wrote.elsewhere lba ?_).trans
      (records other least)
    rintro rfl
    exact directory.apart ⟨other, offset, place⟩

theorem houses_marked (houses : Houses names catalogue) (first : 1 ≤ number)
    (last : number < catalogue.inodesCount)
    (enabled : Bool) (stays : enabled = false → number ≠ catalogue.number) :
    Houses (names.marked number enabled) (catalogue.withMark number enabled) := by
  obtain ⟨numbered, tables, stores, count, used, records, least, below, busy, directory⟩ := houses
  refine ⟨numbered_marked numbered enabled, tables, stores, count, fun other least => ?_, records,
    least, below, ?_,
    directory⟩
  · change _ = Function.update catalogue.used number enabled other
    rw [in_use_marked numbered first (count ▸ last) enabled least, used other least,
      Function.update_apply]
  · change Function.update catalogue.used number enabled catalogue.number = true
    by_cases same : catalogue.number = number
    · rw [same, Function.update_self]
      cases enabled with
      | true => rfl
      | false => exact absurd same.symm (stays rfl)
    · rw [Function.update_of_ne same]
      exact busy

end Namespace

end Campix.Ext2
