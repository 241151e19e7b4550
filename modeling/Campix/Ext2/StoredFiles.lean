import Campix.Ext2.GrownFiles
import Campix.Ext2.SparseFiles

/-!
# Files that are read back

The record of an inode gives the inode back that it was made of, but for its generation,
and a file without holes has the bytes of its blocks. What the data blocks hold does not
matter to where they are.
-/

namespace Campix.Ext2

open Lib.Blocks Lib.Outcome Lib.Word
open Drivers Ext2Volume

set_option autoImplicit false

def fileContents (volume : Ext2Volume) (inode : Inode) : List UInt8 :=
  (sparseBytes volume inode).take (inode.getSize volume.fileSize64)

def HasContents (volume : Ext2Volume) (inodesCount number : Nat) (bytes : List UInt8) : Prop :=
  ∃ found, answerOf (getInode inodesCount number none volume) = .ok found ∧
    fileContents volume found.toInode = bytes

/-- The fields that are read back are those that were written. -/
structure Storable (inode : Inode) : Prop where
  file : inode.inodeType = .file
  known : InodeType.ofRaw (inode.toRawInode.typeAndPermissions &&& 0xF000).toNat = some .file
  pointers : ∀ place, inode.pointer place < 2 ^ 32
  sizeLo : inode.sizeLo < 2 ^ 32
  sizeHi : inode.sizeHiOrDirAcl < 2 ^ 32

theorem record_read_back {inode : Inode} (storable : Storable inode) (parentInode : Option Nat) :
    ∃ found, inodeOf (some (recordOf inode)) inode.inodeI parentInode = .ok found ∧
      found.toInode.pointer = inode.pointer ∧
      ∀ fileSize64, found.getSize fileSize64 = inode.getSize fileSize64 := by
  obtain ⟨file, known, pointers, sizeLo, sizeHi⟩ := storable
  have words : ∀ {value : Nat}, value < 2 ^ 32 → (UInt32.ofNat value).toNat = value :=
    fun small => UInt32.toNat_ofNat_of_lt' small
  unfold inodeOf recordOf
  dsimp only
  rw [RawInode.of_bytes]
  unfold Inode.fromRaw
  have same : InodeType.ofRaw (({ inode with generationNumber := add32 inode.generationNumber 1 } :
      Inode).toRawInode.typeAndPermissions &&& 0xF000).toNat = some .file := known
  rw [same]
  refine ⟨_, rfl, ?_, ?_⟩
  · funext place
    have small := pointers place
    unfold Inode.pointer at small ⊢
    unfold Inode.toRawInode
    dsimp only
    split_ifs at small ⊢ <;> exact words small
  · intro fileSize64
    unfold Inode.getSize Inode.toRawInode
    dsimp only
    rw [words sizeLo, words sizeHi, file]

theorem storable_found {raw : RawInode} {number : Nat} {parentInode : Option Nat}
    {found : FoundInode}
    (known : Inode.fromRaw raw number parentInode = some found) (file : found.inodeType = .file) :
    Storable found.toInode := by
  have back := Inode.to_raw_from_raw known
  unfold Inode.fromRaw at known
  split at known
  · cases known
  · rename_i inodeType valid
    cases known
    obtain rfl : inodeType = .file := file
    refine ⟨rfl, by rw [back]; exact valid, fun place => ?_, UInt32.toNat_lt _, UInt32.toNat_lt _⟩
    unfold Inode.pointer
    dsimp only
    split_ifs <;> first | exact UInt32.toNat_lt _ | decide

/-- A pointer of the inode leads to a block of its tree. -/
theorem root_reachable {roots : Nat → Nat} {contents : Contents} {tableSize place : Nat}
    (positive : 0 < tableSize)
    (small : place < 15) (nonzero : roots place ≠ 0) : roots place ∈ reachable roots contents
    tableSize := by
  obtain ⟨location, digits, here⟩ : ∃ location, Digits tableSize location ∧
      root location = place := by
    rcases Nat.lt_or_ge place 12 with direct | _
    · exact ⟨.direct place, direct, rfl⟩
    · obtain rfl | rfl | rfl : place = 12 ∨ place = 13 ∨ place = 14 := by omega
      · exact ⟨.single 0, positive, rfl⟩
      · exact ⟨.double 0 0, ⟨positive, positive⟩, rfl⟩
      · exact ⟨.triple 0 0 0, ⟨positive, positive, positive⟩, rfl⟩
  have first : (route roots contents location)[0]? = some (roots place) := by
    rw [← here]
    exact chase_head _ _
  exact reachable_of_place digits first nonzero

theorem pointer_word {inode : Inode} {contents : Contents} {tableSize n count : Nat}
    {Used : Nat → Prop}
    (tree : FileTree inode.pointer contents tableSize Used n) (positive : 0 < tableSize)
    (onDevice : ∀ block, Used block → block < count) (word : count < 2 ^ 32) (place : Nat) :
    inode.pointer place < 2 ^ 32 := by
  by_cases zero : inode.pointer place = 0
  · rw [zero]
    decide
  · have small : place < 15 := by
      by_contra behind
      apply zero
      unfold Inode.pointer
      rw [dif_neg (by omega), if_neg (by omega), if_neg (by omega), if_neg (by omega)]
    exact Nat.lt_trans (onDevice _ (tree.used _ (root_reachable positive small zero))) word

theorem storable_grown {inode base : Inode} {fileSize64 : Bool} {newSize sectors : Nat}
    (storable : Storable base)
    (same : inode.unlinked = base.unlinked) (pointers : ∀ place, inode.pointer place < 2 ^ 32) :
    Storable (inode.grown fileSize64 newSize sectors) := by
  obtain ⟨-, -, type, permissions⟩ := grown_fixed inode fileSize64 newSize sectors
  have sameType : inode.inodeType = base.inodeType :=
    show inode.unlinked.inodeType = base.unlinked.inodeType by rw [same]
  have samePermissions : inode.permissions = base.permissions :=
    show inode.unlinked.permissions = base.unlinked.permissions by rw [same]
  have sizes : inode.sizeLo < 2 ^ 32 ∧ inode.sizeHiOrDirAcl < 2 ^ 32 :=
    ⟨show inode.unlinked.sizeLo < _ by rw [same]; exact storable.sizeLo,
      show inode.unlinked.sizeHiOrDirAcl < _ by rw [same]; exact storable.sizeHi⟩
  refine ⟨type.trans (sameType.trans storable.file), ?_, fun place => ?_, ?_, ?_⟩
  · unfold Inode.toRawInode
    dsimp only
    rw [type, permissions, sameType, samePermissions]
    exact storable.known
  · rw [pointer_grown]
    exact pointers place
  · unfold Inode.grown Inode.setSize
    split_ifs <;> exact Nat.mod_lt _ (by decide)
  · unfold Inode.grown Inode.setSize
    split_ifs
    · exact Nat.mod_lt _ (by decide)
    · exact sizes.2

theorem sparse_of_tree {volume : Ext2Volume} {inode : Inode} {Used : Nat → Prop}
    (tree : FileTree inode.pointer volume.device (volume.blockSize / 4)
      Used (fileBlocks volume inode)) :
    sparseBytes volume inode = fileBytes volume inode := by
  refine concat_congr fun k below => ?_
  have tables : 0 ∉ tablePath inode volume.device (locate (volume.blockSize / 4) k) := by
    intro member
    obtain ⟨place, found⟩ := List.mem_iff_getElem?.mp member
    exact tree_place tree below (tree_table tree below found).2 rfl
  unfold sparseBlock sparsePointer
  dsimp only
  rw [if_neg tables, if_neg (data_used tree below).1]
  rfl

variable {handle after : Handle} {base contents : Contents} {lba offset : Nat}

namespace Handle

section Rebase

variable (tree : handle.Rooted base) (keeps : (handle.fileMap base).Keeps contents)

include tree keeps

/-- What the data blocks hold does not matter to where they are. -/
theorem owns_kept (addr : Nat) : (handle.fileMap contents).Owns addr ↔
    (handle.fileMap base).Owns addr := by
  have same : ∀ k < handle.count,
      (handle.fileMap contents).pointer k = (handle.fileMap base).pointer k :=
    fun k below => (FileMap.way_kept (rooted_sole tree) keeps (.inl below)).2
  constructor
  · rintro ⟨k, below, here⟩
    exact ⟨k, below, (same k below).symm.trans here⟩
  · rintro ⟨k, below, here⟩
    exact ⟨k, below, (same k below).trans here⟩

theorem tables_kept : (handle.fileMap contents).Tables = (handle.fileMap base).Tables := by
  funext level addr
  unfold FileMap.Tables
  rw [owns_kept tree keeps]

omit keeps in
theorem steady_rebased (steady : handle.Steady base contents) :
    handle.Steady contents contents := by
  rcases steady with ⟨k, info, pending⟩ | ⟨opened, keeps⟩
  · have tables := tables_kept tree pending.keeps
    refine .inl ⟨k, info, ?_, fun _ _ => rfl, ?_, pending.inside, pending.present, pending.held,
      pending.others,
      pending.near, pending.block, pending.size, pending.early⟩
    · rw [tables]
      exact pending.settled
    · intro addr free
      have apart : ¬(handle.fileMap base).Owns addr := fun owns =>
        free ((owns_kept tree pending.keeps addr).mpr owns)
      exact (pending.deviceKeeps addr apart).trans (pending.keeps addr apart).symm
  · refine .inr ⟨?_, fun _ _ => rfl⟩
    rw [tables_kept tree keeps]
    exact opened

end Rebase

/-- A block that no way leads to holds no data. -/
theorem kept_outside (tree : handle.Rooted base) (keeps : (handle.fileMap base).Keeps contents)
    (outside : lba ∉ reachable handle.cursor.location.inode.pointer base handle.cursor.tableSize) :
    contents lba = base lba := by
  apply keeps
  rintro ⟨k, below, rfl⟩
  exact outside (reachable_of_place (digits_locate (tree_below tree below)) (tree_data tree below)
    (data_used tree below).1)

theorem reachable_kept (tree : handle.Rooted base) (keeps : (handle.fileMap base).Keeps contents)
    (outside : lba ∉ reachable handle.cursor.location.inode.pointer base handle.cursor.tableSize) :
    lba ∉ reachable handle.cursor.location.inode.pointer contents handle.cursor.tableSize := by
  rw [reachable_congr]
  · exact outside
  · rintro table inner
    apply keeps
    rintro ⟨k, below, owns⟩
    exact inner_apart tree below inner owns.symm

/-- The first block of an empty file has no pointer. -/
theorem rooted_linked_any (tree : handle.Rooted contents)
    (some_ : 0 < handle.cursor.volume.blockCount)
    (tables : 0 < handle.cursor.tableSize) : handle.Linked contents AnyTable := by
  by_cases present : 0 < handle.count
  · exact rooted_linked tree present
  refine ⟨fun _ _ nonzero => nonzero, fun k inside => ?_⟩
  obtain rfl : k = 0 := by omega
  have within : 0 < capacity handle.cursor.tableSize := by
    unfold capacity
    omega
  have zero : handle.cursor.location.inode.directBlockPointers 0 = 0 := by
    by_contra nonzero
    have found : (route handle.cursor.location.inode.pointer contents
        (locate handle.cursor.tableSize 0))[0]? = some
          (handle.cursor.location.inode.directBlockPointers 0) := rfl
    exact present (tree.bare 0 (Nat.not_lt.mp present) within 0 _ found nonzero).1
  refine ⟨within, fun level addr impossible => absurd impossible nofun, fun addr member => ?_⟩
  obtain rfl : addr = handle.cursor.location.inode.directBlockPointers 0 :=
    List.mem_singleton.mp member
  rw [zero]
  exact some_

end Handle

end Campix.Ext2
