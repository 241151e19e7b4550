import Campix.Ext2.FreeInodes
import Campix.Ext2.SeekTargets
import Campix.Ext2.Walks
import Campix.Ext2.WrittenBack

/-!
# The records of all inodes

On a volume whose device and cache agree, `get_inode` finds the record of its number and an
update replaces it; every other record, and every block behind the tables, is what it was.
The deletion of a file without blocks writes its record as well and nothing else.
-/

namespace Campix.Ext2

open Lib.Fallible Lib.Outcome Lib.Slice Lib.Word Drivers
  Ext2Volume

set_option autoImplicit false

variable {volume after : Ext2Volume} {number lba offset : Nat} {raw : RawInode}

def RawInode.linked (raw : RawInode) (linksCount : Nat) : RawInode :=
  { raw with linksCount := UInt16.ofNat linksCount, generationNumber := raw.generationNumber + 1 }

section Inodes

variable {parentInode : Option Nat} {found : FoundInode}

theorem complete_found (known : Inode.fromRaw raw number parentInode = some found) :
    found.ossv2.length = 12 := by
  unfold Inode.fromRaw at known
  split at known
  · cases known
  · cases known
    exact List.length_ofFn

theorem number_found (known : Inode.fromRaw raw number parentInode = some found) :
    found.inodeI = number ∧ found.parentInode = parentInode ∧
      found.linksCount = raw.linksCount.toNat := by
  unfold Inode.fromRaw at known
  split at known
  · cases known
  · cases known
    exact ⟨rfl, rfl, rfl⟩

/-- What an update makes of the record that the inode was read from. -/
theorem to_raw_linked (known : Inode.fromRaw raw number parentInode = some found)
    (dtime linksCount : Nat) :
    { found.toInode with dtime, linksCount, generationNumber := add32 found.generationNumber 1 }.toRawInode =
      { raw.linked linksCount with dtime := UInt32.ofNat dtime } := by
  have next : UInt32.ofNat (add32 found.generationNumber 1) = UInt32.ofNat found.generationNumber +
      1 := by
    rw [add32, UInt32.ofNat_mod_size, UInt32.ofNat_add]
    rfl
  rw [← Inode.to_raw_from_raw known]
  unfold RawInode.linked Inode.toRawInode
  dsimp only
  rw [next]

theorem found_of_parent (known : Inode.fromRaw raw number parentInode = some found)
    (other : Option Nat) :
    Inode.fromRaw raw number other = some { found with parentInode := other } := by
  unfold Inode.fromRaw at known ⊢
  split at known
  · cases known
  · cases known
    rfl

theorem found_linked (known : Inode.fromRaw raw number parentInode = some found)
    (linksCount : Nat) :
    Inode.fromRaw (raw.linked linksCount) number parentInode = some { found with
      linksCount := (UInt16.ofNat linksCount).toNat
      generationNumber := (raw.generationNumber + 1).toNat } := by
  unfold Inode.fromRaw at known ⊢
  split at known
  · cases known
  · rename_i inodeType valid
    cases known
    have same : InodeType.ofRaw ((raw.linked linksCount).typeAndPermissions &&& 0xF000).toNat =
        some inodeType := valid
    rw [same]
    rfl

end Inodes

namespace Ext2Volume

def recordAt (volume : Ext2Volume) (number : Nat) : RawInode :=
  match volume.inodePlace number with
  | none => RawInode.empty
  | some (lba, offset) =>
      RawInode.ofBytes ((getSlice (volume.device lba) offset (offset + 128)).getD [])

def IsTable (volume : Ext2Volume) (lba : Nat) : Prop :=
  ∃ number offset, volume.inodePlace number = some (lba, offset)

structure Records (volume : Ext2Volume) (number : Nat) (raw : RawInode)
    (after : Ext2Volume) : Prop where
  stores : after.Stores after.device
  frame : after.frame = volume.frame
  records : ∀ other, 1 ≤ other → after.recordAt other = if other = number then raw else
    volume.recordAt other
  elsewhere : ∀ lba, ¬volume.IsTable lba → after.device lba = volume.device lba

structure Reads (volume after : Ext2Volume) : Prop where
  stores : after.Stores after.device
  frame : after.frame = volume.frame
  device : after.device = volume.device

theorem record_at_of_place (place : volume.inodePlace number = some (lba, offset)) :
    volume.recordAt number = RawInode.ofBytes
      ((getSlice (volume.device lba) offset (offset + 128)).getD []) := by
  rw [recordAt, place]

theorem record_at_congr (frame : after.frame = volume.frame)
    (same : ∀ lba offset, volume.inodePlace number = some (lba, offset) →
      after.device lba = volume.device lba) :
    after.recordAt number = volume.recordAt number := by
  cases place : volume.inodePlace number with
  | none => rw [recordAt, recordAt, place_of_frame frame, place]
  | some spot =>
      rw [record_at_of_place ((place_of_frame frame number).trans place), record_at_of_place place,
        same _ _ place]

theorem reads_records (reads : Reads volume after) (number : Nat) :
    after.recordAt number = volume.recordAt number :=
  record_at_congr reads.frame fun _ _ _ => congrFun reads.device _

theorem is_table_of_frame (frame : after.frame = volume.frame) : after.IsTable lba ↔
    volume.IsTable lba := by
  unfold IsTable
  simp only [place_of_frame frame]

section Access

variable (tables : volume.InodeTables) (stores : volume.Stores volume.device)
  (place : volume.inodePlace number = some (lba, offset))

include tables stores place

theorem read_stored : ∃ after, readBlock lba (List.replicate volume.blockSize 0) volume =
    .ok (volume.blockSize, volume.device lba) after ∧ Reads volume after := by
  obtain ⟨inside, -⟩ := place_inside tables place
  have read := read_block_spec lba stores
    (List.length_replicate (n := volume.blockSize) (a := (0 : UInt8)))
  obtain ⟨value, after, returned, same, kept, frame, -⟩ :=
    yields_ok (yields_weaken read (fun _ _ holds => holds)
      fun _ outside => absurd inside (by omega))
  refine ⟨after, same ▸ returned, ⟨?_, frame, kept.device⟩⟩
  rw [kept.device]
  exact kept

theorem slice_of_place : getSlice (volume.device lba) offset (offset + 128) =
    some ((getSlice (volume.device lba) offset (offset + 128)).getD []) := by
  obtain ⟨-, room⟩ := place_inside tables place
  rw [get_slice_eq (by omega) (by rw [stores.sized]; exact room)]
  rfl

theorem get_inode_stored {inodesCount : Nat} (first : 1 ≤ number) (last : number ≤ inodesCount)
    (parentInode : Option Nat) {found : FoundInode}
    (known : Inode.fromRaw (volume.recordAt number) number parentInode = some found) :
    ∃ after, getInode inodesCount number parentInode volume = .ok found after ∧
      Reads volume after := by
  obtain ⟨after, returned, reads⟩ := read_stored tables stores place
  refine ⟨after, ?_, reads⟩
  rw [record_at_of_place place] at known
  unfold getInode
  rw [if_neg (by omega), state_bind_get, place]
  dsimp only
  rw [state_bind_ok returned]
  dsimp only
  rw [slice_of_place tables stores place]
  dsimp only
  rw [known]
  rfl

theorem records_after_write (whole : after.frame = volume.frame)
    (device : after.device = Function.update
      volume.device lba (splice (volume.device lba) offset raw.bytes))
    (first : 1 ≤ number) {other : Nat} (least : 1 ≤ other) :
    after.recordAt other = if other = number then raw else volume.recordAt other := by
  obtain ⟨-, room⟩ := place_inside tables place
  have length := RawInode.length_bytes raw
  have fits : offset + raw.bytes.length ≤ (volume.device lba).length := by
    rw [length, stores.sized]
    exact room
  by_cases same : other = number
  · subst same
    rw [if_pos rfl, record_at_of_place ((place_of_frame whole _).trans place), device,
      Function.update_self]
    have back := get_slice_splice fits
    rw [length] at back
    rw [back]
    exact RawInode.of_bytes raw
  · rw [if_neg same]
    cases beside : volume.inodePlace other with
    | none => rw [recordAt, recordAt, place_of_frame whole, beside]
    | some spot =>
        obtain ⟨there, start⟩ := spot
        rw [record_at_of_place ((place_of_frame whole _).trans beside), record_at_of_place beside,
          device]
        by_cases shared : there = lba
        · subst shared
          have apart := (places_apart tables first least (Ne.symm same) place beside).resolve_left
            (not_not.mpr rfl)
          rw [Function.update_self, get_slice_splice_apart fits (by omega)]
        · rw [Function.update_of_ne shared]

theorem update_raw_stored (writable : volume.readOnly = false) (first : 1 ≤ number)
    (raw : RawInode) :
    ∃ after, updateInodeRaw number raw volume = .ok () after ∧ Records volume number raw after := by
  obtain ⟨inside, room⟩ := place_inside tables place
  obtain ⟨seen, returned, reads⟩ := read_stored tables stores place
  have length := RawInode.length_bytes raw
  have sized := stores.sized lba
  have fits : offset + raw.bytes.length ≤ (volume.device lba).length := by omega
  have copied : copyFromSlice (volume.device lba) offset (offset + 128) raw.bytes =
      some (splice (volume.device lba) offset raw.bytes) :=
        copy_from_slice_eq (by omega) (by omega) (by omega)
  have seenSize := block_size_of_frame reads.frame
  have seenCount := block_count_of_frame reads.frame
  have seenWritable : seen.readOnly = false :=
    (show seen.frame.readOnly = volume.frame.readOnly by rw [reads.frame]).trans writable
  have wrote := write_block_spec lba reads.stores
    (show (splice (volume.device lba) offset raw.bytes).length = seen.blockSize by
      rw [length_splice fits, sized, seenSize])
  obtain ⟨written, after, done, frame, ⟨-, -, kept⟩ | ⟨atEnd, -, -⟩⟩ :=
    yields_ok (yields_weaken wrote (fun _ _ holds => holds) fun _ failed => by
      rcases failed with locked | beyond
      · rw [seenWritable] at locked
        exact Bool.false_ne_true locked
      · omega)
  swap
  · omega
  have whole : after.frame = volume.frame := frame.trans reads.frame
  have device : after.device = Function.update volume.device lba
      (splice (volume.device lba) offset raw.bytes) := by
    rw [kept.device, reads.device]
  refine ⟨after, ?_, ⟨?_, whole, fun other least => ?_, fun block apart => ?_⟩⟩
  · unfold updateInodeRaw
    rw [state_bind_get, place]
    dsimp only
    rw [state_bind_ok returned]
    dsimp only
    rw [copied]
    dsimp only
    rw [state_bind_ok done]
    rfl
  · rw [kept.device]
    exact kept
  · exact records_after_write tables stores place whole device first least
  · have away : block ≠ lba := by
      rintro rfl
      exact apart ⟨number, offset, place⟩
    rw [device, Function.update_of_ne away]

theorem update_inode_stored (writable : volume.readOnly = false) (first : 1 ≤ number)
    {inode : Inode}
    (complete : inode.ossv2.length = 12) (same : inode.inodeI = number) :
    ∃ after, Cursor.updateInode inode volume = .ok () after ∧ Records volume number
      { inode with generationNumber := add32 inode.generationNumber 1 }.toRawInode after := by
  rw [update_inode_eq tables inode complete, same]
  exact update_raw_stored tables stores place writable first _

end Access

end Ext2Volume

namespace Cursor

structure AtFirst (volume : Ext2Volume) (inode : Inode) (cursor : Cursor) : Prop where
  sameVolume : cursor.volume = volume
  sameInode : cursor.location.inode = inode
  place : cursor.location.location.location = .direct 0
  clean : ∀ level, (cursor.location.tables level).dirty = false
  saved : cursor.location.inodeDirty = false

variable {inode : Inode} {cursor : Cursor}

theorem check_first (there : AtFirst volume inode cursor) (level : Fin 3) :
    ∃ after, checkTable level 0 cursor = .ok () after ∧ AtFirst volume inode after := by
  refine ⟨_, check_table_zero (there.clean level), there.sameVolume, there.sameInode, there.place,
    fun other => ?_,
    there.saved⟩
  by_cases same : other = level
  · rw [same, with_table_self]
    exact there.clean level
  · rw [with_table_other same]
    exact there.clean other

theorem seek_first (clean : ∀ level, (cursor.location.tables level).dirty = false)
    (saved : cursor.location.inodeDirty = false) :
    ∃ after, seek 0 cursor = .ok () after ∧ AtFirst cursor.volume cursor.location.inode after := by
  have moved : AtFirst cursor.volume cursor.location.inode { cursor with location :=
      { cursor.location with location := ⟨.direct 0, cursor.volume.blockSize / 4⟩ } } :=
    ⟨rfl, rfl, rfl, clean, saved⟩
  obtain ⟨one, checked, first⟩ := check_first moved 0
  obtain ⟨two, checkedNext, second⟩ := check_first first 1
  obtain ⟨three, checkedLast, third⟩ := check_first second 2
  refine ⟨three, ?_, third⟩
  have firstIs : checkTable1 { cursor with location :=
      { cursor.location with location := ⟨.direct 0, cursor.volume.blockSize / 4⟩ } } = .ok ()
        one := checked
  have secondIs : checkTable2 one = .ok () two := by
    have addr : addrOfTable2 one = .ok 0 one := by
      rw [addrOfTable2, state_bind_get, first.place]
      rfl
    rw [checkTable2, state_bind_ok addr, checkedNext]
  have thirdIs : checkTable3 two = .ok () three := by
    have addr : addrOfTable3 two = .ok 0 two := by
      rw [addrOfTable3, state_bind_get, second.place]
      rfl
    rw [checkTable3, state_bind_ok addr, checkedLast]
  change checkTables { cursor with location :=
    { cursor.location with location := ⟨.direct 0, cursor.volume.blockSize / 4⟩ } } = _
  rw [checkTables, state_bind_ok firstIs, state_bind_ok secondIs, thirdIs]

end Cursor

theorem set_size_empty {inode : Inode} {fileSize64 : Bool} (empty : inode.getSize fileSize64 = 0) :
    inode.setSize fileSize64 0 = inode := by
  unfold Inode.getSize at empty
  unfold Inode.setSize
  split_ifs at empty ⊢ with wide
  · obtain ⟨high, low⟩ := Nat.or_eq_zero_iff.mp empty
    rw [Nat.shiftLeft_eq_zero_iff] at high
    obtain ⟨⟩ := inode
    cases high
    cases low
    rfl
  · obtain ⟨⟩ := inode
    cases empty
    rfl

namespace Handle

structure Blank (volume : Ext2Volume) (inode : Inode) (handle : Handle) : Prop where
  sameVolume : handle.cursor.volume = volume
  sameInode : handle.cursor.location.inode = inode
  clean : ∀ level, (handle.cursor.location.tables level).dirty = false
  saved : handle.cursor.location.inodeDirty = false
  last : handle.cursor.location.maxBlockExclusive = 0
  size : handle.size = 0
  info : handle.blockCacheInfo = none
  sized : handle.blockCache.length = volume.blockSize

variable {inode : Inode} {handle : Handle}

theorem blank_new (positive : 0 < volume.blockSize) (empty : inode.getSize volume.fileSize64 = 0)
    (openMode : Nat)
    {heap : Buffers} (sized : heap.Sized volume.blockSize) :
    ∃ handle, Handle.new volume inode openMode heap.table1 heap.table2 heap.table3 heap.blockCache =
      some handle ∧
      Blank volume inode handle := by
  refine ⟨_, rfl, rfl, rfl, fun _ => rfl, rfl, ?_, empty, rfl, sized _ (by simp)⟩
  change (((inode.getSize volume.fileSize64 : Nat) : Int) + volume.blockSize - 1) /
    volume.blockSize = 0
  rw [empty]
  exact Int.ediv_eq_zero_of_lt (by omega) (by omega)

theorem blank_sets (blank : Blank volume inode handle)
    (empty : inode.getSize volume.fileSize64 = 0) :
    { handle with size := 0 } = handle ∧
      modifyInode (fun inode => inode.setSize handle.cursor.volume.fileSize64 0) handle = .ok ()
        handle := by
  obtain ⟨rfl, rfl, -, -, -, size, -, -⟩ := blank
  constructor
  · rw [← size]
  · change EStateM.Result.ok () { handle with cursor := { handle.cursor with location := { handle.cursor.location with
      inode := handle.cursor.location.inode.setSize handle.cursor.volume.fileSize64 0 } } } = _
    rw [set_size_empty empty]

section Emptied

variable (blank : Blank volume inode handle) (empty : inode.getSize volume.fileSize64 = 0)
  (tables : volume.InodeTables) (stores : volume.Stores volume.device)
  (place : volume.inodePlace inode.inodeI = some (lba, offset)) (writable : volume.readOnly = false)
  (first : 1 ≤ inode.inodeI) (complete : inode.ossv2.length = 12)
  (onDevice : inode.directBlockPointers 0 < volume.blockCount)

include blank stores onDevice in
/-- The first block is read, even of a file without blocks. -/
theorem seek_blank : ∃ after, seek (.fromStart 0) handle = .ok () after ∧
    Reads volume after.cursor.volume ∧
    flush after = .ok () after := by
  obtain ⟨rfl, rfl, clean, saved, -, size, info, sized⟩ := blank
  obtain ⟨looked, sought, there⟩ := Cursor.seek_first clean saved
  have found : fseekHelper (.fromStart 0) handle.offset handle.size = some 0 := rfl
  have block : Cursor.getNextBlock looked = .ok (handle.cursor.location.inode.directBlockPointers 0)
      looked := by
    rw [Cursor.getNextBlock, state_bind_get, there.place, there.sameInode]
    rfl
  have read := read_block_spec (handle.cursor.location.inode.directBlockPointers 0) stores sized
  obtain ⟨value, after, returned, rfl, kept, frame, -⟩ :=
    yields_ok (yields_weaken read (fun _ _ holds => holds)
      fun _ outside => absurd onDevice (by omega))
  have taken : Cursor.readBlock handle.blockCache looked = .ok
      (({ looked with volume := after } : Cursor).usedSize,
        handle.cursor.volume.device (handle.cursor.location.inode.directBlockPointers 0))
      { looked with volume := after } := by
    change (if handle.blockCache.length < looked.volume.blockSize then _ else _ : OnCursor
      (Nat × Block)) looked = _
    have volumeRead : onVolume (readBlock (handle.cursor.location.inode.directBlockPointers 0)
        handle.blockCache)
        looked = .ok (handle.cursor.volume.blockSize,
          handle.cursor.volume.device (handle.cursor.location.inode.directBlockPointers 0))
            { looked with volume := after } := by
      unfold onVolume
      rw [there.sameVolume, returned]
    rw [there.sameVolume, if_neg (by omega), state_bind_ok block, state_bind_ok volumeRead]
    rfl
  have small : 0 / handle.cursor.volume.blockSize < 2 ^ 32 := by
    rw [Nat.zero_div]
    decide
  refine ⟨{ handle with
    offset := 0
    cursor := { looked with volume := after }
    blockCache := handle.cursor.volume.device (handle.cursor.location.inode.directBlockPointers 0)
    blockCacheInfo := some ⟨looked.location.location.currentBlockIdx,
      ({ looked with volume := after } : Cursor).usedSize, false⟩ }, ?_,
        ⟨?_, frame, kept.device⟩, ?_⟩
  · have moved : onCursor (Cursor.seek 0) { handle with offset := 0 } =
        .ok () { handle with offset := 0, cursor := looked } := by
      unfold onCursor
      rw [sought]
    rw [seek_parts found small, Nat.zero_div, state_bind_ok moved]
    unfold internalUpdateBuffer
    rw [taken]
  · rw [kept.device]
    exact kept
  · refine flush_of_clean there.clean there.saved fun other present => ?_
    cases present
    rfl

include blank empty tables stores place writable first complete onDevice in
theorem truncate_empty : ∃ after, (do
      truncate 0
      flush : OnHandle Unit) handle = .ok () after ∧ Records volume inode.inodeI
        { inode with generationNumber := add32 inode.generationNumber 1 }.toRawInode
          after.cursor.volume := by
  obtain ⟨sized, modified⟩ := blank_sets blank empty
  obtain ⟨rfl, rfl, clean, saved, last, size, info, length⟩ := blank
  obtain ⟨wrote, updated, records⟩ :=
    update_inode_stored tables stores place writable first complete rfl
  have positive := stores.positive
  let recorded : Handle := { handle with cursor := { handle.cursor with volume := wrote } }
  have blockSize := block_size_of_frame records.frame
  have blankAgain : Blank wrote handle.cursor.location.inode recorded :=
    ⟨rfl, rfl, clean, saved, last, size, info, length.trans blockSize.symm⟩
  obtain ⟨after, sought, reads, flushed⟩ := seek_blank blankAgain records.stores
    (by rw [block_count_of_frame records.frame]; exact onDevice)
  have blocks : blocksFor 0 handle = .ok 0 handle := by
    change (if (0 + handle.cursor.volume.blockSize - 1) / handle.cursor.volume.blockSize ≥ 2 ^
      32 then _ else _ :
      OnHandle Nat) handle = _
    rw [Nat.div_eq_of_lt (by omega), if_neg (by decide)]
    rfl
  have count : handle.blockCount = 0 := by
    rw [blockCount, Cursor.blockCount, last]
    rfl
  have looped : truncateLoop 0 (handle.blockCount + 1) handle = .ok () handle := by
    change (if handle.blockCount > 0 then _ else _ : OnHandle Unit) handle = _
    rw [count, if_neg (by decide)]
    rfl
  have resized : (modify fun handle => { handle with size := 0 } : OnHandle Unit) handle = .ok ()
    handle :=
    congrArg (EStateM.Result.ok ()) sized
  have written : updateInode handle = .ok () recorded := by
    rw [updateInode, state_bind_get]
    unfold onCursor onVolume
    rw [updated]
  have idle : flush recorded = .ok () recorded := by
    refine flush_of_clean clean saved fun other present => ?_
    exact absurd (info.symm.trans present) (by simp)
  have cleared : (modify fun handle => { handle with blockCacheInfo := none } : OnHandle Unit)
    recorded =
      .ok () recorded := by
    change EStateM.Result.ok () { recorded with blockCacheInfo := none } = _
    rw [← info]
  have truncated : truncate 0 handle = .ok () after := by
    rw [truncate, state_bind_get, if_neg (by omega), state_bind_ok blocks, state_bind_ok looped,
      state_bind_ok resized,
      state_bind_ok modified, state_bind_ok written, state_bind_ok idle, state_bind_ok cleared,
        sought]
  refine ⟨after, (state_bind_ok truncated).trans flushed, reads.stores,
    reads.frame.trans records.frame,
    fun other least => ?_, fun block apart => ?_⟩
  · rw [reads_records reads, records.records other least]
  · rw [congrFun reads.device block, records.elsewhere block apart]

end Emptied

end Handle

end Campix.Ext2
