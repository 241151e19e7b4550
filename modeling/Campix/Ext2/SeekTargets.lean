import Campix.Ext2.Appending
import Campix.Ext2.LostWays
import Campix.Ext2.Resizing

/-!
# Seeking up to the end of a file

A seek buffers the block at its target. An offset at the end of the file may be the start
of a block that is not there; whether the seek returns then depends on the tables on the
way to that block.
-/

namespace Campix.Ext2

open Lib.Fallible Lib.Outcome Lib.Word Drivers

set_option autoImplicit false

def seekTarget (position : SeekPosition) (offset size : Nat) : Int :=
  match position with
  | .fromStart position => position
  | .fromCurrent position => offset + position
  | .fromEnd position => size - position

/-- A handle on the file between two calls. The buffered block may be changed. -/
structure OnFile (volume : Ext2Volume) (inode : Inode) (handle : Handle) : Prop where
  current : handle.cursor.Current
  device : handle.cursor.volume.device = volume.device
  frame : handle.cursor.volume.frame = volume.frame
  last : handle.cursor.location.maxBlockExclusive = fileBlocks volume inode
  size : handle.size = inode.getSize volume.fileSize64
  sized : handle.blockCache.length = volume.blockSize
  inode : handle.cursor.location.inode = inode

def Seekable (volume : Ext2Volume) (inode : Inode) (target : Nat) : Prop :=
  ∀ handle position, OnFile volume inode handle →
    seekTarget position handle.offset handle.size = target →
      ∃ after, Handle.fseek position handle = .ok target after

variable {volume : Ext2Volume} {inode : Inode} {handle : Handle} {target : Nat}

theorem fseek_helper_target {position : SeekPosition} {offset size : Nat}
    (aimed : seekTarget position offset size = target) (inside : target ≤ size)
    (word : size < 2 ^ 64) :
    fseekHelper position offset size = some target := by
  cases position with
  | fromStart start =>
      simp only [seekTarget] at aimed
      obtain rfl : start = target := by omega
      simp only [fseekHelper, if_neg (Nat.not_lt.mpr inside)]
  | fromCurrent step =>
      simp only [seekTarget] at aimed
      simp only [fseekHelper]
      split_ifs with negative before outside
      · omega
      · congr 1
        omega
      · omega
      · congr 1
        omega
  | fromEnd back =>
      simp only [seekTarget] at aimed
      simp only [fseekHelper]
      rw [if_neg (by omega)]
      congr 1
      omega

theorem on_file_block_size (onFile : OnFile volume inode handle) :
    handle.cursor.volume.blockSize = volume.blockSize :=
  Ext2Volume.block_size_of_frame onFile.frame

theorem on_file_readable {k : Nat} (onFile : OnFile volume inode handle)
    (readable : Readable volume inode volume.device AnyTable k) :
    Readable handle.cursor.volume handle.cursor.location.inode handle.cursor.volume.device AnyTable
      k := by
  have blockSize := on_file_block_size onFile
  have blockCount := Ext2Volume.block_count_of_frame onFile.frame
  refine ⟨?_, ?_, ?_⟩
  · rw [blockSize]
    exact readable.inside
  · rw [blockSize, onFile.inode, onFile.device]
    exact readable.linked
  · rw [blockSize, onFile.inode, onFile.device, blockCount]
    exact readable.onDevice

/-- `seek` moves to the block of the target and reads it. -/
theorem seek_parts {position : SeekPosition}
    (found : fseekHelper position handle.offset handle.size = some target)
    (small : target / handle.cursor.volume.blockSize < 2 ^ 32) :
    Handle.seek position handle =
      (onCursor (Cursor.seek (target / handle.cursor.volume.blockSize)) >>= fun _ =>
        Handle.internalUpdateBuffer : OnHandle Unit) { handle with offset := target } := by
  rw [Handle.seek, state_bind_get, found]
  change (if target / handle.cursor.volume.blockSize ≥ 2 ^ 32 then _ else _ : OnHandle Unit)
    handle = _
  rw [if_neg (by omega)]
  rfl

theorem fseek_of_seek {position : SeekPosition} {after : Handle}
    (sought : Handle.seek position handle = .ok () after) :
    Handle.fseek position handle = .ok after.offset after := by
  unfold Handle.fseek
  rw [state_bind_ok sought]
  rfl

theorem seek_readable {position : SeekPosition} (onFile : OnFile volume inode handle)
    (found : fseekHelper position handle.offset handle.size = some target)
    (small : target / volume.blockSize < 2 ^ 32)
    (square : volume.blockSize / 4 * (volume.blockSize / 4) < 2 ^ 32)
    (readable : Readable volume inode volume.device AnyTable (target / volume.blockSize)) :
    ∃ after, Handle.fseek position handle = .ok target after := by
  have blockSize := on_file_block_size onFile
  have here := on_file_readable onFile readable
  rw [← blockSize] at small square here
  have moves := Cursor.arrives onFile.current.views onFile.current.clean
    (Cursor.current_ready onFile.current) (fun _ _ nonzero => nonzero) here
  rw [← Cursor.seek_eq here.inside (.inr square)] at moves
  have moved : Yields (fun _ after => after.offset = target) (fun _ => False)
      (Handle.seek position handle) := by
    rw [seek_parts found small]
    refine yields_bind (Handle.yields_on_cursor moves) ?_
    rintro _ _ ⟨cursor, rfl, there, frame⟩
    have same : Handle.frame { handle with offset := target, cursor := cursor } = handle.frame :=
      congrArg (fun cursor => { handle.frame with cursor := cursor }) frame
    obtain ⟨size, count, sameInode, last, -, -⟩ := Handle.same_file same
    have readableThere : Readable cursor.volume cursor.location.inode handle.cursor.volume.device
        AnyTable (target / handle.cursor.volume.blockSize) := by
      obtain ⟨inside, linked, onDevice⟩ := here
      refine ⟨?_, ?_, ?_⟩
      · rwa [size]
      · rwa [size, sameInode]
      · rwa [size, sameInode, count]
    have total : handle.count = fileBlocks volume inode := by
      unfold Handle.count fileBlocks
      rw [onFile.size, blockSize]
    refine yields_weaken (Handle.internal_update_buffer_spec there readableThere ?_ ?_)
      (fun _ after refilled => refilled.offset) fun _ impossible => impossible
    · rw [last, Handle.count_of_frame same, total]
      exact onFile.last
    · rw [size]
      exact onFile.sized.trans blockSize.symm
  obtain ⟨_, after, sought, offset⟩ := yields_ok moved
  exact ⟨after, by rw [fseek_of_seek sought, offset]⟩

def wildHandle (volume : Ext2Volume) (inode : Inode) : Option Handle :=
  Handle.new volume inode 1 (List.replicate volume.blockSize 0xFF)
    (List.replicate volume.blockSize 0xFF)
    (List.replicate volume.blockSize 0xFF) (List.replicate volume.blockSize 0xFF)

theorem wild_handle_spec (mounted : Mounted volume) (few : volume.blockCount < 2 ^ 32) :
    ∃ handle, wildHandle volume inode = some handle ∧ OnFile volume inode handle ∧
      handle.cursor.Wild ∧
      handle.cursor.volume = volume ∧ handle.offset = 0 := by
  obtain ⟨handle, made⟩ : ∃ handle, wildHandle volume inode = some handle := ⟨_, rfl⟩
  have fresh : Fresh volume inode handle := ⟨1, _, _, _, _, by simp, made⟩
  obtain ⟨sameVolume, sameInode, size⟩ := fresh_frame fresh
  have settled := (fresh_opened mounted fresh).1
  have count : handle.count = fileBlocks volume inode := by
    rw [Handle.count, sameVolume, size, fileBlocks]
  have device := Cursor.device_of_clean settled.cursor.views settled.cursor.clean
  have current : handle.cursor.Current := Cursor.current_of_at settled.cursor
  have sized := settled.sized
  refine ⟨handle, made, ⟨current, by
    rw [sameVolume], by rw [sameVolume], ?_, size, by rw [sized, sameVolume],
    sameInode⟩, ?_, sameVolume, ?_⟩
  · rw [settled.last, count]
  · cases made
    refine ⟨current, fun _ => rfl, ?_, Nat.le_pred_of_lt few⟩
    intro level
    fin_cases level
    · rfl
    · rfl
    · rfl
  · cases made
    rfl

theorem wild_move_to {cursor : Cursor} (wild : cursor.Wild) (location : InodeReadingLocationInfo) :
    (cursor.moveTo location).Wild :=
  ⟨⟨Cursor.views_move_to wild.views location, wild.clean, wild.copies⟩, wild.addr, wild.bytes,
    wild.few⟩

theorem seek_ok_parts {position : SeekPosition} {after : Handle}
    (found : fseekHelper position handle.offset handle.size = some target)
    (small : target / handle.cursor.volume.blockSize < 2 ^ 32)
    (sought : Handle.seek position handle = .ok () after) :
    ∃ looked read last, Cursor.seek (target / handle.cursor.volume.blockSize) handle.cursor = .ok ()
      looked ∧
      Cursor.readBlock handle.blockCache looked = .ok read last ∧
      after = { handle with
        cursor := last
        offset := target
        blockCache := read.2
        blockCacheInfo := some ⟨last.location.location.currentBlockIdx, read.1, false⟩ } := by
  rw [seek_parts found small] at sought
  cases went : Cursor.seek (target / handle.cursor.volume.blockSize) handle.cursor with
  | error failure failed =>
      have stops : onCursor (Cursor.seek (target / handle.cursor.volume.blockSize))
          { handle with offset := target } = .error failure
            { handle with offset := target, cursor := failed } := by
        unfold onCursor
        rw [went]
      rw [state_bind_error stops] at sought
      cases sought
  | ok _ looked =>
      have goes : onCursor (Cursor.seek (target / handle.cursor.volume.blockSize))
          { handle with offset := target } = .ok ()
            { handle with offset := target, cursor := looked } := by
        unfold onCursor
        rw [went]
      rw [state_bind_ok goes] at sought
      unfold Handle.internalUpdateBuffer at sought
      cases read : Cursor.readBlock handle.blockCache looked with
      | error failure failed =>
          dsimp only at sought
          rw [read] at sought
          cases sought
      | ok result last =>
          dsimp only at sought
          rw [read] at sought
          cases sought
          exact ⟨looked, result, last, rfl, read, rfl⟩

theorem sought_parts {position : SeekPosition} {result : Nat} {after : Handle}
    (found : fseekHelper position handle.offset handle.size = some target)
    (small : target / handle.cursor.volume.blockSize < 2 ^ 32)
    (sought : Handle.fseek position handle = .ok result after) :
    ∃ looked read last, Cursor.seek (target / handle.cursor.volume.blockSize) handle.cursor = .ok ()
      looked ∧
      Cursor.readBlock handle.blockCache looked = .ok read last := by
  unfold Handle.fseek at sought
  cases outcome : Handle.seek position handle with
  | error failure failed =>
      rw [state_bind_error outcome] at sought
      cases sought
  | ok value moved =>
      obtain ⟨looked, read, last, went, reads, -⟩ := seek_ok_parts found small outcome
      exact ⟨looked, read, last, went, reads⟩

/-- Behind the last block that an inode can point to no table has an entry. -/
theorem seek_behind_capacity {cursor looked : Cursor} {contents : Contents}
    (views : cursor.Views contents)
    (whole : cursor.volume.blockSize % 4 = 0) (positive : 0 < cursor.volume.blockSize / 4)
    (square : cursor.volume.blockSize / 4 * (cursor.volume.blockSize / 4) < 2 ^ 32) :
    Cursor.seek (capacity (cursor.volume.blockSize / 4)) cursor ≠ .ok () looked := by
  generalize size : cursor.volume.blockSize / 4 = tableSize at positive square
  have place : InodeReadingLocation.new tableSize (capacity tableSize) =
      some ⟨.triple tableSize 0 0, tableSize⟩ := by
    have outer : 0 < tableSize * tableSize := Nat.mul_pos positive positive
    have rest : capacity tableSize - 12 - tableSize - tableSize * tableSize =
        tableSize * tableSize * tableSize := by
      unfold capacity
      omega
    have product : mul32 tableSize tableSize = tableSize * tableSize := Nat.mod_eq_of_lt square
    have notDirect : ¬capacity tableSize < 12 := by unfold capacity; omega
    have notSingle : ¬capacity tableSize - 12 < tableSize := by unfold capacity; omega
    have cube : tableSize * tableSize ≤ tableSize * tableSize * tableSize :=
      Nat.le_mul_of_pos_right _ positive
    have notDouble : ¬capacity tableSize - 12 - tableSize < tableSize * tableSize := by
      unfold capacity
      omega
    unfold InodeReadingLocation.new
    simp only [product, if_neg notDirect, if_neg notSingle, if_neg notDouble, rest,
      if_neg (show ¬(tableSize * tableSize = 0 ∨ tableSize = 0) by omega)]
    rw [Nat.mul_div_cancel_left _ outer, Nat.mul_mod_right, Nat.zero_div, Nat.mul_mod_left]
  have stops : Yields (fun (_ : Unit) (_ : Cursor) => False) (fun _ => True)
      (Cursor.seek (capacity tableSize) cursor) := by
    rw [Cursor.seek, state_bind_get, size, place]
    have moved := Cursor.views_move_to views (.triple tableSize 0 0)
    rw [Cursor.moveTo, size] at moved
    change Yields _ _ (Cursor.checkTables { cursor with location :=
      { cursor.location with location := ⟨.triple tableSize 0 0, tableSize⟩ } })
    unfold Cursor.checkTables
    refine yields_bind (yields_weaken (Cursor.check_table_spec moved 0 _) (fun _ _ holds => holds)
      fun _ _ => trivial) fun _ middle checked => ?_
    have there : middle.location.location.location = .triple tableSize 0 0 := by
      rw [Cursor.location_of_frame checked.frame]
    have blockSize : middle.volume.blockSize = cursor.volume.blockSize :=
      (Ext2Volume.block_size_of_frame (Cursor.volume_of_frame checked.frame)).trans rfl
    have length := checked.views.sized 0
    have outside : Cursor.follow 0 tableSize middle = .error (.error .outOfBounds) middle := by
      change (if tableSize * 4 < (middle.location.tables 0).table.length then _ else _ :
        OnCursor Nat) middle = _
      rw [length, blockSize, if_neg (by omega)]
      rfl
    have second : Cursor.checkTable2 middle = .error (.error .outOfBounds) middle := by
      apply state_bind_error
      rw [Cursor.addrOfTable2, state_bind_get, there]
      exact outside
    rw [state_bind_error second]
    exact .error trivial
  intro returned
  rw [returned] at stops
  cases stops with
  | ok impossible => exact impossible

theorem read_wild {looked : Cursor}
    (astray : Cursor.getNextBlock looked = .ok Cursor.wildPointer looked)
    (few : looked.volume.blockCount ≤ Cursor.wildPointer) (buffer : Block) (read : Nat × Block)
    (last : Cursor) :
    Cursor.readBlock buffer looked ≠ .ok read last := by
  intro returned
  have outside : ∀ volume : Ext2Volume, volume.blockCount ≤ Cursor.wildPointer → ∀ result after,
      Ext2Volume.readBlock Cursor.wildPointer buffer volume ≠ .ok result after := by
    intro volume small result after done
    change (if buffer.length < volume.blockSize then _ else if Cursor.wildPointer ≥
      volume.blockCount then _
      else _ : OnVolume (Nat × Block)) volume = _ at done
    split_ifs at done
    · cases done
    · cases done
  change (if buffer.length < looked.volume.blockSize then _ else _ : OnCursor (Nat × Block))
    looked = _ at returned
  split_ifs at returned
  · cases returned
  · rw [state_bind_ok astray] at returned
    cases outcome : Ext2Volume.readBlock Cursor.wildPointer buffer looked.volume with
    | ok result after => exact outside _ few result after outcome
    | error failure after =>
        have stops : onVolume (Ext2Volume.readBlock Cursor.wildPointer buffer) looked =
            .error failure { looked with volume := after } := by
          unfold onVolume
          rw [outcome]
        rw [state_bind_error stops] at returned
        cases returned

/-- Where a seek of this handle to the start of the block returns, the block can be reached. -/
theorem readable_of_sought {k result : Nat} {after : Handle} (wild : handle.cursor.Wild)
    (inside : k < capacity (handle.cursor.volume.blockSize / 4)) (word : k < 2 ^ 32)
    (square : handle.cursor.volume.blockSize / 4 * (handle.cursor.volume.blockSize / 4) < 2 ^ 32)
    (sized : handle.blockCache.length = handle.cursor.volume.blockSize)
    (found : fseekHelper (.fromStart (k * handle.cursor.volume.blockSize))
      handle.offset handle.size =
      some (k * handle.cursor.volume.blockSize))
    (sought : Handle.fseek (.fromStart (k * handle.cursor.volume.blockSize))
      handle = .ok result after) :
    Readable handle.cursor.volume handle.cursor.location.inode handle.cursor.volume.device AnyTable
      k := by
  have positive := wild.views.stores.positive
  have start : k * handle.cursor.volume.blockSize / handle.cursor.volume.blockSize = k :=
    Nat.mul_div_cancel _ positive
  obtain ⟨looked, read, last, went, buffered⟩ := sought_parts found (by rwa [start]) sought
  rw [start] at went
  have frame := @Cursor.seek_frame handle.cursor k
  rw [went] at frame
  rw [Cursor.seek_eq inside (.inr square)] at went
  obtain ⟨-, digits⟩ := index_of_locate inside
  have moved := wild_move_to wild (locate (handle.cursor.volume.blockSize / 4) k)
  have finds := Cursor.lookup_wild moved rfl digits
  unfold Cursor.Finds at finds
  rw [went] at finds
  cases finds with
  | ok cases_ =>
      rcases cases_ with tables | astray
      · have linked : ∀ (level : Fin 3) addr, (tablePath handle.cursor.location.inode
            handle.cursor.volume.device (locate (handle.cursor.volume.blockSize / 4)
              k))[level.val]? =
              some addr → AnyTable level addr :=
          fun level addr found => (tables addr (List.mem_of_getElem? found)).1
        have arrives := Cursor.check_tables_spec moved.views rfl digits
          (Cursor.current_ready moved.toCurrent) (fun _ _ nonzero => nonzero) linked
        rw [went] at arrives
        cases arrives with
        | ok arrived =>
            have frame := arrived.reached.frame
            have blockSize : looked.volume.blockSize = handle.cursor.volume.blockSize :=
              (Ext2Volume.block_size_of_frame (Cursor.volume_of_frame frame)).trans rfl
            have blockCount : looked.volume.blockCount = handle.cursor.volume.blockCount :=
              (Ext2Volume.block_count_of_frame (Cursor.volume_of_frame frame)).trans rfl
            have inode : looked.location.inode = handle.cursor.location.inode :=
              (Cursor.inode_of_frame frame).trans rfl
            have place : looked.location.location.location =
                locate (handle.cursor.volume.blockSize / 4) k := by
              rw [Cursor.location_of_frame frame]
              rfl
            have spec := Cursor.read_block_spec arrived.reached.views place
              (by rw [blockSize]; exact digits)
              (by rw [inode]; exact arrived.loaded) (by rw [blockSize]; exact sized)
            rw [buffered] at spec
            cases spec with
            | ok holds =>
                obtain ⟨-, -, -, data, -⟩ := holds
                rw [inode, blockCount] at data
                refine ⟨inside, linked, ?_⟩
                intro addr member
                rcases List.mem_append.mp member with table | pointer
                · exact (tables addr table).2
                · rw [List.mem_singleton.mp pointer]
                  exact data
      -- the block that is read then is none of the volume
      · exfalso
        cases frame with
        | ok same =>
            obtain ⟨place, same⟩ := same
            have blockCount : looked.volume.blockCount = handle.cursor.volume.blockCount :=
              (Ext2Volume.block_count_of_frame (Cursor.volume_of_frame same)).trans rfl
            have refused := read_wild astray (by rw [blockCount]; exact wild.few)
              handle.blockCache
            exact refused _ _ buffered

theorem size_le_blocks (inode : Inode) (mounted : Mounted volume) :
    inode.getSize volume.fileSize64 ≤ fileBlocks volume inode * volume.blockSize := by
  have positive := mounted.stores.positive
  have rounded := Nat.div_add_mod (inode.getSize volume.fileSize64 + volume.blockSize - 1)
    volume.blockSize
  have part := Nat.mod_lt (inode.getSize volume.fileSize64 + volume.blockSize - 1) positive
  rw [Nat.mul_comm] at rounded
  unfold fileBlocks
  omega

/-- An offset up to the end of a file without holes can be reached if and only if its block
has an index in `u32` and is one of the file, or could be one: the tables on the way to it
are there. -/
theorem seekable_iff (volume : Ext2Volume) (inode : Inode) (target : Nat) (mounted : Mounted volume)
    (square : volume.blockSize / 4 * (volume.blockSize / 4) < 2 ^ 32)
    (few : volume.blockCount < 2 ^ 32)
    (mapped : Mapped volume inode) (inside : target ≤ inode.getSize volume.fileSize64)
    (word : inode.getSize volume.fileSize64 < 2 ^ 64) :
    Seekable volume inode target ↔
      target / volume.blockSize < 2 ^ 32 ∧
        (target / volume.blockSize < fileBlocks volume inode ∨
          Readable volume inode volume.device AnyTable (target / volume.blockSize)) := by
  have positive := mounted.stores.positive
  constructor
  · intro seekable
    obtain ⟨handle, -, onFile, wild, sameVolume, -⟩ := @wild_handle_spec volume inode mounted few
    have aimed : seekTarget (.fromStart target) handle.offset handle.size = target := rfl
    obtain ⟨after, sought⟩ := seekable handle _ onFile aimed
    have found := fseek_helper_target aimed (by rw [onFile.size]; exact inside)
      (by rw [onFile.size]; exact word)
    have small : target / volume.blockSize < 2 ^ 32 := by
      by_contra large
      have refused := Handle.seek_refused found (by rw [sameVolume]; omega)
      have failed : Handle.fseek (.fromStart target) handle = .error (.error .driverError)
          handle := by
        unfold Handle.fseek
        exact state_bind_error refused
      rw [failed] at sought
      cases sought
    refine ⟨small, ?_⟩
    by_contra neither
    rw [not_or] at neither
    obtain ⟨behind, unreadable⟩ := neither
    -- the target is the end of the file, and the start of the block behind it
    obtain ⟨edge, count⟩ : target = fileBlocks volume inode * volume.blockSize ∧
        target / volume.blockSize = fileBlocks volume inode := by
      have whole := Nat.div_mul_le_self target volume.blockSize
      have before : fileBlocks volume inode * volume.blockSize ≤ target / volume.blockSize *
          volume.blockSize :=
        Nat.mul_le_mul_right _ (by omega)
      have covers := size_le_blocks inode mounted
      have edge : target = fileBlocks volume inode * volume.blockSize := by omega
      exact ⟨edge, by rw [edge, Nat.mul_div_cancel _ positive]⟩
    have size : handle.cursor.volume.blockSize = volume.blockSize := by rw [sameVolume]
    by_cases room : fileBlocks volume inode < capacity (volume.blockSize / 4)
    · have readable := @readable_of_sought handle (fileBlocks volume inode) target after wild
        (by rw [size]; exact room) (by rw [← count]; exact small) (by rw [size]; exact square)
        (by rw [size]; exact onFile.sized) (by rw [size, ← edge]; exact found)
        (by rw [size, ← edge]; exact sought)
      rw [onFile.inode, sameVolume, ← count] at readable
      exact unreadable readable
    · obtain ⟨logBlockSize, power⟩ := mounted.size
      have full : fileBlocks volume inode = capacity (volume.blockSize / 4) := by
        have notEmpty : 0 < capacity (volume.blockSize / 4) := by unfold capacity; omega
        have last := (mapped (fileBlocks volume inode - 1) (by omega)).1
        omega
      obtain ⟨looked, _, _, went, -⟩ := sought_parts found (by rw [size]; exact small) sought
      rw [size, count, full, ← size] at went
      exact seek_behind_capacity wild.views (by rw [size, power]; omega)
        (by rw [size, power]; have := Nat.two_pow_pos logBlockSize; omega)
          (by rw [size]; exact square) went
  · rintro ⟨small, reached⟩ handle position onFile aimed
    have found := fseek_helper_target aimed (by rw [onFile.size]; exact inside)
      (by rw [onFile.size]; exact word)
    refine seek_readable onFile found small square ?_
    rcases reached with before | readable
    · exact mapped_readable mapped _ before
    · exact readable

theorem locate_direct {tableSize k : Nat} (direct : k < 12) : locate tableSize k = .direct k :=
  if_pos direct

def twelveBlocksInode (single : Nat) : Inode :=
  { plainInode 0 12288 1 with singleIndirectBlockPointer := single }

theorem twelve_blocks_mapped (single : Nat) (byte : UInt8) :
    Mapped (plainVolume 1024 8 byte) (twelveBlocksInode single) := by
  intro k inside
  have count : fileBlocks (plainVolume 1024 8 byte) (twelveBlocksInode single) = 12 := by
    have size : (twelveBlocksInode single).getSize true = 12288 := by
      change (if InodeType.file = .file ∧ true then 0 <<< 32 ||| 12288 else 12288) = 12288
      decide
    unfold fileBlocks
    change ((twelveBlocksInode single).getSize true + 1024 - 1) / 1024 = 12
    rw [size]
  have direct : k < 12 := by rwa [count] at inside
  have size : (plainVolume 1024 8 byte).blockSize / 4 = 256 := by
    change 1024 / 4 = 256
    decide
  rw [size, locate_direct direct]
  refine ⟨Nat.lt_trans direct (by decide), ?_⟩
  intro addr member
  have only : addr = 1 := by
    simpa [pointers, tablePath, dataPointer, twelveBlocksInode, plainInode, direct] using member
  rw [only]
  exact ⟨by decide, show 1 < 8 by decide⟩

theorem wild_seek_fails :
    (match wildHandle (plainVolume 1024 8 7) (twelveBlocksInode 0) with
      | none => false
      | some handle => match Handle.fseek (.fromStart 12288) handle with
        | .ok _ _ => false
        | .error _ _ => true) = true := by
  decide +kernel

/-- No seek to the end of a file of twelve blocks can be relied on: the table that would
come next is not there, and a new handle follows the bytes of the heap instead. -/
theorem end_of_file_out_of_reach :
    Mounted (plainVolume 1024 8 7) ∧ Mapped (plainVolume 1024 8 7) (twelveBlocksInode 0) ∧
      (twelveBlocksInode 0).getSize (plainVolume 1024 8 7).fileSize64 = 12288 ∧
      ¬Seekable (plainVolume 1024 8 7) (twelveBlocksInode 0) 12288 := by
  have mounted : Mounted (plainVolume 1024 8 7) := plain_mounted 0 (by decide)
  refine ⟨mounted, twelve_blocks_mapped 0 7, by decide, ?_⟩
  intro seekable
  obtain ⟨handle, made, onFile, -, -, -⟩ := @wild_handle_spec _ (twelveBlocksInode 0) mounted
    (show 8 < 2 ^ 32 by decide)
  obtain ⟨after, sought⟩ := seekable handle (.fromStart 12288) onFile rfl
  have fails := wild_seek_fails
  rw [made] at fails
  dsimp only at fails
  rw [sought] at fails
  exact absurd fails Bool.false_ne_true

/-- With the table there, the end of the file can be reached. -/
theorem end_of_file_within_reach :
    Seekable (plainVolume 1024 8 0) (twelveBlocksInode 1) 12288 := by
  have mounted : Mounted (plainVolume 1024 8 0) := plain_mounted 0 (by decide)
  have path : tablePath (twelveBlocksInode 1) (plainVolume 1024 8 0).device
      (locate ((plainVolume 1024 8 0).blockSize / 4) (12288 / (plainVolume 1024 8 0).blockSize)) =
        [1] := rfl
  have readable : Readable (plainVolume 1024 8 0) (twelveBlocksInode 1)
      (plainVolume 1024 8 0).device
      AnyTable (12288 / (plainVolume 1024 8 0).blockSize) := by
    refine ⟨by decide, ?_, ?_⟩
    · intro level addr member
      rw [path] at member
      rw [List.mem_singleton.mp (List.mem_of_getElem? member)]
      exact Nat.one_ne_zero
    · intro addr member
      have zero : entry (List.replicate 1024 0) 0 = 0 := by decide +kernel
      have both : pointers (twelveBlocksInode 1) (plainVolume 1024 8 0).device
          (locate ((plainVolume 1024 8 0).blockSize / 4)
            (12288 / (plainVolume 1024 8 0).blockSize)) =
            [1, entry (List.replicate 1024 0) 0] := rfl
      rw [both, zero] at member
      have small : ∀ addr ∈ [1, 0], addr < 8 := by decide
      exact small addr member
  exact (seekable_iff _ _ _ mounted (by decide) (by decide) (twelve_blocks_mapped 1 0) (by decide)
    (by decide)).mpr ⟨by decide, .inr readable⟩

end Campix.Ext2
