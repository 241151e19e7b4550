import Campix.Ext2.Upkeep

/-!
# Handles and their open modes

The calls of `Ext2Volume` on an open handle, seen from its open mode. A handle without
`OPEN_MODE_WRITE` never has anything to write back, so none of its calls changes the
volume. A handle with it is allowed to write; with `OPEN_MODE_NO_RESIZE` its position
stays within the file.
-/

namespace Campix.Ext2

open Lib.Outcome Lib.Slice Lib.Word Drivers

set_option autoImplicit false

variable {device : Nat → Block} {bitmaps : Nat → List UInt8}

namespace Cursor

/-- The volume is as it was, and no table and no inode is to be written. -/
structure Still (device : Nat → Block) (bitmaps : Nat → List UInt8) (cursor : Cursor) : Prop where
  device : cursor.volume.device = device
  bitmaps : cursor.volume.bitmaps = bitmaps
  tables : ∀ level, (cursor.location.tables level).dirty = false
  inode : cursor.location.inodeDirty = false

theorem read_block_still (lba : Nat) (buf : Block) :
    Maintains (Still device bitmaps) (fun _ => Still device bitmaps)
      (onVolume (Ext2Volume.readBlock lba buf)) := by
  apply maintains_on_volume
  intro cursor
  apply maintains_get
  intro volume still
  have touched : ∀ block, Still device bitmaps { cursor with volume := volume.touch lba block } :=
    fun _ => ⟨still.device, still.bitmaps, still.tables, still.inode⟩
  split_ifs
  · exact .error still
  · exact .error still
  · split
    · rename_i block _
      have begins : Settles (fun volume => Still device bitmaps { cursor with volume := volume })
          (fun (_ : Failure) volume => Still device bitmaps { cursor with volume := volume })
          (set (volume.touch lba block)) volume := .ok (touched block)
      apply settles_bind begins
      intro _
      split_ifs
      · exact maintains_throw fun _ kept => kept
      · exact maintains_pure _
    · exact .ok (touched _)

theorem still_stable : Stable (Still device bitmaps) (fun _ => Still device bitmaps) where
  fails _ _ _ still := still
  read := read_block_still
  write level _ _ cursor still dirty := absurd (dirty.symm.trans (still.tables level)) (by decide)
  inode cursor still dirty := absurd (dirty.symm.trans still.inode) (by decide)
  table level cached cursor still same := by
    refine ⟨still.device, still.bitmaps, fun other => ?_, still.inode⟩
    by_cases here : other = level
    · rw [here, with_table_self, Bool.eq_false_iff]
      intro dirty
      exact absurd ((same dirty).symm.trans (still.tables level)) (by decide)
    · rw [with_table_other here]
      exact still.tables other
  tableFailed _ level cached cursor still same := by
    refine ⟨still.device, still.bitmaps, fun other => ?_, still.inode⟩
    by_cases here : other = level
    · rw [here, with_table_self, Bool.eq_false_iff]
      intro dirty
      exact absurd ((same dirty).symm.trans (still.tables level)) (by decide)
    · rw [with_table_other here]
      exact still.tables other
  place _ _ still := ⟨still.device, still.bitmaps, still.tables, still.inode⟩
  clean _ still := ⟨still.device, still.bitmaps, still.tables, rfl⟩

end Cursor

namespace Handle

/-- Nothing was changed through the handle, and nothing is to be written back. -/
def Still (device : Nat → Block) (bitmaps : Nat → List UInt8) (handle : Handle) : Prop :=
  handle.cursor.Still device bitmaps ∧ Clean handle.blockCacheInfo

theorem still_stable : Stable (Still device bitmaps) (fun _ => Still device bitmaps) where
  cursor handle := @Cursor.stable_and _ _ (Clean handle.blockCacheInfo) Cursor.still_stable
  write info _ still buffered dirty := absurd (dirty.symm.trans (still.2 info buffered)) (by decide)
  buffer _ _ _ still clean := ⟨still.1, clean⟩
  bufferFailed _ _ still := ⟨still.1, fun _ impossible => by cases impossible⟩

variable {handle : Handle}

theorem still_fread (buf : Block) :
    Maintains (Still device bitmaps) (fun _ => Still device bitmaps) (fread buf) := by
  apply maintains_get
  intro handle still
  split_ifs
  · exact .error still
  · exact maintains_read still_stable (fun _ _ still => still) buf handle still

theorem still_fseek (position : SeekPosition) :
    Maintains (Still device bitmaps) (fun _ => Still device bitmaps) (fseek position) := by
  apply maintains_bind (maintains_seek still_stable (fun _ _ still => still) position)
  intro _
  exact maintains_get fun _ still => .ok still

theorem still_fclose : Maintains (Still device bitmaps) (fun _ => Still device bitmaps) fclose :=
  maintains_flush still_stable

theorem mode_durable (mode : Nat) :
    Durable (fun handle => handle.openMode = mode) (fun _ handle => handle.openMode = mode) where
  cursor _ := Cursor.blind_stable (fun _ _ same => same) (fun _ _ same => same) fun _ _ same => same
  write _ handle same _ _ := maintains_rest (fun _ _ same => same) handle same
  buffer _ _ _ same _ := same
  bufferFailed _ _ same := same
  offset _ _ same := same
  size _ _ same := same
  change _ _ _ same := same
  inodeChange _ := maintains_rest fun _ _ same => same
  inodeWrite := maintains_get fun handle same => maintains_rest (fun _ _ same => same) handle same

variable {mode : Nat}

theorem mode_fread (buf : Block) :
    Maintains (fun handle => handle.openMode = mode) (fun _ handle => handle.openMode = mode)
      (fread buf) := by
  apply maintains_get
  intro handle same
  split_ifs
  · exact .error same
  · exact maintains_read (mode_durable mode).toStable (fun _ _ same => same) buf handle same

theorem mode_fseek (position : SeekPosition) :
    Maintains (fun handle => handle.openMode = mode) (fun _ handle => handle.openMode = mode)
      (fseek position) := by
  apply maintains_bind (maintains_seek (mode_durable mode).toStable (fun _ _ same => same) position)
  intro _
  exact maintains_get fun _ same => .ok same

theorem mode_fflush :
    Maintains (fun handle => handle.openMode = mode) (fun _ handle => handle.openMode = mode)
      fflush := by
  apply maintains_get
  intro handle same
  split_ifs
  · exact .error same
  · exact maintains_flush (mode_durable mode).toStable handle same

theorem mode_fwrite (buf : Block) :
    Maintains (fun handle => handle.openMode = mode) (fun _ handle => handle.openMode = mode)
      (fwrite buf) := by
  have append : Maintains (fun handle => handle.openMode = mode)
      (fun _ handle => handle.openMode = mode)
      (onCursor Cursor.allocateNewBlock) := maintains_rest fun _ _ same => same
  have write : ∀ buf, Maintains (fun handle => handle.openMode = mode)
      (fun _ handle => handle.openMode = mode) (write buf) := maintains_write (mode_durable mode)
  apply maintains_get
  intro handle same
  split_ifs
  · exact .error same
  · exact .error same
  · apply settles_bind (maintains_or_panic (mode_durable mode).toStable _ handle same)
    exact write
  · dsimp only
    split_ifs
    · exact settles_bind (maintains_grow (mode_durable mode) append _ handle same) fun _ =>
        write buf
    · exact write buf handle same

theorem mode_ftruncate :
    Maintains (fun handle => handle.openMode = mode) (fun _ handle => handle.openMode = mode)
      ftruncate := by
  have free : Maintains (fun handle => handle.openMode = mode)
      (fun _ handle => handle.openMode = mode)
      (onCursor Cursor.freeLastBlock) := maintains_rest fun _ _ same => same
  apply maintains_get
  intro handle same
  split_ifs
  · exact .error same
  · exact .error same
  · apply settles_bind (maintains_truncate (mode_durable mode) free _ handle same)
    intro _
    exact maintains_get fun _ same => .ok same

end Handle

namespace Cursor

/-- No step on a volume that can be written is refused. -/
def Allowed {Value : Type} (operation : OnCursor Value) : Prop :=
  Maintains (fun cursor => Spared notAllowed cursor.volume) (fun found _ => found ≠ notAllowed)
    operation

theorem alloc_block_from_allowed (groups : Nat) : ∀ group,
    Maintains (Spared notAllowed) (fun found _ => found ≠ notAllowed)
      (Ext2Volume.allocBlockFrom groups group) := by
  induction groups with
  | zero =>
      intro group volume spared
      exact .error (by decide)
  | succ groups ih =>
      intro group
      apply maintains_get
      intro volume spared
      split
      · exact ih (group + 1) volume spared
      · split
        · exact .ok spared
        · exact ih (group + 1) volume spared

theorem balloc_allowed (allocation : Allocation) : Allowed (balloc allocation) := by
  apply maintains_get
  intro cursor spared
  split
  · exact .error (by decide)
  · split
    · exact .ok spared
    · have any : Allowed (onVolume Ext2Volume.allocBlockAny) :=
        maintains_on_volume fun _ => maintains_get fun volume spared =>
          alloc_block_from_allowed _ 0 volume spared
      apply settles_bind (any cursor spared)
      intro block
      exact maintains_get fun _ spared => .ok spared

theorem modify_inode_allowed (change : Inode → Inode) : Allowed (modifyInode change) :=
  maintains_modify fun _ spared => spared

theorem set_table_entry_allowed (level : Fin 3) (idx value : Nat) :
    Allowed (setTableEntry level idx value) :=
  maintains_modify fun _ spared => spared

theorem link_table1_allowed (pointer : Inode → Nat) (setPointer : Nat → Inode → Inode)
    (allocation : Allocation) : Allowed (linkTable1 pointer setPointer allocation) := by
  apply maintains_get
  intro cursor spared
  split_ifs
  · apply settles_bind (balloc_allowed allocation cursor spared)
    intro result
    apply maintains_bind (modify_inode_allowed _)
    intro _
    exact maintains_bind (maintains_check_table1 spares_stable) fun _ => maintains_pure _
  · exact .ok spared

theorem fill_entry_allowed {load : OnCursor Unit} (loads : Allowed load) (level : Fin 3) (idx : Nat)
    (allocation : Allocation) : Allowed (fillEntry level idx load allocation) := by
  apply maintains_bind (show Allowed (tableEntry level idx)
    from maintains_get fun _ spared => .ok spared)
  intro value
  split_ifs
  · apply maintains_bind (balloc_allowed allocation)
    intro result
    apply maintains_bind (set_table_entry_allowed level idx _)
    intro _
    exact maintains_bind loads fun _ => maintains_pure _
  · exact maintains_pure _

theorem append_block_allowed (allocation : Allocation) : Allowed (appendBlock allocation) := by
  have second : Allowed checkTable2 := maintains_check_table2 spares_stable
  have third : Allowed checkTable3 := maintains_check_table3 spares_stable
  apply maintains_get
  intro cursor spared
  dsimp only
  split
  · split_ifs
    · apply settles_bind (balloc_allowed allocation cursor spared)
      intro result
      exact maintains_bind (modify_inode_allowed _) fun _ => maintains_pure _
    · exact .ok spared
    · exact .error (by decide)
  · apply settles_bind (link_table1_allowed _ _ _ cursor spared)
    intro allocation
    exact fill_entry_allowed (maintains_pure ()) _ _ _
  · apply settles_bind (link_table1_allowed _ _ _ cursor spared)
    intro allocation
    apply maintains_bind (fill_entry_allowed second _ _ _)
    intro allocation
    exact fill_entry_allowed (maintains_pure ()) _ _ _
  · apply settles_bind (link_table1_allowed _ _ _ cursor spared)
    intro allocation
    apply maintains_bind (fill_entry_allowed second _ _ _)
    intro allocation
    apply maintains_bind (fill_entry_allowed third _ _ _)
    intro allocation
    exact fill_entry_allowed (maintains_pure ()) _ _ _

theorem allocate_new_block_allowed : Allowed allocateNewBlock := by
  apply maintains_bind (maintains_move_behind_last spares_stable)
  intro group
  apply maintains_get
  intro cursor spared
  dsimp only
  split_ifs
  · exact .error (by decide)
  · apply settles_bind (append_block_allowed _ cursor spared)
    intro allocation
    apply maintains_bind
    · exact maintains_modify fun _ spared => spared
    intro _
    exact maintains_pure _

end Cursor

namespace Handle

variable {handle : Handle}

/-- With `OPEN_MODE_WRITE`, and inside of the file if it cannot be resized, the handle may
write. -/
theorem fwrite_allowed (buf : Block) (writable : handle.openMode &&& openModeWrite ≠ 0)
    (inside : handle.openMode &&& openModeNoResize = openModeNoResize → handle.offset ≤ handle.size)
    (spared : handle.cursor.volume.readOnly = false) :
    Settles (Safe notAllowed) (fun found _ => found ≠ notAllowed) (fwrite buf) handle := by
  have safe : Safe notAllowed handle := .inr ⟨rfl, spared⟩
  have append : Maintains (Safe notAllowed) (fun found _ => found ≠ notAllowed)
      (onCursor Cursor.allocateNewBlock) := maintains_on_cursor fun _ =>
        Cursor.allocate_new_block_allowed
  have write : ∀ buf, Maintains (Safe notAllowed) (fun found _ => found ≠ notAllowed) (write buf) :=
    maintains_write spares_durable
  unfold fwrite
  change Settles _ _ (if handle.openMode &&& openModeWrite = 0 then _ else _ : OnHandle Nat) handle
  rw [if_neg writable]
  split_ifs with fixed beyond
  · exact absurd (inside fixed) (Nat.not_le.mpr beyond)
  · apply settles_bind (maintains_or_panic spares_durable.toStable _ handle safe)
    exact write
  · dsimp only
    split_ifs
    · exact settles_bind (maintains_grow spares_durable append _ handle safe) fun _ => write buf
    · exact write buf handle safe

def Bounded (handle : Handle) : Prop := handle.offset ≤ handle.size

def Room (size left : Nat) (handle : Handle) : Prop :=
  handle.offset + left ≤ size ∧ handle.size = size

variable {size left : Nat}

theorem bounded_of_room (room : Room size left handle) : handle.Bounded := by
  obtain ⟨inside, same⟩ := room
  unfold Bounded
  omega

theorem room_zero (room : Room size left handle) : Room size 0 handle := by
  obtain ⟨inside, same⟩ := room
  exact ⟨by omega, same⟩

theorem room_stable : Stable (Room size left) (fun _ => Bounded) where
  cursor _ := Cursor.blind_stable (fun _ _ room => room) (fun _ _ room => bounded_of_room room)
    fun _ _ bounded => bounded
  write _ handle room _ _ := by
    unfold Settles onCursor
    cases Cursor.writeBlock handle.blockCache handle.cursor with
    | ok value cursor => exact .ok room
    | error failure cursor => exact .error (bounded_of_room room)
  buffer _ _ _ room _ := room
  bufferFailed _ _ bounded := bounded

theorem skip_room {count : Nat} (room : Room size left handle) (part : count ≤ left) :
    Room size (left - count) { handle with offset := handle.offset + count } := by
  obtain ⟨inside, same⟩ := room
  exact ⟨show handle.offset + count + (left - count) ≤ size by omega, same⟩

theorem read_loop_bounded (infoSize maxCount rounds : Nat) : ∀ read buffer handle,
    Room size (maxCount - read) handle →
    Settles Bounded (fun _ => Bounded) (readLoop infoSize maxCount rounds read buffer) handle := by
  induction rounds with
  | zero =>
      intro read buffer handle room
      exact .error (bounded_of_room room)
  | succ rounds ih =>
      intro read buffer handle room
      unfold readLoop
      split_ifs
      · apply settles_seq (maintains_on_cursor
          (fun handle => Cursor.maintains_advance (room_stable.cursor handle)) handle room)
        intro moved after room
        split_ifs
        · apply settles_seq (maintains_internal_update_buffer room_stable after room)
          intro _ after room
          apply settles_get
          apply settles_seq (maintains_or_panic room_stable _ after room)
          intro part after room
          apply settles_seq (maintains_or_panic room_stable _ after room)
          intro copied after room
          apply settles_modify
          apply ih
          rw [Nat.sub_add_eq]
          exact skip_room room (min_le_left _ _)
        · exact .ok (bounded_of_room room)
      · exact .ok (bounded_of_room room)

theorem read_first_seq {Value : Type} {maxCount : Nat} {buffer : Block}
    {rest : Nat × Block → OnHandle Value} (room : Room size maxCount handle)
    (continues : ∀ count buffer after, Room size (maxCount - count) after →
      Settles Bounded (fun _ => Bounded) (rest (count, buffer)) after) :
    Settles Bounded (fun _ => Bounded) (readFirst maxCount buffer >>= rest) handle := by
  unfold readFirst
  simp only [bind_assoc, pure_bind]
  apply settles_get
  apply settles_seq (maintains_or_panic room_stable _ handle room)
  intro part after room
  apply settles_seq (maintains_or_panic room_stable _ after room)
  intro copied after room
  apply settles_modify
  apply continues
  exact skip_room room (min_le_left _ _)

theorem read_bounded (buffer : Block) : Maintains Bounded (fun _ => Bounded) (read buffer) := by
  apply maintains_get
  intro handle bounded
  have room : Room handle.size (min buffer.length (sub64 handle.size handle.offset)) handle := by
    have inside : handle.offset ≤ handle.size := bounded
    unfold sub64
    rw [if_pos inside]
    exact ⟨by omega, rfl⟩
  apply settles_seq (maintains_flush room_stable handle room)
  intro _ after room
  apply settles_seq (maintains_fill_buffer room_stable after room)
  intro _ after room
  apply settles_get
  split
  · exact .ok (bounded_of_room room)
  · dsimp only [readBuffered]
    split_ifs
    · apply read_first_seq room
      intro count buffer after room
      exact read_loop_bounded _ _ _ _ _ _ room
    · apply read_loop_bounded
      rwa [Nat.sub_zero]

theorem put_bytes_room (start : Nat) {bytes : Block} (room : Room size left handle)
    (part : bytes.length ≤ left) :
    Settles (Room size (left - bytes.length)) (fun _ => Bounded) (putBytes start bytes) handle := by
  apply settles_get
  apply settles_seq (maintains_or_panic room_stable _ handle room)
  intro cache after room
  apply settles_modify
  exact .ok (skip_room room part)

theorem slice_seq {Value : Type} {Holds : Handle → Prop} {buffer : Block} {start stop : Nat}
    {rest : Block → OnHandle Value} (room : Room size left handle)
    (continues : ∀ part, part.length = stop - start →
      Settles Holds (fun _ => Bounded) (rest part) handle) :
    Settles Holds (fun _ => Bounded) (orPanic (getSlice buffer start stop) >>= rest) handle := by
  unfold getSlice
  split_ifs with inside
  · apply continues
    rw [List.length_drop, List.length_take]
    omega
  · exact .error (bounded_of_room room)

theorem write_loop_bounded (infoSize maxCount : Nat) (buffer : Block) (rounds : Nat) :
    ∀ written handle,
    Room size (maxCount - written) handle →
    Settles (Room size 0) (fun _ => Bounded) (writeLoop infoSize maxCount buffer rounds written)
      handle := by
  induction rounds with
  | zero =>
      intro written handle room
      exact .error (bounded_of_room room)
  | succ rounds ih =>
      intro written handle room
      unfold writeLoop
      split_ifs
      · apply settles_seq (maintains_flush room_stable handle room)
        intro _ after room
        apply settles_seq (maintains_on_cursor
          (fun handle => Cursor.maintains_advance (room_stable.cursor handle)) after room)
        intro moved after room
        split_ifs
        · apply settles_seq (maintains_read_unless_whole room_stable _ after room)
          intro _ after room
          apply slice_seq room
          intro part length
          have short : part.length ≤ maxCount - written := by
            rw [length, Nat.add_sub_cancel_left]
            exact min_le_left _ _
          apply settles_seq (put_bytes_room 0 room short)
          intro _ after room
          apply ih
          rwa [Nat.sub_add_eq, ← Nat.add_sub_cancel_left written
            (min (maxCount - written) infoSize), ← length]
        · exact .ok (room_zero room)
      · exact .ok (room_zero room)

theorem write_first_seq {Value : Type} {Holds : Handle → Prop} {maxCount : Nat} {buffer : Block}
    {rest : Nat → OnHandle Value} (room : Room size maxCount handle)
    (continues : ∀ count after, Room size (maxCount - count) after →
      Settles Holds (fun _ => Bounded) (rest count) after) :
    Settles Holds (fun _ => Bounded) (writeFirst maxCount buffer >>= rest) handle := by
  unfold writeFirst
  simp only [bind_assoc, pure_bind]
  apply settles_get
  apply slice_seq room
  intro part length
  rw [Nat.sub_zero] at length
  apply settles_seq (put_bytes_room _ room (by rw [length]; exact min_le_left _ _))
  intro _ after room
  apply continues
  rwa [← length]

theorem write_buffered_room {maxCount : Nat} (currentBlock : Nat) (buffer : Block)
    (room : Room size maxCount handle) :
    Settles (Room size 0) (fun _ => Bounded) (writeBuffered currentBlock maxCount buffer)
      handle := by
  apply settles_get
  split
  · exact .ok (room_zero room)
  · split_ifs
    · apply write_first_seq room
      intro count after room
      exact write_loop_bounded _ _ _ _ _ _ room
    · apply write_loop_bounded
      rwa [Nat.sub_zero]

theorem set_new_size_bounded {newSize : Nat} (room : Room size 0 handle) (larger : size ≤ newSize) :
    Settles Bounded (fun _ => Bounded) (setNewSize newSize) handle := by
  have rest : ∀ (handle : Handle) cursor, handle.Bounded →
      Bounded { handle with cursor := cursor } :=
    fun _ _ bounded => bounded
  apply settles_get
  split_ifs
  · apply settles_modify
    apply settles_seq
    · apply maintains_rest rest
      have inside := room.1
      change handle.offset ≤ newSize
      omega
    intro _ after bounded
    apply settles_get
    exact maintains_rest rest after bounded
  · exact .ok (bounded_of_room room)

theorem write_bounded {buffer : Block} (fits : handle.offset + buffer.length ≤ handle.size) :
    Settles Bounded (fun _ => Bounded) (write buffer) handle := by
  have room : ∀ count, Room handle.size (min buffer.length count) handle := by
    intro count
    exact ⟨by omega, rfl⟩
  apply settles_get
  apply settles_seq (maintains_flush room_stable handle (room _))
  intro _ after room
  apply settles_seq (maintains_fill_buffer room_stable after room)
  intro _ after room
  apply settles_seq (write_buffered_room _ _ room)
  intro written after room
  apply settles_seq (set_new_size_bounded room (le_max_left _ _))
  intro _ after bounded
  exact .ok bounded

theorem fseek_helper_le {seek : SeekPosition} {position len moved : Nat} (inside : position ≤ len)
    (found : fseekHelper seek position len = some moved) : moved ≤ len := by
  unfold fseekHelper at found
  cases seek with
  | fromStart target =>
      dsimp only at found
      split_ifs at found
      cases found
      omega
  | fromCurrent target =>
      dsimp only at found
      split_ifs at found
      · cases found
        omega
      · cases found
        omega
  | fromEnd target =>
      dsimp only at found
      split_ifs at found
      cases found
      omega

theorem seek_bounded (position : SeekPosition) :
    Maintains Bounded (fun _ => Bounded) (seek position) := by
  apply maintains_get
  intro handle bounded
  cases found : fseekHelper position handle.offset handle.size with
  | none => exact .error bounded
  | some moved =>
      have inside := fseek_helper_le bounded found
      dsimp only
      split_ifs
      · exact .error bounded
      · apply settles_modify
        have room : Room handle.size 0 { handle with offset := moved } := ⟨inside, rfl⟩
        apply settles_seq (maintains_on_cursor
          (fun handle => Cursor.maintains_seek (room_stable.cursor handle) _) _ room)
        intro _ after room
        exact settles_weaken (maintains_internal_update_buffer room_stable after room)
          (fun _ => bounded_of_room) fun _ _ bounded => bounded

/-- The position of a handle that cannot change the size of its file. -/
theorem fwrite_bounded (buf : Block)
    (fixed : handle.openMode &&& openModeNoResize = openModeNoResize)
    (bounded : handle.Bounded) : Settles Bounded (fun _ => Bounded) (fwrite buf) handle := by
  apply settles_get
  split_ifs with unwritable beyond
  · exact .error bounded
  · exact .error bounded
  · have room : Room handle.size 0 handle := ⟨bounded, rfl⟩
    apply slice_seq room
    intro part length
    apply write_bounded
    have inside : handle.offset ≤ handle.size := bounded
    omega

section Refused

variable (unwritable : handle.openMode &&& openModeWrite = 0)

include unwritable

theorem fwrite_refused (buf : Block) : fwrite buf handle = .error notAllowed handle := by
  change (if handle.openMode &&& openModeWrite = 0 then _ else _ : OnHandle Nat) handle = _
  rw [if_pos unwritable]
  rfl

theorem ftruncate_refused : ftruncate handle = .error notAllowed handle := by
  change (if handle.openMode &&& openModeWrite = 0 then _ else _ : OnHandle Nat) handle = _
  rw [if_pos unwritable]
  rfl

end Refused

end Handle

end Campix.Ext2
