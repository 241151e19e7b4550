import Campix.Ext2.Contents
import Campix.Ext2.Resizing

/-!
# What the operations of a handle keep

Moving, reading and flushing are made of a few steps on the volume and on the copies of
tables. An invariant of the handle that those steps keep is kept by all of it. The steps
fail with errors of their own; only the allocators run out of space, and only writing to
a read-only volume is not allowed.
-/

namespace Campix.Ext2

open Lib.Outcome Drivers

set_option autoImplicit false

/-- The error of a volume without free blocks. -/
def noSpace : Failure := .error .outOfSpace

def notAllowed : Failure := .error .actionNotAllowed

def Plain (failure : Failure) : Prop := failure ≠ noSpace ∧ failure ≠ notAllowed

instance (failure : Failure) : Decidable (Plain failure) := by
  unfold Plain
  infer_instance

namespace Cursor

variable {Value : Type} {Holds : Cursor → Prop} {Failed : Failure → Cursor → Prop}

/-- The steps on a cursor keep the invariant. Only a table that is changed is written,
and only an inode that is changed. -/
structure Stable (Holds : Cursor → Prop) (Failed : Failure → Cursor → Prop) : Prop where
  fails : ∀ failure, Plain failure → ∀ cursor, Holds cursor → Failed failure cursor
  read : ∀ lba buf, Maintains Holds Failed (onVolume (Ext2Volume.readBlock lba buf))
  write : ∀ (level : Fin 3) lba buf cursor, Holds cursor →
    (cursor.location.tables level).dirty = true →
    Settles Holds Failed (onVolume (Ext2Volume.writeBlock lba buf)) cursor
  inode : ∀ cursor, Holds cursor → cursor.location.inodeDirty = true →
    Settles Holds Failed (onVolume (updateInode cursor.location.inode)) cursor
  table : ∀ level cached cursor, Holds cursor →
    (cached.dirty = true → (cursor.location.tables level).dirty = true) →
      Holds (cursor.withTable level cached)
  tableFailed : ∀ failure level cached cursor, Failed failure cursor →
    (cached.dirty = true → (cursor.location.tables level).dirty = true) →
      Failed failure (cursor.withTable level cached)
  place : ∀ location cursor, Holds cursor →
    Holds { cursor with location := { cursor.location with location := location } }
  clean : ∀ cursor, Holds cursor →
    Holds { cursor with location := { cursor.location with inodeDirty := false } }

theorem stable_and {fixed : Prop} (stable : Stable Holds Failed) :
    Stable (fun cursor => Holds cursor ∧ fixed) (fun failure cursor => Failed failure cursor ∧
      fixed) where
  fails failure plain cursor holds := ⟨stable.fails failure plain cursor holds.1, holds.2⟩
  read lba buf cursor holds := settles_and (stable.read lba buf cursor holds.1) holds.2
  write level lba buf cursor holds dirty :=
    settles_and (stable.write level lba buf cursor holds.1 dirty) holds.2
  inode cursor holds dirty := settles_and (stable.inode cursor holds.1 dirty) holds.2
  table level cached cursor holds same := ⟨stable.table level cached cursor holds.1 same, holds.2⟩
  tableFailed failure level cached cursor failed same :=
    ⟨stable.tableFailed failure level cached cursor failed.1 same, failed.2⟩
  place location cursor holds := ⟨stable.place location cursor holds.1, holds.2⟩
  clean cursor holds := ⟨stable.clean cursor holds.1, holds.2⟩

/-- A property that does not look at the cursor. -/
theorem blind_stable {Weaker : Cursor → Prop} (blind : ∀ before after, Holds before → Holds after)
    (fails : ∀ before after, Holds before → Weaker after)
    (blindFailed : ∀ before after, Weaker before → Weaker after) : Stable Holds
    (fun _ => Weaker) where
  fails _ _ cursor holds := fails cursor cursor holds
  read _ _ := maintains_blind blind fails _
  write _ _ _ cursor holds _ := maintains_blind blind fails _ cursor holds
  inode cursor holds _ := maintains_blind blind fails _ cursor holds
  table _ _ cursor holds _ := blind cursor _ holds
  tableFailed _ _ _ cursor failed _ := blindFailed cursor _ failed
  place _ cursor holds := blind cursor _ holds
  clean cursor holds := blind cursor _ holds

theorem maintains_on_volume {operation : OnVolume Value}
    (maintains : ∀ cursor : Cursor, Maintains (fun volume => Holds { cursor with volume := volume })
      (fun failure volume => Failed failure { cursor with volume := volume }) operation) :
    Maintains Holds Failed (onVolume operation) := by
  intro cursor holds
  have settles := maintains cursor cursor.volume holds
  unfold Settles at settles
  unfold Settles onVolume
  cases outcome : operation cursor.volume with
  | ok value volume =>
      rw [outcome] at settles
      cases settles with
      | ok kept => exact .ok kept
  | error failure volume =>
      rw [outcome] at settles
      cases settles with
      | error failed => exact .error failed

variable (stable : Stable Holds Failed)

include stable

theorem maintains_fail {failure : Failure} (plain : Plain failure) :
    Maintains Holds Failed (throw failure : OnCursor Value) :=
  maintains_throw fun cursor holds => stable.fails failure plain cursor holds

theorem maintains_set_table (level : Fin 3) {change : CachedTable → CachedTable}
    (keeps : ∀ cached, (change cached).dirty = true → cached.dirty = true) :
    Maintains Holds Failed (setTable level change) :=
  maintains_modify fun cursor holds => stable.table level _ cursor holds (keeps _)

theorem maintains_save (level : Fin 3) (toLoadAddr : Nat) :
    Maintains Holds Failed (saveIfAddressesDiffer level toLoadAddr) := by
  apply maintains_get
  intro cursor holds
  dsimp only
  split_ifs with changed
  · apply settles_bind (stable.write level _ _ cursor holds changed.1)
    intro written
    split_ifs
    · exact maintains_fail stable (by decide)
    · exact maintains_set_table stable level fun _ impossible =>
        absurd impossible Bool.false_ne_true
  · exact .ok holds

theorem maintains_load_table (level : Fin 3) (addr : Nat) :
    Maintains Holds Failed (loadTable level addr) := by
  intro cursor holds
  have read := stable.read addr (cursor.location.tables level).table cursor holds
  unfold Settles onVolume at read
  unfold Settles loadTable
  cases outcome : Ext2Volume.readBlock addr (cursor.location.tables level).table cursor.volume with
  | ok result volume =>
      rw [outcome] at read
      cases read with
      | ok kept => exact .ok (stable.table level _ _ kept id)
  | error failure volume =>
      rw [outcome] at read
      cases read with
      | error failed => exact .error (stable.tableFailed _ level _ _ failed id)

theorem maintains_check_table (level : Fin 3) (addr : Nat) :
    Maintains Holds Failed (checkTable level addr) := by
  apply maintains_bind (maintains_save stable level addr)
  intro _
  apply maintains_get
  intro cursor holds
  dsimp only
  split_ifs
  · apply maintains_set_table stable level _ cursor holds
    intro cached dirty
    exact dirty
  · exact maintains_load_table stable level addr cursor holds
  · exact .ok holds

theorem maintains_follow (level : Fin 3) (idx : Nat) :
    Maintains Holds Failed (follow level idx) := by
  apply maintains_get
  intro cursor holds
  dsimp only
  split_ifs
  · exact .ok holds
  · exact maintains_fail stable (by decide) cursor holds

theorem maintains_check_table1 : Maintains Holds Failed checkTable1 :=
  maintains_get fun cursor holds => maintains_check_table stable 0 _ cursor holds

theorem maintains_check_table2 : Maintains Holds Failed checkTable2 := by
  apply maintains_bind _ (maintains_check_table stable 1)
  apply maintains_get
  intro cursor holds
  split
  · exact .ok holds
  · exact .ok holds
  · exact maintains_follow stable 0 _ cursor holds
  · exact maintains_follow stable 0 _ cursor holds

theorem maintains_check_table3 : Maintains Holds Failed checkTable3 := by
  apply maintains_bind _ (maintains_check_table stable 2)
  apply maintains_get
  intro cursor holds
  split
  · exact .ok holds
  · exact .ok holds
  · exact maintains_follow stable 1 _ cursor holds
  · exact maintains_follow stable 1 _ cursor holds

theorem maintains_check_tables : Maintains Holds Failed checkTables := by
  apply maintains_bind (maintains_check_table1 stable)
  intro _
  apply maintains_bind (maintains_check_table2 stable)
  intro _
  exact maintains_check_table3 stable

theorem maintains_move (location : InodeReadingLocation) :
    Maintains Holds Failed (modifyLocation fun cached => { cached with location := location }) :=
  maintains_modify fun cursor holds => stable.place location cursor holds

theorem maintains_seek (block : Nat) : Maintains Holds Failed (seek block) := by
  apply maintains_get
  intro cursor holds
  split
  · exact maintains_fail stable (by decide) cursor holds
  · exact maintains_bind (maintains_move stable _) (fun _ => maintains_check_tables stable)
      cursor holds

theorem maintains_get_next_block : Maintains Holds Failed getNextBlock := by
  apply maintains_get
  intro cursor holds
  dsimp only
  split
  · split_ifs
    · exact .ok holds
    · exact maintains_fail stable (by decide) cursor holds
  · exact maintains_follow stable 0 _ cursor holds
  · exact maintains_follow stable 1 _ cursor holds
  · exact maintains_follow stable 2 _ cursor holds

theorem maintains_move_behind_last : Maintains Holds Failed moveBehindLast := by
  apply maintains_get
  intro cursor holds
  split_ifs
  · exact maintains_bind (maintains_seek stable 0) (fun _ => maintains_pure _) cursor holds
  · apply settles_bind (maintains_seek stable _ cursor holds)
    intro _
    apply maintains_bind (maintains_get_next_block stable)
    intro block
    apply maintains_get
    intro moved kept
    split
    · exact maintains_fail stable (by decide) moved kept
    · exact maintains_bind (maintains_move stable _) (fun _ => maintains_pure _) moved kept

theorem maintains_read_block (buffer : Block) : Maintains Holds Failed (readBlock buffer) := by
  apply maintains_get
  intro cursor holds
  split_ifs
  · exact maintains_fail stable (by decide) cursor holds
  · apply settles_bind (maintains_get_next_block stable cursor holds)
    intro block
    apply maintains_bind (stable.read _ _)
    intro result
    exact maintains_get fun after kept => .ok kept

theorem maintains_advance : Maintains Holds Failed advance := by
  apply maintains_get
  intro cursor holds
  dsimp only
  split_ifs
  · exact .ok holds
  · split
    · exact .ok holds
    · apply settles_bind (maintains_move stable _ cursor holds)
      intro _
      exact maintains_bind (maintains_check_tables stable) fun _ => maintains_pure _

theorem maintains_flush_table (level : Fin 3) : Maintains Holds Failed (flushTable level) := by
  apply maintains_get
  intro cursor holds
  dsimp only
  split_ifs with changed
  · apply settles_bind (stable.write level _ _ cursor holds changed.1)
    intro _
    exact maintains_set_table stable level fun _ impossible => absurd impossible Bool.false_ne_true
  · exact .ok holds

theorem maintains_flush_tables : Maintains Holds Failed flush := by
  apply maintains_bind (maintains_flush_table stable 0)
  intro _
  apply maintains_bind (maintains_flush_table stable 1)
  intro _
  apply maintains_bind (maintains_flush_table stable 2)
  intro _
  apply maintains_get
  intro cursor holds
  dsimp only
  split_ifs with changed
  · apply settles_bind (stable.inode cursor holds changed)
    intro _
    exact maintains_modify stable.clean
  · exact .ok holds

end Cursor

namespace Handle

variable {Value : Type} {Holds : Handle → Prop} {Failed : Failure → Handle → Prop}

def Clean (info : Option BlockCacheInfo) : Prop := ∀ buffered, info = some buffered →
    buffered.dirty = false

structure Stable (Holds : Handle → Prop) (Failed : Failure → Handle → Prop) : Prop where
  cursor : ∀ handle : Handle, Cursor.Stable (fun cursor => Holds { handle with cursor := cursor })
    (fun failure cursor => Failed failure { handle with cursor := cursor })
  write : ∀ info (handle : Handle), Holds handle → handle.blockCacheInfo = some info →
    info.dirty = true →
    Settles Holds Failed (onCursor (Cursor.writeBlock handle.blockCache)) handle
  buffer : ∀ buffer info (handle : Handle), Holds handle → Clean info →
    Holds { handle with blockCache := buffer, blockCacheInfo := info }
  bufferFailed : ∀ failure (handle : Handle), Failed failure handle →
    Failed failure { handle with blockCacheInfo := none }

theorem maintains_on_cursor {operation : OnCursor Value}
    (maintains : ∀ handle : Handle, Maintains (fun cursor => Holds { handle with cursor := cursor })
      (fun failure cursor => Failed failure { handle with cursor := cursor }) operation) :
    Maintains Holds Failed (onCursor operation) := by
  intro handle holds
  have settles := maintains handle handle.cursor holds
  unfold Settles at settles
  unfold Settles onCursor
  cases outcome : operation handle.cursor with
  | ok value cursor =>
      rw [outcome] at settles
      cases settles with
      | ok kept => exact .ok kept
  | error failure cursor =>
      rw [outcome] at settles
      cases settles with
      | error failed => exact .error failed

theorem maintains_rest {operation : OnCursor Value}
    (rest : ∀ (handle : Handle) cursor, Holds handle → Holds { handle with cursor := cursor }) :
    Maintains Holds (fun _ => Holds) (onCursor operation) := by
  intro handle holds
  unfold Settles onCursor
  cases operation handle.cursor with
  | ok value cursor => exact .ok (rest handle cursor holds)
  | error failure cursor => exact .error (rest handle cursor holds)

variable (stable : Stable Holds Failed)

include stable

theorem stable_fails {failure : Failure} (plain : Plain failure) (handle : Handle)
    (holds : Holds handle) :
    Failed failure handle :=
  (stable.cursor handle).fails failure plain handle.cursor holds

theorem maintains_stop {failure : Failure} (plain : Plain failure) :
    Maintains Holds Failed (throw failure : OnHandle Value) :=
  maintains_throw fun handle holds => stable_fails stable plain handle holds

theorem maintains_or_panic (value : Option Value) : Maintains Holds Failed (orPanic value) := by
  cases value with
  | none => exact maintains_stop stable (by decide)
  | some value => exact maintains_pure value

theorem maintains_flush : Maintains Holds Failed flush := by
  apply maintains_bind (maintains_on_cursor
    fun handle => Cursor.maintains_flush_tables (stable.cursor handle))
  intro _
  apply maintains_get
  intro handle holds
  split
  · exact .ok holds
  · rename_i info buffered
    split_ifs with changed
    · have written := stable.write info handle holds buffered changed
      apply settles_bind written
      intro _
      apply maintains_modify
      intro after kept
      exact stable.buffer after.blockCache _ after kept fun _ same => by cases same; rfl
    · exact .ok holds

theorem maintains_internal_update_buffer : Maintains Holds Failed internalUpdateBuffer := by
  intro handle holds
  have settles := Cursor.maintains_read_block (stable.cursor handle)
    handle.blockCache handle.cursor holds
  unfold Settles at settles
  unfold Settles internalUpdateBuffer
  cases outcome : Cursor.readBlock handle.blockCache handle.cursor with
  | ok result cursor =>
      rw [outcome] at settles
      cases settles with
      | ok kept => exact .ok (stable.buffer _ _ _ kept fun _ same => by cases same; rfl)
  | error failure cursor =>
      rw [outcome] at settles
      cases settles with
      | error failed => exact .error (stable.bufferFailed _ _ failed)

theorem maintains_fill_buffer : Maintains Holds Failed fillBuffer := by
  apply maintains_get
  intro handle holds
  split_ifs
  · exact maintains_internal_update_buffer stable handle holds
  · exact .ok holds

theorem maintains_read_unless_whole (remCopy : Nat) :
    Maintains Holds Failed (readUnlessWhole remCopy) := by
  apply maintains_get
  intro handle holds
  split_ifs
  · exact maintains_internal_update_buffer stable handle holds
  · exact .ok holds

section Moving

variable (offset : ∀ offset (handle : Handle), Holds handle →
  Holds { handle with offset := offset })

include offset

theorem maintains_seek (position : SeekPosition) : Maintains Holds Failed (seek position) := by
  apply maintains_get
  intro handle holds
  split
  · exact maintains_stop stable (by decide) handle holds
  · dsimp only
    split_ifs
    · exact maintains_stop stable (by decide) handle holds
    · apply settles_bind (maintains_modify (fun handle => offset _ handle) handle holds)
      intro _
      apply maintains_bind (maintains_on_cursor
        fun handle => Cursor.maintains_seek (stable.cursor handle) _)
      intro _
      exact maintains_internal_update_buffer stable

theorem maintains_read_loop (infoSize maxCount rounds : Nat) : ∀ read buffer,
    Maintains Holds Failed (readLoop infoSize maxCount rounds read buffer) := by
  induction rounds with
  | zero =>
      intro read buffer
      exact maintains_stop stable (by decide)
  | succ rounds ih =>
      intro read buffer
      unfold readLoop
      split_ifs
      · apply maintains_bind (maintains_on_cursor
          fun handle => Cursor.maintains_advance (stable.cursor handle))
        intro moved
        split_ifs
        · apply maintains_bind (maintains_internal_update_buffer stable)
          intro _
          apply maintains_get
          intro handle holds
          apply settles_bind (maintains_or_panic stable _ handle holds)
          intro part
          apply maintains_bind (maintains_or_panic stable _)
          intro copied
          apply maintains_bind (maintains_modify fun handle => offset _ handle)
          intro _
          exact ih _ copied
        · exact maintains_pure _
      · exact maintains_pure _

theorem maintains_read_first (maxCount : Nat) (buffer : Block) :
    Maintains Holds Failed (readFirst maxCount buffer) := by
  apply maintains_get
  intro handle holds
  apply settles_bind (maintains_or_panic stable _ handle holds)
  intro part
  apply maintains_bind (maintains_or_panic stable _)
  intro copied
  apply maintains_bind (maintains_modify fun handle => offset _ handle)
  intro _
  exact maintains_pure _

theorem maintains_read (buffer : Block) : Maintains Holds Failed (read buffer) := by
  apply maintains_get
  intro handle holds
  apply settles_bind (maintains_flush stable handle holds)
  intro _
  apply maintains_bind (maintains_fill_buffer stable)
  intro _
  apply maintains_get
  intro handle holds
  split
  · exact .ok holds
  · dsimp only [readBuffered]
    split_ifs
    · apply settles_bind (maintains_read_first stable offset _ _ handle holds)
      intro result
      exact maintains_read_loop stable offset _ _ _ _ _
    · exact maintains_read_loop stable offset _ _ _ _ _ handle holds

end Moving

omit stable in
/-- The steps that change a file keep the invariant as well. -/
structure Durable (Holds : Handle → Prop) (Failed : Failure → Handle → Prop) : Prop
    extends Stable Holds Failed where
  offset : ∀ offset (handle : Handle), Holds handle → Holds { handle with offset := offset }
  size : ∀ size (handle : Handle), Holds handle → Holds { handle with size := size }
  change : ∀ buffer info (handle : Handle), Holds handle →
    Holds { handle with blockCache := buffer, blockCacheInfo := info }
  inodeChange : ∀ change, Maintains Holds Failed (modifyInode change)
  inodeWrite : Maintains Holds Failed updateInode

omit stable

variable (durable : Durable Holds Failed)

include durable

theorem maintains_blocks_for (newSize : Nat) : Maintains Holds Failed (blocksFor newSize) := by
  apply maintains_get
  intro handle holds
  dsimp only
  split_ifs
  · exact maintains_stop durable.toStable (by decide) handle holds
  · exact .ok holds

/-- How `truncate` and `grow` end. -/
theorem maintains_resized (newSize : Nat) (change : Inode → Inode) (position : SeekPosition) :
    Maintains Holds Failed (do
      modify fun handle : Handle => { handle with size := newSize }
      modifyInode change
      updateInode
      flush
      modify fun handle : Handle => { handle with blockCacheInfo := none }
      seek position) := by
  apply maintains_bind
  · exact maintains_modify fun handle holds => durable.size newSize handle holds
  intro _
  apply maintains_bind (durable.inodeChange change)
  intro _
  apply maintains_bind durable.inodeWrite
  intro _
  apply maintains_bind (maintains_flush durable.toStable)
  intro _
  apply maintains_bind
  · exact maintains_modify fun handle holds => durable.change handle.blockCache none handle holds
  intro _
  exact maintains_seek durable.toStable durable.offset position

theorem maintains_truncate_loop (free : Maintains Holds Failed (onCursor Cursor.freeLastBlock))
    (newBlockCount rounds : Nat) :
    Maintains Holds Failed (truncateLoop newBlockCount rounds) := by
  induction rounds with
  | zero => exact maintains_stop durable.toStable (by decide)
  | succ rounds ih =>
      apply maintains_get
      intro handle holds
      split_ifs
      · exact maintains_bind free (fun _ => ih) handle holds
      · exact .ok holds

theorem maintains_truncate (free : Maintains Holds Failed (onCursor Cursor.freeLastBlock))
    (newSize : Nat) : Maintains Holds Failed (truncate newSize) := by
  apply maintains_get
  intro handle holds
  split_ifs
  · exact maintains_stop durable.toStable (by decide) handle holds
  · apply settles_bind (maintains_blocks_for durable newSize handle holds)
    intro newBlockCount
    apply maintains_bind (maintains_truncate_loop durable free _ _)
    intro _
    exact maintains_resized durable newSize _ _

theorem maintains_grow_loop (append : Maintains Holds Failed (onCursor Cursor.allocateNewBlock))
    (newBlockCount rounds : Nat) : ∀ diffAlloc,
    Maintains Holds Failed (growLoop newBlockCount rounds diffAlloc) := by
  induction rounds with
  | zero =>
      intro diffAlloc
      exact maintains_stop durable.toStable (by decide)
  | succ rounds ih =>
      intro diffAlloc
      apply maintains_get
      intro handle holds
      split_ifs
      · exact maintains_bind append (fun _ => ih _) handle holds
      · exact .ok holds

theorem maintains_grow (append : Maintains Holds Failed (onCursor Cursor.allocateNewBlock))
    (newSize : Nat) : Maintains Holds Failed (grow newSize) := by
  apply maintains_get
  intro handle holds
  split_ifs
  · exact maintains_stop durable.toStable (by decide) handle holds
  · apply settles_bind (maintains_blocks_for durable newSize handle holds)
    intro newBlockCount
    apply maintains_bind (maintains_grow_loop durable append _ _ _)
    intro diffAlloc
    exact maintains_resized durable newSize _ _

theorem maintains_put_bytes (start : Nat) (bytes : Block) :
    Maintains Holds Failed (putBytes start bytes) := by
  apply maintains_get
  intro handle holds
  apply settles_bind (maintains_or_panic durable.toStable _ handle holds)
  intro cache
  apply maintains_bind
  · exact maintains_modify fun handle holds =>
      durable.offset _ _ (durable.change cache handle.blockCacheInfo handle holds)
  intro _
  exact maintains_modify fun handle holds => durable.change handle.blockCache _ handle holds

theorem maintains_write_loop (infoSize maxCount : Nat) (buffer : Block) (rounds : Nat) : ∀ written,
    Maintains Holds Failed (writeLoop infoSize maxCount buffer rounds written) := by
  induction rounds with
  | zero =>
      intro written
      exact maintains_stop durable.toStable (by decide)
  | succ rounds ih =>
      intro written
      unfold writeLoop
      split_ifs
      · apply maintains_bind (maintains_flush durable.toStable)
        intro _
        apply maintains_bind
          (maintains_on_cursor fun handle => Cursor.maintains_advance (durable.cursor handle))
        intro moved
        split_ifs
        · apply maintains_bind (maintains_read_unless_whole durable.toStable _)
          intro _
          apply maintains_bind (maintains_or_panic durable.toStable _)
          intro part
          apply maintains_bind (maintains_put_bytes durable 0 part)
          intro _
          exact ih _
        · exact maintains_pure _
      · exact maintains_pure _

theorem maintains_write_first (maxCount : Nat) (buffer : Block) :
    Maintains Holds Failed (writeFirst maxCount buffer) := by
  apply maintains_get
  intro handle holds
  apply settles_bind (maintains_or_panic durable.toStable _ handle holds)
  intro part
  exact maintains_bind (maintains_put_bytes durable _ part) fun _ => maintains_pure _

theorem maintains_write_buffered (currentBlock maxCount : Nat) (buffer : Block) :
    Maintains Holds Failed (writeBuffered currentBlock maxCount buffer) := by
  apply maintains_get
  intro handle holds
  split
  · exact .ok holds
  · split_ifs
    · apply settles_bind (maintains_write_first durable _ _ handle holds)
      intro written
      exact maintains_write_loop durable _ _ _ _ _
    · exact maintains_write_loop durable _ _ _ _ _ handle holds

theorem maintains_set_new_size (newSize : Nat) : Maintains Holds Failed (setNewSize newSize) := by
  apply maintains_get
  intro handle holds
  split_ifs
  · apply settles_bind
    · exact maintains_modify (fun handle holds => durable.size newSize handle holds) handle holds
    intro _
    exact maintains_bind (durable.inodeChange _) fun _ => durable.inodeWrite
  · exact .ok holds

theorem maintains_write (buffer : Block) : Maintains Holds Failed (write buffer) := by
  apply maintains_get
  intro handle holds
  apply settles_bind (maintains_flush durable.toStable handle holds)
  intro _
  apply maintains_bind (maintains_fill_buffer durable.toStable)
  intro _
  apply maintains_bind (maintains_write_buffered durable _ _ _)
  intro written
  exact maintains_bind (maintains_set_new_size durable _) fun _ => maintains_pure _

end Handle

/-- The steps do not have this error: no volume runs out of space by reading and writing
blocks, and one that is not read-only can be written. -/
def Spared (error : Failure) (volume : Ext2Volume) : Prop :=
  error = noSpace ∨ error = notAllowed ∧ volume.readOnly = false

theorem plain_ne {error failure : Failure} {volume : Ext2Volume} (spared : Spared error volume)
    (plain : Plain failure) : failure ≠ error := by
  rcases spared with rfl | ⟨rfl, -⟩
  · exact plain.1
  · exact plain.2

namespace Ext2Volume

variable {error : Failure}

theorem read_block_spares (lba : Nat) (buf : Block) :
    Maintains (Spared error) (fun found _ => found ≠ error) (readBlock lba buf) := by
  apply maintains_get
  intro volume spared
  split_ifs
  · exact .error (plain_ne spared (by decide))
  · exact .error (plain_ne spared (by decide))
  · split
    · rename_i block _
      have touched : Settles (Spared error) (fun found _ => found ≠ error)
          (set (volume.touch lba block)) volume := .ok spared
      apply settles_bind touched
      intro _
      split_ifs
      · exact maintains_throw fun _ still => plain_ne still (by decide)
      · exact maintains_pure _
    · exact .ok spared

theorem write_block_spares (lba : Nat) (buf : Block) :
    Maintains (Spared error) (fun found _ => found ≠ error) (writeBlock lba buf) := by
  apply maintains_get
  intro volume spared
  split_ifs with short readOnly
  · exact .error (plain_ne spared (by decide))
  · apply Settled.error
    rcases spared with rfl | ⟨rfl, writable⟩
    · decide
    · exact absurd (readOnly.symm.trans writable) (by decide)
  · exact .error (plain_ne spared (by decide))
  · exact .ok spared
  · dsimp only
    split
    · exact .ok spared
    · exact .ok spared

end Ext2Volume

namespace Cursor

variable {Value : Type} {error : Failure}

theorem update_inode_spares (inode : Inode) :
    Maintains (Spared error) (fun found _ => found ≠ error) (updateInode inode) := by
  apply maintains_get
  intro volume spared
  dsimp only
  split
  · exact .error (plain_ne spared (by decide))
  · apply settles_bind (Ext2Volume.read_block_spares _ _ volume spared)
    intro result
    split
    · exact maintains_throw fun _ still => plain_ne still (by decide)
    · exact maintains_bind (Ext2Volume.write_block_spares _ _) fun _ => maintains_pure _

theorem spares_stable :
    Stable (fun cursor => Spared error cursor.volume) (fun found _ => found ≠ error) where
  fails _ plain _ spared := plain_ne spared plain
  read lba buf := maintains_on_volume fun _ => Ext2Volume.read_block_spares lba buf
  write _ lba buf cursor spared _ :=
    maintains_on_volume (fun _ => Ext2Volume.write_block_spares lba buf) cursor spared
  inode cursor spared _ := maintains_on_volume (fun _ => update_inode_spares _) cursor spared
  table _ _ _ spared _ := spared
  tableFailed _ _ _ _ different _ := different
  place _ _ spared := spared
  clean _ spared := spared

theorem write_block_spares (buffer : Block) :
    Maintains (fun cursor => Spared error cursor.volume) (fun found _ => found ≠ error)
      (writeBlock buffer) := by
  apply maintains_get
  intro cursor spared
  split_ifs
  · exact .error (plain_ne spared (by decide))
  · apply settles_bind (maintains_get_next_block spares_stable cursor spared)
    intro block
    apply maintains_bind (maintains_on_volume fun _ => Ext2Volume.write_block_spares _ _)
    intro _
    exact maintains_get fun _ still => .ok still

end Cursor

namespace Handle

variable {error : Failure}

def Safe (error : Failure) (handle : Handle) : Prop := Spared error handle.cursor.volume

theorem modify_inode_spares (change : Inode → Inode) :
    Maintains (Safe error) (fun found _ => found ≠ error) (modifyInode change) :=
  maintains_on_cursor fun _ => maintains_modify fun _ spared => spared

theorem update_inode_spares :
    Maintains (Safe error) (fun found _ => found ≠ error) updateInode := by
  apply maintains_get
  intro handle spared
  exact maintains_on_cursor (fun _ => Cursor.maintains_on_volume fun _ => Cursor.update_inode_spares
    _) handle spared

theorem spares_durable : Durable (Safe error) (fun found _ => found ≠ error) where
  cursor _ := Cursor.spares_stable
  write _ handle spared _ _ :=
    maintains_on_cursor (fun _ => Cursor.write_block_spares handle.blockCache) handle spared
  buffer _ _ _ spared _ := spared
  bufferFailed _ _ different := different
  offset _ _ spared := spared
  size _ _ spared := spared
  change _ _ _ spared := spared
  inodeChange := modify_inode_spares
  inodeWrite := update_inode_spares

end Handle

end Campix.Ext2
