import Campix.Ext2.Walks
import Campix.Ext2.Writes

/-!
# Writing the first block of a directory back

`done!` of `delete_entry` and `insert_entry` seeks to the block that is in the buffer,
writes the buffer there and flushes the handle. The records of the first block are the
only ones that are read at all, so that block is the only one that is written back.
-/

namespace Campix.Ext2

open Lib.Fallible Lib.Outcome Lib.Slice Lib.Word
open Drivers

set_option autoImplicit false

namespace DirectoryIterator

variable {volume : Ext2Volume} {inode : Inode} {iterator : DirectoryIterator} {haveTypeField : Bool}

/-- The handle has nothing to write back; the bytes of the buffer are to become the first block. -/
structure Poised (volume : Ext2Volume) (inode : Inode) (iterator : DirectoryIterator) : Prop where
  idle : iterator.handle.Idle volume.device (volumeFile volume inode).Tables
  linked : iterator.handle.Linked volume.device AnyTable
  file : ∃ start, Fresh volume inode start ∧ iterator.handle.frame = start.frame
  buffer : iterator.buffer.length = volume.blockSize
  bufferIdx : iterator.bufferIdx = 0

theorem poised_of_loaded (on : DirectoryOn volume inode) (loaded : iterator.Loaded volume inode) :
    iterator.Poised volume inode := by
  obtain ⟨k, info, settled, -⟩ := loaded.stands
  refine ⟨Handle.idle_of_settled (Handle.settled_narrow settled fun _ _ table => table.1),
    loaded.linked, loaded.file,
    ?_, loaded.bufferIdx⟩
  rw [loaded.buffer]
  exact length_first_block on

def rewritten (volume : Ext2Volume) (inode : Inode) (buffer : Block) : Contents :=
  Function.update volume.device ((volumeFile volume inode).pointer 0) buffer

structure Rewrote (volume : Ext2Volume) (inode : Inode) (buffer : Block)
    (handle : Handle) : Prop where
  stands : handle.Stands (rewritten volume inode buffer) (volumeFile volume inode).Tables
  linked : handle.Linked (rewritten volume inode buffer) (volumeFile volume inode).Tables
  file : ∃ start, Fresh volume inode start ∧ handle.frame = start.frame
  offset : handle.offset = volume.blockSize

theorem rewrote_device {buffer : Block} {handle : Handle}
    (rewrote : Rewrote volume inode buffer handle) :
    handle.cursor.volume.device = rewritten volume inode buffer := by
  obtain ⟨k, info, settled, -⟩ := rewrote.stands
  exact Cursor.device_of_clean settled.cursor.views settled.cursor.clean

theorem file_volume {handle : Handle}
    (file : ∃ start, Fresh volume inode start ∧ handle.frame = start.frame) :
    handle.cursor.volume.frame = volume.frame := by
  obtain ⟨start, fresh, frame⟩ := file
  have same : handle.cursor.volume.frame = start.cursor.volume.frame :=
    congrArg (fun handle : Handle => handle.cursor.volume) frame
  rw [same, (fresh_frame fresh).1]

theorem on_handle_error {Value : Type} {operation : OnHandle Value} {failure : Failure}
    {handle : Handle}
    (failed : operation iterator.handle = .error failure handle) :
    onHandle operation iterator = .error (.failure failure) { iterator with handle := handle } := by
  unfold onHandle
  rw [failed]

section WriteBuffer

variable (on : DirectoryOn volume inode) (whole : inode.sizeLo % volume.blockSize = 0)
  (nonempty : 0 < inode.sizeLo) (sole : (volumeFile volume inode).Sole)
    (poised : iterator.Poised volume inode)

include on whole nonempty sole poised

theorem write_buffer_pends : ∃ sought pending info,
    Handle.seek (.fromStart (mul64 iterator.bufferIdx iterator.blockSize)) iterator.handle = .ok ()
      sought ∧
      Handle.write iterator.buffer sought = .ok iterator.buffer.length pending ∧ info.dirty = true ∧
      pending.Pending volume.device (rewritten volume inode iterator.buffer) 0 info ∧
      pending.frame = iterator.handle.frame ∧ pending.offset = volume.blockSize := by
  obtain ⟨start, fresh, frame⟩ := poised.file
  obtain ⟨sameVolume, sameInode, size⟩ := fresh_frame fresh
  have positive := on.mounted.stores.positive
  have blockSize : iterator.handle.cursor.volume.blockSize = volume.blockSize := by
    rw [(Handle.same_file frame).blockSize, sameVolume]
  have length : iterator.handle.size = inode.sizeLo := by
    rw [(Handle.same_file frame).size, size, get_size_eq on]
  have full : volume.blockSize ≤ inode.sizeLo :=
    Nat.le_of_dvd nonempty (Nat.dvd_of_mod_eq_zero whole)
  have file : iterator.handle.fileMap volume.device = volumeFile volume inode := by
    rw [Handle.file_map_of_frame frame, Handle.fresh_file fresh]
  have first : 0 < iterator.handle.count :=
    Handle.lt_count (by rw [blockSize]; exact positive) (by omega)
  have links : iterator.handle.Linked volume.device (volumeFile volume inode).Tables := by
    rw [← file]
    exact Handle.linked_kept poised.linked (by rw [file]; exact sole) fun _ _ => rfl
  have position : mul64 iterator.bufferIdx iterator.blockSize = 0 := by
    rw [poised.bufferIdx, mul64, Nat.zero_mul, Nat.zero_mod]
  have found : fseekHelper (.fromStart 0) iterator.handle.offset iterator.handle.size = some 0 := by
    simp [fseekHelper]
  have start : 0 / iterator.handle.cursor.volume.blockSize = 0 := Nat.zero_div _
  obtain ⟨_, sought, seeks, ⟨k, info, settled, buffered, -, number⟩, same, offset⟩ := yields_ok
    (Handle.seek_spec poised.idle links found (Nat.zero_le _) (.inr start) (by rw [start]; decide)
      (.inl (by rw [start]; omega)))
  have soughtSize := (Handle.same_file same).blockSize
  obtain rfl : k = 0 := by
    rcases buffered.near with here | behind
    · rw [← here, offset, Nat.zero_div]
    · rw [offset, soughtSize, blockSize] at behind
      have beyond := Nat.le_mul_of_pos_left volume.blockSize (show 0 < k + 1 by omega)
      omega
  have soughtFile : sought.fileMap volume.device = volumeFile volume inode := by
    rw [Handle.file_map_of_frame same, file]
  have begin_ : sought.offset % sought.cursor.volume.blockSize = 0 := by rw [offset, Nat.zero_mod]
  have bufferSize : iterator.buffer.length = sought.cursor.volume.blockSize := by
    rw [poised.buffer, soughtSize, blockSize]
  obtain ⟨pending, writes, pends, pendingFrame, moved⟩ := Handle.write_inside_spec
    (by rw [soughtFile]; exact sole)
      (show (sought.fileMap volume.device).Keeps volume.device from fun _ _ => rfl)
    (by rw [soughtFile]; exact settled) buffered
    (.inl (by rw [Handle.count_of_frame same]; exact first)) (by rw [number]; exact Nat.mod_le ..)
    (by rw [offset, Nat.zero_div]) (by rw [begin_, Nat.zero_add, bufferSize])
    (show sought.offset + iterator.buffer.length ≤ sought.size by
      rw [offset, (Handle.same_file same).size, length, poised.buffer]
      omega)
  have block : sought.changed volume.device volume.device 0
      (sought.offset % sought.cursor.volume.blockSize)
      iterator.buffer = rewritten volume inode iterator.buffer := by
    have replaced : splice (sought.blocks volume.device 0) 0 iterator.buffer = iterator.buffer :=
      splice_whole (by rw [Handle.length_blocks settled.cursor, bufferSize])
    rw [begin_, Handle.changed, replaced, soughtFile]
    rfl
  rw [block] at pends
  refine ⟨sought, pending, _, ?_, writes, ?_, pends, pendingFrame.trans same, ?_⟩
  · rw [position]
    exact seeks
  · rfl
  · rw [moved, offset, Nat.zero_add, poised.buffer]

omit on whole nonempty sole poised in
/-- What is left of `write_buffer` once the buffer is written is the flush. -/
theorem write_buffer_flushes {sought pending : Handle}
    (seeks : Handle.seek (.fromStart (mul64 iterator.bufferIdx iterator.blockSize))
      iterator.handle = .ok () sought)
    (writes : Handle.write iterator.buffer sought = .ok iterator.buffer.length pending) :
    writeBuffer iterator = onHandle Handle.flush { iterator with handle := pending } := by
  change (do
    onHandle (Handle.seek (.fromStart (mul64 iterator.bufferIdx iterator.blockSize)))
    let _ ← onHandle (Handle.write iterator.buffer)
    onHandle Handle.flush : OnIterator Unit) iterator = _
  rw [state_bind_ok (on_handle_ok seeks)]
  have second : onHandle (Handle.write iterator.buffer) { iterator with handle := sought } =
      .ok iterator.buffer.length { iterator with handle := pending } := on_handle_ok writes
  rw [state_bind_ok second]

theorem write_buffer_spec (writable : volume.readOnly = false) :
    ∃ handle, writeBuffer iterator = .ok () { iterator with handle := handle } ∧
      Rewrote volume inode iterator.buffer handle := by
  obtain ⟨sought, pending, info, seeks, writes, -, pends, frame, offset⟩ :=
    write_buffer_pends on whole nonempty sole poised
  obtain ⟨start, fresh, same⟩ := poised.file
  have file : pending.fileMap volume.device = volumeFile volume inode := by
    rw [Handle.file_map_of_frame (frame.trans same), Handle.fresh_file fresh]
  have linked := Handle.linked_of_frame frame poised.linked
  have unlocked : pending.cursor.volume.readOnly = false := by
    rw [Handle.read_only_of_frame (frame.trans same), (fresh_frame fresh).1]
    exact writable
  have sole : (pending.fileMap volume.device).Sole := by rwa [file]
  obtain ⟨handle, flushes, settled, buffered, flushedFrame, still⟩ :=
    Handle.flush_pending sole linked pends unlocked
  have links := Handle.linked_kept linked sole pends.keeps
  rw [file] at settled links
  refine ⟨handle, ?_, ⟨⟨_, _, settled, buffered⟩, Handle.linked_of_frame flushedFrame links,
    ⟨start, fresh, flushedFrame.trans (frame.trans same)⟩, by rw [still, offset]⟩⟩
  rw [write_buffer_flushes seeks writes]
  exact on_handle_ok flushes

/-- On a volume that is mounted to be read only the block is not written. -/
theorem write_buffer_locked (locked : volume.readOnly = true) :
    ∃ after, writeBuffer iterator = .error (.failure (.error .actionNotAllowed)) after := by
  obtain ⟨sought, pending, info, seeks, writes, dirty, pends, frame, -⟩ :=
    write_buffer_pends on whole nonempty sole poised
  obtain ⟨start, fresh, same⟩ := poised.file
  have file : pending.fileMap volume.device = volumeFile volume inode := by
    rw [Handle.file_map_of_frame (frame.trans same), Handle.fresh_file fresh]
  have refused : pending.cursor.volume.readOnly = true := by
    rw [Handle.read_only_of_frame (frame.trans same), (fresh_frame fresh).1]
    exact locked
  have fails := Handle.flush_locked (by rwa [file]) (Handle.linked_of_frame frame poised.linked)
    pends dirty refused
  refine ⟨{ iterator with handle := pending }, ?_⟩
  rw [write_buffer_flushes seeks writes]
  exact on_handle_error fails

/-- Behind the written block the iterator buffers the one that it comes to. -/
theorem delete_done_stands (writable : volume.readOnly = false) (entry : DirectoryIteratorEntry) :
    ∃ after, deleteDone entry iterator = .ok () after ∧
      after.handle.Stands (rewritten volume inode iterator.buffer)
        (volumeFile volume inode).Tables ∧
      after.handle.cursor.volume.frame = volume.frame := by
  obtain ⟨handle, writes, rewrote⟩ := write_buffer_spec on whole nonempty sole poised writable
  generalize moved : ({ iterator with
    handle := handle
    idx := add64 entry.offset entry.recLen } : DirectoryIterator) = next
  have sameHandle : next.handle = handle := by rw [← moved]
  have done : ∀ value after, readBuffer next = .ok value after →
      deleteDone entry iterator = .ok () after := by
    intro value after read
    change (writeBuffer >>= fun _ => (do
      modify fun self => { self with idx := add64 entry.offset entry.recLen }
      let _ ← readBuffer : OnIterator Unit)) iterator = _
    rw [state_bind_ok writes]
    change (readBuffer >>= fun _ => pure () : OnIterator Unit)
      { iterator with handle := handle, idx := add64 entry.offset entry.recLen } = _
    rw [moved, state_bind_ok read]
    rfl
  by_cases stays : next.idx / next.blockSize = next.bufferIdx
  · have read : readBuffer next = .ok (next.idx % next.blockSize) next := by
      change (if next.idx / next.blockSize ≠ next.bufferIdx then _ else _ : OnIterator Nat) next = _
      rw [if_neg (not_not.mpr stays)]
      rfl
    exact ⟨next, done _ _ read, by rw [sameHandle]; exact rewrote.stands,
      by rw [sameHandle, file_volume rewrote.file]⟩
  · obtain ⟨result, later, read, rfl, stands, frame, -⟩ :=
      yields_ok (Handle.read_spec next.buffer (.inl rewrote.stands) rewrote.linked)
    obtain ⟨start, fresh, same⟩ := rewrote.file
    rw [← sameHandle] at read
    exact ⟨_, done _ _ (read_buffer_moves stays read), stands,
      file_volume ⟨start, fresh, frame.trans same⟩⟩

theorem delete_done_spec (writable : volume.readOnly = false) (entry : DirectoryIteratorEntry) :
    ∃ after, deleteDone entry iterator = .ok () after ∧
      after.handle.cursor.volume.device = rewritten volume inode iterator.buffer ∧
      after.handle.cursor.volume.frame = volume.frame := by
  obtain ⟨after, done, ⟨k, info, settled, -⟩, frame⟩ :=
    delete_done_stands on whole nonempty sole poised writable entry
  exact ⟨after, done, Cursor.device_of_clean settled.cursor.views settled.cursor.clean, frame⟩

theorem delete_done_locked (locked : volume.readOnly = true) (entry : DirectoryIteratorEntry) :
    ∃ after, deleteDone entry iterator = .error (.failure (.error .actionNotAllowed)) after := by
  obtain ⟨after, fails⟩ := write_buffer_locked on whole nonempty sole poised locked
  refine ⟨after, ?_⟩
  unfold deleteDone
  exact state_bind_error fails

end WriteBuffer

end DirectoryIterator

section Rewritten

variable {volume : Ext2Volume} {inode : Inode}
variable {after : Ext2Volume} {buffer : Block} (sole : (volumeFile volume inode).Sole)
  (device : after.device = DirectoryIterator.rewritten volume inode buffer)
    (frame : after.frame = volume.frame)

include frame in
theorem file_blocks_of_frame : fileBlocks after inode = fileBlocks volume inode := by
  have blockSize := Ext2Volume.block_size_of_frame frame
  have large : after.fileSize64 = volume.fileSize64 :=
    show after.frame.fileSize64 = volume.frame.fileSize64 by rw [frame]
  unfold fileBlocks
  rw [blockSize, large]

include sole device frame

theorem block_of_rewritten {k : Nat} (inside : k < fileBlocks volume inode) :
    blockOf inode after.device (after.blockSize / 4) k =
      if k = 0 then buffer else blockOf inode volume.device (volume.blockSize / 4) k := by
  have keeps : (volumeFile volume inode).Keeps after.device := by
    intro addr apart
    have other : addr ≠ (volumeFile volume inode).pointer 0 :=
      fun same => apart ⟨0, Nat.zero_lt_of_lt inside, same.symm⟩
    rw [device, DirectoryIterator.rewritten, Function.update_of_ne other]
    rfl
  have way := (FileMap.way_kept sole keeps (.inl inside)).2
  have here : blockOf inode after.device (after.blockSize / 4)
      k = after.device ((volumeFile volume inode).pointer k) := by
    rw [Ext2Volume.block_size_of_frame frame]
    exact congrArg after.device way
  rw [here, device, DirectoryIterator.rewritten]
  by_cases first : k = 0
  · rw [if_pos first, first, Function.update_self]
  · have apart : (volumeFile volume inode).pointer k ≠ (volumeFile volume inode).pointer 0 :=
      fun same => first (sole.distinct k inside 0 (Nat.zero_lt_of_lt inside) same)
    rw [if_neg first, Function.update_of_ne apart]
    rfl

end Rewritten

end Campix.Ext2
