import Campix.Ext2.FailedGrowth
import Campix.Ext2.FileTree
import Campix.Ext2.OpenHandles
import Campix.Ext2.SparseFiles
import Campix.Ext2.Writes

/-!
# Writes that keep the size

`fwrite` on a handle with `OPEN_MODE_NO_RESIZE` takes no more bytes than there are between
the offset and the end of the file. The handle gets there by any calls that return; a seek
to the end of a file whose last block is full leaves it at a block behind the file. What is
written into a hole of the file goes to the first block of the volume.
-/

namespace Campix.Ext2

open Lib.Blocks Lib.Fallible Lib.Outcome Lib.Slice Lib.Word
open Drivers

set_option autoImplicit false

namespace Cursor

variable {cursor : Cursor} {contents : Contents} {Tables : Fin 3 → Nat → Prop}

theorem check_table_idle (nonzero : ∀ level addr, Tables level addr → addr ≠ 0)
    (idle : cursor.Idle contents Tables) (level : Fin 3) (addr : Nat) :
    Yields (fun _ after => after.Idle contents Tables) (fun _ => True)
      (checkTable level addr cursor) := by
  apply yields_weaken (check_table_spec idle.views level addr)
  · intro _ after checked
    have clean : ∀ level, (after.location.tables level).dirty = false := by
      intro other
      rw [Bool.eq_false_iff]
      intro dirty
      by_cases same : other = level
      · rw [same] at dirty
        exact absurd ((idle.clean level).symm.trans (checked.dirty dirty).1) (by decide)
      · rw [checked.others other same] at dirty
        exact absurd ((idle.clean other).symm.trans dirty) (by decide)
    refine ⟨checked.views, clean, ?_⟩
    intro other table present
    constructor
    · intro held
      by_cases same : other = level
      · subst same
        rw [checked.loaded] at held
        subst held
        have loaded := checked.table (nonzero _ _ present)
        rw [device_of_clean idle.views idle.clean] at loaded
        split_ifs at loaded with before
        · rw [loaded]
          exact (idle.ready _ _ present).1 before
        · exact loaded
      · rw [checked.others other same] at held ⊢
        exact (idle.ready other table present).1 held
    · intro another _ dirty
      exact absurd ((clean another).symm.trans dirty) (by decide)
  · intro _ _
    trivial

theorem check_followed_idle {addrOfTable : OnCursor Nat}
    (nonzero : ∀ level addr, Tables level addr → addr ≠ 0)
    (idle : cursor.Idle contents Tables) (level : Fin 3)
    (reads : Yields (fun _ after => after = cursor) (fun _ => True) (addrOfTable cursor)) :
    Yields (fun _ after => after.Idle contents Tables) (fun _ => True)
      ((addrOfTable >>= checkTable level) cursor) := by
  apply yields_bind reads
  intro addr after same
  rw [same]
  exact check_table_idle nonzero idle level addr

theorem seek_idle (nonzero : ∀ level addr, Tables level addr → addr ≠ 0)
    (idle : cursor.Idle contents Tables)
    (block : Nat) :
    Yields (fun _ after => after.Idle contents Tables) (fun _ => True) (seek block cursor) := by
  rw [seek, state_bind_get]
  cases InodeReadingLocation.new (cursor.volume.blockSize / 4) block with
  | none => exact .error trivial
  | some location =>
      have moved : ({ cursor with location := { cursor.location with location := location } } :
        Cursor).Idle
          contents Tables :=
        ⟨⟨idle.views.stores, idle.views.sized, idle.views.changed, idle.views.unchanged⟩,
          idle.clean, idle.ready⟩
      apply yields_bind (check_table_idle nonzero moved 0 _)
      intro _ first idle
      apply yields_bind (check_followed_idle nonzero idle 1 addr_of_table2_yields)
      intro _ second idle
      exact check_followed_idle nonzero idle 2 addr_of_table3_yields

theorem found_on_volume {pointer : Nat} (found : getNextBlock cursor = .ok pointer cursor)
    (volume : Ext2Volume) :
    getNextBlock { cursor with volume := volume } = .ok pointer
      { cursor with volume := volume } := by
  have follows : ∀ (level : Fin 3) idx, follow level idx cursor = .ok pointer cursor →
      follow level idx { cursor with volume := volume } = .ok pointer
        { cursor with volume := volume } := by
    intro level idx followed
    change (if idx * 4 < (cursor.location.tables level).table.length then _ else _ : OnCursor Nat)
      cursor = _
      at followed
    change (if idx * 4 < (cursor.location.tables level).table.length then _ else _ : OnCursor
      Nat) _ = _
    split_ifs at followed ⊢
    · cases followed
      rfl
    · cases followed
  rw [getNextBlock, state_bind_get] at found ⊢
  cases place : cursor.location.location.location with
  | direct direct =>
      rw [place] at found
      dsimp only at found ⊢
      split_ifs at found ⊢
      · cases found
        rfl
      · cases found
  | single single =>
      rw [place] at found
      exact follows 0 single found
  | double idx double =>
      rw [place] at found
      exact follows 1 double found
  | triple idx idx' triple =>
      rw [place] at found
      exact follows 2 triple found

theorem check_tables_frame :
    Yields (fun _ after => after.frame = cursor.frame) (fun _ => True) (checkTables cursor) := by
  unfold checkTables
  apply yields_bind check_table1_frame
  intro _ first same
  apply yields_bind check_table2_frame
  intro _ second same2
  apply yields_weaken check_table3_frame
  · intro _ third same3
    exact same3.trans (same2.trans same)
  · intro _ _
    trivial

theorem read_found {buffer : Block} {result : Nat × Block} {after : Cursor}
    (stores : cursor.volume.Stores cursor.volume.device)
    (sized : buffer.length = cursor.volume.blockSize)
    (returned : readBlock buffer cursor = .ok result after) :
    ∃ pointer volume, getNextBlock cursor = .ok pointer cursor ∧
      pointer < cursor.volume.blockCount ∧
      volume.Stores cursor.volume.device ∧ volume.frame = cursor.volume.frame ∧
      after = { cursor with volume := volume } ∧ result.2 = cursor.volume.device pointer := by
  change (if buffer.length < cursor.volume.blockSize then _ else _ : OnCursor (Nat × Block))
    cursor = _ at returned
  rw [if_neg (by omega)] at returned
  have looks := @get_next_block_yields cursor
  cases found : getNextBlock cursor with
  | error failure failed =>
      rw [state_bind_error found] at returned
      cases returned
  | ok pointer looked =>
      rw [found] at looks
      cases looks with
      | ok same =>
          obtain rfl : cursor = looked := same.symm
          rw [state_bind_ok found] at returned
          have read := Ext2Volume.read_block_spec pointer stores sized
          cases outcome : Ext2Volume.readBlock pointer buffer cursor.volume with
          | error failure volume =>
              have stops : onVolume (Ext2Volume.readBlock pointer buffer) cursor =
                  .error failure { cursor with volume := volume } := by
                unfold onVolume
                rw [outcome]
              rw [state_bind_error stops] at returned
              cases returned
          | ok bytes volume =>
              rw [outcome] at read
              cases read with
              | ok holds =>
                  obtain ⟨rfl, stores, frame, inside⟩ := holds
                  have goes : onVolume (Ext2Volume.readBlock pointer buffer) cursor =
                      .ok (cursor.volume.blockSize, cursor.volume.device pointer)
                        { cursor with volume := volume } := by
                    unfold onVolume
                    rw [outcome]
                  rw [state_bind_ok goes] at returned
                  cases returned
                  exact ⟨pointer, volume, rfl, inside, stores, frame, rfl, rfl⟩

end Cursor

namespace Handle

variable {handle after : Handle} {base contents : Contents}

structure AtEdge (base : Contents) (handle : Handle) (contents : Contents) : Prop where
  idle : handle.Idle contents (handle.fileMap base).Tables
  keeps : (handle.fileMap base).Keeps contents
  full : handle.size = handle.count * handle.cursor.volume.blockSize
  behind : handle.offset = handle.size
  found : ∃ pointer < handle.cursor.volume.blockCount,
    Cursor.getNextBlock handle.cursor = .ok pointer handle.cursor ∧
      handle.blockCache = contents pointer
  info : ∃ info, handle.blockCacheInfo = some info ∧ info.block = handle.count % 2 ^ 32

theorem seek_to_edge {position : SeekPosition}
    (idle : handle.Idle contents (handle.fileMap base).Tables)
    (keeps : (handle.fileMap base).Keeps contents)
    (found : fseekHelper position handle.offset handle.size = some handle.size)
    (full : handle.size = handle.count * handle.cursor.volume.blockSize)
    (small : handle.count < 2 ^ 32)
    (within : handle.count ≤ capacity (handle.cursor.volume.blockSize / 4))
    (whole : handle.cursor.volume.blockSize % 4 = 0)
    (tables : 0 < handle.cursor.volume.blockSize / 4)
    (square : handle.cursor.volume.blockSize / 4 * (handle.cursor.volume.blockSize / 4) < 2 ^ 32)
    (sought : seek position handle = .ok () after) :
    after.AtEdge base contents ∧ after.frame = handle.frame := by
  have positive := idle.cursor.views.stores.positive
  have device := Cursor.device_of_clean idle.cursor.views idle.cursor.clean
  have place : handle.size / handle.cursor.volume.blockSize = handle.count := by
    rw [full, Nat.mul_div_cancel _ positive]
  obtain ⟨looked, read, last, went, reads, made⟩ :=
    seek_ok_parts found (by rw [place]; exact small) sought
  rw [place] at went
  have room : handle.count < capacity (handle.cursor.volume.blockSize / 4) := by
    by_contra beyond
    have last : handle.count = capacity (handle.cursor.volume.blockSize / 4) := by omega
    rw [last] at went
    exact seek_behind_capacity idle.cursor.views whole tables square went
  have idles := Cursor.seek_idle (fun _ _ table => table.1) idle.cursor handle.count
  rw [went] at idles
  rw [Cursor.seek_eq room (.inr square)] at went
  have frames := @Cursor.check_tables_frame
    (handle.cursor.moveTo (locate (handle.cursor.volume.blockSize / 4) handle.count))
  rw [went] at frames
  cases idles with
  | ok idles =>
      cases frames with
      | ok frame =>
          have lookedDevice := Cursor.device_of_clean idles.views idles.clean
          have blockSize : looked.volume.blockSize = handle.cursor.volume.blockSize :=
            (Ext2Volume.block_size_of_frame (Cursor.volume_of_frame frame)).trans rfl
          obtain ⟨pointer, volume, lookup, inside, stores, sameVolume, cursor, bytes⟩ :=
            Cursor.read_found idles.views.stores (idle.sized.trans blockSize.symm) reads
          have moves : looked.fileFrame = handle.cursor.fileFrame := congrArg (fun frame : Cursor =>
            { frame with location := { frame.location with location := ⟨.direct 0, 0⟩ } }) frame
          have lastFrame : last.fileFrame = looked.fileFrame := by
            rw [cursor]
            exact congrArg (fun volume => { looked.fileFrame with volume := volume }) sameVolume
          have same : after.frame = handle.frame := by
            rw [made]
            exact congrArg (fun cursor => { handle.frame with cursor := cursor })
              (lastFrame.trans moves)
          have sameFile := same_file same
          have count := count_of_frame same
          have afterCursor : after.cursor = { looked with volume := volume } := by rw [made, cursor]
          refine ⟨⟨⟨⟨?_, ?_, ?_⟩, ?_, ?_, ?_, ?_⟩, ?_, ?_, ?_, ⟨pointer, ?_, ?_, ?_⟩, ?_⟩, same⟩
          · rw [afterCursor]
            exact Cursor.views_after_read idles.views stores sameVolume
          · rw [afterCursor]
            exact idles.clean
          · rw [afterCursor, file_map_of_frame same]
            exact idles.ready
          · exact sameFile.saved.trans idle.saved
          · rw [sameFile.last, count]
            exact idle.last
          · have length := idles.views.stores.sized pointer
            rw [made]
            change read.2.length = last.volume.blockSize
            rw [bytes, length, cursor]
            exact (Ext2Volume.block_size_of_frame sameVolume).symm
          · rw [sameFile.blockSize]
            exact idle.small
          · rw [file_map_of_frame same]
            exact keeps
          · rw [sameFile.size, count, sameFile.blockSize]
            exact full
          · rw [sameFile.size, made]
          · rw [afterCursor]
            change pointer < volume.blockCount
            rw [Ext2Volume.block_count_of_frame sameVolume]
            exact inside
          · rw [afterCursor]
            exact Cursor.found_on_volume lookup volume
          · rw [made, ← lookedDevice]
            exact bytes
          · refine ⟨_, by rw [made], ?_⟩
            have index : last.location.location.currentBlockIdx = handle.count % 2 ^ 32 := by
              obtain ⟨index, digits⟩ := index_of_locate room
              have there : looked.location.location =
                  ⟨locate (handle.cursor.volume.blockSize / 4)
                    handle.count, handle.cursor.volume.blockSize / 4⟩ :=
                Cursor.location_of_frame frame
              rw [cursor]
              change looked.location.location.currentBlockIdx = _
              rw [there, current_block_idx_eq _ digits, index]
            rw [count]
            exact index

section AtEdge

variable (edge : handle.AtEdge base contents)

include edge

/-- The buffer is what the block behind the file already holds. -/
theorem flush_edge (writable : handle.cursor.volume.readOnly = false) :
    ∃ after, flush handle = .ok () after ∧ after.AtEdge base contents ∧
      after.frame = handle.frame := by
  have idle := edge.idle
  have device := Cursor.device_of_clean idle.cursor.views idle.cursor.clean
  obtain ⟨pointer, inside, lookup, held⟩ := edge.found
  obtain ⟨info, present, number⟩ := edge.info
  cases dirty : info.dirty with
  | false =>
      refine ⟨handle, ?_, edge, rfl⟩
      apply flush_of_clean idle.cursor.clean idle.saved
      intro other buffered
      obtain rfl : info = other := Option.some.inj (present.symm.trans buffered)
      exact dirty
  | true =>
      obtain ⟨volume, written, stores, frame⟩ :=
        Cursor.write_block_found idle.cursor.views.stores lookup idle.sized writable inside
      have unchanged : Function.update handle.cursor.volume.device pointer handle.blockCache =
          handle.cursor.volume.device := by
        rw [held, ← device, Function.update_eq_self]
      rw [unchanged] at stores
      have same := frame_written frame (some { info with dirty := false })
      have sameFile := same_file same
      have count := count_of_frame same
      refine ⟨_, flush_writes idle.cursor.clean idle.saved present dirty written,
        ⟨⟨⟨?_, idle.cursor.clean, ?_⟩, idle.saved, ?_, ?_, ?_⟩, ?_, ?_, edge.behind,
          ⟨pointer, ?_, ?_, held⟩,
          ⟨_, rfl, ?_⟩⟩, same⟩
      · exact Cursor.views_after_read idle.cursor.views stores frame
      · rw [file_map_of_frame same]
        exact idle.cursor.ready
      · rw [sameFile.last, count]
        exact idle.last
      · exact idle.sized.trans sameFile.blockSize.symm
      · rw [sameFile.blockSize]
        exact idle.small
      · rw [file_map_of_frame same]
        exact edge.keeps
      · rw [sameFile.size, count, sameFile.blockSize]
        exact edge.full
      · rw [sameFile.blockCount]
        exact inside
      · exact Cursor.found_on_volume lookup volume
      · rw [count]
        exact number

theorem edge_place : handle.offset / handle.cursor.volume.blockSize = handle.count ∧
    handle.offset % handle.cursor.volume.blockSize = 0 := by
  have positive := edge.idle.cursor.views.stores.positive
  rw [edge.behind, edge.full]
  exact ⟨Nat.mul_div_cancel _ positive, Nat.mul_mod_left ..⟩

/-- `flush` and the first access. -/
theorem begins_edge (writable : handle.cursor.volume.readOnly = false) :
    ∃ filled info, flush handle = .ok () filled ∧ fillBuffer filled = .ok () filled ∧
      filled.AtEdge base contents ∧ filled.frame = handle.frame ∧
        filled.blockCacheInfo = some info ∧
      handle.offset / handle.cursor.volume.blockSize % 2 ^ 32 = info.block := by
  obtain ⟨filled, flushes, stays, frame⟩ := flush_edge edge writable
  obtain ⟨info, present, number⟩ := stays.info
  refine ⟨filled, info, flushes, ?_, stays, frame, present, ?_⟩
  · change (if filled.blockCacheInfo.isNone then _ else _ : OnHandle Unit) filled = _
    rw [if_neg (by rw [present]; exact Bool.false_ne_true)]
    rfl
  · rw [(edge_place edge).1, number, count_of_frame frame]

theorem read_edge (writable : handle.cursor.volume.readOnly = false) (buffer : Block) :
    ∃ after, read buffer handle = .ok (0, buffer) after ∧ after.AtEdge base contents ∧
      after.frame = handle.frame := by
  obtain ⟨filled, info, flushes, fills, stays, frame, present, block⟩ := begins_edge edge writable
  have start := (edge_place stays).2
  have nothing : min buffer.length (sub64 handle.size handle.offset) = 0 := by
    rw [edge.behind, sub64_of_le (Nat.le_refl _), Nat.sub_self, Nat.min_zero]
  have first : readFirst 0 buffer filled = .ok (0, buffer) filled := by
    have part : getSlice filled.blockCache 0 0 = some [] := by
      rw [get_slice_eq (Nat.le_refl _) (Nat.zero_le _)]
      rfl
    have copy : copyFromSlice buffer 0 0 [] = some buffer := by
      rw [copy_from_slice_eq (show ([] : Block).length = 0 - 0 from rfl) (Nat.le_refl _)
        (Nat.zero_le _),
        splice_nil]
    unfold readFirst
    change (orPanic (getSlice filled.blockCache (filled.offset % filled.cursor.volume.blockSize)
      (filled.offset % filled.cursor.volume.blockSize + min 0
        (filled.cursor.volume.blockSize - filled.offset % filled.cursor.volume.blockSize))) >>= _ :
        OnHandle (Nat × Block)) filled = _
    rw [start, Nat.zero_min, Nat.add_zero, part,
      state_bind_ok (rfl : orPanic (some _) filled = .ok _ filled), copy,
      state_bind_ok (rfl : orPanic (some _) filled = .ok _ filled)]
    rfl
  refine ⟨filled, ?_, stays, frame⟩
  rw [read, state_bind_get]
  dsimp only
  rw [state_bind_ok flushes, state_bind_ok fills, state_bind_get, nothing, block, present]
  change readBuffered info.block 0 info buffer filled = _
  unfold readBuffered
  rw [if_pos rfl, state_bind_ok first]
  rfl

theorem write_edge (writable : handle.cursor.volume.readOnly = false) :
    ∃ after, write [] handle = .ok 0 after ∧ after.AtEdge base contents ∧
      after.frame = handle.frame := by
  obtain ⟨filled, info, flushes, fills, stays, frame, present, block⟩ := begins_edge edge writable
  have start := (edge_place stays).2
  have size : filled.size = handle.size := (same_file frame).size
  have idle := stays.idle
  have noBytes : ([] : Block).length = 0 := rfl
  have puts := put_bytes_eq stays.idle.sized (show 0 + ([] : Block).length ≤ _ from Nat.zero_le _)
    present
  rw [noBytes, Nat.add_zero, splice_nil] at puts
  have first : writeFirst 0 [] filled = .ok 0
      { filled with blockCacheInfo := some { info with dirty := true } } := by
    unfold writeFirst
    change ((do
      let part ← orPanic (getSlice ([] : Block) 0 (min 0
        (filled.cursor.volume.blockSize - filled.offset % filled.cursor.volume.blockSize)))
      putBytes (filled.offset % filled.cursor.volume.blockSize) part
      return min 0 (filled.cursor.volume.blockSize - filled.offset %
        filled.cursor.volume.blockSize)) :
        OnHandle Nat) filled = _
    rw [start, Nat.zero_min, show getSlice ([] : Block) 0 0 = some [] from rfl,
      state_bind_ok (rfl : orPanic (some _) filled = .ok _ filled), state_bind_ok puts]
    rfl
  have unchanged : setNewSize (max handle.size (handle.offset + 0))
      { filled with blockCacheInfo := some { info with dirty := true } } =
        .ok () { filled with blockCacheInfo := some { info with dirty := true } } := by
    change (if max handle.size (handle.offset + 0) ≠ filled.size then _ else _ : OnHandle
      Unit) _ = _
    rw [if_neg (by rw [size, edge.behind, Nat.add_zero, Nat.max_self]; simp)]
    rfl
  refine ⟨{ filled with blockCacheInfo := some { info with dirty := true } }, ?_,
    ⟨⟨idle.cursor, idle.saved, idle.last, idle.sized, idle.small⟩, stays.keeps, stays.full,
      stays.behind,
      stays.found, ?_⟩, frame⟩
  · unfold write
    change ((do
      flush
      fillBuffer
      let written ← writeBuffered (handle.offset / handle.cursor.volume.blockSize % 2 ^ 32)
        (min ([] : Block).length (sub64
          ((nextMultipleOf handle.size handle.cursor.volume.blockSize).getD handle.size)
          handle.offset)) []
      setNewSize (max handle.size (handle.offset + written))
      return written) : OnHandle Nat) handle = _
    rw [state_bind_ok flushes, state_bind_ok fills, noBytes, Nat.zero_min, block]
    have writes : writeBuffered info.block 0 [] filled =
        .ok 0 { filled with blockCacheInfo := some { info with dirty := true } } := by
      rw [writeBuffered, state_bind_get, present]
      change (if info.block = info.block then _ else _ : OnHandle Nat) filled = _
      rw [if_pos rfl, state_bind_ok first]
      exact write_loop_done 0
    rw [state_bind_ok writes, state_bind_ok unchanged]
    rfl
  · obtain ⟨other, buffered, number⟩ := stays.info
    obtain rfl : info = other := Option.some.inj (present.symm.trans buffered)
    exact ⟨_, rfl, number⟩

end AtEdge

/-- What does not change while the file is open. -/
structure Usable (base : Contents) (handle : Handle) : Prop where
  linked : handle.Linked base AnyTable
  sole : (handle.fileMap base).Sole
  writable : handle.cursor.volume.readOnly = false
  words : handle.count < 2 ^ 32
  within : handle.count ≤ capacity (handle.cursor.volume.blockSize / 4)
  whole : handle.cursor.volume.blockSize % 4 = 0
  tables : 0 < handle.cursor.volume.blockSize / 4
  square : handle.cursor.volume.blockSize / 4 * (handle.cursor.volume.blockSize / 4) < 2 ^ 32
  writes : handle.openMode &&& openModeWrite ≠ 0
  fixed : handle.openMode &&& openModeNoResize = openModeNoResize
  present : ∀ k < handle.count,
    0 ∉ pointers handle.cursor.location.inode base (locate (handle.cursor.volume.blockSize / 4) k)

theorem usable_of_frame (frame : after.frame = handle.frame) (usable : handle.Usable base) :
    after.Usable base := by
  have blockSize := (same_file frame).blockSize
  have count := count_of_frame frame
  have mode : after.openMode = handle.openMode :=
    show after.frame.openMode = handle.frame.openMode by rw [frame]
  have inode := (same_file frame).inode
  refine ⟨linked_of_frame frame usable.linked, ?_, ?_, ?_, ?_, ?_, ?_, ?_, ?_, ?_, ?_⟩
  · rw [file_map_of_frame frame]
    exact usable.sole
  · rw [read_only_of_frame frame]
    exact usable.writable
  · rw [count]
    exact usable.words
  · rw [count, blockSize]
    exact usable.within
  · rw [blockSize]
    exact usable.whole
  · rw [blockSize]
    exact usable.tables
  · rw [blockSize]
    exact usable.square
  · rw [mode]
    exact usable.writes
  · rw [mode]
    exact usable.fixed
  · rw [count, inode, blockSize]
    exact usable.present

/-- A handle between two calls: at a block of the file, or at the edge. -/
def Placed (base : Contents) (handle : Handle) (contents : Contents) : Prop :=
  handle.Steady base contents ∨ handle.AtEdge base contents

theorem placed_bounded (placed : handle.Placed base contents) : handle.offset ≤ handle.size := by
  rcases placed with (⟨k, info, pending⟩ | ⟨opened, -⟩) | edge
  · exact pending.settled.bounded
  · exact opened.1.bounded
  · exact edge.behind.le

theorem placed_keeps (placed : handle.Placed base contents) :
    (handle.fileMap base).Keeps contents := by
  rcases placed with (⟨k, info, pending⟩ | ⟨-, keeps⟩) | edge
  · exact pending.keeps
  · exact keeps
  · exact edge.keeps

/-- The tables are those of the device, whatever the buffer holds. -/
theorem placed_idle (placed : handle.Placed base contents) :
    ∃ device, handle.Idle device (handle.fileMap base).Tables ∧
      (handle.fileMap base).Keeps device := by
  rcases placed with (⟨k, info, pending⟩ | ⟨⟨settled, -, -⟩, keeps⟩) | edge
  · exact ⟨_, idle_of_settled pending.settled, pending.deviceKeeps⟩
  · exact ⟨_, idle_of_settled settled, keeps⟩
  · exact ⟨_, edge.idle, edge.keeps⟩

theorem placed_of_buffered {k : Nat} {info : BlockCacheInfo} (frame : after.frame = handle.frame)
    (keeps : (handle.fileMap base).Keeps contents)
    (settled : after.Settled contents (handle.fileMap base).Tables k)
    (buffered : after.Buffered contents k info)
    (inside : k < handle.count ∨ k = 0) (early : info.block ≤ k) : after.Placed base contents := by
  have file : after.fileMap base = handle.fileMap base := file_map_of_frame frame
  rw [← file] at keeps settled
  rw [← count_of_frame frame] at inside
  exact .inl (.inl ⟨k, info, pending_of_buffered keeps settled buffered inside early⟩)

theorem present_kept {k : Nat} (usable : handle.Usable base)
    (keeps : (handle.fileMap base).Keeps contents)
    (below : k < handle.count) :
    0 ∉ pointers handle.cursor.location.inode contents
      (locate (handle.cursor.volume.blockSize / 4) k) := by
  obtain ⟨path, pointer⟩ := FileMap.way_kept usable.sole keeps (.inl below)
  have present := usable.present k below
  change 0 ∉ tablePath (handle.fileMap base).inode contents
    (locate (handle.fileMap base).tableSize k) ++
    [dataPointer (handle.fileMap base).inode contents (locate (handle.fileMap base).tableSize k)]
  rw [path, pointer]
  exact present

def Stored (handle : Handle) (contents : Contents) : Prop :=
  ∃ flushed, flush handle = .ok () flushed ∧ flushed.cursor.volume.device = contents

/-- The block that holds this part of the file; it is 0 for a hole. -/
def linkTo (handle : Handle) (contents : Contents) (k : Nat) : Nat :=
  sparsePointer handle.cursor.location.inode contents
    (locate (handle.cursor.volume.blockSize / 4) k)

def holedBlock (handle : Handle) (contents : Contents) (k : Nat) : Block :=
  if handle.linkTo contents k = 0 then List.replicate handle.cursor.volume.blockSize 0
  else contents (handle.linkTo contents k)

def holedBytes (handle : Handle) (contents : Contents) : List UInt8 :=
  concat (handle.holedBlock contents) handle.count

def Has (handle : Handle) (contents : Contents) (addr : Nat) : Prop :=
  addr ≠ 0 ∧ ∃ k < handle.count, handle.linkTo contents k = addr

/-- What a clipped write does: the first bytes of the buffer, as many as there are up to the
end of the file, replace those at the offset, and nothing but blocks of the file changes. -/
structure Clips (handle : Handle) (buf : Block) (old : Contents) (after : Handle)
    (contents : Contents) : Prop where
  before : handle.Stored old
  returned : fwrite buf handle = .ok (min buf.length (handle.size - handle.offset)) after
  size : after.size = handle.size
  offset : after.offset = handle.offset + min buf.length (handle.size - handle.offset)
  stored : after.Stored contents
  sized : ∀ lba, (contents lba).length = handle.cursor.volume.blockSize
  bytes : handle.holedBytes contents = splice (handle.holedBytes old) handle.offset
    (buf.take (min buf.length (handle.size - handle.offset)))
  others : ∀ addr, ¬handle.Has old addr → contents addr = old addr

def Clipped (handle : Handle) (buf : Block) : Prop :=
    ∃ old after contents, handle.Clips buf old after contents

section Holes

variable {location : InodeReadingLocationInfo} {k : Nat}

theorem link_eq (there : 0 ∉ pointers handle.cursor.location.inode contents
    (locate (handle.cursor.volume.blockSize / 4) k)) :
    handle.linkTo contents k = dataPointer handle.cursor.location.inode contents
      (locate (handle.cursor.volume.blockSize / 4) k) :=
  if_neg fun missing => there (List.mem_append_left _ missing)

theorem holed_block_eq (there : 0 ∉ pointers handle.cursor.location.inode contents
    (locate (handle.cursor.volume.blockSize / 4) k)) :
    handle.holedBlock contents k = handle.blocks contents k := by
  have data : dataPointer handle.cursor.location.inode contents
      (locate (handle.cursor.volume.blockSize / 4) k) ≠ 0 := by
    intro zero
    exact there (List.mem_append_right _ (List.mem_singleton.mpr zero.symm))
  rw [holedBlock, link_eq there, if_neg data]
  rfl

theorem sparse_pointer_place (inode : Inode) (contents : Contents)
    (location : InodeReadingLocationInfo) :
    (way inode contents location)[(turns location).length]? = some
      (sparsePointer inode contents location) := by
  cases location with
  | direct d => rfl
  | single i =>
      by_cases first : inode.singleIndirectBlockPointer = 0 <;>
        simp [way, chase, turns, head, sparsePointer, tablePath, dataPointer, first, eq_comm]
  | double i j =>
      by_cases first : inode.doubleIndirectBlockPointer = 0
      · simp [way, chase, turns, sparsePointer, tablePath, first]
      · by_cases second : entry (contents inode.doubleIndirectBlockPointer) i = 0
        · simp [way, chase, turns, sparsePointer, tablePath, first, second]
        · simp [way, chase, turns, sparsePointer,
            tablePath, dataPointer, first, second, Ne.symm first,
            Ne.symm second]
  | triple i j k =>
      by_cases first : inode.tripleIndirectBlockPointer = 0
      · simp [way, chase, turns, sparsePointer, tablePath, first]
      · by_cases second : entry (contents inode.tripleIndirectBlockPointer) i = 0
        · simp [way, chase, turns, sparsePointer, tablePath, first, second]
        · by_cases third : entry (contents
            (entry (contents inode.tripleIndirectBlockPointer) i)) j = 0
          · simp [way, chase, turns, sparsePointer, tablePath, first, second, third]
          · simp [way, chase, turns, sparsePointer, tablePath, dataPointer, first, second, third,
              Ne.symm first, Ne.symm second, Ne.symm third]

/-- A hole stays one as long as the tables on the way are not changed. -/
theorem sparse_pointer_congr {inode : Inode} {other : Contents}
    (same : ∀ place < (turns location).length,
      ∀ table, (way inode contents location)[place]? = some table →
      table ≠ 0 → other table = contents table) :
    sparsePointer inode other location = sparsePointer inode contents location := by
  have ways : way inode other location = way inode contents location := Cursor.chase_congr _ _ same
  have place := sparse_pointer_place inode other location
  rw [ways, sparse_pointer_place] at place
  exact (Option.some.inj place).symm

theorem way_of_pointers {inode : Inode} (there : 0 ∉ pointers inode contents location) :
    ∀ pointer ∈ way inode contents location, pointer ≠ 0 := by
  have last := sparse_pointer_place inode contents location
  have linked : sparsePointer inode contents location = dataPointer inode contents location :=
    if_neg fun missing => there (List.mem_append_left _ missing)
  have nonzero : dataPointer inode contents location ≠ 0 := by
    intro zero
    exact there (List.mem_append_right _ (List.mem_singleton.mpr zero.symm))
  rw [linked] at last
  intro pointer member
  obtain ⟨place, found⟩ := List.mem_iff_getElem?.mp member
  have bound := (List.getElem?_eq_some_iff.mp found).1
  have length : (way inode contents location).length = (turns location).length + 1 :=
    length_chase _ _
  exact Cursor.chase_nonzero _ last nonzero place (by omega) pointer found

theorem holed_bytes_eq (usable : handle.Usable base)
    (keeps : (handle.fileMap base).Keeps contents) :
    handle.holedBytes contents = handle.bytes contents :=
  concat_congr fun _ below => holed_block_eq (present_kept usable keeps below)

end Holes

section Fixed

variable {buf : Block} (writes : handle.openMode &&& openModeWrite ≠ 0)
  (fixed : handle.openMode &&& openModeNoResize = openModeNoResize)
    (bounded : handle.offset ≤ handle.size)

include writes fixed bounded

theorem fwrite_fixed : fwrite buf handle = (do
    let checkedBuf ← orPanic (getSlice buf 0 (handle.size - handle.offset))
    write checkedBuf : OnHandle Nat) handle := by
  change (if handle.openMode &&& openModeWrite = 0 then _
    else if handle.openMode &&& openModeNoResize = openModeNoResize then
      if handle.offset > handle.size then _ else _
    else _ : OnHandle Nat) handle = _
  rw [if_neg writes, if_pos fixed, if_neg (by omega)]

/-- The slice is taken up to the end of the file, whatever the length of the buffer. -/
theorem fwrite_short (short : buf.length < handle.size - handle.offset) :
    fwrite buf handle = .error .panic handle := by
  have missing : getSlice buf 0 (handle.size - handle.offset) = none := if_neg (by omega)
  rw [fwrite_fixed writes fixed bounded, missing]
  rfl

theorem fwrite_enough (enough : handle.size - handle.offset ≤ buf.length) :
    fwrite buf handle = write (buf.take (handle.size - handle.offset)) handle := by
  have part : getSlice buf 0 (handle.size - handle.offset) = some
      (buf.take (handle.size - handle.offset)) := by
    rw [get_slice_eq (Nat.zero_le _) enough, List.drop_zero, Nat.sub_zero]
  rw [fwrite_fixed writes fixed bounded, part,
    state_bind_ok (rfl : orPanic (some _) handle = .ok _ handle)]

end Fixed

section Calls

variable (usable : handle.Usable base) (placed : handle.Placed base contents)

include usable placed

theorem placed_flush : ∃ flushed, flush handle = .ok () flushed ∧
    flushed.cursor.volume.device = contents ∧
    flushed.Placed base contents ∧ flushed.frame = handle.frame := by
  rcases placed with (⟨k, info, pending⟩ | ⟨⟨settled, missing, start⟩, keeps⟩) | edge
  · obtain ⟨flushed, flushes, settled, buffered, frame, -⟩ :=
      flush_pending usable.sole usable.linked pending usable.writable
    exact ⟨flushed, flushes, Cursor.device_of_clean settled.cursor.views settled.cursor.clean,
      placed_of_buffered frame pending.keeps settled buffered pending.inside pending.early, frame⟩
  · have flushed : flush handle = .ok () handle := by
      apply flush_of_clean settled.cursor.clean settled.saved
      intro other present
      exact absurd (missing.symm.trans present) nofun
    exact ⟨handle, flushed, Cursor.device_of_clean settled.cursor.views settled.cursor.clean,
      .inl (.inr ⟨⟨settled, missing, start⟩, keeps⟩), rfl⟩
  · obtain ⟨flushed, flushes, stays, frame⟩ := flush_edge edge usable.writable
    exact ⟨flushed, flushes, Cursor.device_of_clean stays.idle.cursor.views stays.idle.cursor.clean,
      .inr stays,
      frame⟩

theorem placed_read (buffer : Block) :
    ∃ result after, read buffer handle = .ok result after ∧ after.Placed base contents ∧
      after.frame = handle.frame := by
  have bounded := placed_bounded placed
  rcases placed with steady | edge
  · obtain ⟨flushed, filled, k, info, flushes, fills, -, settled, buffered, inside, early, frame,
      offset, keeps⟩ :=
      begins_spec usable.sole usable.linked usable.writable steady
    obtain ⟨blockSize, -, -, -, -, size⟩ := same_file frame
    have links := linked_of_frame frame (linked_kept usable.linked usable.sole keeps)
    have reads := read_buffered_spec settled buffered links (Nat.min_le_left buffer.length _)
      (show filled.offset + min buffer.length (handle.size - handle.offset) ≤ filled.size by omega)
    obtain ⟨result, after, returned, ⟨-, -, same, -⟩, k', info', settled', buffered', passed⟩ :=
      yields_ok reads
    rw [count_of_frame frame] at passed
    refine ⟨result, after, ?_, ?_, same.trans frame⟩
    · rw [read, state_bind_get]
      dsimp only
      rw [state_bind_ok flushes, state_bind_ok fills, state_bind_get, buffered.present,
        sub64_of_le bounded]
      rw [offset, blockSize] at returned
      exact returned
    · rcases passed with ⟨rfl, rfl⟩ | ⟨below, number⟩
      · exact placed_of_buffered (same.trans frame) keeps settled' buffered' inside early
      · exact placed_of_buffered (same.trans frame) keeps settled' buffered' (.inl below)
          (by rw [number]; exact Nat.mod_le ..)
  · obtain ⟨after, reads, stays, frame⟩ := read_edge edge usable.writable buffer
    exact ⟨_, after, reads, .inr stays, frame⟩

theorem placed_seek {position : SeekPosition} (sought : seek position handle = .ok () after) :
    ∃ contents, after.Placed base contents ∧ after.frame = handle.frame := by
  obtain ⟨device, idle, keeps⟩ := placed_idle placed
  have positive := idle.cursor.views.stores.positive
  cases found : fseekHelper position handle.offset handle.size with
  | none =>
      rw [seek, state_bind_get, found] at sought
      cases sought
  | some target =>
      have small : target / handle.cursor.volume.blockSize < 2 ^ 32 := by
        by_contra large
        rw [seek_refused found (by omega)] at sought
        cases sought
      have bounded : target ≤ handle.size := fseek_helper_le (placed_bounded placed) found
      by_cases inside : target / handle.cursor.volume.blockSize < handle.count ∨
          target / handle.cursor.volume.blockSize = 0
      · have links := linked_kept usable.linked usable.sole keeps
        obtain ⟨_, moved, returned, ⟨k, info, settled, buffered, inside, number⟩, frame, -⟩ :=
          yields_ok
          (seek_spec idle links found bounded inside small (.inr usable.square))
        rw [sought] at returned
        cases returned
        exact ⟨device, placed_of_buffered frame keeps settled buffered inside
          (by rw [number]; exact Nat.mod_le ..), frame⟩
      · rw [not_or] at inside
        obtain ⟨beyond, -⟩ := inside
        have covers := @size_le_count handle positive
        have whole := Nat.div_mul_le_self target handle.cursor.volume.blockSize
        have below : handle.count * handle.cursor.volume.blockSize ≤
            target / handle.cursor.volume.blockSize * handle.cursor.volume.blockSize :=
          Nat.mul_le_mul_right _ (by omega)
        obtain rfl : target = handle.size := by omega
        obtain ⟨edge, frame⟩ := seek_to_edge idle keeps found (by omega)
          usable.words usable.within usable.whole
          usable.tables usable.square sought
        exact ⟨device, .inr edge, frame⟩

theorem placed_stored : handle.Stored contents := by
  obtain ⟨flushed, flushes, device, -⟩ := placed_flush usable placed
  exact ⟨flushed, flushes, device⟩

theorem placed_sized (lba : Nat) : (contents lba).length = handle.cursor.volume.blockSize := by
  obtain ⟨flushed, -, device, still, frame⟩ := placed_flush usable placed
  obtain ⟨_, idle, -⟩ := placed_idle still
  rw [← device, ← (same_file frame).blockSize]
  exact idle.cursor.views.stores.sized lba

theorem placed_write {buf : Block} (enough : handle.size - handle.offset ≤ buf.length) :
    ∃ after contentsAfter, handle.Clips buf contents after contentsAfter ∧
      after.Placed base contentsAfter ∧
      after.frame = handle.frame := by
  have bounded := placed_bounded placed
  have before := placed_stored usable placed
  have clipped : min buf.length (handle.size - handle.offset) = handle.size - handle.offset :=
    Nat.min_eq_right enough
  have length : (buf.take (handle.size - handle.offset)).length = handle.size - handle.offset := by
    rw [List.length_take, Nat.min_eq_left enough]
  have returned := fwrite_enough usable.writes usable.fixed bounded enough
  have keeps := placed_keeps placed
  have others : ∀ contentsAfter, (handle.fileMap base).Keeps contentsAfter → ∀ addr,
      ¬handle.Has contents addr → contentsAfter addr = contents addr := by
    intro contentsAfter keepsAfter addr apart
    have free : ¬(handle.fileMap base).Owns addr := by
      rintro ⟨k, below, here⟩
      obtain ⟨-, same⟩ := FileMap.way_kept usable.sole keeps (.inl below)
      refine apart ⟨?_, k, below, (link_eq (present_kept usable keeps below)).trans
        (same.trans here)⟩
      rintro rfl
      exact usable.present k below (List.mem_append_right _ (List.mem_singleton.mpr here.symm))
    exact (keepsAfter addr free).trans (keeps addr free).symm
  rcases placed with steady | edge
  · obtain ⟨after, contentsAfter, writes, wrote⟩ :=
      write_spec usable.sole usable.linked usable.writable usable.words
      steady (show handle.offset + (buf.take (handle.size - handle.offset)).length ≤
        handle.size by omega)
    rw [length] at writes
    have pending : after.Placed base contentsAfter := .inl (.inl wrote.pending)
    have keepsAfter := placed_keeps pending
    rw [file_map_of_frame wrote.frame] at keepsAfter
    have sized := placed_sized (usable_of_frame wrote.frame usable) pending
    rw [(same_file wrote.frame).blockSize] at sized
    refine ⟨after, contentsAfter, ⟨before, ?_, (same_file wrote.frame).size, ?_,
      placed_stored (usable_of_frame wrote.frame usable) pending, sized, ?_, others _ keepsAfter⟩,
        pending,
      wrote.frame⟩
    · rw [returned, writes, clipped]
    · rw [wrote.offset, length, clipped]
    · rw [holed_bytes_eq usable keeps, holed_bytes_eq usable keepsAfter, wrote.bytes, clipped]
  · have nothing : handle.size - handle.offset = 0 := by
      have behind := edge.behind
      omega
    obtain ⟨after, writes, stays, frame⟩ := write_edge edge usable.writable
    have stored := placed_stored (usable_of_frame frame usable) (.inr stays)
    have sized := placed_sized usable (.inr edge)
    refine ⟨after, contents, ⟨before, ?_,
      (same_file frame).size, ?_, stored, sized, ?_, fun _ _ => rfl⟩,
      .inr stays, frame⟩
    · rw [returned, nothing, Nat.min_zero, List.take_zero, writes]
    · rw [stays.behind, (same_file frame).size,
        edge.behind, Nat.sub_self, Nat.min_zero, Nat.add_zero]
    · rw [nothing, Nat.min_zero, List.take_zero, splice_nil]

end Calls

end Handle

inductive Served (start : Handle) : Handle → Prop
  | start : Served start start
  | fread {handle after : Handle} {buffer : Block} {result : Nat × Block}
    (served : Served start handle)
      (returned : Handle.fread buffer handle = .ok result after) : Served start after
  | fwrite {handle after : Handle} {buf : Block} {written : Nat} (served : Served start handle)
      (returned : Handle.fwrite buf handle = .ok written after) : Served start after
  | fseek {handle after : Handle} {position : SeekPosition} {offset : Nat}
    (served : Served start handle)
      (returned : Handle.fseek position handle = .ok offset after) : Served start after
  | fflush {handle after : Handle} (served : Served start handle)
      (returned : Handle.fflush handle = .ok () after) : Served start after
  | ftruncate {handle after : Handle} {size : Nat} (served : Served start handle)
      (returned : Handle.ftruncate handle = .ok size after) : Served start after

variable {start handle : Handle} {base : Contents}

theorem served_placed (usable : start.Usable base) (opened : ∃ contents, start.Placed base contents)
    (served : Served start handle) : (∃ contents, handle.Placed base contents) ∧
    handle.frame = start.frame := by
  induction served with
  | start => exact ⟨opened, rfl⟩
  | @fread handle after buffer result served returned ih =>
      obtain ⟨⟨contents, placed⟩, frame⟩ := ih
      have usable := Handle.usable_of_frame frame usable
      change (if handle.openMode &&& openModeRead = 0 then _ else _ : OnHandle (Nat × Block))
        handle = _ at returned
      split_ifs at returned
      · cases returned
      · obtain ⟨_, _, reads, placed, same⟩ := Handle.placed_read usable placed buffer
        have both := reads.symm.trans returned
        cases both
        exact ⟨⟨contents, placed⟩, same.trans frame⟩
  | @fwrite handle after buf written served returned ih =>
      obtain ⟨⟨contents, placed⟩, frame⟩ := ih
      have usable := Handle.usable_of_frame frame usable
      by_cases enough : handle.size - handle.offset ≤ buf.length
      · obtain ⟨_, contentsAfter, clips, placed, same⟩ := Handle.placed_write usable placed enough
        have both := clips.returned.symm.trans returned
        cases both
        exact ⟨⟨contentsAfter, placed⟩, same.trans frame⟩
      · rw [Handle.fwrite_short usable.writes usable.fixed (Handle.placed_bounded placed)
          (by omega)] at returned
        cases returned
  | @fseek handle after position offset served returned ih =>
      obtain ⟨⟨contents, placed⟩, frame⟩ := ih
      have usable := Handle.usable_of_frame frame usable
      cases sought : Handle.seek position handle with
      | error failure failed =>
          unfold Handle.fseek at returned
          rw [state_bind_error sought] at returned
          cases returned
      | ok _ moved =>
          rw [fseek_of_seek sought] at returned
          cases returned
          obtain ⟨contents, placed, same⟩ := Handle.placed_seek usable placed sought
          exact ⟨⟨contents, placed⟩, same.trans frame⟩
  | @fflush handle after served returned ih =>
      obtain ⟨⟨contents, placed⟩, frame⟩ := ih
      have usable := Handle.usable_of_frame frame usable
      change (if handle.openMode &&& openModeWrite = 0 then _ else _ : OnHandle Unit)
        handle = _ at returned
      rw [if_neg usable.writes] at returned
      obtain ⟨_, flushes, -, placed, same⟩ := Handle.placed_flush usable placed
      have both := flushes.symm.trans returned
      cases both
      exact ⟨⟨contents, placed⟩, same.trans frame⟩
  | @ftruncate handle after size served returned ih =>
      obtain ⟨⟨contents, placed⟩, frame⟩ := ih
      have usable := Handle.usable_of_frame frame usable
      change (if handle.openMode &&& openModeWrite = 0 then _
        else if handle.openMode &&& openModeNoResize = openModeNoResize then _ else _ : OnHandle
          Nat) handle = _
        at returned
      rw [if_neg usable.writes, if_pos usable.fixed] at returned
      cases returned

section Fresh

variable {volume : Ext2Volume} {inode : Inode} (mounted : Mounted volume)
  (mapped : Mapped volume inode)
  (sole : (volumeFile volume inode).Sole) (fresh : Fresh volume inode start)

include mounted fresh in
theorem fresh_placed : start.Placed volume.device volume.device := by
  obtain ⟨settled, missing, offset⟩ := fresh_opened mounted fresh
  exact .inl (.inr ⟨⟨Handle.settled_narrow settled fun _ _ table => table.1, missing, offset⟩,
    fun _ _ => rfl⟩)

include mounted mapped sole fresh in
theorem fresh_usable (first : fileBlocks volume inode = 0 →
    inode.directBlockPointers 0 < volume.blockCount)
    (writable : volume.readOnly = false) (few : volume.blockCount < 2 ^ 32)
    (square : volume.blockSize / 4 * (volume.blockSize / 4) < 2 ^ 32)
    (writes : start.openMode &&& openModeWrite ≠ 0)
    (fixed : start.openMode &&& openModeNoResize = openModeNoResize) : start.Usable
    volume.device := by
  obtain ⟨sameVolume, sameInode, size⟩ := fresh_frame fresh
  have count : start.count = fileBlocks volume inode := by
    rw [Handle.count, sameVolume, size, fileBlocks]
  have bound := file_blocks_le mapped sole
  obtain ⟨logBlockSize, power⟩ := mounted.size
  have whole : volume.blockSize % 4 = 0 := by
    rw [power]
    omega
  have tables : 0 < volume.blockSize / 4 := by
    have positive := Nat.two_pow_pos logBlockSize
    rw [power]
    omega
  refine ⟨fresh_linked (mapped_readable mapped) first fresh, ?_, ?_, ?_, ?_, ?_, ?_, ?_, writes,
    fixed, ?_⟩
  · rw [Handle.fresh_file fresh]
    exact sole
  · rw [sameVolume]
    exact writable
  · rw [count]
    omega
  · rw [count, sameVolume]
    by_cases empty : fileBlocks volume inode = 0
    · omega
    · have last := (mapped (fileBlocks volume inode - 1) (by omega)).1
      omega
  · rw [sameVolume]
    exact whole
  · rw [sameVolume]
    exact tables
  · rw [sameVolume]
    exact square
  · rw [count, sameVolume, sameInode]
    intro k below zero
    exact ((mapped k below).2 0 zero).1 rfl

end Fresh

/-- All pointers on the way to each block of the file are set. -/
def NoHoles (volume : Ext2Volume) (inode : Inode) : Prop :=
  ∀ k < fileBlocks volume inode, 0 ∉ pointers inode volume.device (locate (volume.blockSize / 4) k)

def linkOf (volume : Ext2Volume) (inode : Inode) (k : Nat) : Nat :=
  sparsePointer inode volume.device (locate (volume.blockSize / 4) k)

/-- The pointers that are set lead to different blocks, and none of those is a table. -/
structure SoleBlocks (volume : Ext2Volume) (inode : Inode) : Prop where
  distinct : ∀ j < fileBlocks volume inode, ∀ k < fileBlocks volume inode,
    linkOf volume inode j ≠ 0 →
    linkOf volume inode j = linkOf volume inode k → j = k
  apart : ∀ k < fileBlocks volume inode, ∀ place < (turns (locate (volume.blockSize / 4) k)).length,
    ∀ table ≠ 0, (way inode volume.device (locate (volume.blockSize / 4) k))[place]? = some table →
      ∀ j < fileBlocks volume inode, linkOf volume inode j ≠ table

section Holes

variable {volume : Ext2Volume} {inode : Inode}

theorem mapped_of_no_holes (inVolume : InVolume volume inode) (full : NoHoles volume inode) :
    Mapped volume inode := by
  intro k below
  refine ⟨inVolume.inside k below, fun addr member => ⟨?_, ?_⟩⟩
  · rintro rfl
    exact full k below member
  · exact inVolume.onVolume k below (fun zero => full k below (List.mem_append_left _ zero))
      addr member

theorem sole_of_no_holes (blocks : SoleBlocks volume inode) (full : NoHoles volume inode) :
    (volumeFile volume inode).Sole := by
  have link : ∀ k < fileBlocks volume inode,
      linkOf volume inode k = (volumeFile volume inode).pointer k ∧ linkOf volume inode k ≠ 0 := by
    intro k below
    have same : linkOf volume inode k = (volumeFile volume inode).pointer k :=
      if_neg fun zero => full k below (List.mem_append_left _ zero)
    refine ⟨same, ?_⟩
    rw [same]
    intro zero
    exact full k below (List.mem_append_right _ (List.mem_singleton.mpr zero.symm))
  constructor
  · intro j inJ k inK same
    rw [← (link j inJ).1, ← (link k inK).1] at same
    exact blocks.distinct j inJ k inK (link j inJ).2 same
  · rintro k below table member ⟨j, inJ, here⟩
    have there := Handle.way_of_pointers (full k below)
    obtain ⟨place, found⟩ := List.mem_iff_getElem?.mp member
    have bound := (List.getElem?_eq_some_iff.mp found).1
    rw [FileMap.path, length_table_path] at bound
    have onWay : (way inode volume.device (locate (volume.blockSize / 4) k))[place]? = some
        table := by
      rw [← table_path_place there bound]
      exact found
    have nonzero := there table (List.mem_of_getElem? onWay)
    exact blocks.apart k below place bound table nonzero onWay j inJ ((link j inJ).1.trans here)

/-- A new handle does not fill a hole: nothing but blocks of the file changes, so the hole
stays one. -/
theorem hole_lost {k : Nat} (mounted : Mounted volume) (blocks : SoleBlocks volume inode)
    (fresh : Fresh volume inode start) (below : k < fileBlocks volume inode)
    (hole : 0 ∈ pointers inode volume.device (locate (volume.blockSize / 4) k)) :
    ¬start.Clipped (List.replicate start.size 1) := by
  rintro ⟨old, after, contents, clips⟩
  obtain ⟨settled, missing, offset⟩ := fresh_opened mounted fresh
  obtain ⟨sameVolume, sameInode, size⟩ := fresh_frame fresh
  have count : start.count = fileBlocks volume inode := by
    rw [Handle.count, sameVolume, size, fileBlocks]
  obtain rfl : volume.device = old := by
    obtain ⟨flushed, flushes, device⟩ := clips.before
    have idle : Handle.flush start = .ok () start := by
      apply Handle.flush_of_clean settled.cursor.clean settled.saved
      intro other present
      exact absurd (missing.symm.trans present) (by simp)
    rw [idle] at flushes
    cases flushes
    rw [← device, sameVolume]
  have link : ∀ j, start.linkTo volume.device j = linkOf volume inode j := by
    intro j
    unfold Handle.linkTo linkOf
    rw [sameVolume, sameInode]
  have zero : linkOf volume inode k = 0 := by
    unfold linkOf sparsePointer
    split_ifs with table
    · rfl
    · exact (List.mem_singleton.mp ((List.mem_append.mp hole).resolve_left table)).symm
  have stays : start.linkTo contents k = 0 := by
    rw [← zero, Handle.linkTo, linkOf, sameVolume, sameInode]
    apply Handle.sparse_pointer_congr
    intro place inside table found nonzero
    apply clips.others
    rintro ⟨-, j, inJ, here⟩
    rw [count] at inJ
    exact blocks.apart k below place inside table nonzero found j inJ ((link j).symm.trans here)
  -- the first byte of the hole is still zero, but a one was to be stored there
  have positive := mounted.stores.positive
  have before : k * volume.blockSize < start.size := by
    have rounds : k + 1 ≤ (start.size + volume.blockSize - 1) / volume.blockSize := by
      rw [size]
      exact below
    rw [Nat.le_div_iff_mul_le positive, Nat.add_one_mul] at rounds
    omega
  have sized : ∀ contents : Contents, (∀ lba, (contents lba).length = volume.blockSize) →
      ∀ j, (start.holedBlock contents j).length = volume.blockSize := by
    intro contents length j
    unfold Handle.holedBlock
    split_ifs
    · rw [List.length_replicate, sameVolume]
    · exact length _
  have lengths := clips.sized
  rw [sameVolume] at lengths
  have byte : (start.holedBytes contents)[k * volume.blockSize + 0]? = some 0 := by
    unfold Handle.holedBytes
    rw [getElem?_concat (sized _ lengths) (by rw [count]; exact below) positive, Handle.holedBlock,
      if_pos stays, List.getElem?_replicate, if_pos (by rw [sameVolume]; exact positive)]
  have total : (start.holedBytes volume.device).length = start.count * volume.blockSize :=
    length_concat (sized _ mounted.stores.sized)
  have fits : start.size ≤ start.count * volume.blockSize := by
    rw [count, size]
    exact size_le_blocks inode mounted
  rw [clips.bytes, offset, Nat.sub_zero, List.length_replicate, Nat.min_self, List.take_replicate,
    Nat.min_self, getElem?_splice (by rw [List.length_replicate, total, Nat.zero_add]; exact fits),
    List.length_replicate, if_pos (by omega), List.getElem?_replicate, if_pos (by omega)] at byte
  exact absurd (Option.some.inj byte) (by decide)

theorem served_mode (served : Served start handle) : handle.openMode = start.openMode := by
  have durable := Handle.mode_durable start.openMode
  have kept : ∀ {Value : Type} {operation : OnHandle Value} {handle after : Handle} {value : Value},
      Maintains (fun handle : Handle => handle.openMode = start.openMode)
        (fun (_ : Failure) handle => handle.openMode = start.openMode) operation →
      handle.openMode = start.openMode → operation handle = .ok value after →
      after.openMode = start.openMode := by
    intro _ _ handle after value maintains same returned
    have settles := maintains handle same
    unfold Settles at settles
    rw [returned] at settles
    cases settles with
    | ok same => exact same
  induction served with
  | start => rfl
  | fread served returned ih => exact kept (Handle.mode_fread _) ih returned
  | fwrite served returned ih => exact kept (Handle.mode_fwrite _) ih returned
  | fseek served returned ih => exact kept (Handle.mode_fseek _) ih returned
  | fflush served returned ih => exact kept Handle.mode_fflush ih returned
  | ftruncate served returned ih => exact kept Handle.mode_ftruncate ih returned

end Holes

def fixedHandle (volume : Ext2Volume) (inode : Inode) : Option Handle :=
  Handle.new volume inode (openModeWrite ||| openModeNoResize) (List.replicate volume.blockSize 0)
    (List.replicate volume.blockSize 0) (List.replicate volume.blockSize 0)
      (List.replicate volume.blockSize 0)

theorem fixed_handle_fresh {volume : Ext2Volume} {inode : Inode}
    (made : fixedHandle volume inode = some handle) :
    Fresh volume inode handle ∧ handle.openMode &&& openModeWrite ≠ 0 ∧
      handle.openMode &&& openModeNoResize = openModeNoResize := by
  have mode : handle.openMode = openModeWrite ||| openModeNoResize := by
    cases made
    rfl
  refine ⟨⟨openModeWrite ||| openModeNoResize, _, _, _, _, by simp, made⟩, ?_, ?_⟩
  · rw [mode]
    decide
  · rw [mode]
    decide

def threeBytesInode : Inode := plainInode 0 3 1

theorem one_byte_panics :
    (match fixedHandle (plainVolume 1024 8 7) threeBytesInode with
      | none => false
      | some handle => match Handle.fwrite [1] handle with
        | .error .panic _ => true
        | _ => false) = true := by
  decide +kernel

end Campix.Ext2
