import Campix.Ext2.Directory
import Campix.Ext2.ReadRuns

/-!
# Walks along the records of a directory

The first call of `next` buffers the first block of the directory, and the header of every
record is read from the start of the buffer on. So a walk goes along the lengths of that
block for as long as the headers lie in it. Where it comes to one that does not, or to a
live record of length 0, the listing does not end in a defined way.
-/

namespace Campix.Ext2

open Lib.Blocks Lib.Fallible Lib.Outcome Lib.Slice Lib.Word
open Drivers

set_option autoImplicit false

structure DirectoryOn (volume : Ext2Volume) (inode : Inode) : Prop where
  mounted : Mounted volume
  mapped : Mapped volume inode
  directory : inode.inodeType = .directory
  word : inode.sizeLo < 2 ^ 32

def firstBlock (volume : Ext2Volume) (inode : Inode) : Block :=
  blockOf inode volume.device (volume.blockSize / 4) 0

def Buffers.Sized (heap : Buffers) (blockSize : Nat) : Prop :=
  ∀ block ∈ [heap.buffer, heap.table1, heap.table2, heap.table3, heap.blockCache],
    block.length = blockSize

def InBlock (haveTypeField : Bool) (block : Block) (offset : Nat) : Prop :=
  offset + DirectoryEntryRaw.size + (DirectoryEntryRaw.read block offset).nameLen haveTypeField ≤
    block.length

inductive Passes (haveTypeField : Bool) (block : Block) (size : Nat) : Nat → Nat → Prop
  | here {offset : Nat} : Passes haveTypeField block size offset offset
  | step {offset last : Nat} (below : offset < size) (inBlock : InBlock haveTypeField block offset)
      (moves : (DirectoryEntryRaw.read block offset).entrySize ≠ 0)
      (rest : Passes haveTypeField block size
        (offset + (DirectoryEntryRaw.read block offset).entrySize) last) :
      Passes haveTypeField block size offset last

/-- Every record on the way lies in the block, and a live one has a length. -/
def SoundWalk (haveTypeField : Bool) (block : Block) (size offset : Nat) : Prop :=
  ∀ last, Passes haveTypeField block size offset last → last < size →
    InBlock haveTypeField block last ∧
      ((DirectoryEntryRaw.read block last).inode ≠ 0 →
        (DirectoryEntryRaw.read block last).entrySize ≠ 0)

variable {haveTypeField : Bool} {block : Block} {size offset : Nat}

theorem sound_here (sound : SoundWalk haveTypeField block size offset) (below : offset < size) :
    InBlock haveTypeField block offset ∧
      ((DirectoryEntryRaw.read block offset).inode ≠ 0 →
        (DirectoryEntryRaw.read block offset).entrySize ≠ 0) :=
  sound offset .here below

theorem sound_step (sound : SoundWalk haveTypeField block size offset) (below : offset < size)
    (moves : (DirectoryEntryRaw.read block offset).entrySize ≠ 0) :
    SoundWalk haveTypeField block size
      (offset + (DirectoryEntryRaw.read block offset).entrySize) := by
  intro last passes
  exact sound last (.step below (sound_here sound below).1 moves passes)

theorem sound_of_step (inBlock : InBlock haveTypeField block offset)
    (live : (DirectoryEntryRaw.read block offset).inode ≠ 0 →
      (DirectoryEntryRaw.read block offset).entrySize ≠ 0)
    (rest : (DirectoryEntryRaw.read block offset).entrySize ≠ 0 →
      SoundWalk haveTypeField block size
        (offset + (DirectoryEntryRaw.read block offset).entrySize)) :
    SoundWalk haveTypeField block size offset := by
  intro last passes
  cases passes with
  | here => exact fun _ => ⟨inBlock, live⟩
  | step below inBlock moves passes => exact rest moves last passes

/-- The call returns, with or without an error of the file system, and stays in its buffers. -/
inductive Ended {State Value : Type} : EStateM.Result Stop State Value → Prop
  | ok {value : Value} {after : State} : Ended (.ok value after)
  | error {error : VfsError} {after : State} : Ended (.error (.failure (.error error)) after)

namespace DirectoryIterator

/-- An iterator as `new` returns it. -/
structure Starts (volume : Ext2Volume) (inode : Inode) (iterator : DirectoryIterator) : Prop where
  fresh : Fresh volume inode iterator.handle
  buffer : iterator.buffer.length = volume.blockSize
  bufferIdx : iterator.bufferIdx = 2 ^ 64 - 1
  idx : iterator.idx = 0
  size : iterator.size = inode.sizeLo
  last : iterator.lastEntryOffset = none

structure Holding (block : Block) (iterator : DirectoryIterator) : Prop where
  buffer : iterator.buffer = block
  bufferIdx : iterator.bufferIdx = 0
  length : block.length = iterator.blockSize
  small : block.length < 2 ^ 32

/-- The first block of the directory was read, and nothing else. -/
structure Loaded (volume : Ext2Volume) (inode : Inode) (iterator : DirectoryIterator) : Prop where
  stands : iterator.handle.Stands volume.device AnyTable
  linked : iterator.handle.Linked volume.device AnyTable
  file : ∃ start, Fresh volume inode start ∧ iterator.handle.frame = start.frame
  offset : iterator.handle.offset = volume.blockSize
  buffer : iterator.buffer = firstBlock volume inode
  bufferIdx : iterator.bufferIdx = 0
  size : iterator.size = inode.sizeLo

variable {volume : Ext2Volume} {inode : Inode} {iterator : DirectoryIterator}

theorem get_size_eq (on : DirectoryOn volume inode) :
    inode.getSize volume.fileSize64 = inode.sizeLo := by
  unfold Inode.getSize
  rw [on.directory, if_neg (by simp)]

theorem new_starts (haveTypeField : Bool) (openMode : Nat) {heap : Buffers}
    (on : DirectoryOn volume inode)
    (whole : inode.sizeLo % volume.blockSize = 0) (sized : heap.Sized volume.blockSize) :
    ∃ iterator, new volume haveTypeField inode openMode heap = .ok iterator ∧
      iterator.Starts volume inode ∧
      iterator.haveTypeField = haveTypeField := by
  have positive : volume.blockSize ≠ 0 := on.mounted.stores.positive.ne'
  have size := get_size_eq on
  obtain ⟨handle, made⟩ : ∃ handle,
      Handle.new volume inode openMode heap.table1 heap.table2 heap.table3
      heap.blockCache = some handle := ⟨_, rfl⟩
  have fresh : Fresh volume inode handle := by
    refine ⟨openMode, _, _, _, _, ?_, made⟩
    intro buffer member
    exact sized buffer (List.mem_cons_of_mem _ member)
  refine ⟨{
    handle := handle
    size := inode.sizeLo
    buffer := heap.buffer
    bufferIdx := 2 ^ 64 - 1
    idx := 0
    haveTypeField := haveTypeField
    lastEntryOffset := none }, ?_, ⟨fresh, ?_, rfl, rfl, rfl, rfl⟩, rfl⟩
  · unfold new
    simp only [size, if_neg positive, whole, ne_eq, not_true_eq_false, if_false, made]
  · exact sized _ List.mem_cons_self

section Called

variable {Value : Type} {openMode : Nat} {heap : Buffers} {operation : OnIterator Value}
  {after : DirectoryIterator} (made : new volume haveTypeField inode openMode heap = .ok iterator)

include made

theorem with_iterator_ok {value : Value} (done : operation iterator = .ok value after) :
    withIterator haveTypeField inode openMode heap operation volume = .ok value
      after.handle.cursor.volume := by
  simp only [withIterator, made, done]

theorem with_iterator_error {stop : Stop} (failed : operation iterator = .error stop after) :
    withIterator haveTypeField inode openMode heap operation volume = .error stop
      after.handle.cursor.volume := by
  simp only [withIterator, made, failed]

end Called

theorem loaded_block_size (loaded : iterator.Loaded volume inode) :
    iterator.blockSize = volume.blockSize := by
  obtain ⟨start, fresh, frame⟩ := loaded.file
  exact (Handle.same_file frame).blockSize.trans
    (congrArg Ext2Volume.blockSize (fresh_frame fresh).1)

theorem length_first_block (on : DirectoryOn volume inode) :
    (firstBlock volume inode).length = volume.blockSize :=
  on.mounted.stores.sized _

theorem on_handle_ok {Value : Type} {operation : OnHandle Value} {value : Value} {handle : Handle}
    (done : operation iterator.handle = .ok value handle) :
    onHandle operation iterator = .ok value { iterator with handle := handle } := by
  unfold onHandle
  rw [done]

theorem read_buffer_moves {count : Nat} {buffer : Block} {handle : Handle}
    (apart : iterator.idx / iterator.blockSize ≠ iterator.bufferIdx)
    (read : Handle.read iterator.buffer iterator.handle = .ok (count, buffer) handle) :
    readBuffer iterator = .ok (iterator.idx % iterator.blockSize)
      { iterator with
        handle := handle
        buffer := buffer
        bufferIdx := iterator.idx / iterator.blockSize } := by
  change (if iterator.idx / iterator.blockSize ≠ iterator.bufferIdx then _ else _ : OnIterator Nat)
    iterator = _
  rw [if_pos apart]
  rw [state_bind_ok (on_handle_ok read)]
  rfl

theorem read_first (on : DirectoryOn volume inode) (whole : inode.sizeLo % volume.blockSize = 0)
    (starts : iterator.Starts volume inode) (nonempty : 0 < inode.sizeLo) :
    ∃ handle, readBuffer iterator = .ok 0
        { iterator with handle := handle, buffer := firstBlock volume inode, bufferIdx := 0 } ∧
      Loaded volume inode { iterator with handle := handle, buffer := firstBlock volume inode, bufferIdx := 0 } := by
  have positive := on.mounted.stores.positive
  obtain ⟨sameVolume, sameInode, size⟩ := fresh_frame starts.fresh
  rw [get_size_eq on] at size
  have full : volume.blockSize ≤ inode.sizeLo :=
    Nat.le_of_dvd nonempty (Nat.dvd_of_mod_eq_zero whole)
  have one : 0 < fileBlocks volume inode := by
    unfold fileBlocks
    rw [get_size_eq on]
    exact Nat.div_pos (by omega) positive
  have linked := fresh_linked (mapped_readable on.mapped) (fun empty => absurd empty one.ne')
    starts.fresh
  have opened := fresh_opened on.mounted starts.fresh
  obtain ⟨result, handle, read, rfl, stands, frame, offset⟩ :=
    yields_ok (Handle.read_spec iterator.buffer (.inr opened) linked)
  have start : iterator.handle.offset = 0 := opened.2.2
  have count : min iterator.buffer.length (iterator.handle.size - iterator.handle.offset) =
      volume.blockSize := by
    rw [starts.buffer, size, start, Nat.sub_zero]
    exact Nat.min_eq_left full
  have bytes : splice iterator.buffer 0
      (((iterator.handle.bytes volume.device).drop iterator.handle.offset).take volume.blockSize) =
        firstBlock volume inode := by
    have here := opened.1.cursor
    have blocks : iterator.handle.blocks volume.device 0 = firstBlock volume inode := by
      rw [Handle.blocks, sameInode, sameVolume, firstBlock]
    have slice := concat_slice (Handle.length_blocks here)
      (show 0 < iterator.handle.count by
        rw [Handle.count, sameVolume, size]; exact Nat.div_pos (by omega) positive)
      (show 0 + volume.blockSize ≤ iterator.handle.cursor.volume.blockSize by
        rw [sameVolume, Nat.zero_add])
    rw [blocks, Nat.zero_mul, Nat.zero_add, List.drop_zero, List.drop_zero,
      List.take_of_length_le (length_first_block on).le] at slice
    rw [start, List.drop_zero, Handle.bytes, slice]
    exact splice_whole ((length_first_block on).trans starts.buffer.symm)
  rw [count] at read offset
  rw [bytes] at read
  refine ⟨handle, ?_, ?_⟩
  · have apart : iterator.idx / iterator.blockSize ≠ iterator.bufferIdx := by
      rw [starts.idx, starts.bufferIdx, Nat.zero_div]
      decide
    have remainder : iterator.idx % iterator.blockSize = 0 := by rw [starts.idx, Nat.zero_mod]
    have quotient : iterator.idx / iterator.blockSize = 0 := by rw [starts.idx, Nat.zero_div]
    rw [read_buffer_moves apart read, remainder, quotient]
  · refine ⟨stands, Handle.linked_of_frame frame linked, ⟨iterator.handle, starts.fresh, frame⟩, ?_,
      rfl, rfl,
      starts.size⟩
    rw [offset, start, Nat.zero_add]

def entryAt (haveTypeField : Bool) (block : Block) (previous : Option Nat) (offset : Nat) :
    DirectoryIteratorEntry :=
  let raw := DirectoryEntryRaw.read block offset
  let name := (block.drop (offset + DirectoryEntryRaw.size)).take (raw.nameLen haveTypeField)
  { entry := { inode := raw.inode, name := name.map fun c => Char.ofNat c.toNat }
    prevEntryOffset := previous
    offset
    recLen := raw.entrySize }

/-- Behind the record at `idx`. -/
def passed (iterator : DirectoryIterator) : DirectoryIterator :=
  { iterator with idx := iterator.idx + (DirectoryEntryRaw.read iterator.buffer iterator.idx).entrySize }

theorem entry_size_lt (block : Block) (offset : Nat) :
    (DirectoryEntryRaw.read block offset).entrySize < 2 ^ 16 :=
  read_le_lt block (offset + 4) 2

theorem read_buffer_stays (below : iterator.idx < iterator.blockSize)
    (first : iterator.bufferIdx = 0) :
    readBuffer iterator = .ok iterator.idx iterator := by
  change (if iterator.idx / iterator.blockSize ≠ iterator.bufferIdx then _ else _ : OnIterator Nat)
    iterator = _
  rw [if_neg (by rw [first, Nat.div_eq_of_lt below]; simp)]
  change EStateM.Result.ok (iterator.idx % iterator.blockSize) iterator = _
  rw [Nat.mod_eq_of_lt below]

theorem succeeds_ok {Value : Type} {operation : OnIterator Value} {value : Value}
    {after : DirectoryIterator}
    (done : operation iterator = .ok value after) : succeeds operation iterator = .ok
    (some value) after := by
  unfold succeeds
  rw [done]

theorem loaded_holding (on : DirectoryOn volume inode) (loaded : iterator.Loaded volume inode) :
    iterator.Holding (firstBlock volume inode) := by
  have length := length_first_block on
  refine ⟨loaded.buffer, loaded.bufferIdx, ?_, ?_⟩
  · rw [length, loaded_block_size loaded]
  · rw [length]
    exact on.mounted.small

theorem next_loop_inside (holding : iterator.Holding block) (below : iterator.idx < iterator.size)
    (inBlock : InBlock iterator.haveTypeField block iterator.idx) (rounds : Nat) :
    nextLoop (rounds + 1) iterator =
      if (DirectoryEntryRaw.read block iterator.idx).inode ≠ 0 then
        .ok (some (entryAt iterator.haveTypeField block iterator.lastEntryOffset iterator.idx))
          { iterator.passed with lastEntryOffset := some iterator.idx }
      else if (DirectoryEntryRaw.read block iterator.idx).entrySize = 0 then
        .ok none iterator.passed
      else
        nextLoop rounds iterator.passed := by
  have length := holding.length
  have small := holding.small
  have eight : DirectoryEntryRaw.size = 8 := rfl
  unfold InBlock at inBlock
  have read : succeeds readBuffer iterator = .ok (some iterator.idx) iterator :=
    succeeds_ok (read_buffer_stays (by omega) holding.bufferIdx)
  have header : readHeader iterator.idx iterator =
      .ok (DirectoryEntryRaw.read block iterator.idx) iterator := by
    change (if iterator.idx + DirectoryEntryRaw.size ≤ iterator.buffer.length then _ else _ :
      OnIterator DirectoryEntryRaw) iterator = _
    rw [holding.buffer, if_pos (by omega)]
    rfl
  have moved : add64 iterator.idx (DirectoryEntryRaw.read block iterator.idx).entrySize =
      iterator.passed.idx := by
    have short := entry_size_lt block iterator.idx
    unfold passed
    rw [holding.buffer]
    exact Nat.mod_eq_of_lt (by omega)
  have name : getSlice iterator.buffer (iterator.idx + DirectoryEntryRaw.size) (iterator.idx +
      DirectoryEntryRaw.size +
        (DirectoryEntryRaw.read block iterator.idx).nameLen iterator.haveTypeField) =
      some ((block.drop (iterator.idx + DirectoryEntryRaw.size)).take
        ((DirectoryEntryRaw.read block iterator.idx).nameLen iterator.haveTypeField)) := by
    rw [holding.buffer, get_slice_eq (by omega) inBlock, Nat.add_sub_cancel_left]
  change (if iterator.idx ≥ iterator.size then
    _ else _ : OnIterator (Option DirectoryIteratorEntry)) iterator = _
  rw [if_neg (Nat.not_le.mpr below)]
  rw [state_bind_ok read]
  change (readHeader iterator.idx >>= _ : OnIterator (Option DirectoryIteratorEntry)) iterator = _
  rw [state_bind_ok header]
  change (sliced (getSlice iterator.buffer (iterator.idx + DirectoryEntryRaw.size) _) >>= _ :
    OnIterator (Option DirectoryIteratorEntry)) iterator = _
  rw [name, state_bind_ok (rfl : sliced (some _) iterator = .ok _ iterator)]
  change (if (DirectoryEntryRaw.read block iterator.idx).inode ≠ 0 then _ else _ :
    OnIterator (Option DirectoryIteratorEntry)) { iterator with idx := add64 iterator.idx _ } = _
  rw [moved]
  split_ifs
  · rfl
  · rfl
  · rfl

theorem read_buffer_length (on : DirectoryOn volume inode) (loaded : iterator.Loaded volume inode) :
    ∃ value after, readBuffer iterator = .ok value after ∧
      after.buffer.length = volume.blockSize := by
  have length := length_first_block on
  by_cases stays : iterator.idx / iterator.blockSize = iterator.bufferIdx
  · refine ⟨iterator.idx % iterator.blockSize, iterator, ?_, by rw [loaded.buffer, length]⟩
    change (if iterator.idx / iterator.blockSize ≠ iterator.bufferIdx then _ else _ : OnIterator
      Nat) iterator = _
    rw [if_neg (not_not.mpr stays)]
    rfl
  · obtain ⟨result, handle, read, rfl, -⟩ :=
      yields_ok (Handle.read_spec iterator.buffer (.inl loaded.stands) loaded.linked)
    refine ⟨_, _, read_buffer_moves stays read, ?_⟩
    obtain ⟨k, info, settled, -⟩ := loaded.stands
    have bounded := settled.bounded
    have slice := Handle.length_slice settled.cursor
      (show iterator.handle.offset + min
        iterator.buffer.length (iterator.handle.size - iterator.handle.offset) ≤
        iterator.handle.size by omega)
    change (splice iterator.buffer 0 _).length = _
    rw [length_splice (by rw [slice]; omega), loaded.buffer, length]

theorem next_loop_outside (on : DirectoryOn volume inode) (loaded : iterator.Loaded volume inode)
    (below : iterator.idx < inode.sizeLo)
    (outside : ¬InBlock iterator.haveTypeField (firstBlock volume inode) iterator.idx)
    (rounds : Nat) :
    ¬Ended (nextLoop rounds iterator) := by
  have length := length_first_block on
  have blockSize := loaded_block_size loaded
  have eight : DirectoryEntryRaw.size = 8 := rfl
  cases rounds with
  | zero =>
      intro ended
      cases ended
  | succ rounds =>
      obtain ⟨value, after, read, size⟩ := read_buffer_length on loaded
      change ¬Ended ((if iterator.idx ≥ iterator.size then _ else _ :
        OnIterator (Option DirectoryIteratorEntry)) iterator)
      rw [if_neg (by rw [loaded.size]; omega)]
      rw [state_bind_ok (succeeds_ok read)]
      change ¬Ended ((readHeader iterator.idx >>=
        _ : OnIterator (Option DirectoryIteratorEntry)) after)
      by_cases header : iterator.idx + DirectoryEntryRaw.size ≤ volume.blockSize
      · -- the name is what lies behind the block
        rw [read_buffer_stays (by omega) loaded.bufferIdx] at read
        obtain ⟨rfl, rfl⟩ : iterator.idx = value ∧ iterator = after := by
          injection read with same still
          exact ⟨same, still⟩
        have readsHeader : readHeader iterator.idx iterator =
            .ok (DirectoryEntryRaw.read (firstBlock volume inode) iterator.idx) iterator := by
          change (if iterator.idx + DirectoryEntryRaw.size ≤ iterator.buffer.length then _ else _ :
            OnIterator DirectoryEntryRaw) iterator = _
          rw [loaded.buffer, if_pos (by omega)]
          rfl
        rw [state_bind_ok readsHeader]
        unfold InBlock at outside
        have name : getSlice iterator.buffer (iterator.idx + DirectoryEntryRaw.size) (iterator.idx +
            DirectoryEntryRaw.size +
              (DirectoryEntryRaw.read (firstBlock volume inode) iterator.idx).nameLen
                iterator.haveTypeField) =
            none := by
          rw [getSlice, if_neg (by rw [loaded.buffer]; omega)]
        change ¬Ended ((sliced (getSlice
          iterator.buffer (iterator.idx + DirectoryEntryRaw.size) _) >>= _ :
          OnIterator (Option DirectoryIteratorEntry)) iterator)
        rw [name, state_bind_error (rfl : sliced none iterator = .error (.failure .panic) iterator)]
        intro ended
        cases ended
      · have stops : readHeader iterator.idx after = .error .outside after := by
          change (if iterator.idx + DirectoryEntryRaw.size ≤ after.buffer.length then _ else _ :
            OnIterator DirectoryEntryRaw) after = _
          rw [size, if_neg header]
          rfl
        rw [state_bind_error stops]
        intro ended
        cases ended

theorem loaded_passed (loaded : iterator.Loaded volume inode) :
    iterator.passed.Loaded volume inode :=
  ⟨loaded.stands, loaded.linked, loaded.file, loaded.offset, loaded.buffer, loaded.bufferIdx,
    loaded.size⟩

theorem loaded_last (loaded : iterator.Loaded volume inode) (last : Option Nat) :
    { iterator with lastEntryOffset := last }.Loaded volume inode :=
  ⟨loaded.stands, loaded.linked, loaded.file, loaded.offset, loaded.buffer, loaded.bufferIdx,
    loaded.size⟩

/-- The first call of `next` does what a call with the first block in the buffer does. -/
theorem next_first (on : DirectoryOn volume inode) (whole : inode.sizeLo % volume.blockSize = 0)
    (starts : iterator.Starts volume inode) (nonempty : 0 < inode.sizeLo) :
    ∃ loaded : DirectoryIterator, next iterator = next loaded ∧ loaded.Loaded volume inode ∧
      loaded.idx = 0 ∧
      loaded.haveTypeField = iterator.haveTypeField ∧ loaded.lastEntryOffset = none := by
  obtain ⟨handle, read, loaded⟩ := read_first on whole starts nonempty
  have again := succeeds_ok (read_buffer_stays (by
    rw [loaded_block_size loaded]
    change iterator.idx < _
    rw [starts.idx]
    exact on.mounted.stores.positive) loaded.bufferIdx)
  refine ⟨_, ?_, loaded, starts.idx, rfl, starts.last⟩
  have here : ¬iterator.idx ≥ iterator.size := by
    rw [starts.idx, starts.size]
    omega
  change (if iterator.idx ≥ iterator.size then
    _ else _ : OnIterator (Option DirectoryIteratorEntry)) iterator =
    (if iterator.idx ≥ iterator.size then _ else _ : OnIterator (Option DirectoryIteratorEntry)) _
  rw [if_neg here]
  rw [state_bind_ok (succeeds_ok read), state_bind_ok again]
  simp only [starts.idx]

theorem next_empty (done : iterator.idx ≥ iterator.size) (rounds : Nat) :
    nextLoop (rounds + 1) iterator = .ok none iterator := by
  change (if iterator.idx ≥ iterator.size then
    _ else _ : OnIterator (Option DirectoryIteratorEntry)) iterator = _
  rw [if_pos done]
  rfl

/-- The entry that a call of `next` found, with the iterator behind it. -/
structure Found (volume : Ext2Volume) (inode : Inode) (iterator : DirectoryIterator)
    (entry : DirectoryIteratorEntry) (after : DirectoryIterator) : Prop where
  loaded : after.Loaded volume inode
  passes : Passes iterator.haveTypeField (firstBlock volume inode)
    inode.sizeLo iterator.idx entry.offset
  below : entry.offset < inode.sizeLo
  isEntry : entry =
    entryAt iterator.haveTypeField (firstBlock volume inode) iterator.lastEntryOffset entry.offset
  live : entry.entry.inode ≠ 0
  idx : after.idx = entry.offset + entry.recLen
  last : after.lastEntryOffset = some entry.offset
  haveTypeField : after.haveTypeField = iterator.haveTypeField

theorem next_loop_sound (on : DirectoryOn volume inode) (rounds : Nat)
    (loaded : iterator.Loaded volume inode) (enough : inode.sizeLo - iterator.idx < rounds)
    (sound : SoundWalk iterator.haveTypeField (firstBlock volume inode) inode.sizeLo iterator.idx) :
    (∃ after, nextLoop rounds iterator = .ok none after) ∨
      ∃ entry after, nextLoop rounds iterator = .ok (some entry) after ∧
        Found volume inode iterator entry after := by
  induction rounds generalizing iterator with
  | zero => omega
  | succ rounds ih =>
      by_cases below : iterator.idx < inode.sizeLo
      · obtain ⟨inBlock, -⟩ := sound_here sound below
        rw [next_loop_inside (loaded_holding on loaded) (by rw [loaded.size]; exact below) inBlock]
        by_cases live : (DirectoryEntryRaw.read (firstBlock volume inode) iterator.idx).inode ≠ 0
        · rw [if_pos live]
          refine .inr ⟨_, _, rfl, ⟨loaded_last (loaded_passed loaded) _, .here, below, rfl, live,
            ?_, rfl, rfl⟩⟩
          unfold passed
          rw [loaded.buffer]
          rfl
        · rw [if_neg live]
          by_cases stops : (DirectoryEntryRaw.read (firstBlock volume inode)
            iterator.idx).entrySize = 0
          · rw [if_pos stops]
            exact .inl ⟨_, rfl⟩
          · rw [if_neg stops]
            have moved : iterator.passed.idx = iterator.idx +
                (DirectoryEntryRaw.read (firstBlock volume inode) iterator.idx).entrySize := by
              unfold passed
              rw [loaded.buffer]
            have rest := sound_step sound below stops
            rw [← moved] at rest
            rcases ih (loaded_passed loaded) (by omega)
              rest with none | ⟨entry, after, found, holds⟩
            · exact .inl none
            · have passes := holds.passes
              rw [moved] at passes
              exact .inr ⟨entry, after, found,
                ⟨holds.loaded, .step below inBlock stops passes, holds.below,
                holds.isEntry, holds.live, holds.idx, holds.last, holds.haveTypeField⟩⟩
      · rw [next_empty (by rw [loaded.size]; omega)]
        exact .inl ⟨_, rfl⟩

theorem passes_trans {first middle last : Nat}
    (passes : Passes haveTypeField block size first middle)
    (later : Passes haveTypeField block size middle last) : Passes haveTypeField block size first
    last := by
  induction passes with
  | here => exact later
  | step below inBlock moves _ ih => exact .step below inBlock moves (ih later)

theorem passes_le {first last : Nat} (passes : Passes haveTypeField block size first last) :
    first ≤ last := by
  induction passes with
  | here => exact Nat.le_refl _
  | step below inBlock moves _ ih => omega

theorem sound_later {first last : Nat} (sound : SoundWalk haveTypeField block size first)
    (passes : Passes haveTypeField block size first last) : SoundWalk haveTypeField block size
    last := by
  intro place later
  exact sound place (passes_trans passes later)

/-- Behind a live record the walk goes on as before, nearer to the end. -/
theorem found_sound {entry : DirectoryIteratorEntry} {after : DirectoryIterator}
    (found : Found volume inode iterator entry after)
    (sound : SoundWalk iterator.haveTypeField (firstBlock volume inode) inode.sizeLo iterator.idx) :
    SoundWalk after.haveTypeField (firstBlock volume inode) inode.sizeLo after.idx ∧
      iterator.idx < after.idx := by
  have there := sound_later sound found.passes
  obtain ⟨-, moves⟩ := sound_here there found.below
  have recLen : entry.recLen = (DirectoryEntryRaw.read (firstBlock volume inode)
      entry.offset).entrySize := by
    rw [found.isEntry]
    rfl
  have live : (DirectoryEntryRaw.read (firstBlock volume inode) entry.offset).inode ≠ 0 := by
    have live := found.live
    rw [found.isEntry] at live
    exact live
  have ordered := passes_le found.passes
  have nonzero := moves live
  rw [found.idx, found.haveTypeField, recLen]
  exact ⟨sound_step there found.below nonzero, by omega⟩

theorem entries_succ (rounds : Nat) :
    entries (rounds + 1) = (next >>= fun entry =>
      match entry with
      | none => pure []
      | some entry => do return entry.entry :: (← entries rounds)) :=
  rfl

theorem entries_sound (on : DirectoryOn volume inode) (rounds : Nat)
    (loaded : iterator.Loaded volume inode) (enough : inode.sizeLo - iterator.idx < rounds)
    (sound : SoundWalk iterator.haveTypeField (firstBlock volume inode) inode.sizeLo iterator.idx) :
    ∃ found after, entries rounds iterator = .ok found after := by
  induction rounds generalizing iterator with
  | zero => omega
  | succ rounds ih =>
      have calls := next_loop_sound on (iterator.size + 1) loaded (by rw [loaded.size]; omega) sound
      rw [entries_succ]
      rcases calls with ⟨after, called⟩ | ⟨entry, after, called, found⟩
      · rw [state_bind_ok (show next iterator = .ok none after from called)]
        exact ⟨_, _, rfl⟩
      · rw [state_bind_ok (show next iterator = .ok (some entry) after from called)]
        obtain ⟨soundAfter, moved⟩ := found_sound found sound
        have ordered := passes_le found.passes
        have below := found.below
        obtain ⟨rest, last, collected⟩ := ih found.loaded (by omega) soundAfter
        refine ⟨entry.entry :: rest, last, ?_⟩
        change (entries rounds >>= _ : OnIterator (List DirectoryEntry)) after = _
        rw [state_bind_ok collected]
        rfl

theorem next_loop_unsound (on : DirectoryOn volume inode) (rounds : Nat)
    (loaded : iterator.Loaded volume inode)
    (unsound : ¬SoundWalk iterator.haveTypeField (firstBlock volume inode)
      inode.sizeLo iterator.idx) :
    ¬Ended (nextLoop rounds iterator) ∨
      ∃ entry after, nextLoop rounds iterator = .ok (some entry) after ∧ after.Loaded volume inode ∧
        ¬SoundWalk after.haveTypeField (firstBlock volume inode) inode.sizeLo after.idx := by
  induction rounds generalizing iterator with
  | zero => exact .inl nofun
  | succ rounds ih =>
      have below : iterator.idx < inode.sizeLo := by
        by_contra beyond
        apply unsound
        intro last passes before
        have ordered := passes_le passes
        omega
      by_cases inBlock : InBlock iterator.haveTypeField (firstBlock volume inode) iterator.idx
      · rw [next_loop_inside (loaded_holding on loaded) (by rw [loaded.size]; exact below) inBlock]
        have moved : iterator.passed.idx = iterator.idx +
            (DirectoryEntryRaw.read (firstBlock volume inode) iterator.idx).entrySize := by
          unfold passed
          rw [loaded.buffer]
        by_cases live : (DirectoryEntryRaw.read (firstBlock volume inode) iterator.idx).inode ≠ 0
        · rw [if_pos live]
          refine .inr ⟨_, _, rfl, loaded_last (loaded_passed loaded) _, ?_⟩
          change ¬SoundWalk iterator.haveTypeField _ _ iterator.passed.idx
          rw [moved]
          by_cases stops : (DirectoryEntryRaw.read (firstBlock volume inode)
            iterator.idx).entrySize = 0
          · rw [stops]
            exact unsound
          · intro sound
            exact unsound (sound_of_step inBlock (fun _ => stops) fun _ => sound)
        · rw [if_neg live]
          by_cases stops : (DirectoryEntryRaw.read (firstBlock volume inode)
            iterator.idx).entrySize = 0
          · exact absurd (sound_of_step inBlock (fun isLive => absurd isLive live)
              fun moves => absurd stops moves) unsound
          · rw [if_neg stops]
            apply ih (loaded_passed loaded)
            rw [moved]
            intro sound
            exact unsound (sound_of_step inBlock (fun isLive => absurd isLive live) fun _ => sound)
      · exact .inl (next_loop_outside on loaded below inBlock _)

theorem ended_of_bind {Value Result : Type} {first : OnIterator Value}
    {rest : Value → OnIterator Result}
    (ended : Ended ((first >>= rest) iterator)) : Ended (first iterator) := by
  cases outcome : first iterator with
  | ok value after => exact .ok
  | error stop after =>
      rw [state_bind_error outcome] at ended
      cases ended
      exact .error

theorem entries_unsound (on : DirectoryOn volume inode) (rounds : Nat)
    (loaded : iterator.Loaded volume inode)
    (unsound : ¬SoundWalk iterator.haveTypeField (firstBlock volume inode)
      inode.sizeLo iterator.idx) :
    ¬Ended (entries rounds iterator) := by
  induction rounds generalizing iterator with
  | zero => exact nofun
  | succ rounds ih =>
      intro ended
      rw [entries_succ] at ended
      rcases next_loop_unsound on (iterator.size + 1)
        loaded unsound with stuck | ⟨entry, after, called, follows⟩
      · exact stuck (ended_of_bind ended)
      · rw [state_bind_ok (show next iterator = .ok (some entry) after from called)] at ended
        obtain ⟨loadedAfter, unsoundAfter⟩ := follows
        exact ih loadedAfter unsoundAfter (ended_of_bind ended)

end DirectoryIterator

end Campix.Ext2
