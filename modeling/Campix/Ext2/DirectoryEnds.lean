import Campix.Ext2.Listing
import Campix.Ext2.Rewrites

/-!
# Directories with any bytes

`Directory::new` and `Directory::delete_entry` walk along whatever lengths the first block
of the directory has. `delete_entry` changes records that the walk has passed, so that it
stays in its buffer wherever the walk does.
-/

namespace Campix.Ext2

open Lib.Fallible Lib.Slice Drivers

set_option autoImplicit false

namespace DirectoryIterator

variable {volume : Ext2Volume} {inode : Inode} {iterator : DirectoryIterator} {haveTypeField : Bool}
  {entry : DirectoryIteratorEntry} {block : Block}

/-- The header of the deleted record; its length goes to the previous one, if there is one. -/
def deletedRaw (raw : DirectoryEntryRaw) (coalesced : Bool) : DirectoryEntryRaw where
  inode := 0
  entrySize := if coalesced then 0 else raw.entrySize
  lenLo := 0
  typeOrLenHi := 0

/-- The block without the name and the number of the deleted record. -/
def erased (haveTypeField : Bool) (block : Block) (entry : DirectoryIteratorEntry) : Block :=
  let raw := DirectoryEntryRaw.read block entry.offset
  let unnamed := splice block (entry.offset + DirectoryEntryRaw.size)
    (List.replicate (raw.nameLen haveTypeField) 0)
  splice unnamed entry.offset (deletedRaw raw entry.prevEntryOffset.isSome).bytes

/-- The header of the previous record with the length of the deleted one, if the sum fits. -/
def coalescedRaw (raw : DirectoryEntryRaw) (recLen : Nat) : DirectoryEntryRaw :=
  if raw.entrySize + recLen < 2 ^ 16 then { raw with entrySize := raw.entrySize + recLen } else raw

def deleted (haveTypeField : Bool) (block : Block) (entry : DirectoryIteratorEntry) : Block :=
  match entry.prevEntryOffset with
  | none => erased haveTypeField block entry
  | some previous =>
      splice (erased haveTypeField block entry) previous
        (coalescedRaw (DirectoryEntryRaw.read (erased haveTypeField block entry) previous)
          entry.recLen).bytes

theorem read_header_eq {offset : Nat}
    (inside : offset + DirectoryEntryRaw.size ≤ iterator.buffer.length) :
    readHeader offset iterator = .ok (DirectoryEntryRaw.read iterator.buffer offset) iterator := by
  change (if offset + DirectoryEntryRaw.size ≤ iterator.buffer.length then _ else _ :
    OnIterator DirectoryEntryRaw) iterator = _
  rw [if_pos inside]
  rfl

theorem write_header_eq {offset : Nat} (raw : DirectoryEntryRaw)
    (inside : offset + DirectoryEntryRaw.size ≤ iterator.buffer.length) :
    writeHeader offset raw iterator = .ok ()
      { iterator with buffer := splice iterator.buffer offset raw.bytes } := by
  change (if offset + DirectoryEntryRaw.size ≤ iterator.buffer.length then _ else _ : OnIterator
    Unit) iterator = _
  rw [if_pos inside]
  rfl

theorem put_name_eq {offset : Nat} {name : List UInt8}
    (inside : offset + name.length ≤ iterator.buffer.length) :
    putName offset name iterator = .ok ()
      { iterator with buffer := splice iterator.buffer offset name } := by
  have copy := copy_from_slice_eq (show name.length = offset + name.length - offset by omega)
    (Nat.le_add_right offset name.length) inside
  unfold putName
  change (sliced (copyFromSlice iterator.buffer offset (offset + name.length) name) >>= _ :
    OnIterator Unit) iterator = _
  rw [copy, state_bind_ok (rfl : sliced (some _) iterator = .ok _ iterator)]
  rfl

section Deleted

variable (holding : iterator.Holding block)
  (inBlock : InBlock iterator.haveTypeField block entry.offset)
  (before : ∀ previous, entry.prevEntryOffset = some previous →
    previous + DirectoryEntryRaw.size ≤ block.length)

include inBlock in
theorem length_erased : (erased iterator.haveTypeField block entry).length = block.length := by
  have eight : DirectoryEntryRaw.size = 8 := rfl
  unfold InBlock at inBlock
  unfold erased
  rw [length_splice, length_splice]
  · rw [List.length_replicate]
    exact inBlock
  · rw [length_splice]
    · rw [length_raw_bytes]
      omega
    · rw [List.length_replicate]
      exact inBlock

include inBlock before in
theorem length_deleted : (deleted iterator.haveTypeField block entry).length = block.length := by
  have length := length_erased inBlock
  unfold deleted
  cases previous : entry.prevEntryOffset with
  | none => exact length
  | some place =>
      dsimp only
      rw [length_splice, length]
      rw [length_raw_bytes, length]
      exact before place previous

include holding inBlock before

omit inBlock in
theorem previous_in_buffer : iterator.previousInBuffer entry = entry.prevEntryOffset := by
  have eight : DirectoryEntryRaw.size = 8 := rfl
  unfold previousInBuffer
  cases place : entry.prevEntryOffset with
  | none => rfl
  | some previous =>
      have here := before previous place
      have first : previous / iterator.blockSize = iterator.bufferIdx := by
        rw [← holding.length, holding.bufferIdx, Nat.div_eq_of_lt (by omega)]
      exact Option.filter_eq_some_iff.mpr ⟨rfl, by rw [first]; exact decide_eq_true rfl⟩

theorem delete_entry_eq : ∃ idx, deleteEntry entry iterator =
    deleteDone entry { iterator with buffer := deleted iterator.haveTypeField block entry, idx := idx } := by
  have eight : DirectoryEntryRaw.size = 8 := rfl
  have inside := inBlock
  unfold InBlock at inside
  obtain ⟨moved, isMoved⟩ : ∃ moved : DirectoryIterator,
      moved = { iterator with idx := entry.offset } := ⟨_, rfl⟩
  have there : moved.Holding block := by
    rw [isMoved]
    exact ⟨holding.buffer, holding.bufferIdx, holding.length, holding.small⟩
  have idx : moved.idx = entry.offset := by rw [isMoved]
  have field : moved.haveTypeField = iterator.haveTypeField := by rw [isMoved]
  have stays : readBuffer moved = .ok entry.offset moved := by
    rw [← idx]
    exact read_buffer_stays (by rw [idx, ← there.length]; omega) there.bufferIdx
  have header : readHeader entry.offset moved = .ok (DirectoryEntryRaw.read block entry.offset)
      moved := by
    rw [read_header_eq (by rw [there.buffer]; omega), there.buffer]
  generalize name : List.replicate
    ((DirectoryEntryRaw.read block entry.offset).nameLen iterator.haveTypeField) (0 : UInt8) = zeros
  have zerosLength : zeros.length = (DirectoryEntryRaw.read block entry.offset).nameLen
      iterator.haveTypeField := by
    rw [← name, List.length_replicate]
  have puts : putName (entry.offset + DirectoryEntryRaw.size) zeros moved =
      .ok () { moved with buffer := splice block (entry.offset + DirectoryEntryRaw.size) zeros } := by
    rw [put_name_eq (by rw [there.buffer, zerosLength]; omega), there.buffer]
  have length : (splice block (entry.offset + DirectoryEntryRaw.size) zeros).length =
      block.length :=
    length_splice (by rw [zerosLength]; exact inside)
  have erases : splice (splice block (entry.offset + DirectoryEntryRaw.size) zeros) entry.offset
      (deletedRaw (DirectoryEntryRaw.read block entry.offset) entry.prevEntryOffset.isSome).bytes =
        erased iterator.haveTypeField block entry := by
    unfold erased
    dsimp only
    rw [name]
  have writes : writeHeader entry.offset
      (deletedRaw (DirectoryEntryRaw.read block entry.offset) entry.prevEntryOffset.isSome)
        { moved with buffer := splice block (entry.offset + DirectoryEntryRaw.size) zeros } =
      .ok () { moved with buffer := erased iterator.haveTypeField block entry } := by
    rw [← erases]
    exact write_header_eq _ (show entry.offset + DirectoryEntryRaw.size ≤
      (splice block (entry.offset + DirectoryEntryRaw.size) zeros).length by omega)
  have begins : deleteEntry entry iterator = (match entry.prevEntryOffset with
      | none => deleteDone entry
      | some previous => do
          modify fun self => { self with idx := previous }
          let prevEntryRaw ← readHeader (previous % moved.blockSize)
          let recLen := prevEntryRaw.entrySize + entry.recLen
          writeHeader (previous % moved.blockSize)
            (if recLen < 2 ^ 16 then { prevEntryRaw with entrySize := recLen } else prevEntryRaw)
          deleteDone entry : OnIterator Unit)
        { moved with buffer := erased iterator.haveTypeField block entry } := by
    generalize ({ moved with buffer := erased iterator.haveTypeField block entry } :
      DirectoryIterator) = done at writes
    change (readBuffer >>= _ : OnIterator Unit) { iterator with idx := entry.offset } = _
    rw [← isMoved, state_bind_ok stays]
    change (readHeader moved.idx >>= _ : OnIterator Unit) moved = _
    rw [idx, state_bind_ok header]
    rw [field, name, state_bind_ok puts]
    rw [previous_in_buffer there before]
    change (writeHeader entry.offset (deletedRaw (DirectoryEntryRaw.read block entry.offset)
      entry.prevEntryOffset.isSome) >>= _ : OnIterator Unit) _ = _
    exact state_bind_ok writes
  rw [begins]
  unfold deleted
  cases place : entry.prevEntryOffset with
  | none => exact ⟨entry.offset, by rw [isMoved]⟩
  | some previous =>
      have room := before previous place
      have length := length_erased inBlock
      have local_ : previous % moved.blockSize = previous := by
        rw [← there.length, Nat.mod_eq_of_lt (by omega)]
      generalize erased iterator.haveTypeField block entry = bytes at length
      refine ⟨previous, ?_⟩
      dsimp only
      change (readHeader (previous % moved.blockSize) >>= fun prevEntryRaw =>
        writeHeader (previous % moved.blockSize) (coalescedRaw prevEntryRaw entry.recLen) >>=
          fun _ =>
          deleteDone entry : OnIterator Unit) { moved with buffer := bytes, idx := previous } = _
      rw [local_, state_bind_ok (read_header_eq (show previous + _ ≤ bytes.length by omega)),
        state_bind_ok (write_header_eq _ (show previous + _ ≤ bytes.length by omega)), isMoved]

end Deleted

theorem poised_with_buffer {buffer : Block} {idx : Nat} (poised : iterator.Poised volume inode)
    (length : buffer.length = volume.blockSize) :
    { iterator with buffer := buffer, idx := idx }.Poised volume inode :=
  ⟨poised.idle, poised.linked, poised.file, length, poised.bufferIdx⟩

def LastInside (volume : Ext2Volume) (iterator : DirectoryIterator) : Prop :=
  ∀ previous, iterator.lastEntryOffset = some previous →
    previous + DirectoryEntryRaw.size ≤ volume.blockSize

section Loop

variable (on : DirectoryOn volume inode) (whole : inode.sizeLo % volume.blockSize = 0)
  (nonempty : 0 < inode.sizeLo) (sole : (volumeFile volume inode).Sole)

include on whole nonempty sole

theorem delete_entry_ends (loaded : iterator.Loaded volume inode)
    (inBlock : InBlock iterator.haveTypeField (firstBlock volume inode) entry.offset)
    (before : ∀ previous, entry.prevEntryOffset = some previous →
      previous + DirectoryEntryRaw.size ≤ volume.blockSize) : Ended
        (deleteEntry entry iterator) := by
  have length := length_first_block on
  rw [← length] at before
  obtain ⟨idx, deletes⟩ := delete_entry_eq (loaded_holding on loaded) inBlock before
  have poised := @poised_with_buffer volume inode iterator
    (deleted iterator.haveTypeField (firstBlock volume inode) entry) idx
      (poised_of_loaded on loaded)
    ((length_deleted inBlock before).trans length)
  rw [deletes]
  cases readOnly : volume.readOnly with
  | false =>
      obtain ⟨after, done, -, -⟩ := delete_done_spec on whole nonempty sole poised readOnly entry
      rw [done]
      exact .ok
  | true =>
      obtain ⟨after, refused⟩ := delete_done_locked on whole nonempty sole poised readOnly entry
      rw [refused]
      exact .error

theorem delete_loop_sound (entryInode rounds : Nat) (loaded : iterator.Loaded volume inode)
    (enough : inode.sizeLo - iterator.idx < rounds)
    (sound : SoundWalk iterator.haveTypeField (firstBlock volume inode) inode.sizeLo iterator.idx)
    (last : LastInside volume iterator) : Ended (deleteLoop entryInode rounds iterator) := by
  induction rounds generalizing iterator with
  | zero => omega
  | succ rounds ih =>
      have calls := next_loop_sound on (iterator.size + 1) loaded (by rw [loaded.size]; omega) sound
      change Ended ((next >>= _ : OnIterator Unit) iterator)
      rcases calls with ⟨after, called⟩ | ⟨entry, after, called, found⟩
      · rw [state_bind_ok (show next iterator = .ok none after from called)]
        exact .error
      · rw [state_bind_ok (show next iterator = .ok (some entry) after from called)]
        have inBlock := (sound_here (sound_later sound found.passes) found.below).1
        have inside : entry.offset + DirectoryEntryRaw.size ≤ volume.blockSize := by
          rw [← length_first_block on]
          exact Nat.le_trans (Nat.le_add_right ..) inBlock
        change Ended ((if entry.entry.inode =
          entryInode then deleteEntry entry else deleteLoop entryInode rounds :
          OnIterator Unit) after)
        by_cases matches_ : entry.entry.inode = entryInode
        · rw [if_pos matches_]
          apply delete_entry_ends on whole nonempty sole found.loaded
          · rw [found.haveTypeField]
            exact inBlock
          · intro previous place
            rw [found.isEntry] at place
            exact last previous place
        · rw [if_neg matches_]
          obtain ⟨soundAfter, moved⟩ := found_sound found sound
          have ordered := passes_le found.passes
          have below := found.below
          apply ih found.loaded (by omega) soundAfter
          intro previous place
          rw [found.last] at place
          cases place
          exact inside

end Loop

end DirectoryIterator

/-- Enough rounds bring both calls to an end, whatever the heap holds, and every access to
the buffer is in range. -/
def Ends (haveTypeField : Bool) (volume : Ext2Volume) (inode : Inode) : Prop :=
  ∀ heap : Buffers, heap.Sized volume.blockSize →
    (∀ openMode, ∃ rounds, Ended (Directory.new haveTypeField inode openMode heap rounds volume)) ∧
      ∀ entryInode, ∃ rounds, Ended (Directory.deleteEntry haveTypeField inode entryInode heap
        rounds volume)

variable {haveTypeField : Bool} {volume : Ext2Volume} {inode : Inode}

theorem with_iterator_ended {Value : Type} {openMode : Nat} {heap : Buffers}
    {operation : OnIterator Value}
    {iterator : DirectoryIterator}
    (made : DirectoryIterator.new volume haveTypeField inode openMode heap = .ok iterator)
    (ended : Ended (operation iterator)) :
    Ended (DirectoryIterator.withIterator haveTypeField inode openMode heap operation volume) := by
  cases outcome : operation iterator with
  | ok value after =>
      rw [DirectoryIterator.with_iterator_ok made outcome]
      exact .ok
  | error stop after =>
      rw [outcome] at ended
      rw [DirectoryIterator.with_iterator_error made outcome]
      cases ended
      exact .error

theorem directory_new_of_ended {openMode rounds : Nat} {heap : Buffers}
    {iterator : DirectoryIterator}
    (made : DirectoryIterator.new volume haveTypeField inode openMode heap = .ok iterator)
    (ended : Ended (DirectoryIterator.entries rounds iterator)) :
    Ended (Directory.new haveTypeField inode openMode heap rounds volume) := by
  have called := with_iterator_ended made ended
  change Ended ((DirectoryIterator.withIterator haveTypeField inode openMode heap
    (DirectoryIterator.entries rounds) >>= _ : EStateM Stop Ext2Volume Directory) volume)
  cases outcome : DirectoryIterator.withIterator haveTypeField inode openMode heap
      (DirectoryIterator.entries rounds) volume with
  | ok entries after =>
      rw [state_bind_ok outcome]
      exact .ok
  | error stop after =>
      rw [state_bind_error outcome]
      rw [outcome] at called
      cases called
      exact .error

/-- A size that is no multiple of the block size is an error. -/
theorem with_iterator_ragged {Value : Type} {openMode : Nat} {heap : Buffers}
    {operation : OnIterator Value}
    (on : DirectoryOn volume inode) (ragged : inode.sizeLo % volume.blockSize ≠ 0) :
    DirectoryIterator.withIterator haveTypeField inode openMode heap operation volume =
      .error (.failure (.error .invalidDataStructure)) volume := by
  have positive : volume.blockSize ≠ 0 := on.mounted.stores.positive.ne'
  have made : DirectoryIterator.new volume haveTypeField inode openMode heap =
      .error (.error .invalidDataStructure) := by
    simp only [DirectoryIterator.new, DirectoryIterator.get_size_eq on, if_neg positive,
      ragged, ne_eq,
      not_false_eq_true, if_true]
  simp only [DirectoryIterator.withIterator, made]

section SoundWalk

variable (on : DirectoryOn volume inode) (sole : (volumeFile volume inode).Sole)

include on

theorem new_ends (sound : inode.sizeLo % volume.blockSize = 0 →
      SoundWalk haveTypeField (firstBlock volume inode) inode.sizeLo 0) (openMode : Nat)
        {heap : Buffers}
    (sized : heap.Sized volume.blockSize) :
    ∃ rounds, Ended (Directory.new haveTypeField inode openMode heap rounds volume) := by
  by_cases whole : inode.sizeLo % volume.blockSize = 0
  · obtain ⟨iterator, made, starts, field⟩ :=
      DirectoryIterator.new_starts haveTypeField openMode on whole sized
    by_cases empty : inode.sizeLo = 0
    · have done : DirectoryIterator.next iterator = .ok none iterator :=
        DirectoryIterator.next_empty (by rw [starts.size, empty]; exact Nat.zero_le _) iterator.size
      refine ⟨1, directory_new_of_ended made ?_⟩
      rw [DirectoryIterator.entries_succ, state_bind_ok done]
      exact .ok
    · obtain ⟨loaded, same, isLoaded, start, sameField, -⟩ :=
        DirectoryIterator.next_first on whole starts (by omega)
      obtain ⟨found, after, collected⟩ :=
        DirectoryIterator.entries_sound on (inode.sizeLo + 1) isLoaded (by omega)
        (by rw [start, sameField, field]; exact sound whole)
      rw [DirectoryIterator.entries_succ,
        ← state_bind_congr same, ← DirectoryIterator.entries_succ] at collected
      refine ⟨inode.sizeLo + 1, directory_new_of_ended made ?_⟩
      rw [collected]
      exact .ok
  · refine ⟨0, ?_⟩
    change Ended ((DirectoryIterator.withIterator haveTypeField inode openMode heap
      (DirectoryIterator.entries 0) >>= _ : EStateM Stop Ext2Volume Directory) volume)
    rw [state_bind_error (with_iterator_ragged on whole)]
    exact .error

include sole in
theorem delete_ends (sound : inode.sizeLo % volume.blockSize = 0 →
      SoundWalk haveTypeField (firstBlock volume inode) inode.sizeLo 0) (entryInode : Nat)
        {heap : Buffers}
    (sized : heap.Sized volume.blockSize) :
    ∃ rounds, Ended (Directory.deleteEntry haveTypeField inode entryInode heap rounds volume) := by
  by_cases whole : inode.sizeLo % volume.blockSize = 0
  · obtain ⟨iterator, made, starts, field⟩ :=
      DirectoryIterator.new_starts haveTypeField openModeWrite on whole sized
    by_cases empty : inode.sizeLo = 0
    · have done : DirectoryIterator.next iterator = .ok none iterator :=
        DirectoryIterator.next_empty (by rw [starts.size, empty]; exact Nat.zero_le _) iterator.size
      refine ⟨1, with_iterator_ended made ?_⟩
      change Ended ((DirectoryIterator.next >>= _ : OnIterator Unit) iterator)
      rw [state_bind_ok done]
      exact .error
    · obtain ⟨loaded, same, isLoaded, start, sameField, none_⟩ :=
        DirectoryIterator.next_first on whole starts (by omega)
      have ended := DirectoryIterator.delete_loop_sound on whole (by omega)
        sole entryInode (inode.sizeLo + 1)
        isLoaded (by omega) (by rw [start, sameField, field]; exact sound whole) (by
          intro previous place
          rw [none_] at place
          cases place)
      change Ended ((DirectoryIterator.next >>= _ : OnIterator Unit) loaded) at ended
      rw [← state_bind_congr same] at ended
      exact ⟨inode.sizeLo + 1, with_iterator_ended made ended⟩
  · refine ⟨0, ?_⟩
    change Ended (DirectoryIterator.withIterator haveTypeField inode openModeWrite heap
      (DirectoryIterator.deleteLoop entryInode 0) volume)
    rw [with_iterator_ragged on whole]
    exact .error

end SoundWalk

/-- A listing that ends has met only records that it can go on behind. -/
theorem sound_of_ends (on : DirectoryOn volume inode) (ends : Ends haveTypeField volume inode)
    (whole : inode.sizeLo % volume.blockSize = 0) :
    SoundWalk haveTypeField (firstBlock volume inode) inode.sizeLo 0 := by
  by_contra unsound
  have nonempty : 0 < inode.sizeLo := by
    by_contra empty
    apply unsound
    intro last passes below
    omega
  obtain ⟨lists, -⟩ := ends (blankBuffers volume) (blank_buffers_sized volume)
  obtain ⟨rounds, ended⟩ := lists 0
  obtain ⟨iterator, made, starts, field⟩ :=
    DirectoryIterator.new_starts haveTypeField 0 on whole (blank_buffers_sized volume)
  have ended := directory_new_ended made ended
  cases rounds with
  | zero => cases ended
  | succ rounds =>
      obtain ⟨loaded, same, isLoaded, start, sameField, -⟩ :=
        DirectoryIterator.next_first on whole starts nonempty
      rw [DirectoryIterator.entries_succ,
        state_bind_congr same, ← DirectoryIterator.entries_succ] at ended
      refine DirectoryIterator.entries_unsound on (rounds + 1) isLoaded ?_ ended
      rw [start, sameField, field]
      exact unsound

/-- Both calls end and stay in the buffer if and only if the walk along the lengths of the
first block, which goes up to the size of the directory, meets headers and names of that
block only, and no live record without a length. -/
theorem ends_iff (haveTypeField : Bool) (volume : Ext2Volume) (inode : Inode)
    (on : DirectoryOn volume inode)
    (sole : (volumeFile volume inode).Sole) :
    Ends haveTypeField volume inode ↔
      (inode.sizeLo % volume.blockSize = 0 →
        SoundWalk haveTypeField (firstBlock volume inode) inode.sizeLo 0) := by
  constructor
  · exact fun ends whole => sound_of_ends on ends whole
  · intro sound heap sized
    exact ⟨fun openMode => new_ends on sound openMode sized,
      fun entryInode => delete_ends on sole sound entryInode sized⟩

theorem uniform_sole (block : Block) :
    (volumeFile (uniformVolume block) (uniformDirectory 1024)).Sole := by
  have count : (volumeFile (uniformVolume block) (uniformDirectory 1024)).count = 1 := by
    change ((uniformDirectory 1024).getSize true + 1024 - 1) / 1024 = 1
    decide
  have first : ∀ k < (volumeFile (uniformVolume block) (uniformDirectory 1024)).count, k = 0 := by
    intro k below
    omega
  constructor
  · intro j inJ k inK _
    rw [first j inJ, first k inK]
  · intro k below addr member
    obtain rfl := first k below
    exact absurd member List.not_mem_nil

def stuckBlock : Block := 1 :: List.replicate 1023 0

/-- The record is listed over and over again. -/
theorem listing_does_not_end :
    DirectoryOn (uniformVolume stuckBlock) (uniformDirectory 1024) ∧
      (volumeFile (uniformVolume stuckBlock) (uniformDirectory 1024)).Sole ∧
      ¬Ends true (uniformVolume stuckBlock) (uniformDirectory 1024) := by
  have on : DirectoryOn (uniformVolume stuckBlock) (uniformDirectory 1024) :=
    uniform_on (by decide +kernel) (by decide)
  refine ⟨on, uniform_sole _, ?_⟩
  intro ends
  have sound := sound_of_ends on ends rfl
  have live : (DirectoryEntryRaw.read stuckBlock 0).inode ≠ 0 := by decide +kernel
  have stuck : (DirectoryEntryRaw.read stuckBlock 0).entrySize = 0 := by decide +kernel
  exact (sound_here sound (show 0 < 1024 by decide)).2 live stuck

/-- A directory whose only block is tiled by records is passed. -/
theorem gap_records_end :
    Ends true (uniformVolume (joined gapRecords)) (uniformDirectory 1024) := by
  obtain ⟨on, -⟩ := uniform_tiled length_gap_records
  apply (ends_iff true _ _ on (uniform_sole _)).mpr
  intro _
  have sound := @sound_joined true [] gapRecords
  rw [List.nil_append, length_gap_records] at sound
  exact sound

end Campix.Ext2
