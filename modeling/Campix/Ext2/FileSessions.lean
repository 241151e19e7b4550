import Campix.Ext2.ClippedWrites
import Campix.Ext2.StoredFiles
import Campix.Lib.OpenFile

/-!
# Sessions of an open file

A handle refines a file of bytes with a position: over any reads, writes, seeks and flushes
of it, in any order, each call answers as that file does, and once the handle is closed the
inode that is read back has its bytes. A file that needs more blocks, and a handle that is
moved, must not have changed bytes in the buffer; both lose them.
-/

namespace Campix.Ext2

open Lib.Blocks Lib.OpenFile Lib.Fallible Lib.Outcome Lib.Slice
open Lib.Word Drivers Ext2Volume

set_option autoImplicit false

inductive Call
  | fread (buffer : Block)
  | fwrite (buf : Block)
  | fseek (position : SeekPosition)
  | fflush

def Call.run : Call → OnHandle (Nat × Block)
  | .fread buffer => Handle.fread buffer
  | .fwrite buf => return (← Handle.fwrite buf, [])
  | .fseek position => return (← Handle.fseek position, [])
  | .fflush => do
      Handle.fflush
      return (0, [])

def Call.answer (file : ByteFile UInt8) : Call → Option ((Nat × Block) × ByteFile UInt8)
  | .fread buffer =>
      let read := file.read buffer.length
      some ((read.length, read ++ buffer.drop read.length), file.skip buffer.length)
  | .fwrite buf => some ((buf.length, []), file.write buf)
  | .fseek position => do
      let moved ← file.moveTo (← fseekHelper position file.position file.items.length)
      return ((moved.position, []), moved)
  | .fflush => some ((0, []), file)

inductive Follows : ByteFile UInt8 → List (Call × (Nat × Block)) → ByteFile UInt8 → Prop
  | done (file : ByteFile UInt8) : Follows file [] file
  | next {file middle after : ByteFile UInt8} {call : Call} {answer : Nat × Block}
      {later : List (Call × (Nat × Block))} (answers : call.answer file = some (answer, middle))
      (rest : Follows middle later after) : Follows file ((call, answer) :: later) after

def FitsSize (fileSize64 : Bool) (size : Nat) : Prop := size < if fileSize64 then 2 ^ 64 else 2 ^ 32

namespace Handle

def Flushed (handle : Handle) : Prop := ∀ info, handle.blockCacheInfo = some info →
    info.dirty = false

def blocksOf (handle : Handle) (size : Nat) : Nat :=
  (size + handle.cursor.volume.blockSize - 1) / handle.cursor.volume.blockSize

def sizeBehind (handle : Handle) : Call → Nat
  | .fwrite buf => max handle.size (handle.offset + buf.length)
  | _ => handle.size

/-- What a call asks of the handle. A seek to the end of a file whose last block is full
goes to no block of it. -/
def Admits (handle : Handle) : Call → Prop
  | .fread _ => True
  | .fwrite buf =>
      handle.size < handle.offset + buf.length →
        FitsSize handle.cursor.volume.fileSize64 (handle.offset + buf.length) ∧
          (handle.count < handle.blocksOf (handle.offset + buf.length) →
            handle.Flushed ∧
              handle.cursor.TablesVacant handle.count
                (handle.blocksOf (handle.offset + buf.length) - handle.count))
  | .fseek position =>
      handle.Flushed ∧ ∃ target, fseekHelper position handle.offset handle.size = some target ∧
        (target < handle.size ∨ target / handle.cursor.volume.blockSize < handle.count ∨ target = 0)
  | .fflush => True

end Handle

/-- Calls are made one after the other, each where it is admitted, and return. -/
inductive Serving : Handle → List (Call × (Nat × Block)) → Handle → Prop
  | done (handle : Handle) : Serving handle [] handle
  | next {handle middle after : Handle} {call : Call} {answer : Nat × Block}
    {later : List (Call × (Nat × Block))}
      (admitted : handle.Admits call) (ran : call.run handle = .ok answer middle)
      (rest : Serving middle later after) : Serving handle ((call, answer) :: later) after

/-- A regular file of a sound volume, all of whose blocks are there, opened to be read and
written. -/
structure Opens (volume : Ext2Volume) (inodesCount number : Nat) (found : FoundInode)
    (start : Handle) :
    Prop where
  mounted : Mounted volume
  padded : volume.Padded
  tables : volume.InodeTables
  writable : volume.readOnly = false
  square : volume.blockSize / 4 * (volume.blockSize / 4) < 2 ^ 32
  lookup : answerOf (getInode inodesCount number none volume) = .ok found
  file : found.inodeType = .file
  tree : FileTree found.pointer volume.device (volume.blockSize / 4)
    volume.InUse (fileBlocks volume found.toInode)
  record : ∀ lba offset, volume.inodePlace number = some (lba, offset) → lba ≠ 0 ∧
    volume.marked lba = true ∧
    lba ∉ reachable found.pointer volume.device (volume.blockSize / 4)
  fresh : Fresh volume found.toInode start
  reads : start.openMode &&& openModeRead ≠ 0
  writes : start.openMode &&& openModeWrite ≠ 0
  resizes : start.openMode &&& openModeNoResize ≠ openModeNoResize

/-- The file of bytes that the handle stands for: every call that needs no more room
returns, a call that returns answers as the file does, and the file is there once the handle
is closed. -/
structure Refines (inodesCount number : Nat) (handle : Handle) (file : ByteFile UInt8) : Prop where
  size : handle.size = file.items.length
  position : handle.offset = file.position
  returns : ∀ call, handle.Admits call → handle.sizeBehind call = handle.size →
    ∃ answer after, call.run handle = .ok answer after
  closed : ∃ closed, Handle.fclose handle = .ok () closed ∧
    HasContents closed.cursor.volume inodesCount number file.items

variable {handle after : Handle} {base contents : Contents} {lba offset : Nat}

namespace Handle

/-- The record on the device is that of the inode in memory, but for its generation. -/
def Recorded (handle : Handle) (contents : Contents) (number lba offset : Nat) : Prop :=
  ∃ found, inodeOf (getSlice (contents lba) offset (offset + 128)) number none = .ok found ∧
    found.toInode.pointer = handle.cursor.location.inode.pointer ∧
    ∀ fileSize64, found.getSize fileSize64 = handle.cursor.location.inode.getSize fileSize64

/-- The handle stands for the file of bytes, which its buffer and the device hold. -/
structure Models (number lba offset : Nat) (handle : Handle) (file : ByteFile UInt8)
    (contents : Contents) :
    Prop where
  steady : handle.Steady contents contents
  sizable : handle.Sizable contents lba offset
  writable : handle.cursor.volume.readOnly = false
  named : handle.cursor.location.inode.inodeI = number
  storable : Storable handle.cursor.location.inode
  sized : handle.cursor.location.inode.getSize handle.cursor.volume.fileSize64 = handle.size
  recorded : handle.Recorded contents number lba offset
  bytes : (handle.bytes contents).take handle.size = file.items
  position : handle.offset = file.position
  reads : handle.openMode &&& openModeRead ≠ 0
  writes : handle.openMode &&& openModeWrite ≠ 0
  resizes : handle.openMode &&& openModeNoResize ≠ openModeNoResize

end Handle

namespace Handle

variable {contentsAfter : Contents} {number inodesCount newSize : Nat}
  {file fileAfter : ByteFile UInt8}
variable {buffer buf : Block}

theorem sizable_of_frame (frame : after.frame = handle.frame)
    (sizable : handle.Sizable contents lba offset)
    (keeps : (handle.fileMap contents).Keeps contentsAfter) : after.Sizable contentsAfter lba
    offset := by
  have same := same_file frame
  have volume : after.cursor.volume.frame = handle.cursor.volume.frame :=
    show after.frame.cursor.volume = handle.frame.cursor.volume by rw [frame]
  have size : after.cursor.tableSize = handle.cursor.tableSize := congrArg (· / 4) same.blockSize
  refine ⟨rooted_of_frame frame (tree_kept sizable.tree keeps),
    padded_of_frame volume sizable.padded, ?_, ?_, ?_, ?_⟩
  · rw [same.blockSize]
    exact sizable.blockSize
  · rw [size]
    exact sizable.square
  · have housed := sizable.housed
    refine ⟨tables_of_frame volume housed.tables, ?_, housed.nonzero, ?_, ?_⟩
    · rw [place_of_frame volume, same.inode]
      exact housed.place
    · rw [marked_of_frame volume]
      exact housed.marked
    · rw [same.inode]
      exact housed.complete
  · rw [same.inode, size]
    exact reachable_kept sizable.tree keeps sizable.outside

theorem larger_block_size {grown : Contents}
    (larger : handle.Larger contents lba offset newSize after grown) :
    after.cursor.volume.blockSize = handle.cursor.volume.blockSize := by
  obtain ⟨bitmaps, outline⟩ := larger.outline
  change after.cursor.volume.frame.blockSize = _
  rw [outline]
  rfl

theorem larger_begins {grown : Contents}
    (larger : handle.Larger contents lba offset newSize after grown)
    (bound : handle.size ≤ newSize) :
    (after.bytes grown).take (handle.count * after.cursor.volume.blockSize) = handle.bytes
      contents := by
  obtain ⟨k, info, pending, -⟩ := larger.pending
  have blockSize := larger_block_size larger
  have less : handle.count ≤ after.count := by
    unfold count
    rw [blockSize, larger.size]
    exact Nat.div_le_div_right (by omega)
  have each : ∀ k, (after.blocks grown k).length = after.cursor.volume.blockSize :=
    fun _ => pending_sized (rooted_sole larger.sizable.tree) pending _
  rw [bytes, take_concat each less]
  exact concat_congr fun k below => larger.kept k below

section Models

variable (models : handle.Models number lba offset file contents)

include models

theorem models_linked : handle.Linked contents AnyTable := by
  have inside := (place_inside models.sizable.housed.tables models.sizable.housed.place).1
  refine rooted_linked_any models.sizable.tree (by omega) ?_
  have four := models.sizable.blockSize
  change 0 < handle.cursor.volume.blockSize / 4
  omega

theorem models_sole : (handle.fileMap contents).Sole := rooted_sole models.sizable.tree

theorem models_words : handle.count < 2 ^ 32 :=
    rooted_words models.sizable.tree models.sizable.padded

theorem models_stores : ∃ k device, handle.Settled device (handle.fileMap contents).Tables k ∧
    ∀ addr, ¬(handle.fileMap contents).Owns addr → device addr = contents addr := by
  rcases models.steady with ⟨k, info, pending⟩ | ⟨opened, -⟩
  · exact ⟨k, _, pending.settled, pending.deviceKeeps⟩
  · exact ⟨0, _, opened.1, fun _ _ => rfl⟩

theorem models_positive : 0 < handle.cursor.volume.blockSize := by
  obtain ⟨k, device, settled, -⟩ := models_stores models
  exact settled.cursor.views.stores.positive

theorem models_bounded : handle.offset ≤ handle.size := by
  obtain ⟨k, device, settled, -⟩ := models_stores models
  exact settled.bounded

theorem models_sized : handle.size ≤ (handle.bytes contents).length := by
  rcases models.steady with ⟨k, info, pending⟩ | ⟨opened, -⟩
  · exact pending_size (models_sole models) pending
  · exact size_le_bytes opened.1.cursor

theorem models_size : handle.size = file.items.length := by
  rw [← models.bytes, List.length_take, Nat.min_eq_left (models_sized models)]

theorem models_of_frame (frame : after.frame = handle.frame)
    (keeps : (handle.fileMap contents).Keeps contentsAfter)
    (steady : after.Steady contents contentsAfter)
    (bytes : (handle.bytes contentsAfter).take handle.size = fileAfter.items)
    (position : after.offset = fileAfter.position) : after.Models number lba offset fileAfter
    contentsAfter := by
  have same := same_file frame
  have mode : after.openMode = handle.openMode :=
    show after.frame.openMode = handle.frame.openMode by rw [frame]
  have wide : after.cursor.volume.fileSize64 = handle.cursor.volume.fileSize64 :=
    show after.frame.cursor.volume.fileSize64 = handle.frame.cursor.volume.fileSize64 by rw [frame]
  refine ⟨steady_rebased (rooted_of_frame frame models.sizable.tree) steady,
    sizable_of_frame frame models.sizable keeps, (read_only_of_frame frame).trans models.writable,
    ?_, ?_, ?_, ?_, ?_, position, ?_, ?_, ?_⟩
  · rw [same.inode]
    exact models.named
  · rw [same.inode]
    exact models.storable
  · rw [same.inode, wide, same.size]
    exact models.sized
  · unfold Recorded
    rw [same.inode, kept_outside models.sizable.tree keeps models.sizable.outside]
    exact models.recorded
  · rw [bytes_of_frame frame, same.size]
    exact bytes
  · rw [mode]
    exact models.reads
  · rw [mode]
    exact models.writes
  · rw [mode]
    exact models.resizes

/-- The file once nothing waits to be written. -/
theorem models_flush : ∃ flushed, flush handle = .ok () flushed ∧
    flushed.Models number lba offset file contents ∧ flushed.cursor.volume.Stores contents ∧
    flushed.frame = handle.frame := by
  have sole := models_sole models
  have linked := models_linked models
  rcases models.steady with ⟨k, info, pending⟩ | ⟨opened, keeps⟩
  · obtain ⟨flushed, flushes, settled, buffered, frame, position⟩ :=
      flush_pending sole linked pending models.writable
    have device := Cursor.device_of_clean settled.cursor.views settled.cursor.clean
    have stores := settled.cursor.views.stores
    rw [device] at stores
    have keepsAfter : (flushed.fileMap contents).Keeps contents := fun _ _ => rfl
    refine ⟨flushed, flushes, models_of_frame
      models frame pending.keeps (.inl ⟨k, _, pending_of_buffered keepsAfter
      (by rwa [file_map_of_frame frame]) buffered
        (by rw [count_of_frame frame]; exact pending.inside)
      pending.early⟩) models.bytes (position.trans models.position), stores, frame⟩
  · have settled := opened.1
    have flushed : flush handle = .ok () handle := by
      refine flush_of_clean settled.cursor.clean settled.saved fun other present => ?_
      exact absurd (opened.2.1.symm.trans present) nofun
    have stores := settled.cursor.views.stores
    rw [Cursor.device_of_clean settled.cursor.views settled.cursor.clean] at stores
    exact ⟨handle, flushed, models, stores, rfl⟩

theorem models_read : ∃ after, read buffer handle =
      .ok ((file.read buffer.length).length,
        file.read buffer.length ++ buffer.drop (file.read buffer.length).length)
        after ∧
    after.Models number lba offset (file.skip buffer.length) contents := by
  have bounded := models_bounded models
  have size := models_size models
  have total := models_sized models
  obtain ⟨flushed, filled, k, info, flushes, fills, -, settled, buffered, inside, early, frame,
    position, keeps⟩ :=
    begins_spec (models_sole models) (models_linked models) models.writable models.steady
  obtain ⟨blockSize, -, -, -, -, sameSize⟩ := same_file frame
  have links := linked_of_frame frame
    (linked_kept (models_linked models) (models_sole models) keeps)
  have reads := read_buffered_spec settled buffered links (Nat.min_le_left buffer.length _)
    (show filled.offset + min buffer.length (handle.size - handle.offset) ≤ filled.size by omega)
  obtain ⟨result, after, returned, ⟨answer, -, same, moved⟩, k', info', settled', buffered',
    passed⟩ :=
    yields_ok reads
  have whole := same.trans frame
  have keepsAfter : (after.fileMap contents).Keeps contents := fun _ _ => rfl
  have read : ((filled.bytes contents).drop filled.offset).take
      (min buffer.length (handle.size - handle.offset)) =
      file.read buffer.length := by
    rw [ByteFile.read, bytes_of_frame frame, position, ← models.position, ← models.bytes,
      List.drop_take,
      List.take_take]
  have length : (file.read buffer.length).length = min buffer.length
      (handle.size - handle.offset) := by
    rw [ByteFile.read, List.length_take, List.length_drop, ← size, ← models.position]
  refine ⟨after, ?_, models_of_frame models whole keeps (.inl ?_) models.bytes ?_⟩
  · rw [Handle.read, state_bind_get]
    dsimp only
    rw [state_bind_ok flushes, state_bind_ok fills, state_bind_get, buffered.present,
      sub64_of_le bounded]
    rw [position, blockSize] at returned
    change readBuffered _ _ info buffer filled = _
    rw [returned, answer, read, splice, List.take_zero, List.nil_append, Nat.zero_add, length]
  · rw [count_of_frame frame] at passed
    rcases passed with ⟨rfl, rfl⟩ | ⟨below, blockNumber⟩
    · exact ⟨_, _, pending_of_buffered keepsAfter (by rwa [file_map_of_frame whole]) buffered'
        (by rwa [count_of_frame whole]) early⟩
    · exact ⟨_, _, pending_of_buffered keepsAfter (by rwa [file_map_of_frame whole]) buffered'
        (by rw [count_of_frame whole]; exact .inl below) (by rw [blockNumber]; exact Nat.mod_le ..)⟩
  · change after.offset = min (file.position + buffer.length) file.items.length
    rw [moved, position, ← models.position, ← size]
    omega

theorem models_write (rest : handle.offset + buf.length ≤ handle.size) :
    ∃ after contentsAfter, write buf handle = .ok buf.length after ∧
      after.Models number lba offset (file.write buf) contentsAfter := by
  obtain ⟨after, contentsAfter, writes, wrote⟩ :=
    write_spec (models_sole models) (models_linked models) models.writable (models_words models)
      models.steady rest
  obtain ⟨k, info, pending⟩ := wrote.pending
  have keeps := pending.keeps
  rw [file_map_of_frame wrote.frame] at keeps
  refine ⟨after, contentsAfter, writes,
    models_of_frame models wrote.frame keeps (.inl ⟨k, info, pending⟩) ?_ ?_⟩
  · have total := models_sized models
    have replaced := take_splice_over (models_bounded models)
      (show max handle.size (handle.offset + buf.length) ≤ (handle.bytes contents).length by omega)
    rw [Nat.max_eq_left rest, models.bytes, models.position] at replaced
    rw [wrote.bytes, models.position]
    exact replaced
  · change after.offset = file.position + buf.length
    rw [wrote.offset, models.position]

theorem models_idle (flushed : handle.Flushed) :
    handle.Idle contents (handle.fileMap contents).Tables := by
  rcases models.steady with ⟨k, info, pending⟩ | ⟨opened, -⟩
  · have clean := flushed info pending.present
    have device : handle.cursor.volume.device = contents :=
      funext fun addr => pending.others addr fun dirty =>
        absurd (clean.symm.trans dirty) Bool.false_ne_true
    have settled := pending.settled
    rw [device] at settled
    exact idle_of_settled settled
  · exact idle_of_settled opened.1

theorem models_seek {position : SeekPosition} {target : Nat} (flushed : handle.Flushed)
    (found : fseekHelper position handle.offset handle.size = some target)
    (inside : target < handle.size ∨ target / handle.cursor.volume.blockSize < handle.count ∨
      target = 0)
    (moved : ByteFile UInt8) (moves : file.moveTo target = some moved) :
    ∃ after, seek position handle = .ok () after ∧ after.Models number lba offset moved contents ∧
      after.offset = moved.position := by
  have positive := models_positive models
  have idle := models_idle models flushed
  have keeps : (handle.fileMap contents).Keeps contents := fun _ _ => rfl
  have below : target / handle.cursor.volume.blockSize < handle.count ∨
      target / handle.cursor.volume.blockSize = 0 := by
    rcases inside with inside | inside | rfl
    · exact .inl (lt_count positive (Nat.lt_of_le_of_lt (Nat.div_mul_le_self ..) inside))
    · exact .inl inside
    · exact .inr (Nat.zero_div _)
  have words := models_words models
  obtain ⟨_, after, returned, ⟨k, info, settled, buffered, within, block⟩, frame, position⟩ :=
    yields_ok
    (seek_spec idle (linked_kept (models_linked models) (models_sole models) keeps) found
      (fseek_helper_le (models_bounded models) found) below (by omega) (.inr models.sizable.square))
  have keepsAfter : (after.fileMap contents).Keeps contents := fun _ _ => rfl
  have pending := pending_of_buffered keepsAfter (by rwa [file_map_of_frame frame]) buffered
    (by rwa [count_of_frame frame]) (by rw [block]; exact Nat.mod_le ..)
  obtain ⟨items, place⟩ : moved.items = file.items ∧ moved.position = target := by
    unfold ByteFile.moveTo at moves
    split_ifs at moves
    cases moves
    exact ⟨rfl, rfl⟩
  exact ⟨after, returned, models_of_frame models frame keeps (.inl ⟨_, _, pending⟩)
    (models.bytes.trans items.symm)
    (position.trans place.symm), position.trans place.symm⟩

theorem models_block_sized (addr : Nat) :
    (contents addr).length = handle.cursor.volume.blockSize := by
  rcases models.steady with ⟨k, info, pending⟩ | ⟨opened, -⟩
  · exact pending_sized (models_sole models) pending addr
  · have stores := opened.1.cursor.views.stores
    rw [Cursor.device_of_clean opened.1.cursor.views opened.1.cursor.clean] at stores
    exact stores.sized addr

/-- The file once its blocks are there: behind the bytes that it had it has some others. -/
theorem models_larger {grown : Contents} (fits : FitsSize handle.cursor.volume.fileSize64 newSize)
    (bound : handle.size ≤ newSize)
    (larger : handle.Larger contents lba offset newSize after grown) :
    ∃ longer : ByteFile UInt8, after.Models number lba offset longer grown ∧
      longer.position = file.position ∧
      longer.items.length = newSize ∧ longer.items.take file.items.length = file.items := by
  obtain ⟨inode, sectors, same, inodeAfter⟩ := larger.inode
  obtain ⟨bitmaps, outline⟩ := larger.outline
  obtain ⟨k, info, pending, -⟩ := larger.pending
  have sameNumber : inode.inodeI = handle.cursor.location.inode.inodeI :=
    show inode.unlinked.inodeI = _ by rw [same]; rfl
  have sameType : inode.inodeType = handle.cursor.location.inode.inodeType :=
    show inode.unlinked.inodeType = _ by rw [same]; rfl
  have readOnly : after.cursor.volume.readOnly = handle.cursor.volume.readOnly :=
    show after.cursor.volume.frame.readOnly = _ by rw [outline]; rfl
  have wide : after.cursor.volume.fileSize64 = handle.cursor.volume.fileSize64 :=
    show after.cursor.volume.frame.fileSize64 = _ by rw [outline]; rfl
  have blockSize := larger_block_size larger
  have positive := models_positive models
  have sized : newSize ≤ (after.bytes grown).length := by
    rw [← larger.size]
    exact pending_size (rooted_sole larger.sizable.tree) pending
  have number_ : after.cursor.location.inode.inodeI = number := by
    rw [inodeAfter, (grown_fixed ..).1, sameNumber]
    exact models.named
  have storable : Storable after.cursor.location.inode := by
    rw [inodeAfter]
    refine storable_grown models.storable same fun place => ?_
    have word := pointer_word larger.sizable.tree (by
      have four := larger.sizable.blockSize
      change 0 < after.cursor.volume.blockSize / 4
      omega) (fun _ used => used.1) larger.sizable.padded.word place
    rwa [inodeAfter, pointer_grown] at word
  have narrow : newSize < 2 ^ 64 ∧ (handle.cursor.volume.fileSize64 = true ∨ newSize < 2 ^ 32) := by
    unfold FitsSize at fits
    split_ifs at fits with wide
    · exact ⟨fits, .inl wide⟩
    · exact ⟨by omega, .inr fits⟩
  have begins := larger_begins larger bound
  refine ⟨⟨(after.bytes grown).take newSize, after.offset, ?_⟩,
    ⟨.inl ⟨k, info, pending⟩, larger.sizable,
    readOnly.trans models.writable, number_, storable, ?_,
      ?_, by rw [larger.size], rfl, ?_, ?_, ?_⟩,
    larger.position.trans models.position, ?_, ?_⟩
  · rw [List.length_take, Nat.min_eq_left sized, ← larger.size]
    exact pending.settled.bounded
  · rw [inodeAfter, wide, larger.size]
    exact get_size_grown _ (sameType.trans models.storable.file) narrow.1 narrow.2
  · unfold Recorded
    have room := (place_inside models.sizable.housed.tables models.sizable.housed.place).2
    have there : getSlice (grown lba)
        offset (offset + 128) = some (recordOf after.cursor.location.inode) := by
      have length := length_record_of after.cursor.location.inode
      rw [larger.record, ← length]
      exact get_slice_splice (by rw [models_block_sized models, length]; exact room)
    rw [there, ← number_]
    exact record_read_back storable none
  · rw [larger.mode]
    exact models.reads
  · rw [larger.mode]
    exact models.writes
  · rw [larger.mode]
    exact models.resizes
  · rw [List.length_take, Nat.min_eq_left sized]
  · have total := models_sized models
    have whole : handle.size ≤ handle.count * after.cursor.volume.blockSize := by
      rw [blockSize]
      exact size_le_count positive
    rw [← models_size models, List.take_take, Nat.min_eq_left bound, ← models.bytes, ← begins,
      List.take_take,
      Nat.min_eq_left whole]

theorem models_grow (fits : FitsSize handle.cursor.volume.fileSize64 newSize)
    (more : handle.size < newSize)
    (blocks : handle.count < handle.blocksOf newSize →
      handle.Flushed ∧ handle.cursor.TablesVacant handle.count
        (handle.blocksOf newSize - handle.count)) :
    Yields (fun _ after => ∃ (longer : ByteFile UInt8) (grown : Contents),
      after.Models number lba offset longer grown ∧
        longer.position = file.position ∧ longer.items.length = newSize ∧ after.size = newSize ∧
        longer.items.take file.items.length = file.items ∧
        after.cursor.volume.blockSize = handle.cursor.volume.blockSize)
      (fun _ => True) (grow newSize handle) := by
  have bounded := models_bounded models
  have larger : Yields (fun _ after => ∃ grown,
      handle.Larger contents lba offset newSize after grown)
      (fun _ => True) (grow newSize handle) := by
    have least : handle.count ≤ handle.blocksOf newSize := Nat.div_le_div_right (by omega)
    by_cases flushed : handle.Flushed
    · refine grow_by_blocks models.sizable (models_idle models flushed) flushed (by omega)
        (by omega) ?_
      by_cases new : handle.count < handle.blocksOf newSize
      · exact (blocks new).2
      · intro place block _ planned
        have none : handle.blocksOf newSize - handle.count = 0 :=
          Nat.sub_eq_zero_of_le (Nat.not_lt.mp new)
        rw [show (newSize + handle.cursor.volume.blockSize - 1) / handle.cursor.volume.blockSize -
          handle.count = 0 from none] at planned
        cases planned
    · have same : handle.blocksOf newSize = handle.count := by
        by_contra other
        exact flushed (blocks (by omega)).1
      have positive := models_positive models
      have present : 0 < handle.count := by
        rw [← same]
        exact Nat.div_pos (by omega) positive
      rcases models.steady with ⟨k, info, pending⟩ | ⟨opened, -⟩
      · exact grow_within models.sizable pending models.writable (by omega) (by omega) present same
      · refine absurd (fun info found => ?_) flushed
        rw [opened.2.1] at found
        cases found
  refine yields_weaken larger ?_ fun _ _ => trivial
  rintro _ after ⟨grown, grows⟩
  obtain ⟨longer, still, position, length, front⟩ := models_larger models fits (by omega) grows
  obtain ⟨bitmaps, outline⟩ := grows.outline
  exact ⟨longer, grown, still, position, length, grows.size, front,
    show after.cursor.volume.frame.blockSize = _ by rw [outline]; rfl⟩

theorem fwrite_eq (word : handle.offset + buf.length < 2 ^ 64) :
    fwrite buf handle = (if handle.size < handle.offset + buf.length then
      grow (handle.offset + buf.length) >>= fun _ => write buf
    else write buf : OnHandle Nat) handle := by
  change (if handle.openMode &&& openModeWrite = 0 then _
    else if handle.openMode &&& openModeNoResize = openModeNoResize then _
    else if add64 handle.offset buf.length > handle.size then
      grow (add64 handle.offset buf.length) >>= fun _ => write buf
    else write buf : OnHandle Nat) handle = _
  rw [if_neg models.writes, if_neg models.resizes, add64, Nat.mod_eq_of_lt word]

theorem models_size_word : handle.size < 2 ^ 64 := by
  rw [← models.sized]
  have storable := models.storable
  unfold Inode.getSize
  split_ifs
  · exact Nat.or_lt_two_pow (by rw [Nat.shiftLeft_eq]; exact Nat.mul_lt_mul_of_pos_right storable.sizeHi (by decide))
      (Nat.lt_trans storable.sizeLo (by decide))
  · exact Nat.lt_trans storable.sizeLo (by decide)

theorem models_fwrite (admits : handle.Admits (.fwrite buf)) :
    Yields (fun written after => written = buf.length ∧
        ∃ contentsAfter, after.Models number lba offset (file.write buf) contentsAfter)
      (fun _ => handle.sizeBehind (.fwrite buf) ≠ handle.size) (fwrite buf handle) := by
  by_cases more : handle.size < handle.offset + buf.length
  · obtain ⟨fits, blocks⟩ := admits more
    have word : handle.offset + buf.length < 2 ^ 64 := by
      unfold FitsSize at fits
      split_ifs at fits <;> omega
    have longer : handle.sizeBehind (.fwrite buf) ≠ handle.size := by
      change max handle.size (handle.offset + buf.length) ≠ handle.size
      omega
    rw [fwrite_eq models word, if_pos more]
    refine yields_bind (yields_weaken (models_grow models fits more blocks) (fun _ _ holds => holds)
      fun _ _ => longer) ?_
    rintro _ middle ⟨longer, grown, still, position, length, size, front, -⟩
    have place := models.position
    have total := models_size models
    have rest : middle.offset + buf.length ≤ middle.size := by
      rw [still.position, position, size, ← place]
    obtain ⟨after, contentsAfter, writes, wrote⟩ := models_write still rest
    rw [ByteFile.write_of_longer front position (by rw [length, ← place, ← total]; omega)] at wrote
    rw [writes]
    exact .ok ⟨rfl, contentsAfter, wrote⟩
  · have size := models_size_word models
    rw [fwrite_eq models (by omega), if_neg more]
    obtain ⟨after, contentsAfter, writes, wrote⟩ := models_write models (Nat.not_lt.mp more)
    rw [writes]
    exact .ok ⟨rfl, contentsAfter, wrote⟩

theorem models_contents (stores : handle.cursor.volume.Stores contents) (first : 1 ≤ number)
    (last : number ≤ inodesCount) : HasContents handle.cursor.volume inodesCount number
    file.items := by
  obtain ⟨found, there, pointers, sizes⟩ := models.recorded
  have device := stores.device
  have housed := models.sizable.housed
  have place := housed.place
  rw [models.named] at place
  have holds : handle.cursor.volume.HoldsAt lba (contents lba) :=
    ⟨congrFun device lba, fun item member here => here ▸ stores.cached item member⟩
  refine ⟨found, (get_inode_eq housed.tables first last none place holds (stores.sized lba)).trans
    there, ?_⟩
  have size : found.getSize handle.cursor.volume.fileSize64 = handle.size := by
    rw [sizes, models.sized]
  have count : fileBlocks handle.cursor.volume found.toInode = handle.count := by
    rw [fileBlocks, size]
    rfl
  have tree : FileTree found.toInode.pointer handle.cursor.volume.device
      (handle.cursor.volume.blockSize / 4)
      handle.cursor.volume.InUse (fileBlocks handle.cursor.volume found.toInode) := by
    rw [pointers, device, count]
    exact models.sizable.tree
  rw [fileContents, sparse_of_tree tree, size, ← models.bytes, fileBytes, Handle.bytes, count,
    device]
  congr 1
  refine concat_congr fun k _ => ?_
  unfold Handle.blocks blockOf
  rw [data_pointer_of_pointer pointers]

end Models

end Handle

section Calls

variable {number inodesCount : Nat} {file fileAfter : ByteFile UInt8} {start : Handle}
  {volume : Ext2Volume}
variable {call : Call} {found : FoundInode} {log : List (Call × (Nat × Block))}

theorem models_call (models : handle.Models number lba offset file contents)
    (admits : handle.Admits call) :
    Yields (fun answer after => ∃ fileAfter contentsAfter,
      call.answer file = some (answer, fileAfter) ∧
        after.Models number lba offset fileAfter contentsAfter)
      (fun _ => handle.sizeBehind call ≠ handle.size) (call.run handle) := by
  cases call with
  | fread buffer =>
      obtain ⟨after, reads, read⟩ := @Handle.models_read _ _ _ _ _ _ buffer models
      have run : Handle.fread buffer handle = Handle.read buffer handle := by
        change (if handle.openMode &&& openModeRead = 0 then _ else _ : OnHandle (Nat × Block))
          handle = _
        rw [if_neg models.reads]
      change Yields _ _ (Handle.fread buffer handle)
      rw [run, reads]
      exact .ok ⟨_, contents, rfl, read⟩
  | fwrite buf =>
      refine yields_bind (Handle.models_fwrite models admits) ?_
      rintro _ after ⟨rfl, contentsAfter, wrote⟩
      exact .ok ⟨_, contentsAfter, rfl, wrote⟩
  | fseek position =>
      obtain ⟨flushed, target, found, inside⟩ := admits
      have le : target ≤ file.items.length := by
        rw [← Handle.models_size models]
        exact Handle.fseek_helper_le (Handle.models_bounded models) found
      have moves : file.moveTo target = some ⟨file.items, target, le⟩ := dif_pos le
      obtain ⟨after, seeks, moved, place⟩ := Handle.models_seek models flushed found inside _ moves
      have run : (Call.fseek position).run handle = .ok (after.offset, []) after := by
        change (Handle.fseek position >>= fun target => pure (target, [])) handle = _
        rw [state_bind_ok (fseek_of_seek seeks)]
        rfl
      rw [run]
      refine .ok ⟨_, contents, ?_, moved⟩
      have same : fseekHelper position file.position file.items.length = some target := by
        rw [← models.position, ← Handle.models_size models]
        exact found
      change ((fseekHelper position file.position file.items.length).bind fun target =>
        (file.moveTo target).bind fun moved => some ((moved.position, []), moved)) = _
      rw [same, place, Option.bind_some, moves]
      rfl
  | fflush =>
      obtain ⟨after, flushes, flushed, -, -⟩ := Handle.models_flush models
      have run : Call.fflush.run handle = .ok (0, []) after := by
        have calls : Handle.fflush handle = .ok () after := by
          change (if handle.openMode &&& openModeWrite = 0 then _ else _ : OnHandle Unit) handle = _
          rw [if_neg models.writes]
          exact flushes
        change (Handle.fflush >>= fun _ => pure (0, [])) handle = _
        rw [state_bind_ok calls]
        rfl
      rw [run]
      exact .ok ⟨_, contents, rfl, flushed⟩

theorem models_session (models : ∃ contents, start.Models number lba offset file contents)
    (session : Serving start log handle) :
    ∃ fileAfter, Follows file log fileAfter ∧
      ∃ contents, handle.Models number lba offset fileAfter contents := by
  induction session generalizing file with
  | done handle => exact ⟨file, .done file, models⟩
  | next admitted ran rest ih =>
      obtain ⟨contents, models⟩ := models
      have called := models_call models admitted
      rw [ran] at called
      cases called with
      | ok holds =>
          obtain ⟨middle, contentsAfter, answers, still⟩ := holds
          obtain ⟨fileAfter, follows, final⟩ := ih ⟨contentsAfter, still⟩
          exact ⟨fileAfter, .next answers follows, final⟩

theorem refines_of_models (models : handle.Models number lba offset file contents)
    (first : 1 ≤ number)
    (last : number ≤ inodesCount) : Refines inodesCount number handle file := by
  refine ⟨Handle.models_size models, models.position, fun call admits same => ?_, ?_⟩
  · have called := models_call models admits
    cases outcome : call.run handle with
    | ok answer after => exact ⟨answer, after, rfl⟩
    | error failure after =>
        rw [outcome] at called
        cases called with
        | error longer => exact absurd same longer
  · obtain ⟨closed, flushes, flushed, stores, -⟩ := Handle.models_flush models
    exact ⟨closed, flushes, Handle.models_contents flushed stores first last⟩

theorem raw_of_found {data : Option (List UInt8)} (known : inodeOf data number none = .ok found) :
    ∃ raw, Inode.fromRaw raw number none = some found := by
  unfold inodeOf at known
  split at known
  · cases known
  · rename_i data
    split at known
    · cases known
    · rename_i there
      cases known
      exact ⟨_, there⟩

theorem number_of_found {raw : RawInode} (known : Inode.fromRaw raw number none = some found) :
    found.inodeI = number := by
  unfold Inode.fromRaw at known
  split at known
  · cases known
  · cases known
    rfl

theorem complete_of_found {raw : RawInode} (known : Inode.fromRaw raw number none = some found) :
    found.ossv2.length = 12 := by
  unfold Inode.fromRaw at known
  split at known
  · cases known
  · cases known
    exact List.length_ofFn

theorem number_inside (lookup : answerOf (getInode inodesCount number none volume) = .ok found) :
    1 ≤ number ∧ number ≤ inodesCount := by
  by_contra outside
  have refused : getInode inodesCount number none volume = .error (.error .driverError) volume := by
    unfold getInode
    rw [if_pos (by omega)]
    rfl
  rw [refused] at lookup
  cases lookup

theorem models_opened (opens : Opens volume inodesCount number found start) :
    ∃ lba offset, 1 ≤ number ∧ number ≤ inodesCount ∧
      start.Models number lba offset (ByteFile.opened (fileContents volume found.toInode))
        volume.device := by
  obtain ⟨mounted, padded, tables, writable, square, lookup, file, tree, record, fresh, reads,
    writes, resizes⟩ :=
    opens
  obtain ⟨sameVolume, sameInode, size⟩ := fresh_frame fresh
  have inside := number_inside lookup
  cases place : volume.inodePlace number with
  | none =>
      rw [get_inode_missing inside.1 inside.2 none place] at lookup
      cases lookup
  | some at_ =>
      obtain ⟨lba, offset⟩ := at_
      obtain ⟨nonzero, marked, outside⟩ := record lba offset place
      have stores := mounted.stores
      have holds : volume.HoldsAt lba (volume.device lba) :=
        ⟨rfl, fun item member here => here ▸ stores.cached item member⟩
      rw [get_inode_eq tables inside.1 inside.2 none place holds (stores.sized lba)] at lookup
      obtain ⟨raw, known⟩ := raw_of_found lookup
      have count : start.count = fileBlocks volume found.toInode := by
        rw [Handle.count, sameVolume, size, fileBlocks]
      have tableSize : start.cursor.tableSize = volume.blockSize / 4 := by
        rw [Cursor.tableSize, sameVolume]
      obtain ⟨settled, missing, position⟩ := fresh_opened mounted fresh
      have large : 4 ≤ volume.blockSize := by
        obtain ⟨logBlockSize, blockSize⟩ := mounted.size
        have positive : 0 < 2 ^ logBlockSize := Nat.two_pow_pos _
        omega
      have rooted : start.Rooted volume.device := by
        rw [Handle.Rooted, sameInode, tableSize, count, sameVolume]
        exact tree
      have sizable : start.Sizable volume.device lba offset := by
        refine ⟨rooted, by rwa [sameVolume], by rwa [sameVolume], by rwa [tableSize], ?_, ?_⟩
        · refine ⟨by rwa [sameVolume], ?_, nonzero, by rwa [sameVolume], ?_⟩
          · rw [sameVolume, sameInode, number_of_found known]
            exact place
          · rw [sameInode]
            exact complete_of_found known
        · rw [sameInode, tableSize]
          exact outside
      refine ⟨lba, offset, inside.1, inside.2,
        .inr ⟨⟨Handle.settled_narrow settled fun _ _ table => table.1, missing,
        position⟩, fun _ _ => rfl⟩, sizable, by rwa [sameVolume], ?_, ?_, ?_, ?_, ?_,
        position, reads, writes, resizes⟩
      · rw [sameInode]
        exact number_of_found known
      · rw [sameInode]
        exact storable_found known file
      · rw [sameInode, sameVolume, size]
      · rw [Handle.Recorded, sameInode]
        exact ⟨found, lookup, rfl, fun _ => rfl⟩
      · change _ = fileContents volume found.toInode
        rw [fileContents, sparse_of_tree tree, fileBytes, Handle.bytes, count, size]
        congr 2
        unfold Handle.blocks
        rw [sameInode, sameVolume]

end Calls

theorem tree_empty {roots : Nat → Nat} (bare : ∀ place, roots place = 0) (contents : Contents)
    (tableSize : Nat)
    (Used : Nat → Prop) : FileTree roots contents tableSize Used 0 ∧
    reachable roots contents tableSize = ∅ := by
  have nowhere : ∀ (location : InodeReadingLocationInfo) (place pointer : Nat),
      (route roots contents location)[place]? = some pointer → pointer = 0 := by
    intro location place pointer found
    rw [route, bare, chase_zero] at found
    exact List.eq_of_mem_replicate (List.mem_of_getElem? found)
  have none : reachable roots contents tableSize = ∅ := by
    refine Finset.eq_empty_of_forall_notMem fun block member => ?_
    obtain ⟨nonzero, location, -, found⟩ := mem_reachable.mp member
    obtain ⟨place, there⟩ := List.mem_iff_getElem?.mp found
    exact nonzero (nowhere location place block there)
  refine ⟨⟨Nat.zero_le _, ?_, ?_,
    fun k impossible => absurd impossible (Nat.not_lt_zero k), ?_⟩, none⟩
  · intro location _ place _ pointer _ _ found _ nonzero
    exact absurd (nowhere location place pointer found) nonzero
  · intro block member
    rw [none] at member
    exact absurd member (Finset.notMem_empty block)
  · intro k _ _ place pointer found nonzero
    exact absurd (nowhere _ place pointer found) nonzero

def emptyFile : Ext2Volume :=
  { twoTables with
    device := fun _ => splice (List.replicate 1024 0) 0 (fileRecord 0 0).bytes
    bitmaps := fun group => (if group = 0 then 0xFF else 0x80) :: List.replicate 7 0xFF }

def emptyRecord : FoundInode :=
  match Inode.fromRaw (fileRecord 0 0) 1 none with
  | some found => found
  | none => { plainInode 0 0 1 with parentInode := none }

theorem empty_record_known : Inode.fromRaw (fileRecord 0 0) 1 none = some emptyRecord := rfl

def emptyHandle : Handle where
  cursor := {
    volume := emptyFile
    location := {
      location := ⟨.direct 0, 256⟩
      inode := emptyRecord.toInode
      maxBlockExclusive := 0
      tables := fun level =>
        ⟨[List.replicate 1024 0, List.replicate 1024 0, List.replicate 1024 0].get level, 0, false⟩
      inodeDirty := false } }
  openMode := openModeRead ||| openModeWrite
  offset := 0
  size := 0
  blockCache := List.replicate 1024 0
  blockCacheInfo := none

theorem empty_file_blocks (lba : Nat) : (emptyFile.device lba).length = 1024 := by
  have fits : 0 + (fileRecord 0 0).bytes.length ≤ (List.replicate 1024 (0 : UInt8)).length := by
    rw [RawInode.length_bytes, List.length_replicate]
    decide
  exact (length_splice fits).trans List.length_replicate

theorem empty_file_opens : Opens emptyFile 16 1 emptyRecord emptyHandle := by
  have tables : emptyFile.InodeTables := by
    have two := two_tables_tables
    exact ⟨two.record, two.fits, two.blockWord,
      two.countWord, two.perGroup, two.perBlock, two.inside, two.apart⟩
  have stores : emptyFile.Stores emptyFile.device :=
    ⟨rfl, fun item member => absurd member List.not_mem_nil, empty_file_blocks, by decide⟩
  have bare : ∀ place, emptyRecord.pointer place = 0 := by
    intro place
    unfold Inode.pointer
    split_ifs with direct
    · change (if (⟨place, direct⟩ : Fin 12) = 0 then (0 : UInt32) else 0).toNat = 0
      rw [ite_self]
      rfl
    all_goals rfl
  obtain ⟨tree, nowhere⟩ := tree_empty bare emptyFile.device 256 emptyFile.InUse
  refine ⟨⟨stores, ⟨0, rfl⟩, by decide⟩, ⟨by decide, by decide, ?_⟩, tables, rfl, by
    decide, ?_, rfl, tree, ?_, ?_,
    by decide, by decide, by decide⟩
  · decide +kernel
  · have place : emptyFile.inodePlace 1 = some (5, 0) := rfl
    have holds : emptyFile.HoldsAt 5 (emptyFile.device 5) :=
      ⟨rfl, fun item member => absurd member List.not_mem_nil⟩
    have length := RawInode.length_bytes (fileRecord 0 0)
    have slice : getSlice (emptyFile.device 5) 0 (0 + 128) = some (fileRecord 0 0).bytes := by
      have whole := get_slice_splice
        (show 0 + (fileRecord 0 0).bytes.length ≤ (List.replicate 1024 (0 : UInt8)).length by
          rw [length, List.length_replicate]
          decide)
      rwa [length] at whole
    rw [get_inode_eq tables (by decide) (by decide) none place holds (empty_file_blocks 5), slice]
    unfold inodeOf
    dsimp only
    rw [RawInode.of_bytes, empty_record_known]
  · intro lba offset place
    obtain ⟨rfl, rfl⟩ : 5 = lba ∧ 0 = offset := Prod.mk.inj (Option.some.inj place)
    refine ⟨by decide, by decide +kernel, ?_⟩
    rw [show emptyFile.blockSize / 4 = 256 from rfl, nowhere]
    exact Finset.notMem_empty _
  · refine ⟨openModeRead ||| openModeWrite, List.replicate 1024 0, List.replicate 1024 0,
      List.replicate 1024 0,
      List.replicate 1024 0, ?_, ?_⟩
    · intro buffer member
      simp only [List.mem_cons, List.not_mem_nil, or_false, or_self] at member
      rw [member]
      exact List.length_replicate
    · rfl

end Campix.Ext2
