import Campix.Ext2.Records

/-!
# Listing a directory

The header of a record is read at its offset in the directory, from the start of a buffer
that holds one block. A directory of one block is listed as it is; with a second block the
first header of that block is read behind the buffer.
-/

namespace Campix.Ext2

open Lib.Fallible Lib.Slice

set_option autoImplicit false

def WellFormed {haveTypeField : Bool} (volume : Ext2Volume) (inode : Inode)
    (records : Nat → List (Record haveTypeField)) : Prop :=
  ∀ k < fileBlocks volume inode, blockOf inode volume.device (volume.blockSize / 4)
    k = joined (records k)

/-- The listing ends with the live records of all blocks, whatever the heap holds. -/
def ListsAll {haveTypeField : Bool} (volume : Ext2Volume) (inode : Inode)
    (records : Nat → List (Record haveTypeField)) : Prop :=
  ∀ openMode (heap : Buffers), heap.Sized volume.blockSize →
    ∃ rounds directory after, Directory.new haveTypeField inode openMode heap rounds volume = .ok
      directory after ∧
      directory.entries = (List.range (fileBlocks volume inode)).flatMap
        (fun k => listing (records k)) ∧
      directory.inode = inode

variable {haveTypeField : Bool} {volume : Ext2Volume} {inode : Inode}
variable {passed rest : List (Record haveTypeField)} {records : Nat → List (Record haveTypeField)}

/-- The header at the end of the records passed is that of the next record. -/
theorem record_behind (record : Record haveTypeField) :
    InBlock haveTypeField (joined (passed ++ record :: rest)) (joined passed).length ∧
      (DirectoryEntryRaw.read (joined (passed ++ record :: rest)) (joined passed).length).entrySize ≠
        0 ∧
      (joined (passed ++ [record])).length = (joined passed).length +
        (DirectoryEntryRaw.read (joined (passed ++ record :: rest))
          (joined passed).length).entrySize ∧
      (joined passed).length < (joined (passed ++ record :: rest)).length := by
  have block : joined (passed ++ record :: rest) = joined passed ++
      (record.bytes ++ joined rest) := by
    rw [joined_append, joined_cons]
  have header := read_behind (joined passed) (joined rest) record
  have inBlock := in_block_behind (joined passed) (joined rest) record
  have size := record_size record
  have eight : DirectoryEntryRaw.size = 8 := rfl
  have whole : record.raw.entrySize = record.bytes.length := record.whole
  rw [← block] at header inBlock
  have total := congrArg List.length block
  rw [List.length_append, List.length_append] at total
  refine ⟨inBlock, by rw [header]; omega, ?_, by omega⟩
  rw [header, whole, joined_append, List.length_append]
  exact congrArg (fun bytes : Block => (joined passed).length + bytes.length)
    (List.append_nil record.bytes)

/-- A walk over records comes to the end of their block. -/
theorem passes_joined {size : Nat} (inside : (joined (passed ++ rest)).length ≤ size) :
    Passes haveTypeField (joined (passed ++ rest)) size (joined passed).length
      (joined (passed ++ rest)).length := by
  induction rest generalizing passed with
  | nil =>
      rw [List.append_nil]
      exact .here
  | cons record rest ih =>
      obtain ⟨inBlock, moves, next, below⟩ := @record_behind haveTypeField passed rest record
      have later := @ih (passed ++ [record])
      rw [List.append_assoc, List.singleton_append] at later
      refine .step (by omega) inBlock moves ?_
      rw [← next]
      exact later inside

/-- The walk over a block of records meets their headers only. -/
theorem sound_joined : SoundWalk haveTypeField (joined (passed ++ rest))
    (joined (passed ++ rest)).length (joined passed).length := by
  induction rest generalizing passed with
  | nil =>
      rw [List.append_nil]
      intro last passes below
      have behind := DirectoryIterator.passes_le passes
      omega
  | cons record rest ih =>
      obtain ⟨inBlock, moves, next, -⟩ := @record_behind haveTypeField passed rest record
      have later := @ih (passed ++ [record])
      rw [List.append_assoc, List.singleton_append] at later
      refine sound_of_step inBlock (fun _ => moves) fun _ => ?_
      rw [← next]
      exact later

theorem size_eq_blocks (on : DirectoryOn volume inode)
    (whole : inode.sizeLo % volume.blockSize = 0) :
    inode.sizeLo = fileBlocks volume inode * volume.blockSize := by
  have positive := on.mounted.stores.positive
  have parts := Nat.div_add_mod inode.sizeLo volume.blockSize
  rw [whole, Nat.add_zero] at parts
  unfold fileBlocks
  rw [DirectoryIterator.get_size_eq on]
  generalize inode.sizeLo / volume.blockSize = count at parts
  rw [← parts, Nat.add_sub_assoc positive, Nat.mul_add_div positive, Nat.div_eq_of_lt (by omega),
    Nat.add_zero,
    Nat.mul_comm]

theorem directory_new_ok {openMode rounds : Nat} {heap : Buffers}
    {iterator after : DirectoryIterator}
    {entries : List DirectoryEntry}
    (made : DirectoryIterator.new volume haveTypeField inode openMode heap = .ok iterator)
    (collected : DirectoryIterator.entries rounds iterator = .ok entries after) :
    Directory.new haveTypeField inode openMode heap rounds volume =
      .ok { entries, inode } after.handle.cursor.volume := by
  change (DirectoryIterator.withIterator haveTypeField inode openMode heap
    (DirectoryIterator.entries rounds) >>= _ : EStateM Stop Ext2Volume Directory) volume = _
  rw [state_bind_ok (DirectoryIterator.with_iterator_ok made collected)]
  rfl

theorem directory_new_ended {openMode rounds : Nat} {heap : Buffers} {iterator : DirectoryIterator}
    (made : DirectoryIterator.new volume haveTypeField inode openMode heap = .ok iterator)
    (ended : Ended (Directory.new haveTypeField inode openMode heap rounds volume)) :
    Ended (DirectoryIterator.entries rounds iterator) := by
  cases outcome : DirectoryIterator.entries rounds iterator with
  | ok entries after => exact .ok
  | error stop after =>
      have failed : Directory.new haveTypeField inode openMode heap rounds volume =
          .error stop after.handle.cursor.volume := by
        change (DirectoryIterator.withIterator haveTypeField inode openMode heap
          (DirectoryIterator.entries rounds) >>= _ : EStateM Stop Ext2Volume Directory) volume = _
        exact state_bind_error (DirectoryIterator.with_iterator_error made outcome)
      rw [failed] at ended
      cases ended
      exact .error

def blankBuffers (volume : Ext2Volume) : Buffers :=
  let blank := List.replicate volume.blockSize 0
  ⟨blank, blank, blank, blank, blank⟩

theorem blank_buffers_sized (volume : Ext2Volume) :
    (blankBuffers volume).Sized volume.blockSize := by
  intro block member
  simp only [blankBuffers, List.mem_cons, List.not_mem_nil, or_false, or_self] at member
  rw [member]
  exact List.length_replicate

section Listed

variable (on : DirectoryOn volume inode) (whole : inode.sizeLo % volume.blockSize = 0)
  (wellFormed : WellFormed volume inode records)

include on whole wellFormed

/-- The walk comes to the end of the first block, where there is no header in the buffer. -/
theorem few_of_lists (lists : ListsAll volume inode records) : fileBlocks volume inode ≤ 1 := by
  have size := size_eq_blocks on whole
  have positive := on.mounted.stores.positive
  have first : 0 < fileBlocks volume inode → firstBlock volume inode = joined (records 0) :=
    wellFormed 0
  by_contra more
  obtain ⟨rounds, directory, after, listed, -⟩ :=
    lists 0 (blankBuffers volume) (blank_buffers_sized volume)
  obtain ⟨iterator, made, starts, field⟩ :=
    DirectoryIterator.new_starts haveTypeField 0 on whole (blank_buffers_sized volume)
  have ended : Ended (Directory.new haveTypeField inode 0 (blankBuffers volume) rounds volume) := by
    rw [listed]
    exact .ok
  have ended := directory_new_ended made ended
  cases rounds with
  | zero => cases ended
  | succ rounds =>
      have two : 2 * volume.blockSize ≤ inode.sizeLo := by
        rw [size]
        exact Nat.mul_le_mul_right _ (by omega)
      obtain ⟨loaded, same, isLoaded, start, sameField, -⟩ :=
        DirectoryIterator.next_first on whole starts (by omega)
      rw [DirectoryIterator.entries_succ,
        state_bind_congr same, ← DirectoryIterator.entries_succ] at ended
      refine DirectoryIterator.entries_unsound on (rounds + 1) isLoaded ?_ ended
      rw [start, sameField, field, first (by omega)]
      intro sound
      have length : (joined (records 0)).length = volume.blockSize := by
        rw [← first (by omega)]
        exact DirectoryIterator.length_first_block on
      have passes := @passes_joined haveTypeField [] (records 0) inode.sizeLo
        (by rw [List.nil_append, length]; omega)
      obtain ⟨inBlock, -⟩ := sound _ passes (by rw [List.nil_append, length]; omega)
      unfold InBlock at inBlock
      have eight : DirectoryEntryRaw.size = 8 := rfl
      rw [List.nil_append] at inBlock
      omega

theorem lists_of_few (few : fileBlocks volume inode ≤ 1) : ListsAll volume inode records := by
  have size := size_eq_blocks on whole
  have positive := on.mounted.stores.positive
  have first : 0 < fileBlocks volume inode → firstBlock volume inode = joined (records 0) :=
    wellFormed 0
  intro openMode heap sized
  obtain ⟨iterator, made, starts, field⟩ :=
    DirectoryIterator.new_starts haveTypeField openMode on whole sized
  rcases Nat.le_one_iff_eq_zero_or_eq_one.mp few with empty | one
  · have collected : DirectoryIterator.entries 1 iterator = .ok [] iterator := by
      have done : DirectoryIterator.next iterator = .ok none iterator :=
        DirectoryIterator.next_empty (by rw [starts.idx, starts.size, size, empty, Nat.zero_mul])
          iterator.size
      rw [DirectoryIterator.entries_succ, state_bind_ok done]
      rfl
    refine ⟨1, _, _, directory_new_ok made collected, ?_, rfl⟩
    rw [empty]
    rfl
  · have whole' : inode.sizeLo = volume.blockSize := by rw [size, one, Nat.one_mul]
    obtain ⟨loaded, same, isLoaded, start, sameField, -⟩ :=
      DirectoryIterator.next_first on whole starts (by omega)
    have block := first (by omega)
    have length : (joined (records 0)).length = loaded.size := by
      rw [← block, DirectoryIterator.length_first_block on, isLoaded.size, whole']
    have between : DirectoryIterator.Between loaded [] (records 0) := by
      refine ⟨?_, start, sameField.trans field, length.le⟩
      rw [List.nil_append, ← block]
      exact DirectoryIterator.loaded_holding on isLoaded
    obtain ⟨after, collected⟩ := DirectoryIterator.entries_records between length.symm
      ((records 0).length + 1) (Nat.lt_succ_self _)
    rw [DirectoryIterator.entries_succ,
      ← state_bind_congr same, ← DirectoryIterator.entries_succ] at collected
    refine ⟨_, _, _, directory_new_ok made collected, ?_, rfl⟩
    rw [one]
    exact (List.append_nil _).symm

end Listed

/-- A directory is listed if and only if it has no second block. -/
theorem lists_all_iff (volume : Ext2Volume) (inode : Inode)
    (records : Nat → List (Record haveTypeField))
    (on : DirectoryOn volume inode) (whole : inode.sizeLo % volume.blockSize = 0)
    (wellFormed : WellFormed volume inode records) :
    ListsAll volume inode records ↔ fileBlocks volume inode ≤ 1 :=
  ⟨few_of_lists on whole wellFormed, lists_of_few on whole wellFormed⟩

def uniformVolume (block : Block) : Ext2Volume :=
  { plainVolume 1024 8 0 with device := fun _ => block }

def uniformDirectory (sizeLo : Nat) : Inode :=
  { plainInode 0 sizeLo 1 with inodeType := .directory }

theorem uniform_on {block : Block} {sizeLo : Nat} (length : block.length = 1024)
    (few : sizeLo ≤ 12 * 1024) :
    DirectoryOn (uniformVolume block) (uniformDirectory sizeLo) := by
  have mounted : Mounted (uniformVolume block) := by
    refine ⟨⟨rfl, ?_, fun _ => length, ?_⟩, ⟨0, rfl⟩, ?_⟩
    · intro item impossible
      exact absurd impossible List.not_mem_nil
    · change 0 < 1024
      decide
    · change 1024 < 2 ^ 32
      decide
  refine ⟨mounted, ?_, rfl, ?_⟩
  · intro k inside
    have direct : k < 12 := by
      have blocks : fileBlocks (uniformVolume block)
          (uniformDirectory sizeLo) = (sizeLo + 1024 - 1) / 1024 := rfl
      omega
    have place : locate ((uniformVolume block).blockSize / 4) k = .direct k := if_pos direct
    rw [place]
    refine ⟨by unfold capacity; omega, ?_⟩
    intro addr member
    obtain rfl : addr = 1 := by
      simpa [pointers, tablePath, dataPointer, uniformDirectory, plainInode, direct] using member
    exact ⟨Nat.one_ne_zero, show 1 < 8 by decide⟩
  · change sizeLo < 2 ^ 32
    omega

def soleRecord : Record true where
  bytes := [11, 0, 0, 0, 0, 4, 1, 1, 97] ++ List.replicate 1015 0
  whole := by decide +kernel
  aligned := by decide +kernel
  named := by decide +kernel

theorem length_sole_record : soleRecord.bytes.length = 1024 := by decide +kernel

theorem sole_record_tiles (sizeLo : Nat) :
    WellFormed (uniformVolume soleRecord.bytes) (uniformDirectory sizeLo) fun _ =>
      [soleRecord] := by
  intro k _
  exact (List.append_nil _).symm

/-- A directory of two blocks is not listed. -/
theorem second_block_not_listed :
    DirectoryOn (uniformVolume soleRecord.bytes) (uniformDirectory 2048) ∧
      WellFormed (uniformVolume soleRecord.bytes) (uniformDirectory 2048) (fun _ => [soleRecord]) ∧
      ¬ListsAll (uniformVolume soleRecord.bytes) (uniformDirectory 2048)
        (fun _ => [soleRecord]) := by
  have on : DirectoryOn (uniformVolume soleRecord.bytes) (uniformDirectory 2048) :=
    uniform_on length_sole_record (by decide)
  refine ⟨on, sole_record_tiles 2048, ?_⟩
  intro lists
  have few := few_of_lists on (by rfl) (sole_record_tiles 2048) lists
  exact absurd few (by decide)

def shortRecord (inode : UInt8) : Record true where
  bytes := [inode, 0, 0, 0, 12, 0, 1, 1, 97, 0, 0, 0]
  whole := by simp [DirectoryEntryRaw.read, readLe]
  aligned := by simp
  named := by simp [DirectoryEntryRaw.read, DirectoryEntryRaw.nameLen, DirectoryEntryRaw.size, readLe]

def lastRecord : Record true where
  bytes := [14, 0, 0, 0, 220, 3, 1, 1, 98] ++ List.replicate 979 0
  whole := by decide +kernel
  aligned := by decide +kernel
  named := by decide +kernel

theorem uniform_tiled {tiles : List (Record true)} (length : (joined tiles).length = 1024) :
    DirectoryOn (uniformVolume (joined tiles)) (uniformDirectory 1024) ∧
      WellFormed (uniformVolume (joined tiles)) (uniformDirectory 1024) fun _ => tiles :=
  ⟨uniform_on length (by decide), fun _ _ => rfl⟩

def gapRecords : List (Record true) := [shortRecord 12, shortRecord 0, shortRecord 13, lastRecord]

theorem length_gap_records : (joined gapRecords).length = 1024 := by decide +kernel

/-- Four records, the second of them unused. -/
theorem gap_records_listed :
    ListsAll (uniformVolume (joined gapRecords)) (uniformDirectory 1024) (fun _ => gapRecords) ∧
      listing gapRecords =
        [(shortRecord 12).entry, (shortRecord 13).entry, lastRecord.entry] := by
  obtain ⟨on, tiled⟩ := uniform_tiled length_gap_records
  exact ⟨(lists_all_iff _ _ _ on (by rfl) tiled).mpr (by decide), by decide +kernel⟩

end Campix.Ext2
