import Campix.Ext2.Reads

/-!
# Runs of reads and seeks

The reads and seeks of a fresh handle, in any order. Every state of such a run stands at
a block of the file, so every read returns the bytes from its offset on. The handle
starts by buffering the first block, whether the file has one or not, and a seek divides
by the square of the table size, which has to fit `u32`.
-/

namespace Campix.Ext2

open Lib.Blocks Lib.Fallible Lib.Outcome Lib.Slice
open Drivers

set_option autoImplicit false

/-- A handle as `FileHandle::new` returns it. -/
def Fresh (volume : Ext2Volume) (inode : Inode) (handle : Handle) : Prop :=
  ∃ openMode table1 table2 table3 blockCache,
    (∀ buffer ∈ [table1, table2, table3, blockCache], buffer.length = volume.blockSize) ∧
      Handle.new volume inode openMode table1 table2 table3 blockCache = some handle

/-- The states that reads, and seeks to offsets below the size, lead to. A failed call
leaves the state it failed in. -/
inductive Visits (start : Handle) : Handle → Prop
  | start : Visits start start
  | read {handle : Handle} (buffer : Block) (visited : Visits start handle) :
      Visits start (stateAfter (Handle.read buffer handle))
  | seek {handle : Handle} {position : SeekPosition} {target : Nat}
      (found : fseekHelper position handle.offset handle.size = some target)
      (below : target < handle.size) (visited : Visits start handle) :
      Visits start (stateAfter (Handle.seek position handle))

/-- A read returns the bytes of the file from the offset on, and a seek below the size
sets the offset; a seek to a block index that does not fit `u32` is refused. -/
structure Serves (file : List UInt8) (handle : Handle) : Prop where
  read : ∀ buffer : Block, ∃ after,
    Handle.read buffer handle =
      .ok (min buffer.length (handle.size - handle.offset),
        (file.drop handle.offset).take (min buffer.length (handle.size - handle.offset)) ++
          buffer.drop (min buffer.length (handle.size - handle.offset))) after ∧
      after.offset = handle.offset + min buffer.length (handle.size - handle.offset)
  seek : ∀ position target, fseekHelper position handle.offset handle.size = some target →
    target < handle.size →
      (∃ after, Handle.seek position handle = .ok () after ∧ after.offset = target) ∨
        target / handle.cursor.volume.blockSize ≥ 2 ^ 32 ∧
          Handle.seek position handle = .error (.error .driverError) handle

def fileBlocks (volume : Ext2Volume) (inode : Inode) : Nat :=
  (inode.getSize volume.fileSize64 + volume.blockSize - 1) / volume.blockSize

def fileBytes (volume : Ext2Volume) (inode : Inode) : List UInt8 :=
  concat (blockOf inode volume.device (volume.blockSize / 4)) (fileBlocks volume inode)

def ReadsFile (volume : Ext2Volume) (inode : Inode) : Prop :=
  ∀ start handle, Fresh volume inode start → Visits start handle →
    Serves (fileBytes volume inode) handle

/-- Every pointer on the way to a block of the file leads to a block of the volume. -/
def Mapped (volume : Ext2Volume) (inode : Inode) : Prop :=
  ∀ k < fileBlocks volume inode, k < capacity (volume.blockSize / 4) ∧
    ∀ addr ∈ pointers inode volume.device (locate (volume.blockSize / 4) k),
      addr ≠ 0 ∧ addr < volume.blockCount

/-- The volume as it is mounted: the block size is a power of two that fits `u32`, and the
cache of blocks agrees with the device. -/
structure Mounted (volume : Ext2Volume) : Prop where
  stores : volume.Stores volume.device
  size : ∃ logBlockSize, volume.blockSize = 1024 * 2 ^ logBlockSize
  small : volume.blockSize < 2 ^ 32

/-- Any copy of a block is a copy of a table as long as nothing is written. -/
def AnyTable (_ : Fin 3) (addr : Nat) : Prop := addr ≠ 0

variable {volume : Ext2Volume} {inode : Inode} {start handle : Handle}

theorem fresh_frame (fresh : Fresh volume inode start) :
    start.cursor.volume = volume ∧ start.cursor.location.inode = inode ∧
      start.size = inode.getSize volume.fileSize64 := by
  obtain ⟨openMode, table1, table2, table3, blockCache, -, made⟩ := fresh
  cases made
  exact ⟨rfl, rfl, rfl⟩

theorem fresh_opened (mounted : Mounted volume) (fresh : Fresh volume inode start) :
    start.Opened volume.device AnyTable := by
  obtain ⟨openMode, table1, table2, table3, blockCache, length, made⟩ := fresh
  cases made
  have positive := mounted.stores.positive
  have tableLength : ∀ level : Fin 3,
      ([table1, table2, table3].get level).length = volume.blockSize := by
    intro level
    apply length
    exact List.mem_append_left [blockCache] (List.get_mem [table1, table2, table3] level)
  refine ⟨⟨⟨⟨mounted.stores, tableLength, ?_, fun _ _ => rfl⟩, fun _ => rfl, ?_, rfl, ?_⟩, rfl, ?_,
    length blockCache (by simp), Nat.zero_le _, mounted.small⟩, rfl, rfl⟩
  · intro level dirty
    exact absurd dirty Bool.false_ne_true
  · intro level addr nonzero
    exact ⟨fun same => absurd same.symm nonzero,
      fun other _ dirty => absurd dirty Bool.false_ne_true⟩
  · intro level addr impossible
    exact absurd impossible nofun
  · change (_ : Int) = ((inode.getSize volume.fileSize64 + volume.blockSize - 1) /
      volume.blockSize : Nat)
    rw [Int.natCast_div, Nat.cast_sub (by omega)]
    push_cast
    rfl

structure Reading (start : Handle) (contents : Contents) (handle : Handle) : Prop where
  place : handle.Stands contents AnyTable ∨ handle.Opened contents AnyTable
  frame : handle.frame = start.frame

theorem mapped_readable (mapped : Mapped volume inode) :
    ∀ k < fileBlocks volume inode, Readable volume inode volume.device AnyTable k := by
  intro k present
  obtain ⟨capacity, onVolume⟩ := mapped k present
  refine ⟨capacity, ?_, fun addr member => (onVolume addr member).2⟩
  intro level addr member
  exact (onVolume addr (List.mem_append_left _ (List.mem_of_getElem? member))).1

theorem fresh_linked (readable : ∀ k < fileBlocks volume inode,
    Readable volume inode volume.device AnyTable k)
    (first : fileBlocks volume inode = 0 → inode.directBlockPointers 0 < volume.blockCount)
    (fresh : Fresh volume inode start) : start.Linked volume.device AnyTable := by
  obtain ⟨sameVolume, sameInode, size⟩ := fresh_frame fresh
  have count : start.count = fileBlocks volume inode := by
    rw [Handle.count, sameVolume, size, fileBlocks]
  refine ⟨fun _ _ nonzero => nonzero, ?_⟩
  intro k inside
  rw [count] at inside
  rw [sameVolume, sameInode]
  by_cases present : k < fileBlocks volume inode
  · exact readable k present
  · obtain rfl : k = 0 := inside.resolve_left present
    -- an empty file: the way to its first block is the first direct pointer
    refine ⟨by unfold capacity; omega, ?_, ?_⟩
    · intro level addr impossible
      exact absurd impossible nofun
    · intro addr member
      obtain rfl : addr = inode.directBlockPointers 0 := by
        simpa [pointers, tablePath, dataPointer, locate] using member
      exact first (by omega)

theorem reading_linked {contents : Contents} (reading : Reading start contents handle)
    (linked : start.Linked contents AnyTable) : handle.Linked contents AnyTable :=
  Handle.linked_of_frame reading.frame linked

theorem reading_settled {contents : Contents} (reading : Reading start contents handle) :
    ∃ k, handle.Settled contents AnyTable k := by
  rcases reading.place with ⟨k, info, settled, -⟩ | ⟨settled, -, -⟩
  · exact ⟨k, settled⟩
  · exact ⟨0, settled⟩

theorem reading_seek {contents : Contents} {position : SeekPosition} {target : Nat}
    (linked : start.Linked contents AnyTable)
    (fits : start.count ≤ 12 + start.cursor.volume.blockSize / 4 ∨
      start.cursor.volume.blockSize / 4 * (start.cursor.volume.blockSize / 4) < 2 ^ 32)
    (reading : Reading start contents handle)
    (found : fseekHelper position handle.offset handle.size = some target)
    (below : target < handle.size)
    (small : target / handle.cursor.volume.blockSize < 2 ^ 32) :
    Yields (fun _ after => Reading start contents after ∧ after.offset = target) (fun _ => False)
      (Handle.seek position handle) := by
  obtain ⟨k, settled⟩ := reading_settled reading
  have positive := settled.cursor.views.stores.positive
  have inside : target / handle.cursor.volume.blockSize < handle.count :=
    Handle.lt_count positive (lt_of_le_of_lt (Nat.div_mul_le_self ..) below)
  rw [← Handle.count_of_frame reading.frame, ← (Handle.same_file reading.frame).blockSize] at fits
  refine yields_weaken (Handle.seek_spec (Handle.idle_of_settled settled)
    (reading_linked reading linked) found
    below.le (.inl inside) small (fits.imp_left fun short => lt_of_lt_of_le inside short)) ?_
      fun _ impossible => impossible
  rintro _ after ⟨⟨k, info, settled, buffered, -⟩, frame, offset⟩
  exact ⟨⟨.inl ⟨k, info, settled, buffered⟩, frame.trans reading.frame⟩, offset⟩

theorem visits_reading {contents : Contents} (opened : start.Opened contents AnyTable)
    (linked : start.Linked contents AnyTable)
    (fits : start.count ≤ 12 + start.cursor.volume.blockSize / 4 ∨
      start.cursor.volume.blockSize / 4 * (start.cursor.volume.blockSize / 4) < 2 ^ 32)
    (visited : Visits start handle) : Reading start contents handle := by
  induction visited with
  | start => exact ⟨.inr opened, rfl⟩
  | @read handle buffer visited ih =>
      have kept : Yields (fun _ => Reading start contents) (Reading start contents)
          (Handle.read buffer handle) := by
        refine yields_weaken (Handle.read_spec buffer ih.place (reading_linked ih linked)) ?_
          fun _ impossible => impossible.elim
        rintro result after ⟨-, stands, frame, -⟩
        exact ⟨.inl stands, frame.trans ih.frame⟩
      exact yields_state kept
  | @seek handle position target found below visited ih =>
      by_cases large : target / handle.cursor.volume.blockSize ≥ 2 ^ 32
      · rw [Handle.seek_refused found large]
        exact ih
      · have kept : Yields (fun _ => Reading start contents) (Reading start contents)
            (Handle.seek position handle) :=
          yields_weaken (reading_seek linked fits ih found below (by omega))
            (fun _ _ moved => moved.1)
            fun _ impossible => impossible.elim
        exact yields_state kept

theorem reads_of_readable (mounted : Mounted volume)
    (readable : ∀ k < fileBlocks volume inode, Readable volume inode volume.device AnyTable k)
    (first : fileBlocks volume inode = 0 → inode.directBlockPointers 0 < volume.blockCount)
    (fits : fileBlocks volume inode ≤ 12 + volume.blockSize / 4 ∨
      volume.blockSize / 4 * (volume.blockSize / 4) < 2 ^ 32) : ReadsFile volume inode := by
  intro start handle fresh visited
  obtain ⟨sameVolume, sameInode, size⟩ := fresh_frame fresh
  have linked := fresh_linked readable first fresh
  have count : start.count = fileBlocks volume inode := by
    rw [Handle.count, sameVolume, size, fileBlocks]
  rw [← count, ← sameVolume] at fits
  have reading := visits_reading (fresh_opened mounted fresh) linked fits visited
  have bytes : handle.bytes volume.device = fileBytes volume inode := by
    rw [Handle.bytes_of_frame reading.frame, Handle.bytes, count, fileBytes, ← sameVolume]
    unfold Handle.blocks
    rw [sameInode]
  obtain ⟨k, settled⟩ := reading_settled reading
  constructor
  · intro buffer
    have served := Handle.read_spec buffer reading.place (reading_linked reading linked)
    obtain ⟨result, after, returned, rfl, -, -, offset⟩ := yields_ok served
    refine ⟨after, ?_, offset⟩
    rw [returned, bytes, splice, List.take_zero, List.nil_append, Nat.zero_add]
    have length := Handle.length_slice settled.cursor
      (show handle.offset + min buffer.length (handle.size - handle.offset) ≤ handle.size by
        have := settled.bounded
        omega)
    rw [bytes] at length
    rw [length]
  · intro position target found below
    by_cases large : target / handle.cursor.volume.blockSize ≥ 2 ^ 32
    · exact .inr ⟨large, Handle.seek_refused found large⟩
    · obtain ⟨_, after, returned, -, offset⟩ :=
        yields_ok (reading_seek linked fits reading found below (by omega))
      exact .inl ⟨after, returned, offset⟩

/-- The file is read as it is, provided that the first block can be buffered even if the
file is empty, and that every seek can be computed. -/
theorem reads_return_the_file (volume : Ext2Volume) (inode : Inode) (mounted : Mounted volume)
    (mapped : Mapped volume inode)
    (first : fileBlocks volume inode = 0 → inode.directBlockPointers 0 < volume.blockCount)
    (fits : fileBlocks volume inode ≤ 12 + volume.blockSize / 4 ∨
      volume.blockSize / 4 * (volume.blockSize / 4) < 2 ^ 32) : ReadsFile volume inode :=
  reads_of_readable mounted (mapped_readable mapped) first fits

def plainVolume (blockSize blockCount : Nat) (byte : UInt8) : Ext2Volume where
  device := fun _ => List.replicate blockSize byte
  blockCache := []
  blockCacheSize := 1
  bitmaps := fun _ => []
  readOnly := false
  fileSize64 := true
  blockSize
  blockCount
  sectorsPerBlock := blockSize / 512
  blockGroupCount := 1
  blocksPerGroup := blockCount
  superblockBlock := 1
  inodesPerGroup := 8
  inodesPerBlock := 8
  inodeSize := 128
  inodeTables := [4]

def plainInode (sizeHi sizeLo pointer : Nat) : Inode where
  inodeType := .file
  permissions := 0
  uid := 0
  sizeLo
  atime := 0
  ctime := 0
  mtime := 0
  dtime := 0
  gid := 0
  linksCount := 1
  sectorsCount := 0
  flags := 0
  ossv1 := 0
  directBlockPointers := fun _ => pointer
  singleIndirectBlockPointer := pointer
  doubleIndirectBlockPointer := pointer
  tripleIndirectBlockPointer := pointer
  generationNumber := 0
  extendedAttributeBlock := 0
  sizeHiOrDirAcl := sizeHi
  fragmentBlock := 0
  ossv2 := List.replicate 12 0
  inodeI := 11

def plainHandle (volume : Ext2Volume) (inode : Inode) : Option Handle :=
  Handle.new volume inode 1 (List.replicate volume.blockSize 0) (List.replicate volume.blockSize 0)
    (List.replicate volume.blockSize 0) (List.replicate volume.blockSize 0)

theorem plain_handle_fresh {handle : Handle} (made : plainHandle volume inode = some handle) :
    Fresh volume inode handle := by
  refine ⟨1, _, _, _, _, ?_, made⟩
  simp

theorem plain_mounted {blockCount : Nat} {byte : UInt8} (logBlockSize : Nat)
    (small : 1024 * 2 ^ logBlockSize < 2 ^ 32) :
    Mounted (plainVolume (1024 * 2 ^ logBlockSize) blockCount byte) := by
  refine ⟨⟨rfl, ?_, fun _ => List.length_replicate, ?_⟩, ⟨logBlockSize, rfl⟩, small⟩
  · intro item impossible
    exact absurd impossible List.not_mem_nil
  · exact Nat.mul_pos (by decide) (Nat.two_pow_pos _)

theorem entry_plain {size idx : Nat} (inside : idx < size / 4) :
    entry (List.replicate size 1) idx = 16843009 := by
  have four : min 4 (size - idx * 4) = 4 := by omega
  rw [entry, readLe, List.drop_replicate, List.take_replicate, four]
  rfl

/-- With this byte everywhere, every entry of a table is the same pointer. -/
theorem plain_pointers {size k addr sizeHi sizeLo pointer : Nat} (inside : k < capacity (size / 4))
    (member : addr ∈ pointers (plainInode sizeHi sizeLo pointer) (fun _ => List.replicate size 1)
      (locate (size / 4) k)) : addr = pointer ∨ addr = 16843009 := by
  obtain ⟨-, digits⟩ := index_of_locate inside
  generalize locate (size / 4) k = location at digits member
  cases location with
  | direct d =>
      have low : d < 12 := digits
      simp [pointers, tablePath, dataPointer, plainInode, low] at member
      exact .inl member
  | single i =>
      have low : i < size / 4 := digits
      simp [pointers, tablePath, dataPointer, plainInode, entry_plain low] at member
      exact member
  | double i j =>
      have high : i < size / 4 := digits.1
      have low : j < size / 4 := digits.2
      simp [pointers, tablePath, dataPointer,
        plainInode, entry_plain high, entry_plain low] at member
      exact member
  | triple i j l =>
      have high : i < size / 4 := digits.1
      have middle : j < size / 4 := digits.2.1
      have low : l < size / 4 := digits.2.2
      simp [pointers, tablePath, dataPointer, plainInode, entry_plain high, entry_plain middle,
        entry_plain low] at member
      exact member

/-- The first read fails when the first block cannot be buffered. -/
theorem opened_unreadable {contents : Contents} {Tables : Fin 3 → Nat → Prop}
    (opened : handle.Opened contents Tables)
    (outside : dataPointer handle.cursor.location.inode contents (.direct 0) ≥
      handle.cursor.volume.blockCount)
    (buffer : Block) : ∃ failure after, Handle.read buffer handle = .error failure after := by
  obtain ⟨settled, missing, -⟩ := opened
  have place : handle.cursor.location.location.location = .direct 0 := by
    rw [settled.cursor.place]
    rfl
  have flushed : Handle.flush handle = .ok () handle := by
    refine Handle.flush_of_clean settled.cursor.clean settled.saved ?_
    intro other present
    exact absurd (missing.symm.trans present) nofun
  have read := Cursor.read_block_spec settled.cursor.views place (show 0 < 12 by decide)
    (fun _ _ impossible => absurd impossible nofun) settled.sized
  have fill : ∃ failure after, Handle.fillBuffer handle = .error failure after := by
    change ∃ failure after, (if handle.blockCacheInfo.isNone then _ else _ : OnHandle Unit)
      handle = _
    rw [if_pos (by rw [missing]; rfl)]
    unfold Handle.internalUpdateBuffer
    cases outcome : Cursor.readBlock handle.blockCache handle.cursor with
    | error failure cursor => exact ⟨_, _, rfl⟩
    | ok result cursor =>
        rw [outcome] at read
        cases read with
        | ok holds => exact absurd holds.2.2.2.1 (Nat.not_lt.mpr outside)
  obtain ⟨failure, after, failed⟩ := fill
  refine ⟨failure, after, ?_⟩
  unfold Handle.read
  change (Handle.flush >>= fun _ => _ : OnHandle (Nat × Block)) handle = _
  rw [state_bind_ok flushed, state_bind_error failed]

theorem seek_panics {position : SeekPosition} {target : Nat}
    (found : fseekHelper position handle.offset handle.size = some target)
    (small : target / handle.cursor.volume.blockSize < 2 ^ 32)
    (divides : InodeReadingLocation.new (handle.cursor.volume.blockSize / 4)
      (target / handle.cursor.volume.blockSize) = none) :
    Handle.seek position handle = .error .panic { handle with offset := target } := by
  have panics : Cursor.seek (target / handle.cursor.volume.blockSize) handle.cursor =
      .error .panic handle.cursor := by
    rw [Cursor.seek, state_bind_get, divides]
    rfl
  rw [Handle.seek, state_bind_get, found]
  change (if target / handle.cursor.volume.blockSize ≥ 2 ^ 32 then _ else _ : OnHandle Unit)
    handle = _
  rw [if_neg (by omega)]
  change (onCursor (Cursor.seek _) >>= fun _ => _ : OnHandle Unit)
    { handle with offset := target } = _
  apply state_bind_error
  unfold onCursor
  rw [panics]

/-- The last two blocks of the file are reached through its table. -/
theorem indirect_file_read :
    fileBlocks (plainVolume 1024 33554432 1) (plainInode 0 13317 1) = 14 ∧
      ReadsFile (plainVolume 1024 33554432 1) (plainInode 0 13317 1) := by
  have blocks : fileBlocks (plainVolume 1024 33554432 1) (plainInode 0 13317 1) = 14 := by decide
  refine ⟨blocks, reads_return_the_file _ _ (plain_mounted 0 (by decide)) ?_ ?_ ?_⟩
  · intro k below
    have inside : k < capacity (1024 / 4) := by
      unfold capacity
      omega
    refine ⟨inside, fun addr member => ?_⟩
    rcases plain_pointers inside member with rfl | rfl
    · exact ⟨by decide, show 1 < 33554432 by decide⟩
    · exact ⟨by decide, show 16843009 < 33554432 by decide⟩
  · omega
  · rw [blocks]
    decide

/-- An empty file whose first pointer lies outside the volume cannot be read at all; with
blocks of 256 KiB the square of the table size is 0 in `u32`, and a seek behind the single
indirect blocks divides by it. -/
theorem reads_of_mapped_files_fail :
    (Mounted (plainVolume 1024 8 0) ∧ Mapped (plainVolume 1024 8 0) (plainInode 0 0 9) ∧
      ¬ReadsFile (plainVolume 1024 8 0) (plainInode 0 0 9)) ∧
    (Mounted (plainVolume 262144 33554432 1) ∧
      Mapped (plainVolume 262144 33554432 1) (plainInode 4 3407872 1) ∧
      ¬ReadsFile (plainVolume 262144 33554432 1) (plainInode 4 3407872 1)) := by
  refine ⟨⟨plain_mounted 0 (by decide), ?_, ?_⟩,
    ⟨plain_mounted 8 (by decide), ?_, ?_⟩⟩
  · intro k inside
    have empty : fileBlocks (plainVolume 1024 8 0) (plainInode 0 0 9) = 0 := by decide
    omega
  · intro reads
    obtain ⟨handle, made⟩ : ∃ handle,
        plainHandle (plainVolume 1024 8 0) (plainInode 0 0 9) = some handle :=
      ⟨_, rfl⟩
    have fresh := plain_handle_fresh made
    have opened := fresh_opened (plain_mounted 0 (by decide)) fresh
    obtain ⟨volume, inode, -⟩ := fresh_frame fresh
    obtain ⟨failure, after, failed⟩ := opened_unreadable opened (by rw [volume, inode]; decide) []
    obtain ⟨final, returned, -⟩ := (reads handle handle fresh .start).read []
    rw [failed] at returned
    cases returned
  · intro k inside
    have blocks : fileBlocks (plainVolume 262144 33554432 1)
        (plainInode 4 3407872 1) = 65549 := by decide
    rw [blocks] at inside
    have capacity : k < capacity (262144 / 4) := lt_trans inside (by decide)
    refine ⟨capacity, ?_⟩
    intro addr member
    rcases plain_pointers capacity member with rfl | rfl
    · exact ⟨by decide, by decide⟩
    · exact ⟨by decide, by decide⟩
  · intro reads
    obtain ⟨handle, made⟩ : ∃ handle,
        plainHandle (plainVolume 262144 33554432 1) (plainInode 4 3407872 1) = some handle :=
          ⟨_, rfl⟩
    have fresh := plain_handle_fresh made
    obtain ⟨volume, -, size⟩ := fresh_frame fresh
    have found : fseekHelper (.fromStart (65548 * 262144)) handle.offset handle.size =
        some (65548 * 262144) := by
      have inside : ¬65548 * 262144 > handle.size := by rw [size]; decide
      simp only [fseekHelper, if_neg inside]
    have blockSize : handle.cursor.volume.blockSize = 262144 := by rw [volume]; rfl
    have panics := seek_panics found (by rw [blockSize]; decide) (by rw [blockSize]; rfl)
    rcases (reads handle handle fresh .start).seek _ _ found (by rw [size]; decide) with
      ⟨after, returned, -⟩ | ⟨large, -⟩
    · rw [panics] at returned
      cases returned
    · rw [blockSize] at large
      exact absurd large (by decide)

end Campix.Ext2
