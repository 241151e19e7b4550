import Campix.Ext2.SeekTargets

/-!
# Files with holes

A block of a file is a hole where a pointer on the way to it is zero. The lookup answers
with a hole only where the last pointer is the one that is zero, and a read of a hole
returns the first block of the volume.
-/

namespace Campix.Ext2

open Lib.Blocks Lib.Fallible Lib.Outcome Lib.Word

set_option autoImplicit false

def sparsePointer (inode : Inode) (contents : Contents)
    (location : InodeReadingLocationInfo) : Nat :=
  if 0 ∈ tablePath inode contents location then 0 else dataPointer inode contents location

def sparseBlock (volume : Ext2Volume) (inode : Inode) (k : Nat) : Block :=
  let pointer := sparsePointer inode volume.device (locate (volume.blockSize / 4) k)
  if pointer = 0 then List.replicate volume.blockSize 0 else volume.device pointer

def sparseBytes (volume : Ext2Volume) (inode : Inode) : List UInt8 :=
  concat (sparseBlock volume inode) (fileBlocks volume inode)

/-- The positions that seeks and advances below the end lead to, with the index of the block. -/
inductive Wanders (count : Nat) (start : Cursor) : Nat → Cursor → Prop
  | start : Wanders count start 0 start
  | seek {k next : Nat} {cursor after : Cursor} (wandered : Wanders count start k cursor)
      (below : next < count) (word : next < 2 ^ 32)
        (went : Cursor.seek next cursor = .ok () after) :
      Wanders count start next after
  | advance {k : Nat} {cursor after : Cursor} (wandered : Wanders count start k cursor)
      (below : k + 1 < count) (went : Cursor.advance cursor = .ok true after) :
      Wanders count start (k + 1) after

/-- At every block that a run reaches the lookup answers with the pointer of the map, and
the run can go on to every other block. -/
def MapsBlocks (volume : Ext2Volume) (inode : Inode) : Prop :=
  ∀ handle k cursor, Fresh volume inode handle →
    Wanders (fileBlocks volume inode) handle.cursor k cursor → k < fileBlocks volume inode →
      Cursor.getNextBlock cursor =
          .ok (sparsePointer inode volume.device (locate (volume.blockSize / 4) k)) cursor ∧
        (∀ next < fileBlocks volume inode, next < 2 ^ 32 →
          ∃ after, Cursor.seek next cursor = .ok () after) ∧
        (k + 1 < fileBlocks volume inode → ∃ after, Cursor.advance cursor = .ok true after)

def ReadsHoles (volume : Ext2Volume) (inode : Inode) : Prop :=
  ∀ start handle, Fresh volume inode start → Visits start handle →
    Serves (sparseBytes volume inode) handle

/-- The pointers of the file lead to blocks of the volume, where there is a way to them. -/
structure InVolume (volume : Ext2Volume) (inode : Inode) : Prop where
  first : inode.directBlockPointers 0 < volume.blockCount
  inside : ∀ k < fileBlocks volume inode, k < capacity (volume.blockSize / 4)
  onVolume : ∀ k < fileBlocks volume inode,
    0 ∉ tablePath inode volume.device (locate (volume.blockSize / 4) k) →
      ∀ addr ∈ pointers inode volume.device (locate (volume.blockSize / 4) k),
        addr < volume.blockCount

/-- The square of the table size can be computed where a seek divides by it. -/
def Divides (volume : Ext2Volume) (inode : Inode) : Prop :=
  fileBlocks volume inode ≤ 12 + volume.blockSize / 4 ∨
    volume.blockSize / 4 * (volume.blockSize / 4) < 2 ^ 32

/-- Only the last pointer on the way to a block is missing, if one is. -/
def TablesPresent (volume : Ext2Volume) (inode : Inode) : Prop :=
  ∀ k < fileBlocks volume inode, 0 ∉ tablePath inode volume.device (locate (volume.blockSize / 4) k)

/-- The bytes that the first block of the volume has for the holes of the file are zero. -/
def HolesBlank (volume : Ext2Volume) (inode : Inode) : Prop :=
  ∀ k < fileBlocks volume inode, dataPointer inode volume.device
    (locate (volume.blockSize / 4) k) = 0 →
    ∀ j < volume.blockSize, k * volume.blockSize + j < inode.getSize volume.fileSize64 →
      (volume.device 0)[j]? = some 0

variable {volume : Ext2Volume} {inode : Inode} {handle : Handle} {cursor : Cursor} {k : Nat}

theorem readable_of_tables (inVolume : InVolume volume inode)
    (present : k < fileBlocks volume inode)
    (tables : 0 ∉ tablePath inode volume.device (locate (volume.blockSize / 4) k)) :
    Readable volume inode volume.device AnyTable k := by
  refine ⟨inVolume.inside k present, ?_, inVolume.onVolume k present tables⟩
  intro level addr member zero
  exact tables (zero ▸ List.mem_of_getElem? member)

structure Wandering (volume : Ext2Volume) (inode : Inode) (k : Nat) (cursor : Cursor) : Prop where
  here : cursor.At volume.device AnyTable k
  frame : cursor.volume.frame = volume.frame
  last : cursor.location.maxBlockExclusive = fileBlocks volume inode
  inode : cursor.location.inode = inode

theorem wandering_of_fresh (mounted : Mounted volume) (fresh : Fresh volume inode handle) :
    Wandering volume inode 0 handle.cursor := by
  have settled := (fresh_opened mounted fresh).1
  obtain ⟨sameVolume, sameInode, size⟩ := fresh_frame fresh
  have count : handle.count = fileBlocks volume inode := by
    rw [Handle.count, sameVolume, size, fileBlocks]
  exact ⟨settled.cursor, by rw [sameVolume], by rw [settled.last, count], sameInode⟩

theorem wandering_block_size (wandering : Wandering volume inode k cursor) :
    cursor.volume.blockSize = volume.blockSize :=
  Ext2Volume.block_size_of_frame wandering.frame

/-- A block of the file whose tables are there is reached from everywhere. -/
theorem wandering_arrives {next : Nat} (wandering : Wandering volume inode k cursor)
    (readable : Readable volume inode volume.device AnyTable next) :
    Yields (fun _ after => Wandering volume inode next after) (fun _ => False)
      (Cursor.checkTables (cursor.moveTo (locate (cursor.volume.blockSize / 4) next))) := by
  have blockSize := wandering_block_size wandering
  have blockCount := Ext2Volume.block_count_of_frame wandering.frame
  have here : Readable cursor.volume cursor.location.inode volume.device AnyTable next := by
    obtain ⟨inside, linked, onDevice⟩ := readable
    refine ⟨?_, ?_, ?_⟩
    · rwa [blockSize]
    · rwa [blockSize, wandering.inode]
    · rwa [blockSize, wandering.inode, blockCount]
  apply yields_weaken (Cursor.arrives wandering.here.views wandering.here.clean wandering.here.ready
    (fun _ _ nonzero => nonzero) here)
  · rintro _ after ⟨there, frame⟩
    refine ⟨there, ?_, ?_, ?_⟩
    · exact (show after.fileFrame.volume = cursor.fileFrame.volume by rw [frame]).trans
        wandering.frame
    · exact (show after.fileFrame.location.maxBlockExclusive =
        cursor.fileFrame.location.maxBlockExclusive by
        rw [frame]).trans wandering.last
    · exact (show after.fileFrame.location.inode = cursor.fileFrame.location.inode by
        rw [frame]).trans wandering.inode
  · intro _ impossible
    exact impossible

section Wandering

variable (wandering : Wandering volume inode k cursor)

include wandering

theorem wandering_looks_up (readable : Readable volume inode volume.device AnyTable k) :
    Cursor.getNextBlock cursor =
      .ok (dataPointer inode volume.device (locate (volume.blockSize / 4) k)) cursor := by
  have blockSize := wandering_block_size wandering
  obtain ⟨-, digits⟩ := index_of_locate readable.inside
  have here := wandering.here
  have place : cursor.location.location.location = locate (cursor.volume.blockSize / 4) k := by
    rw [here.place]
  have found := Cursor.get_next_block_eq here.views place (by rw [blockSize]; exact digits)
    here.loaded
  rwa [wandering.inode, blockSize] at found

theorem wandering_seek {next : Nat} (divides : Divides volume inode)
    (readable : Readable volume inode volume.device AnyTable next)
    (below : next < fileBlocks volume inode) :
    Yields (fun _ after => Wandering volume inode next after) (fun _ => False)
      (Cursor.seek next cursor) := by
  have blockSize := wandering_block_size wandering
  have inside := readable.inside
  have fits : next < 12 + cursor.volume.blockSize / 4 ∨
      cursor.volume.blockSize / 4 * (cursor.volume.blockSize / 4) < 2 ^ 32 := by
    rw [blockSize]
    exact divides.imp_left fun short => lt_of_lt_of_le below short
  rw [← blockSize] at inside
  rw [Cursor.seek_eq inside fits]
  exact wandering_arrives wandering readable

theorem wandering_advance (small : volume.blockSize < 2 ^ 32)
    (readable : Readable volume inode volume.device AnyTable (k + 1))
    (below : k + 1 < fileBlocks volume inode) :
    Yields (fun moved after => moved = true ∧ Wandering volume inode (k + 1) after) (fun _ => False)
      (Cursor.advance cursor) := by
  have blockSize := wandering_block_size wandering
  have inside := readable.inside
  rw [← blockSize] at inside small
  have word : cursor.volume.blockSize / 4 < 2 ^ 32 := by omega
  rw [Cursor.advance_eq word wandering.here.place inside wandering.last below]
  exact yields_bind (wandering_arrives wandering readable) fun _ after there => .ok ⟨rfl, there⟩

end Wandering

theorem wanders_wandering (mounted : Mounted volume) (divides : Divides volume inode)
    (readable : ∀ k < fileBlocks volume inode, Readable volume inode volume.device AnyTable k)
    (fresh : Fresh volume inode handle)
    (wandered : Wanders (fileBlocks volume inode) handle.cursor k cursor) :
    Wandering volume inode k cursor := by
  induction wandered with
  | start => exact wandering_of_fresh mounted fresh
  | seek wandered below word went ih =>
      have moves := wandering_seek ih divides (readable _ below) below
      rw [went] at moves
      cases moves with
      | ok there => exact there
  | advance wandered below went ih =>
      have moves := wandering_advance ih mounted.small (readable _ below) below
      rw [went] at moves
      cases moves with
      | ok there => exact there.2

theorem sparse_pointer_eq (tables : TablesPresent volume inode)
    (present : k < fileBlocks volume inode) :
    sparsePointer inode volume.device (locate (volume.blockSize / 4) k) =
      dataPointer inode volume.device (locate (volume.blockSize / 4) k) :=
  if_neg (tables k present)

/-- The square of a large table size is 0 in `u32`. -/
theorem square_overflows {logBlockSize : Nat}
    (large : ¬256 * 2 ^ logBlockSize * (256 * 2 ^ logBlockSize) < 2 ^ 32) :
    mul32 (256 * 2 ^ logBlockSize) (256 * 2 ^ logBlockSize) = 0 := by
  have high : 8 ≤ logBlockSize := by
    by_contra low
    apply large
    have bound : 2 ^ logBlockSize ≤ 2 ^ 7 := Nat.pow_le_pow_right (by decide) (by omega)
    calc 256 * 2 ^ logBlockSize * (256 * 2 ^ logBlockSize)
        ≤ (256 * 2 ^ 7) * (256 * 2 ^ 7) :=
          Nat.mul_le_mul (Nat.mul_le_mul_left _ bound) (Nat.mul_le_mul_left _ bound)
      _ < 2 ^ 32 := by decide
  obtain ⟨rest, rfl⟩ := Nat.exists_eq_add_of_le high
  have product : 256 * 2 ^ (8 + rest) * (256 * 2 ^ (8 + rest)) = 2 ^ 32 *
      (2 ^ rest * 2 ^ rest) := by
    rw [Nat.pow_add]
    ring
  unfold mul32
  rw [product]
  exact Nat.mul_mod_right ..

theorem fresh_of_wild (made : wildHandle volume inode = some handle) : Fresh volume inode handle :=
  ⟨1, _, _, _, _, by simp, made⟩

/-- A seek behind the single indirect blocks divides by the square of the table size. -/
theorem divides_of_maps (mounted : Mounted volume) (few : volume.blockCount < 2 ^ 32)
    (maps : MapsBlocks volume inode) : Divides volume inode := by
  by_contra refused
  obtain ⟨logBlockSize, power⟩ := mounted.size
  have size : volume.blockSize / 4 = 256 * 2 ^ logBlockSize := by
    rw [power]
    omega
  have small := mounted.small
  unfold Divides at refused
  have beyond : 12 + volume.blockSize / 4 < fileBlocks volume inode := by omega
  have zero : mul32 (volume.blockSize / 4) (volume.blockSize / 4) = 0 := by
    rw [size]
    apply square_overflows
    rw [← size]
    omega
  have panics : InodeReadingLocation.new (volume.blockSize / 4)
      (12 + volume.blockSize / 4) = none := by
    unfold InodeReadingLocation.new
    rw [if_neg (by omega), if_neg (by omega)]
    simp [zero]
  obtain ⟨handle, made, -, -, sameVolume, -⟩ := @wild_handle_spec _ inode mounted few
  obtain ⟨-, seeks, -⟩ := maps handle 0 handle.cursor (fresh_of_wild made) .start (by omega)
  obtain ⟨after, went⟩ := seeks _ beyond (by omega)
  rw [Cursor.seek, state_bind_get, sameVolume, panics] at went
  cases went

/-- From a handle whose copies still have the bytes of the heap, the way to a block has no
missing table. -/
theorem tables_of_maps (mounted : Mounted volume) (few : volume.blockCount < 2 ^ 32)
    (inVolume : InVolume volume inode) (words : fileBlocks volume inode ≤ 2 ^ 32)
    (divides : Divides volume inode)
    (maps : MapsBlocks volume inode) : TablesPresent volume inode := by
  intro k present missing
  obtain ⟨handle, made, onFile, wild, sameVolume, -⟩ := @wild_handle_spec _ inode mounted few
  have fresh := fresh_of_wild made
  have positive : 0 < fileBlocks volume inode := by omega
  obtain ⟨-, seeks, -⟩ := maps handle 0 handle.cursor fresh .start positive
  obtain ⟨looked, went⟩ := seeks k present (by omega)
  obtain ⟨answer, -⟩ := maps handle k looked fresh (.seek .start present (by omega) went) present
  have inside := inVolume.inside k present
  obtain ⟨-, digits⟩ := index_of_locate inside
  rw [← sameVolume] at digits missing
  have moved := wild_move_to wild (locate (handle.cursor.volume.blockSize / 4) k)
  have finds := Cursor.lookup_wild moved rfl digits
  have fits : k < 12 + handle.cursor.volume.blockSize / 4 ∨
      handle.cursor.volume.blockSize / 4 * (handle.cursor.volume.blockSize / 4) < 2 ^ 32 := by
    rw [sameVolume]
    exact divides.imp_left fun short => lt_of_lt_of_le present short
  unfold Cursor.Finds at finds
  rw [← Cursor.seek_eq (by rw [sameVolume]; exact inside) fits, went] at finds
  cases finds with
  | ok found =>
      rcases found with tables | astray
      · rw [← onFile.inode] at missing
        exact (tables 0 missing).1 rfl
      · rw [sameVolume] at missing
        rw [answer, sparsePointer, if_pos missing] at astray
        cases astray

theorem maps_blocks_iff (mounted : Mounted volume) (few : volume.blockCount < 2 ^ 32)
    (inVolume : InVolume volume inode) (words : fileBlocks volume inode ≤ 2 ^ 32) :
    MapsBlocks volume inode ↔ Divides volume inode ∧ TablesPresent volume inode := by
  constructor
  · intro maps
    have divides := divides_of_maps mounted few maps
    exact ⟨divides, tables_of_maps mounted few inVolume words divides maps⟩
  · rintro ⟨divides, tables⟩ handle k cursor fresh wandered present
    have readable : ∀ k < fileBlocks volume inode, Readable volume inode volume.device AnyTable k :=
      fun k present => readable_of_tables inVolume present (tables k present)
    have wandering := wanders_wandering mounted divides readable fresh wandered
    refine ⟨?_, ?_, ?_⟩
    · rw [sparse_pointer_eq tables present]
      exact wandering_looks_up wandering (readable k present)
    · intro next below _
      obtain ⟨_, after, went, -⟩ := yields_ok
        (wandering_seek wandering divides (readable next below) below)
      exact ⟨after, went⟩
    · intro below
      obtain ⟨moved, after, went, rfl, -⟩ :=
        yields_ok (wandering_advance wandering mounted.small (readable _ below) below)
      exact ⟨after, went⟩

theorem serves_congr {file other : List UInt8}
    (same : file.take handle.size = other.take handle.size)
    (serves : Serves file handle) : Serves other handle := by
  refine ⟨?_, serves.seek⟩
  intro buffer
  obtain ⟨after, returned, offset⟩ := serves.read buffer
  refine ⟨after, ?_, offset⟩
  have slice : ∀ bytes : List UInt8,
      (bytes.drop handle.offset).take (min buffer.length (handle.size - handle.offset)) =
        ((bytes.take handle.size).drop handle.offset).take
          (min buffer.length (handle.size - handle.offset)) := by
    intro bytes
    rw [List.drop_take, List.take_take]
    congr 1
    omega
  rw [slice, ← same, ← slice]
  exact returned

/-- A read of as many bytes as the file has returns the file. -/
theorem serves_unique {file other : List UInt8} (start : handle.offset = 0)
    (serves : Serves file handle)
    (servesOther : Serves other handle) : file.take handle.size = other.take handle.size := by
  obtain ⟨after, returned, -⟩ := serves.read (List.replicate handle.size 0)
  obtain ⟨otherAfter, otherReturned, -⟩ := servesOther.read (List.replicate handle.size 0)
  rw [returned] at otherReturned
  injection otherReturned with results
  have bytes := (Prod.mk.inj results).2
  simpa [start, List.drop_replicate] using bytes

/-- The holes are read as zeros if the first block of the volume has zeros for them. -/
theorem file_sparse_iff (mounted : Mounted volume) (tables : TablesPresent volume inode) :
    (fileBytes volume inode).take (inode.getSize volume.fileSize64) =
        (sparseBytes volume inode).take (inode.getSize volume.fileSize64) ↔
          HolesBlank volume inode := by
  have sized := mounted.stores.sized
  have blockSized : ∀ k, (blockOf inode volume.device (volume.blockSize / 4) k).length =
      volume.blockSize :=
    fun k => sized _
  have sparseSized : ∀ k, (sparseBlock volume inode k).length = volume.blockSize := by
    intro k
    unfold sparseBlock
    dsimp only
    split
    · exact List.length_replicate
    · exact sized _
  unfold fileBytes sparseBytes
  rw [take_concat_eq_iff blockSized sparseSized (size_le_blocks inode mounted)]
  constructor
  · intro same k present hole offset within before
    have byte := same k present offset within before
    rw [blockOf, hole, sparseBlock, sparse_pointer_eq tables present, hole, if_pos rfl,
      List.getElem?_replicate_of_lt within] at byte
    exact byte
  · intro blank k present offset within before
    rw [blockOf, sparseBlock, sparse_pointer_eq tables present]
    by_cases hole : dataPointer inode volume.device (locate (volume.blockSize / 4) k) = 0
    · rw [hole, if_pos rfl, List.getElem?_replicate_of_lt within]
      exact blank k present hole offset within before
    · rw [if_neg hole]

theorem reads_holes_iff (mounted : Mounted volume) (few : volume.blockCount < 2 ^ 32)
    (inVolume : InVolume volume inode) (divides : Divides volume inode)
    (tables : TablesPresent volume inode) :
    ReadsHoles volume inode ↔ HolesBlank volume inode := by
  have readable : ∀ k < fileBlocks volume inode, Readable volume inode volume.device AnyTable k :=
    fun k present => readable_of_tables inVolume present (tables k present)
  have reads : ReadsFile volume inode :=
    reads_of_readable mounted readable (fun _ => inVolume.first) divides
  rw [← file_sparse_iff mounted tables]
  constructor
  · intro holes
    obtain ⟨handle, made, onFile, -, -, start⟩ := @wild_handle_spec _ inode mounted few
    have fresh := fresh_of_wild made
    have same := serves_unique start (reads handle handle fresh .start)
      (holes handle handle fresh .start)
    rwa [onFile.size] at same
  · intro same start handle fresh visited
    obtain ⟨sameVolume, -, size⟩ := fresh_frame fresh
    have count : start.count = fileBlocks volume inode := by
      rw [Handle.count, sameVolume, size, fileBlocks]
    have linked := fresh_linked readable (fun _ => inVolume.first) fresh
    have reading := visits_reading (fresh_opened mounted fresh) linked
      (by rw [count, sameVolume]; exact divides) visited
    have kept : handle.size = inode.getSize volume.fileSize64 :=
      (Handle.same_file reading.frame).size.trans size
    exact serves_congr (by rwa [kept]) (reads start handle fresh visited)

/-- A file with holes is mapped and read as such if and only if every seek can be computed,
each hole comes from a missing last pointer, and the first block of the volume is zero where
it is read for a hole. -/
theorem sparse_files_iff (volume : Ext2Volume) (inode : Inode) (mounted : Mounted volume)
    (few : volume.blockCount < 2 ^ 32) (inVolume : InVolume volume inode)
    (words : fileBlocks volume inode ≤ 2 ^ 32) :
    MapsBlocks volume inode ∧ ReadsHoles volume inode ↔
      Divides volume inode ∧ TablesPresent volume inode ∧ HolesBlank volume inode := by
  rw [maps_blocks_iff mounted few inVolume words]
  constructor
  · rintro ⟨⟨divides, tables⟩, holes⟩
    exact ⟨divides, tables, (reads_holes_iff mounted few inVolume divides tables).mp holes⟩
  · rintro ⟨divides, tables, blank⟩
    exact ⟨⟨divides, tables⟩, (reads_holes_iff mounted few inVolume divides tables).mpr blank⟩

theorem plain_blocks {blockCount sizeLo count : Nat} {byte : UInt8}
    (rounded : (sizeLo + 1023) / 1024 = count) :
    fileBlocks (plainVolume 1024 blockCount byte) (plainInode 0 sizeLo 0) = count := by
  rw [← rounded]
  have size : (plainInode 0 sizeLo 0).getSize true = sizeLo := by
    change (if InodeType.file = .file ∧ true then 0 <<< 32 ||| sizeLo else sizeLo) = sizeLo
    rw [if_pos ⟨rfl, rfl⟩, Nat.zero_shiftLeft, Nat.zero_or]
  change ((plainInode 0 sizeLo 0).getSize true + 1024 - 1) / 1024 = _
  rw [size]
  rfl

theorem hole_in_volume (byte : UInt8) : InVolume (plainVolume 1024 8 byte) (plainInode 0 5 0) := by
  have oneBlock : fileBlocks (plainVolume 1024 8 byte) (plainInode 0 5 0) = 1 := plain_blocks rfl
  have first : 0 < (plainVolume 1024 8 byte).blockCount := Nat.zero_lt_succ 7
  refine ⟨first, ?_, ?_⟩
  · intro k inside
    obtain rfl : k = 0 := by omega
    unfold capacity
    omega
  · intro k inside _ addr member
    obtain rfl : k = 0 := by omega
    obtain rfl : addr = 0 := List.mem_singleton.mp member
    exact first

theorem holes_in_volume : InVolume (plainVolume 1024 8 7) (plainInode 0 13312 0) := by
  have blocks : fileBlocks (plainVolume 1024 8 7) (plainInode 0 13312 0) = 13 := plain_blocks rfl
  have tableSize : (plainVolume 1024 8 7).blockSize / 4 = 256 := by decide
  refine ⟨by decide, ?_, ?_⟩
  · intro k inside
    unfold capacity
    omega
  · intro k inside tables addr member
    rw [tableSize] at tables member
    rcases Nat.lt_succ_iff_lt_or_eq.mp (show k < 12 + 1 by omega) with direct | rfl
    · rw [locate_direct direct] at member
      obtain rfl : addr = 0 := by
        simpa [pointers, tablePath, dataPointer, plainInode, direct] using member
      decide
    · rw [locate_twelve] at tables
      exact absurd (List.mem_singleton.mpr rfl) tables

/-- A file of one hole is read as the first block of the volume, and behind a missing table
the lookup returns the bytes that the copy of the table had before. -/
theorem holes_are_read_wrongly :
    (Mounted (plainVolume 1024 8 7) ∧ InVolume (plainVolume 1024 8 7) (plainInode 0 5 0) ∧
      ¬ReadsHoles (plainVolume 1024 8 7) (plainInode 0 5 0)) ∧
    (Mounted (plainVolume 1024 8 7) ∧ InVolume (plainVolume 1024 8 7) (plainInode 0 13312 0) ∧
      ¬MapsBlocks (plainVolume 1024 8 7) (plainInode 0 13312 0)) := by
  have mounted : Mounted (plainVolume 1024 8 7) := plain_mounted 0 (by decide)
  have few : (plainVolume 1024 8 7).blockCount < 2 ^ 32 := by decide
  have tableSize : (plainVolume 1024 8 7).blockSize / 4 = 256 := by decide
  refine ⟨⟨mounted, hole_in_volume 7, ?_⟩, ⟨mounted, holes_in_volume, ?_⟩⟩
  · intro holes
    have oneBlock : fileBlocks (plainVolume 1024 8 7) (plainInode 0 5 0) = 1 := plain_blocks rfl
    have divides : Divides (plainVolume 1024 8 7) (plainInode 0 5 0) :=
      .inr (by rw [tableSize]; decide)
    have tables : TablesPresent (plainVolume 1024 8 7) (plainInode 0 5 0) := by
      intro k present
      obtain rfl : k = 0 := by omega
      exact List.not_mem_nil
    have blank := (reads_holes_iff mounted few (hole_in_volume 7) divides tables).mp holes
    have byte := blank 0 (by omega) rfl 0 (by decide) (by decide)
    exact absurd byte (by decide)
  · intro maps
    have blocks : fileBlocks (plainVolume 1024 8 7) (plainInode 0 13312 0) = 13 := plain_blocks rfl
    have found := (maps_blocks_iff mounted few holes_in_volume (by rw [blocks]; decide)).mp maps
    have missing := found.2 12 (by omega)
    rw [tableSize, locate_twelve] at missing
    exact missing (List.mem_singleton.mpr rfl)

/-- On a volume whose first block is zero a hole is read as zeros. -/
theorem hole_is_read_as_zeros :
    MapsBlocks (plainVolume 1024 8 0) (plainInode 0 5 0) ∧
      ReadsHoles (plainVolume 1024 8 0) (plainInode 0 5 0) := by
  have oneBlock : fileBlocks (plainVolume 1024 8 0) (plainInode 0 5 0) = 1 := plain_blocks rfl
  have mounted : Mounted (plainVolume 1024 8 0) := plain_mounted 0 (by decide)
  apply (sparse_files_iff _ _ mounted (by decide) (hole_in_volume 0) (by rw [oneBlock]; decide)).mpr
  refine ⟨.inr (by decide), ?_, ?_⟩
  · intro k present
    obtain rfl : k = 0 := by omega
    exact List.not_mem_nil
  · intro k present _ offset within _
    exact List.getElem?_replicate_of_lt within

end Campix.Ext2
