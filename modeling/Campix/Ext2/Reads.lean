import Campix.Ext2.FileHandle
import Campix.Ext2.Path
import Campix.Lib.Blocks

/-!
# Reading a file

A handle that has nothing to write back stands at a block `k`: the tables on the way are
in memory, the buffer holds block `k`, and the offset lies in it or at the start of the
block behind it. `read` moves from one such state to another and returns the bytes in
between.
-/

namespace Campix.Ext2

open Lib.Blocks Lib.Fallible Lib.Outcome Lib.Slice Lib.Word
open Drivers

set_option autoImplicit false

def blockOf (inode : Inode) (contents : Contents) (tableSize k : Nat) : Block :=
  contents (dataPointer inode contents (locate tableSize k))

/-- The way to a block leads through tables and stays on the device. -/
structure Readable (volume : Ext2Volume) (inode : Inode) (contents : Contents)
    (Tables : Fin 3 → Nat → Prop) (k : Nat) : Prop where
  inside : k < capacity (volume.blockSize / 4)
  linked : ∀ (level : Fin 3) addr,
    (tablePath inode contents (locate (volume.blockSize / 4) k))[level.val]? = some addr →
      Tables level addr
  onDevice : ∀ addr ∈ pointers inode contents (locate (volume.blockSize / 4) k),
    addr < volume.blockCount

namespace Cursor

variable {cursor after : Cursor} {contents : Contents} {Tables : Fin 3 → Nat → Prop} {k : Nat}

def fileFrame (cursor : Cursor) : Cursor :=
  { cursor.frame with location := { cursor.frame.location with location := ⟨.direct 0, 0⟩ } }

/-- Nothing is to be written back, and a copy of a table is one of the device. -/
structure Idle (cursor : Cursor) (contents : Contents) (Tables : Fin 3 → Nat → Prop) : Prop where
  views : cursor.Views contents
  clean : ∀ level, (cursor.location.tables level).dirty = false
  ready : cursor.Ready contents Tables

/-- At block `k`, with nothing changed in memory. -/
structure At (cursor : Cursor) (contents : Contents) (Tables : Fin 3 → Nat → Prop)
    (k : Nat) : Prop where
  views : cursor.Views contents
  clean : ∀ level, (cursor.location.tables level).dirty = false
  ready : cursor.Ready contents Tables
  place : cursor.location.location =
    ⟨locate (cursor.volume.blockSize / 4) k, cursor.volume.blockSize / 4⟩
  loaded : cursor.Loaded contents
    (tablePath cursor.location.inode contents (locate (cursor.volume.blockSize / 4) k))

theorem device_of_clean (views : cursor.Views contents)
    (clean : ∀ level, (cursor.location.tables level).dirty = false) : cursor.volume.device =
    contents := by
  funext lba
  apply views.unchanged
  intro level dirty
  rw [clean level] at dirty
  exact absurd dirty Bool.false_ne_true

section Arrives

variable (views : cursor.Views contents)
  (clean : ∀ level, (cursor.location.tables level).dirty = false)
  (ready : cursor.Ready contents Tables) (nonzero : ∀ level addr, Tables level addr → addr ≠ 0)
  (readable : Readable cursor.volume cursor.location.inode contents Tables k)

include views clean ready nonzero readable

theorem check_tables_arrives :
    Yields (fun _ after => (cursor.moveTo (locate (cursor.volume.blockSize / 4) k)).Arrived
      contents Tables
        (locate (cursor.volume.blockSize / 4) k) after ∧
        ∀ level, (after.location.tables level).dirty = false)
      (fun _ => False)
      (checkTables (cursor.moveTo (locate (cursor.volume.blockSize / 4) k))) := by
  obtain ⟨-, digits⟩ := index_of_locate readable.inside
  have moved : (cursor.moveTo (locate (cursor.volume.blockSize / 4) k)).Ready contents
      Tables := ready
  refine yields_weaken
    (check_tables_spec (views_move_to views _) rfl digits moved nonzero readable.linked) ?_ ?_
  · intro _ after arrived
    refine ⟨arrived, fun level => ?_⟩
    rw [Bool.eq_false_iff]
    intro dirty
    have before := (arrived.reached.dirty level dirty).1
    exact absurd (before.symm.trans (clean level)) (by decide)
  · rintro _ (⟨addr, member, beyond⟩ | ⟨level, dirty⟩)
    · exact absurd (readable.onDevice addr member) (by exact Nat.not_lt.mpr beyond)
    · exact absurd (dirty.symm.trans (clean level)) (by decide)

omit views clean ready nonzero readable in
theorem at_of_arrived {Wide : Fin 3 → Nat → Prop}
    (arrived : (cursor.moveTo (locate (cursor.volume.blockSize / 4) k)).Arrived contents Tables
      (locate (cursor.volume.blockSize / 4) k) after)
    (still : ∀ level, (after.location.tables level).dirty = false)
    (upToDate : after.Ready contents Wide) :
    after.At contents Wide k ∧ after.fileFrame = cursor.fileFrame := by
  have frame := arrived.reached.frame
  have blockSize := Ext2Volume.block_size_of_frame (volume_of_frame frame)
  refine ⟨⟨arrived.reached.views, still, upToDate, ?_, ?_⟩, ?_⟩
  · rw [blockSize]
    exact location_of_frame frame
  · rw [blockSize, inode_of_frame frame]
    exact arrived.loaded
  · exact congrArg (fun frame : Cursor =>
      { frame with location := { frame.location with location := ⟨.direct 0, 0⟩ } }) frame

theorem arrives :
    Yields (fun _ after => after.At contents Tables k ∧ after.fileFrame = cursor.fileFrame)
      (fun _ => False)
      (checkTables (cursor.moveTo (locate (cursor.volume.blockSize / 4) k))) :=
  yields_weaken (check_tables_arrives views clean ready nonzero readable)
    (fun _ _ ⟨arrived, still⟩ => at_of_arrived arrived still arrived.reached.ready)
      fun _ impossible => impossible

/-- Behind `check_table3` the copies are those of the way, of block 0 or of the data block.
So any blocks but these can be taken for tables, whatever the copies were before. -/
theorem arrives_wide {Wide : Fin 3 → Nat → Prop} (apart : ∀ level addr, Wide level addr → addr ≠ 0 ∧
      addr ≠ dataPointer cursor.location.inode contents (locate (cursor.volume.blockSize / 4) k)) :
    Yields (fun _ after => after.At contents Wide k ∧ after.fileFrame = cursor.fileFrame)
      (fun _ => False)
      (checkTables (cursor.moveTo (locate (cursor.volume.blockSize / 4) k))) := by
  refine yields_weaken (check_tables_arrives views clean ready nonzero readable)
    ?_ fun _ impossible => impossible
  rintro _ after ⟨arrived, still⟩
  refine at_of_arrived arrived still ?_
  intro level addr isTable
  obtain ⟨addrNonzero, noData⟩ := apart level addr isTable
  refine ⟨fun present => ?_, fun other _ dirty => absurd (dirty.symm.trans (still other))
    (by decide)⟩
  have checked := (arrived.addr level).symm.trans present
  cases onPath : (tablePath cursor.location.inode contents
      (locate (cursor.volume.blockSize / 4) k))[level.val]? with
  | some found =>
      obtain ⟨-, table⟩ := arrived.loaded level found onPath
      rw [table, ← checked]
      exact congrArg contents (checked_addr_of_path onPath).symm
  | none =>
      rcases checked_addr_off_path onPath with zero | data
      · exact absurd (checked.symm.trans zero) addrNonzero
      · exact absurd (checked.symm.trans data) noData

end Arrives

theorem flush_of_clean (clean : ∀ level, (cursor.location.tables level).dirty = false)
    (saved : cursor.location.inodeDirty = false) : flush cursor = .ok () cursor := by
  have skip : ∀ level, flushTable level cursor = .ok () cursor := by
    intro level
    change (if (cursor.location.tables level).dirty ∧ _ then _ else _ : OnCursor Unit) cursor = _
    rw [if_neg (by rw [clean level]; simp)]
    rfl
  unfold flush
  rw [state_bind_ok (skip 0), state_bind_ok (skip 1), state_bind_ok (skip 2)]
  change (if cursor.location.inodeDirty then _ else _ : OnCursor Unit) cursor = _
  rw [if_neg (by rw [saved]; exact Bool.false_ne_true)]
  rfl

end Cursor

namespace Handle

variable {handle after : Handle} {contents : Contents} {Tables : Fin 3 → Nat → Prop} {k : Nat}

/-- All of the handle but where it stands and what it keeps in memory. -/
def frame (handle : Handle) : Handle :=
  { handle with cursor := handle.cursor.fileFrame, offset := 0, blockCache := [], blockCacheInfo := none }

def blocks (handle : Handle) (contents : Contents) (k : Nat) : Block :=
  blockOf handle.cursor.location.inode contents (handle.cursor.volume.blockSize / 4) k

/-- The number of blocks that the size of the file takes. -/
def count (handle : Handle) : Nat :=
  (handle.size + handle.cursor.volume.blockSize - 1) / handle.cursor.volume.blockSize

def bytes (handle : Handle) (contents : Contents) : List UInt8 :=
  concat (handle.blocks contents) handle.count

structure SameFile (handle after : Handle) : Prop where
  blockSize : after.cursor.volume.blockSize = handle.cursor.volume.blockSize
  blockCount : after.cursor.volume.blockCount = handle.cursor.volume.blockCount
  inode : after.cursor.location.inode = handle.cursor.location.inode
  last : after.cursor.location.maxBlockExclusive = handle.cursor.location.maxBlockExclusive
  saved : after.cursor.location.inodeDirty = handle.cursor.location.inodeDirty
  size : after.size = handle.size

theorem same_file (frame : after.frame = handle.frame) : SameFile handle after where
  blockSize := show after.frame.cursor.volume.blockSize = handle.frame.cursor.volume.blockSize by
    rw [frame]
  blockCount := show after.frame.cursor.volume.blockCount = handle.frame.cursor.volume.blockCount by
    rw [frame]
  inode := show after.frame.cursor.location.inode = handle.frame.cursor.location.inode by rw [frame]
  last := show after.frame.cursor.location.maxBlockExclusive =
    handle.frame.cursor.location.maxBlockExclusive by rw [frame]
  saved := show after.frame.cursor.location.inodeDirty = handle.frame.cursor.location.inodeDirty by
    rw [frame]
  size := show after.frame.size = handle.frame.size by rw [frame]

theorem count_of_frame (frame : after.frame = handle.frame) : after.count = handle.count :=
  show after.frame.count = handle.frame.count by rw [frame]

theorem blocks_of_frame (frame : after.frame = handle.frame) :
    after.blocks contents = handle.blocks contents :=
  show after.frame.blocks contents = handle.frame.blocks contents by rw [frame]

theorem bytes_of_frame (frame : after.frame = handle.frame) :
    after.bytes contents = handle.bytes contents :=
  show after.frame.bytes contents = handle.frame.bytes contents by rw [frame]

theorem yields_on_cursor {Value : Type} {operation : OnCursor Value} {failed : Prop}
    {post : Value → Cursor → Prop}
    (yields : Yields post (fun _ => failed) (operation handle.cursor)) :
    Yields (fun value after => ∃ cursor, after = { handle with cursor := cursor } ∧
      post value cursor)
      (fun _ => failed) (onCursor operation handle) := by
  unfold onCursor
  cases outcome : operation handle.cursor with
  | ok value cursor =>
      rw [outcome] at yields
      cases yields with
      | ok holds => exact .ok ⟨cursor, rfl, holds⟩
  | error failure cursor =>
      rw [outcome] at yields
      cases yields with
      | error holds => exact .error holds

/-- What `internal_update_buffer` leaves at block `k`. -/
structure Refilled (handle : Handle) (contents : Contents) (Tables : Fin 3 → Nat → Prop) (k : Nat)
    (after : Handle) : Prop where
  cursor : after.cursor.At contents Tables k
  frame : after.frame = handle.frame
  offset : after.offset = handle.offset
  buffer : after.blockCache = handle.blocks contents k
  info : ∃ size, (k + 1 < handle.count → size = handle.cursor.volume.blockSize) ∧
    after.blockCacheInfo = some ⟨k % 2 ^ 32, size, false⟩

theorem internal_update_buffer_spec (here : handle.cursor.At contents Tables k)
    (readable : Readable handle.cursor.volume handle.cursor.location.inode contents Tables k)
    (last : handle.cursor.location.maxBlockExclusive = handle.count)
    (sized : handle.blockCache.length = handle.cursor.volume.blockSize) :
    Yields (fun _ after => handle.Refilled contents Tables k after) (fun _ => False)
      (internalUpdateBuffer handle) := by
  obtain ⟨index, digits⟩ := index_of_locate readable.inside
  have place : handle.cursor.location.location.location = locate
      (handle.cursor.volume.blockSize / 4) k := by
    rw [here.place]
  have current : handle.cursor.location.location.currentBlockIdx = k % 2 ^ 32 := by
    rw [here.place, current_block_idx_eq _ digits, index]
  have inside := readable.onDevice _ (List.mem_append_right _ (List.mem_singleton_self _))
  have read := Cursor.read_block_spec here.views place digits here.loaded sized
  unfold internalUpdateBuffer
  cases outcome : Cursor.readBlock handle.blockCache handle.cursor with
  | error failure cursor =>
      rw [outcome] at read
      cases read with
      | error beyond => exact absurd inside (Nat.not_lt.mpr beyond)
  | ok result cursor =>
      rw [outcome] at read
      cases read with
      | ok holds =>
          obtain ⟨views, frame, same, -, rfl⟩ := holds
          have blockSize : cursor.volume.blockSize = handle.cursor.volume.blockSize :=
            Ext2Volume.block_size_of_frame (Cursor.volume_of_frame frame)
          have stands : cursor.At contents Tables k := by
            refine ⟨views, ?_, ?_, ?_, ?_⟩
            · rw [same]
              exact here.clean
            · unfold Cursor.Ready
              rw [same]
              exact here.ready
            · rw [same, blockSize]
              exact here.place
            · unfold Cursor.Loaded
              rw [same, blockSize]
              exact here.loaded
          refine .ok ⟨stands, ?_, rfl, ?_, handle.cursor.usedSize, ?_, ?_⟩
          · exact congrArg (fun frame : Cursor => { handle.frame with cursor :=
              { frame with location := { frame.location with location := ⟨.direct 0, 0⟩ } } }) frame
          · rw [Cursor.device_of_clean here.views here.clean]
            rfl
          · intro before
            have reduced : k % 2 ^ 32 ≤ k := Nat.mod_le ..
            unfold Cursor.usedSize
            rw [if_pos (by rw [current, last]; omega)]
          · change some (BlockCacheInfo.mk cursor.location.location.currentBlockIdx _ _) = _
            rw [same, current]

section Flush

variable (clean : ∀ level, (handle.cursor.location.tables level).dirty = false)
variable (saved : handle.cursor.location.inodeDirty = false)

include clean saved

theorem flush_tables_clean : onCursor Cursor.flush handle = .ok () handle := by
  unfold onCursor
  rw [Cursor.flush_of_clean clean saved]

theorem flush_of_clean (written : ∀ info, handle.blockCacheInfo = some info → info.dirty = false) :
    flush handle = .ok () handle := by
  unfold flush
  rw [state_bind_ok (flush_tables_clean clean saved), state_bind_get]
  cases present : handle.blockCacheInfo with
  | none => rfl
  | some info =>
      change (if info.dirty then _ else _ : OnHandle Unit) handle = _
      rw [if_neg (by rw [written info present]; exact Bool.false_ne_true)]
      rfl

variable {info : BlockCacheInfo} (present : handle.blockCacheInfo = some info)
  (dirty : info.dirty = true)

include present dirty

theorem flush_of_changed : flush handle =
    (onCursor (Cursor.writeBlock handle.blockCache) >>= fun _ => modify fun handle =>
      { handle with blockCacheInfo := some { info with dirty := false } } : OnHandle Unit)
        handle := by
  unfold flush
  rw [state_bind_ok (flush_tables_clean clean saved), state_bind_get, present]
  change (if info.dirty then _ else _ : OnHandle Unit) handle = _
  rw [if_pos dirty]

theorem flush_writes {size : Nat} {volume : Ext2Volume}
    (written : Cursor.writeBlock handle.blockCache handle.cursor =
      .ok size { handle.cursor with volume := volume }) :
    flush handle = .ok () { handle with
      cursor := { handle.cursor with volume := volume }
      blockCacheInfo := some { info with dirty := false } } := by
  have wrote : onCursor (Cursor.writeBlock handle.blockCache) handle =
      .ok size { handle with cursor := { handle.cursor with volume := volume } } := by
    unfold onCursor
    rw [written]
  rw [flush_of_changed clean saved present dirty, state_bind_ok wrote]
  rfl

end Flush

theorem frame_written {volume : Ext2Volume} (frame : volume.frame = handle.cursor.volume.frame)
    (info : Option BlockCacheInfo) :
    ({ handle with cursor := { handle.cursor with volume := volume }, blockCacheInfo := info } :
      Handle).frame =
      handle.frame :=
  congrArg (fun volume => ({ handle.frame with
    cursor := { handle.frame.cursor with volume := volume } } : Handle)) frame

/-- A handle at block `k`, with nothing to write back. -/
structure Settled (handle : Handle) (contents : Contents) (Tables : Fin 3 → Nat → Prop) (k : Nat) :
    Prop where
  cursor : handle.cursor.At contents Tables k
  saved : handle.cursor.location.inodeDirty = false
  last : handle.cursor.location.maxBlockExclusive = handle.count
  sized : handle.blockCache.length = handle.cursor.volume.blockSize
  bounded : handle.offset ≤ handle.size
  small : handle.cursor.volume.blockSize < 2 ^ 32

/-- A handle with nothing to write back, wherever it stands. -/
structure Idle (handle : Handle) (contents : Contents) (Tables : Fin 3 → Nat → Prop) : Prop where
  cursor : handle.cursor.Idle contents Tables
  saved : handle.cursor.location.inodeDirty = false
  last : handle.cursor.location.maxBlockExclusive = handle.count
  sized : handle.blockCache.length = handle.cursor.volume.blockSize
  small : handle.cursor.volume.blockSize < 2 ^ 32

theorem idle_of_settled (settled : handle.Settled contents Tables k) :
    handle.Idle contents Tables :=
  ⟨⟨settled.cursor.views, settled.cursor.clean, settled.cursor.ready⟩, settled.saved, settled.last,
    settled.sized,
    settled.small⟩

/-- The buffer holds block `k`; the offset lies in it or right behind it, and
`current_block == info.block` tells the two apart. -/
structure Buffered (handle : Handle) (contents : Contents) (k : Nat)
    (info : BlockCacheInfo) : Prop where
  present : handle.blockCacheInfo = some info
  clean : info.dirty = false
  buffer : handle.blockCache = handle.blocks contents k
  near : handle.offset / handle.cursor.volume.blockSize = k ∨
    handle.offset = (k + 1) * handle.cursor.volume.blockSize
  block : handle.offset / handle.cursor.volume.blockSize % 2 ^ 32 = info.block ↔
    handle.offset / handle.cursor.volume.blockSize = k
  size : k + 1 < handle.count → info.size = handle.cursor.volume.blockSize

theorem length_blocks (here : handle.cursor.At contents Tables k) (idx : Nat) :
    (handle.blocks contents idx).length = handle.cursor.volume.blockSize := by
  have sized := here.views.stores.sized
  rw [Cursor.device_of_clean here.views here.clean] at sized
  exact sized _

theorem settled_refilled (settled : handle.Settled contents Tables k)
    (refilled : handle.Refilled contents Tables k after) : after.Settled contents Tables k := by
  obtain ⟨blockSize, -, inode, last, saved, size⟩ := same_file refilled.frame
  refine ⟨refilled.cursor, saved.trans settled.saved, ?_, ?_, ?_, blockSize ▸ settled.small⟩
  · rw [last, count_of_frame refilled.frame]
    exact settled.last
  · rw [refilled.buffer, blockSize]
    exact length_blocks settled.cursor k
  · rw [refilled.offset, size]
    exact settled.bounded

/-- The comparison of `u32` block numbers next to the buffered block. -/
theorem block_iff {offset blockSize k : Nat} (positive : 0 < blockSize)
    (near : offset / blockSize = k ∨ offset = (k + 1) * blockSize) :
    offset / blockSize % 2 ^ 32 = k % 2 ^ 32 ↔ offset / blockSize = k := by
  rcases near with within | behind
  · simp [within]
  · rw [behind, Nat.mul_div_cancel _ positive]
    omega

theorem near_after {offset blockSize copied k : Nat} (within : offset / blockSize = k)
    (inside : offset % blockSize + copied ≤ blockSize) :
    (offset + copied) / blockSize = k ∨ offset + copied = (k + 1) * blockSize := by
  have parts := Nat.div_add_mod offset blockSize
  rw [within, Nat.mul_comm] at parts
  by_cases full : offset % blockSize + copied = blockSize
  · right
    rw [Nat.succ_mul]
    omega
  · left
    have positive : 0 < blockSize := by omega
    have regroup : offset + copied = k * blockSize + (offset % blockSize + copied) := by omega
    rw [regroup, (two_digits (by omega)).1]

def Stands (handle : Handle) (contents : Contents) (Tables : Fin 3 → Nat → Prop) : Prop :=
  ∃ k info, handle.Settled contents Tables k ∧ handle.Buffered contents k info

/-- The tables are blocks other than block 0, and the way to every block of the file is
there; a handle starts at the first block, also of an empty file. -/
structure Linked (handle : Handle) (contents : Contents) (Tables : Fin 3 → Nat → Prop) : Prop where
  nonzero : ∀ level addr, Tables level addr → addr ≠ 0
  readable : ∀ k, k < handle.count ∨ k = 0 →
    Readable handle.cursor.volume handle.cursor.location.inode contents Tables k

theorem linked_of_frame (frame : after.frame = handle.frame)
    (linked : handle.Linked contents Tables) :
    after.Linked contents Tables := by
  obtain ⟨blockSize, blockCount, inode, -, -, -⟩ := same_file frame
  refine ⟨linked.nonzero, ?_⟩
  intro k inside
  rw [count_of_frame frame] at inside
  obtain ⟨capacity, path, onDevice⟩ := linked.readable k inside
  exact ⟨by rwa [blockSize], by rwa [blockSize, inode], by rwa [blockSize, inode, blockCount]⟩

/-- `advance` and `internal_update_buffer` in the loops of `read` and `write`. -/
theorem advance_spec (settled : handle.Settled contents Tables k)
    (linked : handle.Linked contents Tables)
    (more : k + 1 < handle.count) :
    Yields
      (fun advanced after => advanced = true ∧ after.cursor.At contents Tables (k + 1) ∧
        after = { handle with cursor := after.cursor } ∧ after.frame = handle.frame)
      (fun _ => False) (onCursor Cursor.advance handle) := by
  have here := settled.cursor
  have readable := linked.readable (k + 1) (.inl more)
  have small : handle.cursor.volume.blockSize / 4 < 2 ^ 32 := by
    have := settled.small
    omega
  have moves := Cursor.arrives here.views here.clean here.ready linked.nonzero readable
  have advance : Yields (fun advanced after => advanced = true ∧ after.At contents Tables (k + 1) ∧
      after.fileFrame = handle.cursor.fileFrame) (fun _ => False)
        (Cursor.advance handle.cursor) := by
    rw [Cursor.advance_eq small here.place readable.inside settled.last more]
    exact yields_bind moves fun _ after holds => .ok ⟨rfl, holds⟩
  refine yields_weaken (yields_on_cursor advance) ?_ fun _ impossible => impossible
  rintro advanced _ ⟨cursor, rfl, rfl, there, frame⟩
  exact ⟨rfl, there, rfl, congrArg (fun cursor => { handle.frame with cursor := cursor }) frame⟩

/-- The next block is in the buffer and the wanted part of it is copied. -/
structure Stepped (handle : Handle) (contents : Contents) (Tables : Fin 3 → Nat → Prop)
    (k copied : Nat)
    (after : Handle) : Prop where
  settled : after.Settled contents Tables (k + 1)
  buffered : ∃ info, after.Buffered contents (k + 1) info
  frame : after.frame = handle.frame
  offset : after.offset = handle.offset + copied

theorem stepped_of_refilled {middle : Handle} {copied : Nat}
    (settled : handle.Settled contents Tables k)
    (behind : handle.offset = (k + 1) * handle.cursor.volume.blockSize)
    (moved : middle = { handle with cursor := middle.cursor }) (same : middle.frame = handle.frame)
    (refilled : middle.Refilled contents Tables (k + 1) after)
    (inside : copied ≤ handle.cursor.volume.blockSize)
    (bounded : handle.offset + copied ≤ handle.size) :
    handle.Stepped contents Tables k copied { after with offset := after.offset + copied } := by
  have frame : after.frame = handle.frame := refilled.frame.trans same
  obtain ⟨blockSize, -, -, last, saved, size⟩ := same_file frame
  have offset : after.offset = handle.offset := by rw [refilled.offset, moved]
  have positive : 0 < after.cursor.volume.blockSize := refilled.cursor.views.stores.positive
  have near := near_after
    (show handle.offset / handle.cursor.volume.blockSize = k + 1 by
      rw [behind, Nat.mul_div_cancel _ (blockSize ▸ positive)])
    (show handle.offset % handle.cursor.volume.blockSize + copied ≤
      handle.cursor.volume.blockSize by
      rw [behind, Nat.mul_mod_left]
      omega)
  obtain ⟨infoSize, full, info⟩ := refilled.info
  rw [← blockSize, ← offset] at near
  refine ⟨⟨refilled.cursor, saved.trans settled.saved, ?_, ?_, ?_, blockSize ▸ settled.small⟩,
    ⟨_, info, rfl, ?_,
    near, block_iff positive near, ?_⟩, frame, congrArg (· + copied) offset⟩
  · exact last.trans (settled.last.trans (congrArg Nat.cast (count_of_frame frame).symm))
  · change after.blockCache.length = after.cursor.volume.blockSize
    rw [refilled.buffer, blocks_of_frame same, blockSize]
    exact length_blocks settled.cursor _
  · change after.offset + copied ≤ after.size
    rw [offset, size]
    exact bounded
  · exact refilled.buffer.trans (congrFun (blocks_of_frame refilled.frame).symm _)
  · intro more
    exact (full ((count_of_frame refilled.frame).symm ▸ more)).trans
      (same_file refilled.frame).blockSize.symm

theorem size_le_count (positive : 0 < handle.cursor.volume.blockSize) :
    handle.size ≤ handle.count * handle.cursor.volume.blockSize := by
  have rounded := Nat.div_add_mod (handle.size + handle.cursor.volume.blockSize - 1)
    handle.cursor.volume.blockSize
  have below := Nat.mod_lt (handle.size + handle.cursor.volume.blockSize - 1) positive
  rw [Nat.mul_comm] at rounded
  unfold count
  omega

theorem size_le_bytes (here : handle.cursor.At contents Tables k) :
    handle.size ≤ (handle.bytes contents).length := by
  rw [bytes, length_concat (length_blocks here)]
  exact size_le_count here.views.stores.positive

theorem length_slice {place length : Nat} (here : handle.cursor.At contents Tables k)
    (within : place + length ≤ handle.size) :
    (((handle.bytes contents).drop place).take length).length = length := by
  have := size_le_bytes here
  rw [List.length_take, List.length_drop]
  omega

theorem lt_count {idx : Nat} (positive : 0 < handle.cursor.volume.blockSize)
    (inside : idx * handle.cursor.volume.blockSize < handle.size) : idx < handle.count := by
  unfold count
  rw [Nat.lt_div_iff_mul_lt positive]
  omega

/-- The buffer has the block that it had, or one of the file that was read since. -/
def Kept (handle : Handle) (contents : Contents) (Tables : Fin 3 → Nat → Prop) (k : Nat)
    (info : BlockCacheInfo)
    (after : Handle) : Prop :=
  ∃ k' info', after.Settled contents Tables k' ∧ after.Buffered contents k' info' ∧
    (k' = k ∧ info' = info ∨ k' < handle.count ∧ info'.block = k' % 2 ^ 32)

theorem stands_of_kept {info : BlockCacheInfo} (kept : handle.Kept contents Tables k info after) :
    after.Stands contents Tables := by
  obtain ⟨k', info', settled, buffered, -⟩ := kept
  exact ⟨k', info', settled, buffered⟩

theorem read_loop_spec {infoSize maxCount read rounds : Nat} {out : Block} {info : BlockCacheInfo}
    (settled : handle.Settled contents Tables k) (buffered : handle.Buffered contents k info)
    (linked : handle.Linked contents Tables) (enough : maxCount - read < rounds)
    (begun : read ≤ maxCount)
    (room : maxCount ≤ out.length) (rest : handle.offset + (maxCount - read) ≤ handle.size)
    (behind : read < maxCount → handle.offset = (k + 1) * handle.cursor.volume.blockSize ∧
      infoSize = handle.cursor.volume.blockSize) :
    Yields
      (fun result after => result = (maxCount,
          splice out read (((handle.bytes contents).drop handle.offset).take (maxCount - read))) ∧
        handle.Kept contents Tables k info after ∧ after.frame = handle.frame ∧
        after.offset = handle.offset + (maxCount - read))
      (fun _ => False) (readLoop infoSize maxCount rounds read out handle) := by
  induction rounds generalizing read out handle k info with
  | zero => omega
  | succ rounds ih =>
      unfold readLoop
      by_cases more : read < maxCount
      · rw [if_pos more]
        obtain ⟨offset, rfl⟩ := behind more
        have positive := settled.cursor.views.stores.positive
        have next : k + 1 < handle.count := lt_count positive (by omega)
        refine yields_bind (advance_spec settled linked next) ?_
        rintro _ middle ⟨rfl, there, moved, same⟩
        obtain ⟨blockSize, -, -, last, -, -⟩ := same_file same
        have readable := (linked_of_frame same linked).readable (k + 1)
          (.inl (count_of_frame same ▸ next))
        have middleLast : middle.cursor.location.maxBlockExclusive = middle.count := by
          rw [last, count_of_frame same, settled.last]
        have middleSized : middle.blockCache.length = middle.cursor.volume.blockSize := by
          rw [blockSize, moved]
          exact settled.sized
        refine yields_bind (internal_update_buffer_spec there readable middleLast middleSized) ?_
        intro _ filled refilled
        generalize copiedEq : min (maxCount - read) handle.cursor.volume.blockSize = copied
        have stepped := stepped_of_refilled settled offset moved same refilled
          (show copied ≤ _ by omega) (by omega)
        have buffer : filled.blockCache = handle.blocks contents (k + 1) := by
          rw [refilled.buffer, blocks_of_frame same]
        have length : filled.blockCache.length = handle.cursor.volume.blockSize := by
          rw [buffer]
          exact length_blocks settled.cursor (k + 1)
        have part : getSlice filled.blockCache 0 copied =
            some (((handle.bytes contents).drop handle.offset).take copied) := by
          have slice := concat_slice (length_blocks settled.cursor) next
            (show 0 + copied ≤ handle.cursor.volume.blockSize by omega)
          rw [get_slice_eq (Nat.zero_le _) (by omega), buffer, Nat.sub_zero, bytes, offset]
          exact congrArg some slice.symm
        have partLength := length_slice settled.cursor
          (show handle.offset + copied ≤ handle.size by omega)
        have copy : copyFromSlice out read (read + copied)
            (((handle.bytes contents).drop handle.offset).take copied) = some (splice out read _) :=
          copy_from_slice_eq (by omega) (by omega) (by omega)
        change Yields _ _ ((orPanic (getSlice filled.blockCache 0 copied) >>= _ : OnHandle
          (Nat × Block)) filled)
        rw [part, state_bind_ok (rfl : orPanic (some _) filled = .ok _ filled), copy,
          state_bind_ok (rfl : orPanic (some _) filled = .ok _ filled)]
        change Yields _ _ (readLoop _ maxCount rounds (read + copied)
          _ { filled with offset := filled.offset + copied })
        have block : ∀ info', { filled with offset := filled.offset + copied }.blockCacheInfo = some
          info' →
            info'.block = (k + 1) % 2 ^ 32 := by
          obtain ⟨size, -, present⟩ := refilled.info
          intro info' found
          obtain rfl := Option.some.inj (present.symm.trans found)
          rfl
        generalize { filled with offset := filled.offset + copied } = final at stepped block ⊢
        obtain ⟨settled', ⟨info', buffered'⟩, frame, moved'⟩ := stepped
        obtain ⟨blockSize', -, -, -, -, size'⟩ := same_file frame
        have outLength : (splice out read
            (((handle.bytes contents).drop handle.offset).take copied)).length =
            out.length := length_splice (by omega)
        refine yields_weaken (ih settled' buffered' (linked_of_frame frame linked) (by omega)
          (by omega)
          (by omega) (by omega) ?_) ?_ fun _ impossible => impossible
        · intro still
          refine ⟨?_, blockSize'.symm⟩
          rw [moved', offset, blockSize', Nat.succ_mul (k + 1)]
          omega
        · rintro result after ⟨rfl, ⟨k', info'', stands, holds, passed⟩, same', offset'⟩
          have here : k' < handle.count ∧ info''.block = k' % 2 ^ 32 := by
            rcases passed with ⟨rfl, rfl⟩ | passed
            · exact ⟨next, block _ buffered'.present⟩
            · rwa [count_of_frame frame] at passed
          refine ⟨?_, ⟨k', info'', stands, holds, .inr here⟩, same'.trans frame, by omega⟩
          have split : maxCount - read = copied + (maxCount - (read + copied)) := by omega
          have enough := size_le_bytes settled.cursor
          rw [bytes_of_frame frame, moved', split, splice_parts (by omega) (by omega)]
      · have done : read = maxCount := by omega
        subst done
        rw [if_neg more]
        refine .ok ⟨?_, ⟨k, info, settled, buffered, .inl ⟨rfl, rfl⟩⟩, rfl, by omega⟩
        rw [Nat.sub_self, List.take_zero, splice_nil]

theorem read_first_spec {maxCount : Nat} {out : Block} {info : BlockCacheInfo}
    (settled : handle.Settled contents Tables k) (buffered : handle.Buffered contents k info)
    (within : handle.offset / handle.cursor.volume.blockSize = k) (room : maxCount ≤ out.length)
    (rest : handle.offset + maxCount ≤ handle.size) :
    ∃ copied after, copied = min maxCount
        (handle.cursor.volume.blockSize - handle.offset % handle.cursor.volume.blockSize) ∧
      readFirst maxCount out handle =
        .ok (copied, splice out 0 (((handle.bytes contents).drop handle.offset).take copied))
          after ∧
      after.Settled contents Tables k ∧ after.Buffered contents k info ∧
        after.frame = handle.frame ∧
      after.offset = handle.offset + copied := by
  have positive := settled.cursor.views.stores.positive
  have below := Nat.mod_lt handle.offset positive
  have parts := Nat.div_add_mod handle.offset handle.cursor.volume.blockSize
  rw [within, Nat.mul_comm] at parts
  generalize copiedEq : min maxCount
    (handle.cursor.volume.blockSize - handle.offset % handle.cursor.volume.blockSize) = copied
  have length : handle.blockCache.length = handle.cursor.volume.blockSize := settled.sized
  have part : getSlice handle.blockCache (handle.offset % handle.cursor.volume.blockSize)
      (handle.offset % handle.cursor.volume.blockSize + copied) =
      some (((handle.bytes contents).drop handle.offset).take copied) := by
    rw [get_slice_eq (by omega) (by omega), Nat.add_sub_cancel_left, buffered.buffer]
    congr 1
    by_cases empty : copied = 0
    · rw [empty, List.take_zero, List.take_zero]
    · have inside : k < handle.count := lt_count positive (by omega)
      have slice := concat_slice (length_blocks settled.cursor) inside
        (show handle.offset % handle.cursor.volume.blockSize + copied ≤
          handle.cursor.volume.blockSize by
          omega)
      rw [parts] at slice
      exact slice.symm
  have partLength := length_slice settled.cursor
    (show handle.offset + copied ≤ handle.size by omega)
  have copy : copyFromSlice out 0 copied
      (((handle.bytes contents).drop handle.offset).take copied) =
      some (splice out 0 _) := copy_from_slice_eq (by omega) (by omega) (by omega)
  have near := near_after within
    (show handle.offset % handle.cursor.volume.blockSize + copied ≤
      handle.cursor.volume.blockSize by omega)
  have block : k % 2 ^ 32 = info.block := within ▸ buffered.block.mpr within
  refine ⟨copied, { handle with offset := handle.offset + copied }, rfl, ?_, ?_, ?_, rfl, rfl⟩
  · unfold readFirst
    change (orPanic (getSlice handle.blockCache (handle.offset % handle.cursor.volume.blockSize)
      (handle.offset % handle.cursor.volume.blockSize + min maxCount
        (handle.cursor.volume.blockSize - handle.offset % handle.cursor.volume.blockSize))) >>= _ :
        OnHandle (Nat × Block)) handle = _
    rw [copiedEq, part, state_bind_ok (rfl : orPanic (some _) handle = .ok _ handle), copy,
      state_bind_ok (rfl : orPanic (some _) handle = .ok _ handle)]
    rfl
  · exact ⟨settled.cursor, settled.saved, settled.last, settled.sized,
      show handle.offset + copied ≤ handle.size by omega, settled.small⟩
  · exact ⟨buffered.present, buffered.clean, buffered.buffer, near, block ▸ block_iff positive near,
      buffered.size⟩

/-- What a read of so many bytes returns and leaves. -/
def Delivers (handle : Handle) (contents : Contents) (Tables : Fin 3 → Nat → Prop) (maxCount : Nat)
    (out : Block) (result : Nat × Block) (after : Handle) : Prop :=
  result = (maxCount, splice out 0 (((handle.bytes contents).drop handle.offset).take maxCount)) ∧
    after.Stands contents Tables ∧ after.frame = handle.frame ∧
      after.offset = handle.offset + maxCount

theorem read_buffered_spec {maxCount : Nat} {out : Block} {info : BlockCacheInfo}
    (settled : handle.Settled contents Tables k) (buffered : handle.Buffered contents k info)
    (linked : handle.Linked contents Tables) (room : maxCount ≤ out.length)
    (rest : handle.offset + maxCount ≤ handle.size) :
    Yields
      (fun result after => handle.Delivers contents Tables maxCount out result after ∧
        handle.Kept contents Tables k info after)
      (fun _ => False)
      (readBuffered (handle.offset / handle.cursor.volume.blockSize % 2 ^ 32)
        maxCount info out handle) := by
  have positive := settled.cursor.views.stores.positive
  unfold readBuffered
  by_cases within : handle.offset / handle.cursor.volume.blockSize = k
  · rw [if_pos (buffered.block.mpr within)]
    obtain ⟨copied, after, copiedEq, first, settled', buffered', frame, offset⟩ :=
      read_first_spec settled buffered within room rest
    obtain ⟨blockSize, -, -, -, -, size⟩ := same_file frame
    have parts := Nat.div_add_mod handle.offset handle.cursor.volume.blockSize
    rw [within, Nat.mul_comm] at parts
    have below := Nat.mod_lt handle.offset positive
    have partLength := length_slice settled.cursor
      (show handle.offset + copied ≤ handle.size by omega)
    have outLength : (splice out 0 (((handle.bytes contents).drop handle.offset).take
        copied)).length =
        out.length := length_splice (by omega)
    rw [state_bind_ok first]
    refine yields_weaken (read_loop_spec settled' buffered' (linked_of_frame frame linked)
      (by omega)
      (by omega) (by omega) (by omega) ?_) ?_ fun _ impossible => impossible
    · intro more
      have behind : handle.offset + copied = (k + 1) * handle.cursor.volume.blockSize := by
        rw [Nat.succ_mul]
        omega
      refine ⟨by rw [offset, blockSize, behind], ?_⟩
      rw [blockSize]
      exact buffered.size (lt_count positive (by omega))
    · rintro result final ⟨rfl, ⟨k', info', stands, holds, passed⟩, same, moved⟩
      rw [count_of_frame frame] at passed
      refine ⟨⟨?_, ⟨k', info', stands, holds⟩, same.trans frame, by omega⟩, k', info', stands,
        holds, passed⟩
      have whole : copied + (maxCount - copied) = maxCount := by omega
      have enough := size_le_bytes settled.cursor
      have joined := splice_parts (show handle.offset + copied + (maxCount - copied) ≤
        (handle.bytes contents).length by
          omega) (show 0 + copied + (maxCount - copied) ≤ out.length by omega)
      rw [Nat.zero_add, whole] at joined
      rw [bytes_of_frame frame, offset, joined]
  · have behind := buffered.near.resolve_left within
    rw [if_neg (fun same => within (buffered.block.mp same))]
    refine yields_weaken (read_loop_spec settled buffered linked (by omega) (by omega)
      room (by omega) ?_) ?_
      fun _ impossible => impossible
    · intro more
      exact ⟨behind, buffered.size (lt_count positive (by omega))⟩
    · rintro result final ⟨rfl, kept, same, moved⟩
      exact ⟨⟨rfl, stands_of_kept kept, same, moved⟩, kept⟩

def Opened (handle : Handle) (contents : Contents) (Tables : Fin 3 → Nat → Prop) : Prop :=
  handle.Settled contents Tables 0 ∧ handle.blockCacheInfo = none ∧ handle.offset = 0

theorem buffered_of_refilled (refilled : handle.Refilled contents Tables k after)
    (within : handle.offset / handle.cursor.volume.blockSize = k) :
    ∃ info, after.Buffered contents k info := by
  obtain ⟨size, full, info⟩ := refilled.info
  have blockSize := (same_file refilled.frame).blockSize
  have near : after.offset / after.cursor.volume.blockSize = k := by
    rw [refilled.offset, blockSize, within]
  refine ⟨_, info, rfl, ?_, .inl near,
    block_iff refilled.cursor.views.stores.positive (.inl near), ?_⟩
  · rw [refilled.buffer, blocks_of_frame refilled.frame]
  · intro more
    rw [count_of_frame refilled.frame] at more
    exact (full more).trans blockSize.symm

theorem fill_buffer_spec (ready : handle.Stands contents Tables ∨ handle.Opened contents Tables)
    (linked : handle.Linked contents Tables) :
    Yields
      (fun _ after => after.Stands contents Tables ∧ after.frame = handle.frame ∧
        after.offset = handle.offset)
      (fun _ => False) (fillBuffer handle) := by
  change Yields _ _ ((if handle.blockCacheInfo.isNone then _ else _ : OnHandle Unit) handle)
  rcases ready with ⟨k, info, settled, buffered⟩ | ⟨settled, missing, start⟩
  · rw [if_neg (by rw [buffered.present]; exact Bool.false_ne_true)]
    exact .ok ⟨⟨k, info, settled, buffered⟩, rfl, rfl⟩
  · rw [if_pos (by rw [missing]; rfl)]
    refine yields_weaken (internal_update_buffer_spec settled.cursor (linked.readable 0 (.inr rfl))
      settled.last settled.sized) ?_ fun _ impossible => impossible
    intro _ after refilled
    obtain ⟨info, buffered⟩ := buffered_of_refilled refilled (by rw [start, Nat.zero_div])
    exact ⟨⟨0, info, settled_refilled settled refilled, buffered⟩, refilled.frame, refilled.offset⟩

theorem read_spec (out : Block)
    (ready : handle.Stands contents Tables ∨ handle.Opened contents Tables)
    (linked : handle.Linked contents Tables) :
    Yields (handle.Delivers contents Tables (min out.length (handle.size - handle.offset)) out)
      (fun _ => False) (read out handle) := by
  have flushed : flush handle = .ok () handle := by
    rcases ready with ⟨k, info, settled, buffered⟩ | ⟨settled, missing, -⟩
    · refine flush_of_clean settled.cursor.clean settled.saved ?_
      intro other present
      obtain rfl : info = other := Option.some.inj (buffered.present.symm.trans present)
      exact buffered.clean
    · refine flush_of_clean settled.cursor.clean settled.saved ?_
      intro other present
      exact absurd (missing.symm.trans present) nofun
  have bounded : handle.offset ≤ handle.size := by
    rcases ready with ⟨k, info, settled, -⟩ | ⟨settled, -, -⟩
    · exact settled.bounded
    · exact settled.bounded
  unfold read
  change Yields _ _ ((flush >>= fun _ => _ : OnHandle (Nat × Block)) handle)
  rw [state_bind_ok flushed]
  refine yields_bind (fill_buffer_spec ready linked) ?_
  rintro _ filled ⟨⟨k, info, settled, buffered⟩, frame, offset⟩
  obtain ⟨blockSize, -, -, -, -, size⟩ := same_file frame
  rw [state_bind_get, buffered.present]
  change Yields _ _ (readBuffered _ _ info out filled)
  have maxCount : min out.length (sub64 handle.size handle.offset) =
      min out.length (handle.size - handle.offset) := by rw [sub64_of_le bounded]
  rw [maxCount, ← offset, ← blockSize, ← size]
  refine yields_weaken (read_buffered_spec settled buffered (linked_of_frame frame linked)
    (by omega)
    (by omega)) ?_ fun _ impossible => impossible
  rintro result after ⟨⟨rfl, stands, same, moved⟩, -⟩
  exact ⟨by rw [bytes_of_frame frame, offset], stands, same.trans frame, by rw [moved, offset]⟩

/-- A block index that does not fit `u32` is refused before anything changes. -/
theorem seek_refused {position : SeekPosition} {target : Nat}
    (found : fseekHelper position handle.offset handle.size = some target)
    (large : target / handle.cursor.volume.blockSize ≥ 2 ^ 32) :
    seek position handle = .error (.error .driverError) handle := by
  rw [seek, state_bind_get, found]
  change (if target / handle.cursor.volume.blockSize ≥ 2 ^ 32 then _ else _ : OnHandle Unit)
    handle = _
  rw [if_pos large]
  rfl

/-- A seek that the location can make leaves the handle at the block of the target. -/
theorem seek_of_moves {position : SeekPosition} {target : Nat} {Wide : Fin 3 → Nat → Prop}
    (moves : Yields (fun _ after => after.At
      contents Wide (target / handle.cursor.volume.blockSize) ∧
        after.fileFrame = handle.cursor.fileFrame) (fun _ => False)
      (Cursor.seek (target / handle.cursor.volume.blockSize) handle.cursor))
    (readable : Readable handle.cursor.volume handle.cursor.location.inode contents Wide
      (target / handle.cursor.volume.blockSize))
    (idle : handle.Idle contents Tables)
    (found : fseekHelper position handle.offset handle.size = some target)
    (bounded : target ≤ handle.size)
    (small : target / handle.cursor.volume.blockSize < 2 ^ 32) :
    Yields
      (fun _ after => (∃ info, after.Settled
        contents Wide (target / handle.cursor.volume.blockSize) ∧
          after.Buffered contents (target / handle.cursor.volume.blockSize) info ∧
          info.block = target / handle.cursor.volume.blockSize % 2 ^ 32) ∧
            after.frame = handle.frame ∧
          after.offset = target)
      (fun _ => False) (seek position handle) := by
  rw [seek, state_bind_get, found]
  change Yields _ _ ((if target / handle.cursor.volume.blockSize ≥ 2 ^ 32 then _ else _ :
    OnHandle Unit) handle)
  rw [if_neg (by omega)]
  change Yields _ _ ((onCursor (Cursor.seek _) >>= fun _ => _ : OnHandle Unit)
    { handle with offset := target })
  refine yields_bind (yields_on_cursor moves) ?_
  rintro _ middle ⟨cursor, rfl, there, frame⟩
  have same : Handle.frame { handle with offset := target, cursor := cursor } = handle.frame :=
    congrArg (fun cursor => { handle.frame with cursor := cursor }) frame
  obtain ⟨blockSize, blockCount, inode, last, saved, -⟩ := same_file same
  have moved : Settled { handle with offset := target, cursor := cursor } contents Wide
      (target / handle.cursor.volume.blockSize) := by
    refine ⟨there, saved.trans idle.saved, ?_, idle.sized.trans blockSize.symm, bounded,
      blockSize ▸ idle.small⟩
    rw [last, count_of_frame same]
    exact idle.last
  have readable' : Readable cursor.volume cursor.location.inode contents Wide
      (target / handle.cursor.volume.blockSize) := by
    obtain ⟨inside, linked, onDevice⟩ := readable
    rw [← blockSize] at inside linked onDevice
    rw [← inode] at linked onDevice
    rw [← blockCount] at onDevice
    rw [← blockSize]
    exact ⟨inside, linked, onDevice⟩
  refine yields_weaken (internal_update_buffer_spec there readable' moved.last moved.sized) ?_
    fun _ impossible => impossible
  intro _ after refilled
  obtain ⟨info, buffered⟩ := buffered_of_refilled refilled
    (congrArg (target / ·) (same_file same).blockSize)
  obtain ⟨size, -, present⟩ := refilled.info
  obtain rfl := Option.some.inj (present.symm.trans buffered.present)
  exact ⟨⟨_, settled_refilled moved refilled, buffered, rfl⟩, refilled.frame.trans same,
    refilled.offset⟩

/-- Wherever it stands, a handle between two calls can seek to a block of the file, or to
the first one of an empty file. -/
theorem seek_spec {position : SeekPosition} {target : Nat} (idle : handle.Idle contents Tables)
    (linked : handle.Linked contents Tables)
    (found : fseekHelper position handle.offset handle.size = some target)
    (bounded : target ≤ handle.size)
    (inside : target / handle.cursor.volume.blockSize < handle.count ∨
      target / handle.cursor.volume.blockSize = 0)
    (small : target / handle.cursor.volume.blockSize < 2 ^ 32)
    (fits : target / handle.cursor.volume.blockSize < 12 + handle.cursor.volume.blockSize / 4 ∨
      handle.cursor.volume.blockSize / 4 * (handle.cursor.volume.blockSize / 4) < 2 ^ 32) :
    Yields
      (fun _ after => (∃ k info, after.Settled contents Tables k ∧ after.Buffered contents k info ∧
          (k < handle.count ∨ k = 0) ∧ info.block = k % 2 ^ 32) ∧ after.frame = handle.frame ∧
          after.offset = target)
      (fun _ => False) (seek position handle) := by
  have readable := linked.readable _ inside
  have moves := Cursor.arrives idle.cursor.views idle.cursor.clean idle.cursor.ready linked.nonzero
    readable
  rw [← Cursor.seek_eq readable.inside fits] at moves
  refine yields_weaken (seek_of_moves moves readable idle found bounded small)
    ?_ fun _ impossible => impossible
  rintro _ after ⟨⟨info, settled, buffered, block⟩, frame, offset⟩
  exact ⟨⟨_, info, settled, buffered, inside, block⟩, frame, offset⟩

end Handle

end Campix.Ext2
