import Campix.Ext2.ReadRuns
import Campix.Ext2.Resizing
import Mathlib.Data.Finset.Card

/-!
# Writing to a file

A write puts its bytes into the buffered block and goes on to the next block once the
buffer is full and written back. `Pending` relates a handle whose buffer may not be written
back to the contents that it stands for; a flush makes them those of the device. The data
blocks of the file are taken to be its own: none of them is a table, or has two places.
-/

namespace Campix.Ext2

open Lib.Blocks Lib.Fallible Lib.Outcome Lib.Slice Lib.Word

set_option autoImplicit false

namespace Cursor

variable {cursor : Cursor} {Tables : Fin 3 → Nat → Prop} {k : Nat} {buffer : Block}

def pointer (cursor : Cursor) (k : Nat) : Nat :=
  dataPointer cursor.location.inode cursor.volume.device (locate (cursor.volume.blockSize / 4) k)

theorem write_block_found {pointer : Nat} (stores : cursor.volume.Stores cursor.volume.device)
    (found : getNextBlock cursor = .ok pointer cursor)
    (sized : buffer.length = cursor.volume.blockSize)
    (writable : cursor.volume.readOnly = false) (onDevice : pointer < cursor.volume.blockCount) :
    ∃ volume, writeBlock buffer cursor = .ok cursor.usedSize { cursor with volume := volume } ∧
      volume.Stores (Function.update cursor.volume.device pointer buffer) ∧
      volume.frame = cursor.volume.frame := by
  have write := Ext2Volume.write_block_spec pointer stores sized
  cases outcome : Ext2Volume.writeBlock pointer buffer cursor.volume with
  | error failure volume =>
      rw [outcome] at write
      cases write with
      | error failed =>
          rcases failed with locked | beyond
          · rw [writable] at locked
            exact absurd locked Bool.false_ne_true
          · omega
  | ok written volume =>
      rw [outcome] at write
      cases write with
      | ok holds =>
          obtain ⟨frame, ⟨-, -, stores⟩ | ⟨atEnd, -, -⟩⟩ := holds
          · have done : onVolume (Ext2Volume.writeBlock pointer buffer) cursor =
                .ok written { cursor with volume := volume } := by
              unfold onVolume
              rw [outcome]
            refine ⟨volume, ?_, stores, frame⟩
            change (if buffer.length < cursor.volume.blockSize then _ else _ : OnCursor Nat)
              cursor = _
            rw [if_neg (by omega), state_bind_ok found]
            rw [state_bind_ok done]
            have used : usedSize { cursor with volume := volume } = cursor.usedSize := by
              unfold usedSize
              rw [show ({ cursor with volume := volume } : Cursor).volume.blockSize =
                cursor.volume.blockSize from
                Ext2Volume.block_size_of_frame frame]
            exact congrArg (fun used => EStateM.Result.ok
              used { cursor with volume := volume }) used
          · omega

section Write

variable (here : cursor.At cursor.volume.device Tables k)
  (inside : k < capacity (cursor.volume.blockSize / 4))
  (sized : buffer.length = cursor.volume.blockSize)

include here inside

theorem found_at : getNextBlock cursor = .ok (cursor.pointer k) cursor := by
  obtain ⟨-, digits⟩ := index_of_locate inside
  have place : cursor.location.location.location = locate (cursor.volume.blockSize / 4) k := by
    rw [here.place]
  exact get_next_block_eq here.views place digits here.loaded

include sized

theorem write_block_at (writable : cursor.volume.readOnly = false)
    (onDevice : cursor.pointer k < cursor.volume.blockCount) :
    ∃ volume, writeBlock buffer cursor = .ok cursor.usedSize { cursor with volume := volume } ∧
      volume.Stores (Function.update cursor.volume.device (cursor.pointer k) buffer) ∧
      volume.frame = cursor.volume.frame :=
  write_block_found here.views.stores (found_at here inside) sized writable onDevice

theorem write_block_locked (locked : cursor.volume.readOnly = true) :
    writeBlock buffer cursor = .error (.error .actionNotAllowed) cursor := by
  have found := found_at here inside
  have refused : Ext2Volume.writeBlock (cursor.pointer k) buffer cursor.volume =
      .error (.error .actionNotAllowed) cursor.volume := by
    change (if buffer.length < cursor.volume.blockSize then _ else _ : OnVolume Nat)
      cursor.volume = _
    rw [if_neg (by omega), locked]
    rfl
  have stops : onVolume (Ext2Volume.writeBlock (cursor.pointer k) buffer) cursor =
      .error (.error .actionNotAllowed) cursor := by
    unfold onVolume
    rw [refused]
  change (if buffer.length < cursor.volume.blockSize then _ else _ : OnCursor Nat) cursor = _
  rw [if_neg (by omega), state_bind_ok found]
  rw [state_bind_error stops]

end Write

end Cursor

/-- Where the blocks of a file are, as the contents `base` have it. -/
structure FileMap where
  inode : Inode
  base : Contents
  tableSize : Nat
  count : Nat

namespace FileMap

variable {file : FileMap} {contents : Contents} {k : Nat}

def pointer (file : FileMap) (k : Nat) : Nat :=
  dataPointer file.inode file.base (locate file.tableSize k)

def path (file : FileMap) (k : Nat) : List Nat :=
  tablePath file.inode file.base (locate file.tableSize k)

def Owns (file : FileMap) (addr : Nat) : Prop := ∃ k < file.count, file.pointer k = addr

def Tables (file : FileMap) (_ : Fin 3) (addr : Nat) : Prop := addr ≠ 0 ∧ ¬file.Owns addr

def Keeps (file : FileMap) (contents : Contents) : Prop :=
  ∀ addr, ¬file.Owns addr → contents addr = file.base addr

/-- No data block of the file has two places in it, or is a table on the way to one. -/
structure Sole (file : FileMap) : Prop where
  distinct : ∀ j < file.count, ∀ k < file.count, file.pointer j = file.pointer k → j = k
  apart : ∀ k < file.count, ∀ addr ∈ file.path k, ¬file.Owns addr

theorem tables_of_path (sole : file.Sole) (inside : k < file.count ∨ k = 0) :
    ∀ addr ∈ file.path k, ¬file.Owns addr := by
  rcases inside with below | rfl
  · exact sole.apart k below
  · intro addr impossible
    exact absurd impossible List.not_mem_nil

theorem way_kept (sole : file.Sole) (keeps : file.Keeps contents)
    (inside : k < file.count ∨ k = 0) :
    tablePath file.inode contents (locate file.tableSize k) = file.path k ∧
      dataPointer file.inode contents (locate file.tableSize k) = file.pointer k := by
  have same : ∀ addr ∈ file.path k, contents addr = file.base addr :=
    fun addr member => keeps addr (tables_of_path sole inside addr member)
  unfold path pointer at *
  generalize locate file.tableSize k = location at same
  cases location with
  | direct d => exact ⟨rfl, rfl⟩
  | single i =>
      have first := same _ List.mem_cons_self
      refine ⟨rfl, ?_⟩
      simp only [dataPointer, first]
  | double i j =>
      have first := same _ List.mem_cons_self
      have second := same _ (List.mem_cons_of_mem _ List.mem_cons_self)
      simp only [tablePath, dataPointer, first, second, and_self]
  | triple i j l =>
      have first := same _ List.mem_cons_self
      have second := same _ (List.mem_cons_of_mem _ List.mem_cons_self)
      have third := same _ (List.mem_cons_of_mem _ (List.mem_cons_of_mem _ List.mem_cons_self))
      simp only [tablePath, dataPointer, first, second, third, and_self]

end FileMap

def volumeFile (volume : Ext2Volume) (inode : Inode) : FileMap where
  inode
  base := volume.device
  tableSize := volume.blockSize / 4
  count := fileBlocks volume inode

theorem file_blocks_le {volume : Ext2Volume} {inode : Inode} (mapped : Mapped volume inode)
    (sole : (volumeFile volume inode).Sole) : fileBlocks volume inode ≤ volume.blockCount := by
  have inside : ∀ k ∈ Finset.range (fileBlocks volume inode),
      (volumeFile volume inode).pointer k ∈ Finset.range volume.blockCount := by
    intro k below
    obtain ⟨-, onDevice⟩ := mapped k (Finset.mem_range.mp below)
    exact Finset.mem_range.mpr (onDevice _ (List.mem_append_right _ (List.mem_singleton_self _))).2
  have distinct : Set.InjOn (volumeFile volume inode).pointer
      (Finset.range (fileBlocks volume inode)) :=
    fun j inJ k inK same => sole.distinct j (Finset.mem_range.mp inJ)
      k (Finset.mem_range.mp inK) same
  have counts := Finset.card_le_card_of_injOn _ inside distinct
  rwa [Finset.card_range, Finset.card_range] at counts

namespace Handle

variable {start handle after : Handle} {base contents : Contents} {k : Nat} {info : BlockCacheInfo}

def fileMap (handle : Handle) (base : Contents) : FileMap where
  inode := handle.cursor.location.inode
  base
  tableSize := handle.cursor.volume.blockSize / 4
  count := handle.count

theorem fresh_file {volume : Ext2Volume} {inode : Inode} (fresh : Fresh volume inode start) :
    start.fileMap volume.device = volumeFile volume inode := by
  obtain ⟨sameVolume, sameInode, size⟩ := fresh_frame fresh
  unfold fileMap volumeFile count fileBlocks
  rw [sameVolume, sameInode, size]

theorem settled_narrow {Tables : Fin 3 → Nat → Prop} (settled : handle.Settled contents AnyTable k)
    (narrow : ∀ level addr, Tables level addr → addr ≠ 0) : handle.Settled contents Tables k := by
  have here := settled.cursor
  exact ⟨⟨here.views, here.clean,
    fun level addr table => here.ready level addr (narrow level addr table), here.place,
    here.loaded⟩, settled.saved, settled.last, settled.sized, settled.bounded, settled.small⟩

theorem read_only_of_frame (frame : after.frame = handle.frame) :
    after.cursor.volume.readOnly = handle.cursor.volume.readOnly :=
  show after.frame.cursor.volume.readOnly = handle.frame.cursor.volume.readOnly by rw [frame]

theorem file_map_of_frame (frame : after.frame = handle.frame) :
    after.fileMap base = handle.fileMap base := by
  obtain ⟨blockSize, -, inode, -, -, -⟩ := same_file frame
  unfold fileMap
  rw [inode, blockSize, count_of_frame frame]

theorem linked_kept (linked : handle.Linked base AnyTable) (sole : (handle.fileMap base).Sole)
    (keeps : (handle.fileMap base).Keeps contents) :
    handle.Linked contents (handle.fileMap base).Tables := by
  refine ⟨fun _ _ table => table.1, ?_⟩
  intro k inside
  obtain ⟨within, onPath, onDevice⟩ := linked.readable k inside
  obtain ⟨path, pointer⟩ := FileMap.way_kept sole keeps inside
  have samePath : tablePath handle.cursor.location.inode contents
      (locate (handle.cursor.volume.blockSize / 4) k) = (handle.fileMap base).path k := path
  have samePointer : dataPointer handle.cursor.location.inode contents
      (locate (handle.cursor.volume.blockSize / 4) k) = (handle.fileMap base).pointer k := pointer
  refine ⟨within, ?_, ?_⟩
  · intro level addr found
    rw [samePath] at found
    exact ⟨onPath level addr found,
      FileMap.tables_of_path sole inside addr (List.mem_of_getElem? found)⟩
  · intro addr member
    unfold pointers at member
    rw [samePath, samePointer] at member
    exact onDevice addr member

/-- The handle stands at block `k`, which the buffer holds; a dirty buffer is what the block
is to become. -/
structure Pending (base : Contents) (handle : Handle) (contents : Contents) (k : Nat)
    (info : BlockCacheInfo) :
    Prop where
  settled : handle.Settled handle.cursor.volume.device (handle.fileMap base).Tables k
  keeps : (handle.fileMap base).Keeps contents
  deviceKeeps : (handle.fileMap base).Keeps handle.cursor.volume.device
  inside : k < handle.count ∨ k = 0
  present : handle.blockCacheInfo = some info
  held : handle.blockCache = handle.blocks contents k
  others : ∀ addr, (info.dirty = true → addr ≠ handle.cursor.pointer k) →
    handle.cursor.volume.device addr = contents addr
  near : handle.offset / handle.cursor.volume.blockSize = k ∨
    handle.offset = (k + 1) * handle.cursor.volume.blockSize
  block : handle.offset / handle.cursor.volume.blockSize % 2 ^ 32 = info.block ↔
    handle.offset / handle.cursor.volume.blockSize = k
  size : k + 1 < handle.count → info.size = handle.cursor.volume.blockSize
  -- a block that is written as a whole leaves the number of the one before it
  early : info.block ≤ k

theorem pending_of_buffered (keeps : (handle.fileMap base).Keeps contents)
    (settled : handle.Settled contents (handle.fileMap base).Tables k)
    (buffered : handle.Buffered contents k info)
    (inside : k < handle.count ∨ k = 0)
    (early : info.block ≤ k) : handle.Pending base contents k info := by
  have device : handle.cursor.volume.device = contents :=
    Cursor.device_of_clean settled.cursor.views settled.cursor.clean
  refine ⟨by rwa [device], keeps, by rwa [device], inside, buffered.present, buffered.buffer, ?_, buffered.near,
    buffered.block, buffered.size, early⟩
  intro addr _
  rw [device]

section Flush

variable (sole : (handle.fileMap base).Sole) (linked : handle.Linked base AnyTable)
  (pending : handle.Pending base contents k info)

include sole pending

theorem pending_pointer : handle.cursor.pointer k = (handle.fileMap base).pointer k :=
  (FileMap.way_kept sole pending.deviceKeeps pending.inside).2

/-- The bytes of block `k` in the new contents. -/
theorem pending_block : handle.blockCache = contents (handle.cursor.pointer k) := by
  rw [pending.held, pending_pointer sole pending]
  exact congrArg contents (FileMap.way_kept sole pending.keeps pending.inside).2

theorem pending_sized (addr : Nat) : (contents addr).length = handle.cursor.volume.blockSize := by
  by_cases place : addr = handle.cursor.pointer k
  · rw [place, ← pending_block sole pending]
    exact pending.settled.sized
  · rw [← pending.others addr fun _ => place]
    exact pending.settled.cursor.views.stores.sized addr

theorem pending_size : handle.size ≤ (handle.bytes contents).length := by
  have sized : ∀ j, (handle.blocks contents j).length = handle.cursor.volume.blockSize :=
    fun j => pending_sized sole pending _
  rw [bytes, length_concat sized]
  exact size_le_count pending.settled.cursor.views.stores.positive

include linked

theorem pending_inside : k < capacity (handle.cursor.volume.blockSize / 4) ∧
    handle.cursor.pointer k < handle.cursor.volume.blockCount := by
  obtain ⟨within, -, onDevice⟩ := linked.readable k pending.inside
  refine ⟨within, ?_⟩
  rw [pending_pointer sole pending]
  exact onDevice _ (List.mem_append_right _ (List.mem_singleton_self _))

omit linked in
theorem settled_written {volume : Ext2Volume} (stores : volume.Stores contents)
    (frame : volume.frame = handle.cursor.volume.frame) (info : Option BlockCacheInfo) :
    Settled { handle with cursor := { handle.cursor with volume := volume }, blockCacheInfo := info } contents
      (handle.fileMap base).Tables k := by
  have blockSize : volume.blockSize = handle.cursor.volume.blockSize :=
    Ext2Volume.block_size_of_frame frame
  have device : volume.device = contents := stores.device
  obtain ⟨path, -⟩ := FileMap.way_kept sole pending.keeps pending.inside
  obtain ⟨devicePath, -⟩ := FileMap.way_kept sole pending.deviceKeeps pending.inside
  have here := pending.settled.cursor
  have same : ∀ addr, ¬(handle.fileMap base).Owns addr →
      handle.cursor.volume.device addr = contents addr :=
    fun addr other => (pending.deviceKeeps addr other).trans (pending.keeps addr other).symm
  refine ⟨⟨⟨?_, ?_, ?_, ?_⟩, here.clean, ?_, ?_, ?_⟩, pending.settled.saved, ?_, ?_,
    pending.settled.bounded, ?_⟩
  · change volume.Stores volume.device
    rw [device]
    exact stores
  · intro level
    exact (here.views.sized level).trans blockSize.symm
  · intro level dirty
    rw [here.clean level] at dirty
    exact absurd dirty Bool.false_ne_true
  · intro lba _
    exact congrFun device lba
  · intro level addr table
    obtain ⟨copy, apart⟩ := here.ready level addr table
    exact ⟨fun present => (copy present).trans (same addr table.2), apart⟩
  · change handle.cursor.location.location = ⟨locate (volume.blockSize / 4) k, volume.blockSize / 4⟩
    rw [blockSize]
    exact here.place
  · intro level addr found
    change (tablePath handle.cursor.location.inode contents
      (locate (volume.blockSize / 4) k))[level.val]? =
      some addr at found
    have onPath : addr ∈ (handle.fileMap base).path k := by
      rw [blockSize] at found
      rw [← path]
      exact List.mem_of_getElem? found
    rw [blockSize, show tablePath handle.cursor.location.inode contents
      (locate (handle.cursor.volume.blockSize / 4) k) = _ from path.trans devicePath.symm] at found
    obtain ⟨loadedAddr, table⟩ := here.loaded level addr found
    exact ⟨loadedAddr, table.trans (same addr
      (FileMap.tables_of_path sole pending.inside addr onPath))⟩
  · change handle.cursor.location.maxBlockExclusive =
      ((handle.size + volume.blockSize - 1) / volume.blockSize : Nat)
    rw [blockSize]
    exact pending.settled.last
  · exact pending.settled.sized.trans blockSize.symm
  · rw [show volume.blockSize = _ from blockSize]
    exact pending.settled.small

theorem flush_pending (writable : handle.cursor.volume.readOnly = false) :
    ∃ after, flush handle = .ok () after ∧
      after.Settled contents (handle.fileMap base).Tables k ∧
      after.Buffered contents k { info with dirty := false } ∧ after.frame = handle.frame ∧
      after.offset = handle.offset := by
  have here := pending.settled.cursor
  obtain ⟨inside, onDevice⟩ := pending_inside sole linked pending
  cases dirty : info.dirty with
  | false =>
      have device : handle.cursor.volume.device = contents := by
        funext addr
        apply pending.others
        intro changed
        exact absurd (dirty.symm.trans changed) Bool.false_ne_true
      have settled := pending.settled
      rw [device] at settled
      refine ⟨handle, ?_, settled, ⟨?_, rfl,
        pending.held, pending.near, pending.block, pending.size⟩, rfl, rfl⟩
      · apply flush_of_clean here.clean pending.settled.saved
        intro other present
        obtain rfl : info = other := Option.some.inj (pending.present.symm.trans present)
        exact dirty
      · rw [pending.present, ← dirty]
  | true =>
      obtain ⟨volume, written, stores, frame⟩ :=
        Cursor.write_block_at here inside pending.settled.sized writable onDevice
      have device : Function.update handle.cursor.volume.device (handle.cursor.pointer k)
          handle.blockCache =
          contents := by
        funext addr
        by_cases place : addr = handle.cursor.pointer k
        · rw [place, Function.update_self]
          exact pending_block sole pending
        · rw [Function.update_of_ne place]
          exact pending.others addr fun _ => place
      rw [device] at stores
      have same := frame_written frame (some { info with dirty := false })
      have blockSize : volume.blockSize = handle.cursor.volume.blockSize :=
        Ext2Volume.block_size_of_frame frame
      refine ⟨_, flush_writes here.clean pending.settled.saved pending.present dirty written,
        settled_written sole pending stores frame _, ⟨rfl, rfl, ?_, ?_, ?_, ?_⟩, same, rfl⟩
      · rw [blocks_of_frame same]
        exact pending.held
      · rw [show volume.blockSize = _ from blockSize]
        exact pending.near
      · rw [show volume.blockSize = _ from blockSize]
        exact pending.block
      · rw [count_of_frame same, show volume.blockSize = _ from blockSize]
        exact pending.size

end Flush

/-- The contents with bytes of block `k` replaced. -/
def changed (handle : Handle) (base contents : Contents) (k place : Nat) (part : Block) :
    Contents :=
  Function.update contents ((handle.fileMap base).pointer k)
    (splice (handle.blocks contents k) place part)

theorem changed_of_frame {place : Nat} {part : Block} (frame : after.frame = handle.frame) :
    after.changed base contents k place part = handle.changed base contents k place part := by
  unfold changed
  rw [file_map_of_frame frame, blocks_of_frame frame]

section Put

variable {Tables : Fin 3 → Nat → Prop} {place : Nat} {part : Block}

theorem changed_nothing (sole : (handle.fileMap base).Sole)
    (keeps : (handle.fileMap base).Keeps contents)
    (inside : k < handle.count ∨ k = 0) : handle.changed base contents k place [] = contents := by
  have block : handle.blocks contents k = contents ((handle.fileMap base).pointer k) :=
    congrArg contents (FileMap.way_kept sole keeps inside).2
  rw [changed, splice_nil, block, Function.update_eq_self]

theorem keeps_changed (place : Nat) (part : Block) (sole : (handle.fileMap base).Sole)
    (keeps : (handle.fileMap base).Keeps contents) (inside : k < handle.count ∨ k = 0)
    (own : k < handle.count ∨ part = []) :
    (handle.fileMap base).Keeps (handle.changed base contents k place part) := by
  rcases own with below | rfl
  · intro addr other
    have apart : addr ≠ (handle.fileMap base).pointer k := fun same => other ⟨k, below, same.symm⟩
    rw [changed, Function.update_of_ne apart]
    exact keeps addr other
  · rw [changed_nothing sole keeps inside]
    exact keeps

theorem bytes_changed (sole : (handle.fileMap base).Sole)
    (keeps : (handle.fileMap base).Keeps contents)
    (below : k < handle.count) (sized : ∀ j,
      (handle.blocks contents j).length = handle.cursor.volume.blockSize)
    (within : place + part.length ≤ handle.cursor.volume.blockSize) :
    handle.bytes (handle.changed base contents k place part) =
      splice (handle.bytes contents) (k * handle.cursor.volume.blockSize + place) part := by
  rw [bytes, bytes, ← concat_update sized below within]
  apply concat_congr
  intro j inside
  have after := (FileMap.way_kept sole
    (keeps_changed place part sole keeps (.inl below) (.inl below)) (.inl inside)).2
  have before := (FileMap.way_kept sole keeps (.inl inside)).2
  have block : handle.blocks (handle.changed base contents k place part) j =
      handle.changed base contents k place part ((handle.fileMap base).pointer j) :=
        congrArg _ after
  have old : handle.blocks contents j = contents ((handle.fileMap base).pointer j) :=
    congrArg _ before
  rw [block]
  by_cases here : j = k
  · rw [here, changed, Function.update_self, Function.update_self]
  · have apart : (handle.fileMap base).pointer j ≠ (handle.fileMap base).pointer k :=
      fun same => here (sole.distinct j inside k below same)
    rw [changed, Function.update_of_ne apart, Function.update_of_ne here, old]

theorem put_bytes_eq (sized : handle.blockCache.length = handle.cursor.volume.blockSize)
    (within : place + part.length ≤ handle.cursor.volume.blockSize)
    (present : handle.blockCacheInfo = some info) :
    putBytes place part handle = .ok () { handle with
      blockCache := splice handle.blockCache place part
      offset := handle.offset + part.length
      blockCacheInfo := some { info with dirty := true } } := by
  have copy := copy_from_slice_eq (show part.length = place + part.length - place by omega)
    (Nat.le_add_right place part.length)
      (show place + part.length ≤ handle.blockCache.length by omega)
  unfold putBytes
  change (orPanic (copyFromSlice handle.blockCache place (place + part.length) part) >>= _ :
    OnHandle Unit) handle = _
  rw [copy, state_bind_ok (rfl : orPanic (some _) handle = .ok _ handle)]
  change EStateM.Result.ok () { handle with
    blockCache := splice handle.blockCache place part
    offset := handle.offset + part.length
    blockCacheInfo := handle.blockCacheInfo.map fun info : BlockCacheInfo =>
      { info with dirty := true } } = _
  rw [present]
  rfl

/-- What the buffer is to be written back as. -/
theorem pending_put (sole : (handle.fileMap base).Sole)
    (keeps : (handle.fileMap base).Keeps contents)
    (settled : handle.Settled contents (handle.fileMap base).Tables k)
    (inside : k < handle.count ∨ k = 0)
    (own : k < handle.count ∨ part = [])
    (within : place + part.length ≤ handle.cursor.volume.blockSize)
    (bounded : handle.offset + part.length ≤ handle.size)
    (result : splice handle.blockCache place part = splice (handle.blocks contents k) place part)
    (near : (handle.offset + part.length) / handle.cursor.volume.blockSize = k ∨
      handle.offset + part.length = (k + 1) * handle.cursor.volume.blockSize)
    (block : (handle.offset + part.length) / handle.cursor.volume.blockSize % 2 ^ 32 = info.block ↔
      (handle.offset + part.length) / handle.cursor.volume.blockSize = k)
    (size : k + 1 < handle.count → info.size = handle.cursor.volume.blockSize)
    (early : info.block ≤ k) :
    Pending base { handle with
        blockCache := splice handle.blockCache place part
        offset := handle.offset + part.length
        blockCacheInfo := some { info with dirty := true } }
      (handle.changed base contents k place part) k { info with dirty := true } := by
  have device : handle.cursor.volume.device = contents :=
    Cursor.device_of_clean settled.cursor.views settled.cursor.clean
  have after := keeps_changed place part sole keeps inside own
  have pointer := (FileMap.way_kept sole after inside).2
  have here : handle.cursor.pointer k = (handle.fileMap base).pointer k := by
    unfold Cursor.pointer
    rw [device]
    exact (FileMap.way_kept sole keeps inside).2
  have length : (splice handle.blockCache place part).length = handle.blockCache.length :=
    length_splice (by rw [settled.sized]; exact within)
  have deviceKeeps : (handle.fileMap base).Keeps handle.cursor.volume.device := by rwa [device]
  have start : handle.Settled handle.cursor.volume.device (handle.fileMap base).Tables k := by
    rwa [device]
  refine ⟨⟨start.cursor, start.saved, start.last, length.trans start.sized, bounded, start.small⟩,
    after, deviceKeeps, inside, rfl, ?_, ?_, near, block, size, early⟩
  · refine result.trans ?_
    change _ = handle.changed base contents k place part
      (dataPointer handle.cursor.location.inode _ _)
    rw [show dataPointer handle.cursor.location.inode (handle.changed base contents k place part)
      (locate (handle.cursor.volume.blockSize / 4) k) =
      (handle.fileMap base).pointer k from pointer, changed,
      Function.update_self]
  · intro addr apart
    have other : addr ≠ (handle.fileMap base).pointer k := by
      rw [← here]
      exact apart rfl
    change handle.cursor.volume.device addr = _
    rw [device, changed, Function.update_of_ne other]

end Put

section Loop

variable {buffer : Block} {infoSize maxCount : Nat}

theorem write_loop_done (rounds : Nat) :
    writeLoop infoSize maxCount buffer (rounds + 1) maxCount handle =
    .ok maxCount handle := by
  unfold writeLoop
  rw [if_neg (Nat.lt_irrefl _)]
  rfl

structure Wrote (base : Contents) (handle : Handle) (contents : Contents) (bytes : Block)
    (after : Handle)
    (contentsAfter : Contents) : Prop where
  pending : ∃ k info, after.Pending base contentsAfter k info
  frame : after.frame = handle.frame
  offset : after.offset = handle.offset + bytes.length
  bytes : handle.bytes contentsAfter = splice (handle.bytes contents) handle.offset bytes

/-- The handle at the next block, ready to take so many bytes at its start. -/
structure Prepared (handle : Handle) (base contents : Contents) (k length : Nat)
    (after : Handle) : Prop where
  settled : after.Settled contents (handle.fileMap base).Tables (k + 1)
  frame : after.frame = handle.frame
  offset : after.offset = handle.offset
  info : ∃ info, after.blockCacheInfo = some info ∧
    (k + 2 < handle.count → info.size = handle.cursor.volume.blockSize) ∧
    (length = handle.cursor.volume.blockSize ∧ info.block ≤ k ∨
      after.blockCache = handle.blocks contents (k + 1) ∧ info.block = (k + 1) % 2 ^ 32)

section Round

variable (sole : (handle.fileMap base).Sole) (linked : handle.Linked base AnyTable)
  (writable : handle.cursor.volume.readOnly = false) (pending : handle.Pending base contents k info)
  (more : k + 1 < handle.count)

include sole linked writable pending more

/-- The buffer is written back, and the handle goes to the next block. -/
theorem write_prepares (length : Nat) :
    ∃ flushed moved after, flush handle = .ok () flushed ∧
      onCursor Cursor.advance flushed = .ok true moved ∧
      readUnlessWhole length moved = .ok () after ∧
        handle.Prepared base contents k length after := by
  obtain ⟨flushed, flushes, settled, buffered, frame, offset⟩ :=
    flush_pending sole linked pending writable
  have count := count_of_frame frame
  have blockSize := (same_file frame).blockSize
  have links : flushed.Linked contents (handle.fileMap base).Tables :=
    linked_of_frame frame (linked_kept linked sole pending.keeps)
  obtain ⟨_, moved, advances, rfl, there, still, same⟩ :=
    yields_ok (advance_spec settled links (by rwa [count]))
  have movedFrame : moved.frame = handle.frame := same.trans frame
  have movedBlockSize := (same_file movedFrame).blockSize
  have movedOffset : moved.offset = handle.offset := by rw [still, offset]
  have movedSettled : moved.Settled contents (handle.fileMap base).Tables (k + 1) := by
    obtain ⟨-, -, -, last, saved, size⟩ := same_file same
    refine ⟨there, saved.trans settled.saved, ?_, ?_, ?_, ?_⟩
    · rw [last, count_of_frame same, settled.last]
    · rw [(same_file same).blockSize, still]
      exact settled.sized
    · rw [still]
      exact settled.bounded
    · rw [(same_file same).blockSize]
      exact settled.small
  have readable := (linked_of_frame same links).readable (k + 1)
    (.inl (by rw [count_of_frame movedFrame]; exact more))
  refine ⟨flushed, moved, ?_⟩
  by_cases whole : length = handle.cursor.volume.blockSize
  · refine ⟨moved, flushes, advances, ?_,
      movedSettled, movedFrame, movedOffset, { info with dirty := false }, ?_, ?_,
      .inl ⟨whole, pending.early⟩⟩
    · change (if length ≠ moved.cursor.volume.blockSize then _ else _ : OnHandle Unit) moved = _
      rw [if_neg (by rw [movedBlockSize]; exact not_not.mpr whole)]
      rfl
    · rw [still]
      exact buffered.present
    · intro _
      exact pending.size (by omega)
  · obtain ⟨_, after, refills, refilled⟩ :=
      yields_ok (internal_update_buffer_spec there readable movedSettled.last movedSettled.sized)
    obtain ⟨size, full, present⟩ := refilled.info
    refine ⟨after, flushes, advances, ?_,
      settled_refilled movedSettled refilled, refilled.frame.trans movedFrame,
      refilled.offset.trans movedOffset, _, present, ?_, .inr ⟨?_, rfl⟩⟩
    · change (if length ≠ moved.cursor.volume.blockSize then _ else _ : OnHandle Unit) moved = _
      rw [if_pos (by rw [movedBlockSize]; exact whole)]
      exact refills
    · intro later
      rw [← movedBlockSize]
      exact full (by rw [count_of_frame movedFrame]; exact later)
    · rw [refilled.buffer, blocks_of_frame movedFrame]

end Round

theorem prepared_put {part : Block} (sole : (handle.fileMap base).Sole)
    (keeps : (handle.fileMap base).Keeps contents) (words : handle.count < 2 ^ 32)
    (prepared : handle.Prepared base contents k part.length after) (more : k + 1 < handle.count)
    (behind : handle.offset = (k + 1) * handle.cursor.volume.blockSize)
    (short : part.length ≤ handle.cursor.volume.blockSize)
    (bounded : handle.offset + part.length ≤ handle.size) :
    ∃ final, putBytes 0 part after = .ok () final ∧
      handle.Wrote base contents part final (handle.changed base contents (k + 1) 0 part) ∧
      ∃ info, final.Pending base (handle.changed base contents (k + 1) 0 part) (k + 1) info := by
  obtain ⟨blockSize, -, -, -, -, size⟩ := same_file prepared.frame
  have count := count_of_frame prepared.frame
  have sameMap : after.fileMap base = handle.fileMap base := file_map_of_frame prepared.frame
  have positive : 0 < handle.cursor.volume.blockSize := by
    rw [← blockSize]
    exact prepared.settled.cursor.views.stores.positive
  obtain ⟨info, present, full, holds⟩ := prepared.info
  have offset : after.offset = (k + 1) * after.cursor.volume.blockSize := by
    rw [prepared.offset, behind, blockSize]
  have near := near_after
    (show after.offset / after.cursor.volume.blockSize = k + 1 by
      rw [offset, blockSize, Nat.mul_div_cancel _ positive])
    (show after.offset % after.cursor.volume.blockSize + part.length ≤
      after.cursor.volume.blockSize by
      rw [offset, Nat.mul_mod_left, Nat.zero_add, blockSize]
      exact short)
  have block : (after.offset + part.length) / after.cursor.volume.blockSize % 2 ^ 32 = info.block ↔
      (after.offset + part.length) / after.cursor.volume.blockSize = k + 1 := by
    rcases holds with ⟨whole, stale⟩ | ⟨-, current⟩
    · have next : after.offset + part.length = (k + 2) * after.cursor.volume.blockSize := by
        rw [offset, whole, blockSize, Nat.succ_mul (k + 1)]
      rw [next, blockSize, Nat.mul_div_cancel _ positive, Nat.mod_eq_of_lt (by omega)]
      omega
    · rw [current]
      exact block_iff (blockSize ▸ positive) near
  have early : info.block ≤ k + 1 := by
    rcases holds with ⟨-, stale⟩ | ⟨-, current⟩
    · omega
    · rw [current]
      exact Nat.mod_le ..
  have blocks : ∀ j, (after.blocks contents j).length = handle.cursor.volume.blockSize := by
    intro j
    rw [← blockSize]
    exact length_blocks prepared.settled.cursor j
  have cache : after.blockCache.length = handle.cursor.volume.blockSize := by
    rw [← blockSize]
    exact prepared.settled.sized
  have result : splice after.blockCache 0 part = splice (after.blocks contents (k + 1)) 0 part := by
    rcases holds with ⟨whole, -⟩ | ⟨same, -⟩
    · rw [splice_whole (whole.trans cache.symm), splice_whole (whole.trans (blocks (k + 1)).symm)]
    · rw [same, blocks_of_frame prepared.frame]
  have settled := prepared.settled
  rw [← sameMap] at sole keeps settled
  have within : 0 + part.length ≤ after.cursor.volume.blockSize := by
    rw [Nat.zero_add, blockSize]; exact short
  have below : k + 1 < after.count := by rwa [count]
  have pending := pending_put sole keeps settled (.inl below) (.inl below) within
    (by rw [prepared.offset, size]; exact bounded) result near block
    (by rw [count, blockSize]; exact full) early
  rw [changed_of_frame prepared.frame] at pending
  refine ⟨_, put_bytes_eq prepared.settled.sized within present,
    ⟨⟨_, _, pending⟩, prepared.frame, ?_, ?_⟩, _,
    pending⟩
  · exact congrArg (· + part.length) prepared.offset
  · rw [sameMap] at sole keeps
    have bytes := bytes_changed sole keeps more
      (fun j => by rw [← blocks_of_frame prepared.frame]; exact blocks j)
      (show 0 + part.length ≤ handle.cursor.volume.blockSize by omega)
    rw [bytes, Nat.add_zero, behind]

theorem write_loop_spec (rounds : Nat) {written : Nat} (sole : (handle.fileMap base).Sole)
    (linked : handle.Linked base AnyTable) (writable : handle.cursor.volume.readOnly = false)
    (words : handle.count < 2 ^ 32) (pending : handle.Pending base contents k info)
    (enough : maxCount - written < rounds) (begun : written ≤ maxCount)
    (room : maxCount ≤ buffer.length)
    (rest : handle.offset + (maxCount - written) ≤ handle.size)
    (behind : written < maxCount → handle.offset = (k + 1) * handle.cursor.volume.blockSize ∧
      infoSize = handle.cursor.volume.blockSize) :
    ∃ after contentsAfter, writeLoop infoSize maxCount buffer rounds written handle = .ok maxCount
      after ∧
      handle.Wrote base contents ((buffer.drop written).take (maxCount - written))
        after contentsAfter := by
  induction rounds generalizing written handle contents k info with
  | zero => omega
  | succ rounds ih =>
      by_cases more : written < maxCount
      · obtain ⟨offset, rfl⟩ := behind more
        have positive := pending.settled.cursor.views.stores.positive
        have next : k + 1 < handle.count := lt_count positive (by omega)
        generalize copiedEq : min (maxCount - written) handle.cursor.volume.blockSize = copied
        have length : ((buffer.drop written).take copied).length = copied := by
          rw [List.length_take, List.length_drop]
          omega
        obtain ⟨flushed, moved, ready, flushes, advances, reads, prepared⟩ :=
          write_prepares sole linked writable pending next copied
        have keeps := pending.keeps
        rw [← length] at prepared
        obtain ⟨final, puts, wrote, info', pending'⟩ :=
          prepared_put sole keeps words prepared next offset (by omega) (by omega)
        obtain ⟨blockSize, -, -, -, -, size⟩ := same_file wrote.frame
        have sameMap : final.fileMap base = handle.fileMap base := file_map_of_frame wrote.frame
        have moves := wrote.offset
        rw [length] at moves
        have continues : ∃ after contentsAfter,
            writeLoop handle.cursor.volume.blockSize maxCount buffer rounds (written + copied)
              final =
              .ok maxCount after ∧
            final.Wrote base (handle.changed base contents (k + 1)
              0 ((buffer.drop written).take copied))
              ((buffer.drop (written + copied)).take (maxCount - (written + copied)))
                after contentsAfter := by
          refine ih (by rwa [sameMap]) (linked_of_frame wrote.frame linked)
            (by rw [← writable]; exact read_only_of_frame wrote.frame)
            (by rw [count_of_frame wrote.frame]; exact words) pending' (by omega) (by omega)
              (by omega) ?_
          intro still
          refine ⟨?_, blockSize.symm⟩
          rw [moves, offset, blockSize, Nat.succ_mul (k + 1)]
          omega
        obtain ⟨after, contentsAfter, loops, last⟩ := continues
        have part : getSlice buffer written (written + copied) = some
            ((buffer.drop written).take copied) := by
          rw [get_slice_eq (by omega) (by omega), Nat.add_sub_cancel_left]
        have split : maxCount - written = copied + (maxCount - (written + copied)) := by omega
        have whole : (buffer.drop written).take (maxCount - written) = (buffer.drop written).take
            copied ++
            (buffer.drop (written + copied)).take (maxCount - (written + copied)) := by
          rw [split, List.take_add, List.drop_drop]
        refine ⟨after, contentsAfter, ?_, last.pending, last.frame.trans wrote.frame, ?_, ?_⟩
        · unfold writeLoop
          rw [if_pos more, state_bind_ok flushes, state_bind_ok advances]
          change ((do
            readUnlessWhole (min (maxCount - written) handle.cursor.volume.blockSize)
            let part ← orPanic (getSlice buffer written
              (written + min (maxCount - written) handle.cursor.volume.blockSize))
            putBytes 0 part
            writeLoop handle.cursor.volume.blockSize maxCount buffer rounds
              (written + min (maxCount - written) handle.cursor.volume.blockSize)) : OnHandle Nat)
                moved = _
          rw [copiedEq, state_bind_ok reads, part,
            state_bind_ok (rfl : orPanic (some _) ready = .ok _ ready),
            state_bind_ok puts]
          exact loops
        · rw [last.offset, wrote.offset, whole, List.length_append, Nat.add_assoc]
        · have total := pending_size sole pending
          have restLength : ((buffer.drop (written + copied)).take
              (maxCount - (written + copied))).length =
              maxCount - (written + copied) := by
            rw [List.length_take, List.length_drop]
            omega
          rw [whole, ← splice_splice (by omega),
            ← wrote.bytes, ← wrote.offset, ← bytes_of_frame wrote.frame,
            ← bytes_of_frame wrote.frame]
          exact last.bytes
      · obtain rfl : written = maxCount := by omega
        refine ⟨handle, contents, write_loop_done rounds, ⟨_, _, pending⟩, rfl, ?_, ?_⟩
        · rw [Nat.sub_self, List.take_zero]
          rfl
        · rw [Nat.sub_self, List.take_zero, splice_nil]

end Loop

section Whole

variable {buffer : Block} {maxCount : Nat}

theorem write_first_spec (sole : (handle.fileMap base).Sole)
    (keeps : (handle.fileMap base).Keeps contents)
    (settled : handle.Settled contents (handle.fileMap base).Tables k)
    (buffered : handle.Buffered contents k info)
    (inside : k < handle.count ∨ k = 0) (early : info.block ≤ k)
    (within : handle.offset / handle.cursor.volume.blockSize = k) (room : maxCount ≤ buffer.length)
    (rest : handle.offset + maxCount ≤ handle.size) :
    ∃ copied final, copied = min maxCount
        (handle.cursor.volume.blockSize - handle.offset % handle.cursor.volume.blockSize) ∧
      writeFirst maxCount buffer handle = .ok copied final ∧
      handle.Wrote base contents (buffer.take copied) final
        (handle.changed base contents k (handle.offset % handle.cursor.volume.blockSize)
          (buffer.take copied)) ∧
      final.Pending base
        (handle.changed base contents k (handle.offset % handle.cursor.volume.blockSize)
          (buffer.take copied)) k
        { info with dirty := true } := by
  have positive := settled.cursor.views.stores.positive
  have below := Nat.mod_lt handle.offset positive
  have parts := Nat.div_add_mod handle.offset handle.cursor.volume.blockSize
  rw [within, Nat.mul_comm] at parts
  generalize copiedEq : min maxCount
    (handle.cursor.volume.blockSize - handle.offset % handle.cursor.volume.blockSize) = copied
  have length : (buffer.take copied).length = copied := by
    rw [List.length_take]
    omega
  have own : k < handle.count ∨ buffer.take copied = [] := by
    by_cases empty : copied = 0
    · right
      rw [empty, List.take_zero]
    · exact .inl (lt_count positive (by omega))
  have fits : handle.offset % handle.cursor.volume.blockSize + (buffer.take copied).length ≤
      handle.cursor.volume.blockSize := by
    rw [length]
    omega
  have near := near_after within fits
  have current : k % 2 ^ 32 = info.block := by
    rw [← buffered.block.mpr within, within]
  have pending := pending_put sole keeps settled inside own fits (by rw [length]; omega)
    (by rw [buffered.buffer]) near (by rw [← current]; exact block_iff positive near)
      buffered.size early
  refine ⟨copied, _, rfl, ?_, ⟨⟨_, _, pending⟩, rfl, rfl, ?_⟩, pending⟩
  · have part : getSlice buffer 0 copied = some (buffer.take copied) := by
      rw [get_slice_eq (Nat.zero_le _) (by omega), List.drop_zero, Nat.sub_zero]
    unfold writeFirst
    change ((do
      let part ← orPanic (getSlice buffer 0 (min maxCount
        (handle.cursor.volume.blockSize - handle.offset % handle.cursor.volume.blockSize)))
      putBytes (handle.offset % handle.cursor.volume.blockSize) part
      return min maxCount (handle.cursor.volume.blockSize - handle.offset %
        handle.cursor.volume.blockSize)) :
        OnHandle Nat) handle = _
    rw [copiedEq, part, state_bind_ok (rfl : orPanic (some _) handle = .ok _ handle),
      state_bind_ok (put_bytes_eq settled.sized fits buffered.present)]
    rfl
  · rcases own with before | empty
    · rw [bytes_changed sole keeps before (length_blocks settled.cursor) fits, parts]
    · rw [empty, changed_nothing sole keeps inside, splice_nil]

theorem write_buffered_spec (sole : (handle.fileMap base).Sole)
    (linked : handle.Linked base AnyTable)
    (writable : handle.cursor.volume.readOnly = false) (words : handle.count < 2 ^ 32)
    (keeps : (handle.fileMap base).Keeps contents)
    (settled : handle.Settled contents (handle.fileMap base).Tables k)
    (buffered : handle.Buffered contents k info)
    (inside : k < handle.count ∨ k = 0) (early : info.block ≤ k)
    (rest : handle.offset + buffer.length ≤ handle.size) :
    ∃ after contentsAfter,
      writeBuffered (handle.offset / handle.cursor.volume.blockSize % 2 ^ 32)
        buffer.length buffer handle =
        .ok buffer.length after ∧
      handle.Wrote base contents buffer after contentsAfter := by
  have positive := settled.cursor.views.stores.positive
  have unfolds : ∀ currentBlock, writeBuffered currentBlock buffer.length buffer handle =
      (if currentBlock = info.block then do
        let written ← writeFirst buffer.length buffer
        writeLoop info.size buffer.length buffer (buffer.length + 1) written
      else
        writeLoop info.size buffer.length buffer (buffer.length + 1) 0 : OnHandle Nat) handle := by
    intro currentBlock
    rw [writeBuffered, state_bind_get, buffered.present]
  rw [unfolds]
  by_cases within : handle.offset / handle.cursor.volume.blockSize = k
  · rw [if_pos (buffered.block.mpr within)]
    have parts := Nat.div_add_mod handle.offset handle.cursor.volume.blockSize
    rw [within, Nat.mul_comm] at parts
    have below := Nat.mod_lt handle.offset positive
    obtain ⟨copied, middle, copiedEq, first, wrote, pending⟩ :=
      write_first_spec sole keeps settled buffered inside early within (Nat.le_refl _) rest
    have length : (buffer.take copied).length = copied := by
      rw [List.length_take]
      omega
    obtain ⟨blockSize, -, -, -, -, size⟩ := same_file wrote.frame
    have moves := wrote.offset
    rw [length] at moves
    obtain ⟨after, contentsAfter, loops, last⟩ : ∃ after contentsAfter,
        writeLoop info.size buffer.length buffer (buffer.length + 1)
          copied middle = .ok buffer.length after ∧
        middle.Wrote base
          (handle.changed base contents k (handle.offset % handle.cursor.volume.blockSize)
            (buffer.take copied))
          ((buffer.drop copied).take (buffer.length - copied)) after contentsAfter := by
      refine write_loop_spec _ (by rwa [file_map_of_frame wrote.frame])
        (linked_of_frame wrote.frame linked)
        (by rw [← writable]; exact read_only_of_frame wrote.frame)
        (by rw [count_of_frame wrote.frame]; exact words) pending (by omega) (by omega)
          (Nat.le_refl _) (by omega) ?_
      intro more
      have behind : handle.offset + copied = (k + 1) * handle.cursor.volume.blockSize := by
        rw [Nat.succ_mul]
        omega
      refine ⟨by rw [moves, blockSize, behind], ?_⟩
      rw [blockSize]
      exact buffered.size (lt_count positive (by omega))
    have whole : buffer = buffer.take copied ++ (buffer.drop copied).take
        (buffer.length - copied) := by
      rw [List.take_of_length_le (List.length_drop ..).le, List.take_append_drop]
    rw [state_bind_ok first]
    refine ⟨after, contentsAfter, loops, last.pending, last.frame.trans wrote.frame, ?_, ?_⟩
    · rw [last.offset, moves, List.length_take, List.length_drop]
      omega
    · have total := size_le_bytes settled.cursor
      have restLength : ((buffer.drop copied).take (buffer.length - copied)).length =
          buffer.length - copied := by
        rw [List.length_take, List.length_drop]
        omega
      rw [whole, ← splice_splice (by omega),
        ← wrote.bytes, ← wrote.offset, ← bytes_of_frame wrote.frame,
        ← bytes_of_frame wrote.frame]
      exact last.bytes
  · rw [if_neg (fun same => within (buffered.block.mp same))]
    have behind := buffered.near.resolve_left within
    have pending := pending_of_buffered keeps settled buffered inside early
    obtain ⟨after, contentsAfter, loops, last⟩ :=
      write_loop_spec (buffer.length + 1) sole linked writable words
      pending (Nat.lt_succ_self _) (Nat.zero_le _) (Nat.le_refl _) rest fun more =>
        ⟨behind, buffered.size (lt_count positive (by rw [← behind]; omega))⟩
    rw [List.drop_zero, Nat.sub_zero, List.take_length] at last
    exact ⟨after, contentsAfter, loops, last⟩

/-- A handle between two calls: with a block in its buffer, or just opened. -/
def Steady (base : Contents) (handle : Handle) (contents : Contents) : Prop :=
  (∃ k info, handle.Pending base contents k info) ∨
    handle.Opened contents (handle.fileMap base).Tables ∧ (handle.fileMap base).Keeps contents

/-- `flush` and the first access, with which `read` and `write` begin. -/
theorem begins_spec (sole : (handle.fileMap base).Sole) (linked : handle.Linked base AnyTable)
    (writable : handle.cursor.volume.readOnly = false) (steady : handle.Steady base contents) :
    ∃ flushed filled k info, flush handle = .ok () flushed ∧ fillBuffer flushed = .ok () filled ∧
      flushed.cursor.volume.device = contents ∧
      filled.Settled contents (handle.fileMap base).Tables k ∧ filled.Buffered contents k info ∧
      (k < handle.count ∨ k = 0) ∧ info.block ≤ k ∧ filled.frame = handle.frame ∧
      filled.offset = handle.offset ∧ (handle.fileMap base).Keeps contents := by
  rcases steady with ⟨k, info, pending⟩ | ⟨⟨settled, missing, start⟩, keeps⟩
  · obtain ⟨flushed, flushes, settled, buffered, frame, offset⟩ :=
      flush_pending sole linked pending writable
    refine ⟨flushed, flushed, k, _, flushes, ?_,
      Cursor.device_of_clean settled.cursor.views settled.cursor.clean, settled, buffered,
        pending.inside,
      pending.early, frame, offset, pending.keeps⟩
    change (if flushed.blockCacheInfo.isNone then _ else _ : OnHandle Unit) flushed = _
    rw [if_neg (by rw [buffered.present]; exact Bool.false_ne_true)]
    rfl
  · have flushed : flush handle = .ok () handle := by
      refine flush_of_clean settled.cursor.clean settled.saved ?_
      intro other present
      exact absurd (missing.symm.trans present) nofun
    have readable := (linked_kept linked sole keeps).readable 0 (.inr rfl)
    obtain ⟨_, filled, fills, refilled⟩ :=
      yields_ok (internal_update_buffer_spec settled.cursor readable settled.last settled.sized)
    obtain ⟨size, full, present⟩ := refilled.info
    obtain ⟨info, buffered⟩ := buffered_of_refilled refilled (by rw [start, Nat.zero_div])
    obtain rfl : _ = info := Option.some.inj (present.symm.trans buffered.present)
    refine ⟨handle, filled, 0, _, flushed, ?_,
      Cursor.device_of_clean settled.cursor.views settled.cursor.clean,
      settled_refilled settled refilled, buffered, .inr rfl, Nat.zero_le _, refilled.frame,
        refilled.offset, keeps⟩
    change (if handle.blockCacheInfo.isNone then _ else _ : OnHandle Unit) handle = _
    rw [if_pos (by rw [missing]; rfl)]
    exact fills

/-- Bytes that fit into the file leave its size. -/
theorem write_of_parts {flushed filled : Handle} (positive : 0 < handle.cursor.volume.blockSize)
    (rest : handle.offset + buffer.length ≤ handle.size) (flushes : flush handle = .ok () flushed)
    (fills : fillBuffer flushed = .ok () filled)
    (writes : writeBuffered (handle.offset / handle.cursor.volume.blockSize % 2 ^ 32)
      buffer.length buffer filled =
      .ok buffer.length after)
    (sameSize : after.size = handle.size) : write buffer handle = .ok buffer.length after := by
  have rounded : handle.size ≤ (nextMultipleOf handle.size handle.cursor.volume.blockSize).getD
      handle.size := by
    unfold nextMultipleOf
    split_ifs
    · exact size_le_count positive
    · exact Nat.le_refl _
  have maxCount : min buffer.length
      (sub64 ((nextMultipleOf handle.size handle.cursor.volume.blockSize).getD
      handle.size) handle.offset) = buffer.length := by
    rw [sub64_of_le (by omega)]
    omega
  have unchanged : setNewSize (max handle.size (handle.offset + buffer.length)) after = .ok ()
      after := by
    change (if max handle.size (handle.offset + buffer.length) ≠ after.size then _ else _ : OnHandle
      Unit) after = _
    rw [if_neg (by rw [sameSize]; omega)]
    rfl
  unfold write
  change ((do
    flush
    fillBuffer
    let written ← writeBuffered (handle.offset / handle.cursor.volume.blockSize % 2 ^ 32)
      (min buffer.length (sub64 ((nextMultipleOf handle.size handle.cursor.volume.blockSize).getD
        handle.size)
        handle.offset)) buffer
    setNewSize (max handle.size (handle.offset + written))
    return written) : OnHandle Nat) handle = _
  rw [state_bind_ok flushes, state_bind_ok fills, maxCount, state_bind_ok writes,
    state_bind_ok unchanged]
  rfl

/-- Bytes that fit into the file replace those at the offset. -/
theorem write_spec (sole : (handle.fileMap base).Sole) (linked : handle.Linked base AnyTable)
    (writable : handle.cursor.volume.readOnly = false) (words : handle.count < 2 ^ 32)
    (steady : handle.Steady base contents) (rest : handle.offset + buffer.length ≤ handle.size) :
    ∃ after contentsAfter, write buffer handle = .ok buffer.length after ∧
      handle.Wrote base contents buffer after contentsAfter := by
  obtain ⟨flushed, filled, k, info, flushes, fills, -, settled, buffered, inside, early, frame,
    offset, keeps⟩ :=
    begins_spec sole linked writable steady
  obtain ⟨blockSize, -, -, -, -, size⟩ := same_file frame
  have sameMap : filled.fileMap base = handle.fileMap base := file_map_of_frame frame
  obtain ⟨after, contentsAfter, writes, wrote⟩ : ∃ after contentsAfter,
      writeBuffered (filled.offset / filled.cursor.volume.blockSize % 2 ^ 32)
        buffer.length buffer filled =
        .ok buffer.length after ∧ filled.Wrote base contents buffer after contentsAfter :=
          write_buffered_spec
    (by rwa [sameMap]) (linked_of_frame frame linked)
      (by rw [← writable]; exact read_only_of_frame frame)
    (by rw [count_of_frame frame]; exact words) (by rwa [sameMap]) (by rwa [sameMap]) buffered
    (by rwa [count_of_frame frame]) early (by rw [offset, size]; exact rest)
  rw [blockSize, offset] at writes
  have positive : 0 < handle.cursor.volume.blockSize := by
    rw [← blockSize]
    exact settled.cursor.views.stores.positive
  refine ⟨after, contentsAfter, write_of_parts positive rest flushes fills writes
    ((same_file wrote.frame).size.trans size), wrote.pending, wrote.frame.trans frame, ?_, ?_⟩
  · rw [wrote.offset, offset]
  · rw [← bytes_of_frame frame, ← bytes_of_frame frame, wrote.bytes, offset]

theorem write_inside_spec (sole : (handle.fileMap base).Sole)
    (keeps : (handle.fileMap base).Keeps contents)
    (settled : handle.Settled contents (handle.fileMap base).Tables k)
    (buffered : handle.Buffered contents k info)
    (inside : k < handle.count ∨ k = 0) (early : info.block ≤ k)
    (within : handle.offset / handle.cursor.volume.blockSize = k)
    (fits : handle.offset % handle.cursor.volume.blockSize + buffer.length ≤
      handle.cursor.volume.blockSize)
    (rest : handle.offset + buffer.length ≤ handle.size) :
    ∃ after, write buffer handle = .ok buffer.length after ∧
      after.Pending base (handle.changed base
        contents k (handle.offset % handle.cursor.volume.blockSize) buffer) k
        { info with dirty := true } ∧
      after.frame = handle.frame ∧ after.offset = handle.offset + buffer.length := by
  obtain ⟨copied, after, copiedEq, first, wrote, pending⟩ :=
    write_first_spec sole keeps settled buffered inside early within (Nat.le_refl _) rest
  obtain rfl : copied = buffer.length := by omega
  rw [List.take_length] at wrote pending
  have flushed : flush handle = .ok () handle := by
    apply flush_of_clean settled.cursor.clean settled.saved
    intro other present
    obtain rfl : info = other := Option.some.inj (buffered.present.symm.trans present)
    exact buffered.clean
  have filled : fillBuffer handle = .ok () handle := by
    change (if handle.blockCacheInfo.isNone then _ else _ : OnHandle Unit) handle = _
    rw [if_neg (by rw [buffered.present]; exact Bool.false_ne_true)]
    rfl
  have writes : writeBuffered (handle.offset / handle.cursor.volume.blockSize % 2 ^ 32)
      buffer.length buffer handle =
      .ok buffer.length after := by
    rw [writeBuffered, state_bind_get, buffered.present]
    change (if handle.offset / handle.cursor.volume.blockSize % 2 ^ 32 = info.block then _ else _ :
      OnHandle Nat) handle = _
    rw [if_pos (buffered.block.mpr within), state_bind_ok first]
    exact write_loop_done _
  exact ⟨after, write_of_parts settled.cursor.views.stores.positive rest flushed filled writes
    (same_file wrote.frame).size, pending, wrote.frame, wrote.offset⟩

/-- A volume that is mounted to be read only refuses the flush. -/
theorem flush_locked (sole : (handle.fileMap base).Sole) (linked : handle.Linked base AnyTable)
    (pending : handle.Pending base contents k info) (dirty : info.dirty = true)
    (locked : handle.cursor.volume.readOnly = true) :
    flush handle = .error (.error .actionNotAllowed) handle := by
  have here := pending.settled.cursor
  have refused : onCursor (Cursor.writeBlock handle.blockCache)
      handle = .error (.error .actionNotAllowed) handle := by
    unfold onCursor
    rw [Cursor.write_block_locked here (pending_inside sole linked pending).1 pending.settled.sized
      locked]
  rw [flush_of_changed here.clean pending.settled.saved pending.present dirty,
    state_bind_error refused]

end Whole

end Handle

end Campix.Ext2
