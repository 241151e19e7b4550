import Campix.Ext2.ResizedFiles

/-!
# Files that grow

`grow` as a whole, on a file all of whose blocks are there. Where the size stays within the
last block, what waits in the buffer is written as it should be. Where blocks are appended,
nothing may be waiting. Either way the bytes of the file are kept, and the device has the
record of the inode with the new size.
-/

namespace Campix.Ext2

open Lib.Fallible Lib.Outcome Lib.Slice Lib.Word
open Drivers Ext2Volume

set_option autoImplicit false

/-- The inode that `grow` writes. -/
def Inode.grown (inode : Inode) (fileSize64 : Bool) (newSize sectors : Nat) : Inode :=
  let inode := inode.setSize fileSize64 newSize
  { inode with sectorsCount := add32 inode.sectorsCount sectors }

section Grown

variable (inode : Inode) (fileSize64 : Bool) (newSize sectors : Nat)

@[simp] theorem pointer_grown : (inode.grown fileSize64 newSize sectors).pointer =
    inode.pointer := by
  unfold Inode.grown Inode.setSize
  split_ifs <;> rfl

theorem grown_fixed : (inode.grown fileSize64 newSize sectors).inodeI = inode.inodeI ∧
    (inode.grown fileSize64 newSize sectors).ossv2 = inode.ossv2 ∧
    (inode.grown fileSize64 newSize sectors).inodeType = inode.inodeType ∧
    (inode.grown fileSize64 newSize sectors).permissions = inode.permissions := by
  unfold Inode.grown Inode.setSize
  split_ifs <;> exact ⟨rfl, rfl, rfl, rfl⟩

variable {inode fileSize64 newSize}

theorem get_size_grown (isFile : inode.inodeType = .file) (small : newSize < 2 ^ 64)
    (fits : fileSize64 = true ∨ newSize < 2 ^ 32) :
    (inode.grown fileSize64 newSize sectors).getSize fileSize64 = newSize := by
  have type := (grown_fixed inode fileSize64 newSize sectors).2.2.1
  unfold Inode.getSize
  rw [type]
  by_cases wide : fileSize64 = true
  · rw [if_pos ⟨isFile, wide⟩]
    unfold Inode.grown Inode.setSize
    rw [if_pos ⟨isFile, wide⟩]
    dsimp only
    have high : newSize >>> 32 < 2 ^ 32 := by
      rw [Nat.shiftRight_eq_div_pow]
      omega
    rw [Nat.mod_eq_of_lt high, Nat.shiftLeft_eq, ← Nat.shiftLeft_eq,
      ← Nat.shiftLeft_add_eq_or_of_lt (Nat.mod_lt _ (by decide)),
      Nat.shiftLeft_eq, Nat.shiftRight_eq_div_pow]
    omega
  · rw [if_neg fun both => wide both.2]
    unfold Inode.grown Inode.setSize
    rw [if_neg fun both => wide both.2]
    exact Nat.mod_eq_of_lt (fits.resolve_left wide)

end Grown

namespace Handle

variable {handle after : Handle} {base contents : Contents} {block lba offset newSize : Nat}
  {k : Nat}
variable {info : BlockCacheInfo}

/-- All blocks of the file are there, and the record of its inode is in none of them. -/
structure Sizable (handle : Handle) (contents : Contents) (lba offset : Nat) : Prop where
  tree : handle.Rooted contents
  padded : handle.cursor.volume.Padded
  blockSize : 4 ≤ handle.cursor.volume.blockSize
  square : handle.cursor.tableSize * handle.cursor.tableSize < 2 ^ 32
  housed : handle.cursor.Housed lba offset
  outside : lba ∉ reachable handle.cursor.location.inode.pointer contents handle.cursor.tableSize

section Sizable

variable (sizable : handle.Sizable contents lba offset)
  (idle : handle.Idle contents (handle.fileMap contents).Tables)

include sizable

omit idle in
theorem data_reachable (below : k < handle.count) :
    dataPointer handle.cursor.location.inode contents (locate handle.cursor.tableSize k) ∈
      reachable handle.cursor.location.inode.pointer contents handle.cursor.tableSize :=
  reachable_of_place (digits_locate (tree_below sizable.tree below)) (tree_data sizable.tree below)
    (data_used sizable.tree below).1

include idle

/-- With nothing changed in memory, blocks can be appended. -/
theorem growable_of_idle :
    handle.cursor.view = contents ∧ handle.cursor.Growable handle.count := by
  have clean := idle.cursor.clean
  have view := Cursor.view_eq idle.cursor.views
  refine ⟨view, ?_, ?_, sizable.padded, ?_, ?_, ⟨sizable.blockSize, idle.small⟩, sizable.square,
    idle.last⟩
  · rw [view]
    exact sizable.tree
  · rw [view]
    exact idle.cursor.views
  · unfold Cursor.TreeTables
    rw [view]
    exact Cursor.ready_mono idle.cursor.ready fun _ _ onTree => tables_of_tree sizable.tree onTree
  · intro level dirty
    exact absurd (dirty.symm.trans (clean level)) (by decide)

/-- A marked block that is none of the file is left alone. -/
theorem spares_of_idle (nonzero : block ≠ 0) (marked : handle.cursor.volume.marked block = true)
    (outside : block ∉ reachable handle.cursor.location.inode.pointer contents
      handle.cursor.tableSize) :
    handle.cursor.Spares handle.count block := by
  have view := Cursor.view_eq idle.cursor.views
  refine ⟨nonzero, marked, by rwa [view], fun place => ?_⟩
  unfold Cursor.TreeTables
  rw [view]
  apply Cursor.ready_mono idle.cursor.ready
  rintro level addr (onTree | ⟨-, rfl⟩)
  · exact tables_of_tree sizable.tree onTree
  · refine ⟨nonzero, ?_⟩
    rintro ⟨k, below, rfl⟩
    exact outside (data_reachable sizable below)

end Sizable

/-- What a growth leaves: a longer file that begins with the blocks of the one before, and
whose record is written. -/
structure Larger (handle : Handle) (contents : Contents) (lba offset newSize : Nat) (after : Handle)
    (grown : Contents) : Prop where
  pending : ∃ k info, after.Pending grown grown k info ∧ info.dirty = false
  sizable : after.Sizable grown lba offset
  size : after.size = newSize
  position : after.offset = handle.offset
  mode : after.openMode = handle.openMode
  outline : SameOutline handle.cursor.volume after.cursor.volume
  inode : ∃ (inode : Inode) (sectors : Nat),
    inode.unlinked = handle.cursor.location.inode.unlinked ∧
    after.cursor.location.inode = inode.grown handle.cursor.volume.fileSize64 newSize sectors
  record : grown lba = splice (contents lba) offset (recordOf after.cursor.location.inode)
  kept : ∀ k < handle.count, after.blocks grown k = handle.blocks contents k

theorem housed_grown {cursor : Cursor} {inode : Inode} {fileSize64 : Bool} {sectors : Nat}
    (housed : cursor.Housed lba offset) (same : inode.unlinked = cursor.location.inode.unlinked) :
    (cursor.withInode (inode.grown fileSize64 newSize sectors)).Housed lba offset := by
  obtain ⟨number, complete, -, -⟩ := grown_fixed inode fileSize64 newSize sectors
  have sameNumber : inode.inodeI = cursor.location.inode.inodeI :=
    show inode.unlinked.inodeI = cursor.location.inode.unlinked.inodeI by rw [same]
  have sameRest : inode.ossv2 = cursor.location.inode.ossv2 :=
    show inode.unlinked.ossv2 = cursor.location.inode.unlinked.ossv2 by rw [same]
  refine ⟨housed.tables, ?_, housed.nonzero, housed.marked, ?_⟩
  · change cursor.volume.inodePlace (inode.grown fileSize64 newSize sectors).inodeI = _
    rw [number, sameNumber]
    exact housed.place
  · change (inode.grown fileSize64 newSize sectors).ossv2.length = 12
    rw [complete, sameRest]
    exact housed.complete

theorem housed_of_outline {cursor after : Cursor} (housed : cursor.Housed lba offset)
    (outline : SameOutline cursor.volume after.volume)
    (same : after.location.inode.unlinked = cursor.location.inode.unlinked)
    (marked : after.volume.marked lba = true) : after.Housed lba offset := by
  obtain ⟨bitmaps, frame⟩ := outline
  have number : after.location.inode.inodeI = cursor.location.inode.inodeI :=
    show after.location.inode.unlinked.inodeI = cursor.location.inode.unlinked.inodeI by rw [same]
  have rest : after.location.inode.ossv2 = cursor.location.inode.ossv2 :=
    show after.location.inode.unlinked.ossv2 = cursor.location.inode.unlinked.ossv2 by rw [same]
  have tables := housed.tables
  have kept : after.volume.frame.InodeTables := by
    rw [frame]
    exact ⟨tables.record, tables.fits, tables.blockWord, tables.countWord, tables.perGroup,
      tables.perBlock,
      tables.inside, tables.apart⟩
  refine ⟨⟨kept.record, kept.fits,
    kept.blockWord, kept.countWord, kept.perGroup, kept.perBlock, kept.inside,
    kept.apart⟩, ?_, housed.nonzero, marked, ?_⟩
  · change after.volume.frame.inodePlace after.location.inode.inodeI = _
    rw [frame, number]
    exact housed.place
  · rw [rest]
    exact housed.complete

/-- The file behind the new size, once the record is written. -/
theorem sizable_grown (middle : Handle) {inode : Inode} {grown : Contents}
    (frame : after.frame =
      Handle.frame { middle with size := newSize, cursor := (middle.cursor.withInode inode).saved })
    (tree : after.Rooted grown) (padded : middle.cursor.volume.Padded)
    (blockSize : 4 ≤ middle.cursor.volume.blockSize)
    (square : middle.cursor.tableSize * middle.cursor.tableSize < 2 ^ 32)
    (housed : (middle.cursor.withInode inode).Housed lba offset)
    (outside : lba ∉ reachable inode.pointer grown middle.cursor.tableSize) : after.Sizable grown
    lba offset := by
  have same := same_file frame
  have sameVolume : after.cursor.volume.frame = middle.cursor.volume.frame :=
    show after.frame.cursor.volume = middle.cursor.volume.frame by rw [frame]; rfl
  have size : after.cursor.tableSize = middle.cursor.tableSize := congrArg (· / 4) same.blockSize
  have sameInode : after.cursor.location.inode = inode := same.inode
  refine ⟨tree, padded_of_frame sameVolume padded, ?_, ?_, ?_, ?_⟩
  · exact same.blockSize ▸ blockSize
  · exact size ▸ square
  · refine ⟨tables_of_frame sameVolume housed.tables, ?_, housed.nonzero, ?_, ?_⟩
    · rw [place_of_frame sameVolume, sameInode]
      exact housed.place
    · rw [marked_of_frame sameVolume]
      exact housed.marked
    · rw [sameInode]
      exact housed.complete
  · rw [sameInode, size]
    exact outside

theorem grow_yields {Post : Handle → Prop} (larger : handle.size ≤ newSize)
    (goes : ∀ m, m = (newSize + handle.cursor.volume.blockSize - 1) /
      handle.cursor.volume.blockSize →
      Yields (fun _ => Post) (fun _ => True)
        ((do
          let diffAlloc ← growLoop m (m + 1) 0
          modify fun handle : Handle => { handle with size := newSize }
          modifyInode fun inode => inode.grown handle.cursor.volume.fileSize64 newSize
            (mul32 diffAlloc handle.cursor.volume.sectorsPerBlock)
          updateInode
          flush
          modify fun handle : Handle => { handle with blockCacheInfo := none }
          seek (.fromStart handle.offset)) handle)) :
    Yields (fun _ => Post) (fun _ => True) (grow newSize handle) := by
  change Yields _ _ ((if newSize < handle.size then _ else _ : OnHandle Unit) handle)
  rw [if_neg (Nat.not_lt.mpr larger)]
  have blocks : Yields (fun m after => after = handle ∧
      m = (newSize + handle.cursor.volume.blockSize - 1) / handle.cursor.volume.blockSize)
      (fun _ => True) (blocksFor newSize handle) := by
    change Yields _ _ ((if (newSize + handle.cursor.volume.blockSize - 1) /
      handle.cursor.volume.blockSize ≥ 2 ^ 32
      then _ else _ : OnHandle Nat) handle)
    split_ifs
    · exact .error trivial
    · exact .ok ⟨rfl, rfl⟩
  refine yields_bind blocks ?_
  rintro m _ ⟨rfl, same⟩
  exact goes m same

theorem blocks_recorded {inode after : Inode} {size n : Nat} {Used : Nat → Prop}
    (tree : FileTree inode.pointer contents size Used n) (same : after.pointer = inode.pointer)
    (outside : lba ∉ reachable inode.pointer contents size) (below : k < n) :
    dataPointer after (recorded contents lba offset after) (locate size k) =
        dataPointer inode contents (locate size k) ∧
      recorded contents lba offset after (dataPointer inode contents (locate size k)) =
        contents (dataPointer inode contents (locate size k)) := by
  have kept : ∀ table, Inner inode.pointer contents size table →
      recorded contents lba offset after table = contents table := by
    rintro table ⟨nonzero, location, place, digits, inside, found⟩
    apply recorded_other
    rintro rfl
    exact outside (reachable_of_place digits found nonzero)
  refine ⟨?_, ?_⟩
  · rw [data_pointer_of_pointer same]
    exact (pointers_congr tree kept below).2
  · apply recorded_other
    intro here
    apply outside
    rw [← here]
    exact reachable_of_place (digits_locate (tree_below tree below)) (tree_data tree below)
      (data_used tree below).1

theorem reachable_recorded {inode after : Inode} {size : Nat} (same : after.pointer = inode.pointer)
    (outside : lba ∉ reachable inode.pointer contents size) :
    lba ∉ reachable after.pointer (recorded contents lba offset after) size := by
  rw [same, reachable_congr]
  · exact outside
  · rintro table ⟨nonzero, location, place, digits, inside, found⟩
    apply recorded_other
    rintro rfl
    exact outside (reachable_of_place digits found nonzero)

/-- The buffered block below the end of the file. -/
def Sought (contents : Contents) (target : Nat) (after : Handle) : Prop :=
  (∃ k info, after.Pending contents contents k info ∧ info.dirty = false) ∧ after.offset = target

theorem seek_sought {flushed : Handle} {target : Nat} (rests : flushed.Rests contents)
    (padded : flushed.cursor.volume.Padded)
    (square : flushed.cursor.tableSize * flushed.cursor.tableSize < 2 ^ 32)
    (inside : target < flushed.size) :
    Yields (fun _ after => Sought contents target after ∧ after.frame = flushed.frame)
      (fun _ => True)
      (seek (.fromStart target) flushed) := by
  refine yields_weaken (seek_rests rests padded square inside) ?_ fun _ _ => trivial
  rintro _ after ⟨pending, frame, offset⟩
  exact ⟨⟨pending, offset⟩, frame⟩

theorem grow_within (sizable : handle.Sizable contents lba offset)
    (pending : handle.Pending contents contents k info)
    (writable : handle.cursor.volume.readOnly = false)
    (larger : handle.offset < newSize) (bound : handle.size ≤ newSize) (some_ : 0 < handle.count)
    (blocks : (newSize + handle.cursor.volume.blockSize - 1) / handle.cursor.volume.blockSize =
      handle.count) :
    Yields (fun _ after => ∃ grown, handle.Larger contents lba offset newSize after grown)
      (fun _ => True) (grow newSize handle) := by
  refine grow_yields bound ?_
  rintro m rfl
  have words := rooted_words sizable.tree sizable.padded
  have present : handle.blockCount = handle.count := by
    unfold blockCount Cursor.blockCount
    rw [pending.settled.last]
    omega
  have loop : growLoop ((newSize + handle.cursor.volume.blockSize - 1) /
      handle.cursor.volume.blockSize)
      ((newSize + handle.cursor.volume.blockSize - 1) / handle.cursor.volume.blockSize + 1)
        0 handle =
        .ok 0 handle := by
    rw [growLoop, state_bind_get, if_neg (by rw [present, blocks]; exact Nat.lt_irrefl _)]
    rfl
  rw [state_bind_ok loop]
  have pointers : ((handle.cursor.location.inode).grown handle.cursor.volume.fileSize64 newSize
      (mul32 0 handle.cursor.volume.sectorsPerBlock)).pointer =
        handle.cursor.location.inode.pointer :=
    pointer_grown _ _ _ _
  have housed := @housed_grown lba offset newSize handle.cursor handle.cursor.location.inode
    handle.cursor.volume.fileSize64 (mul32 0 handle.cursor.volume.sectorsPerBlock)
      sizable.housed rfl
  generalize grownIs : (handle.cursor.location.inode).grown handle.cursor.volume.fileSize64 newSize
    (mul32 0 handle.cursor.volume.sectorsPerBlock) = inode at pointers housed
  have ends := @resize_ends handle (recorded contents lba offset inode) lba offset newSize inode
    (fun inode => inode.grown handle.cursor.volume.fileSize64 newSize
      (mul32 0 handle.cursor.volume.sectorsPerBlock))
    (.fromStart handle.offset) (Sought (recorded contents lba offset inode) handle.offset)
      grownIs housed
    pending.settled.cursor.views.stores
    (fun volume stores frame =>
      flush_patched pending sizable.tree pointers blocks sizable.outside frame some_ writable
        stores) ?_
  · refine yields_weaken ends ?_ fun _ _ => trivial
    rintro _ after ⟨⟨pendingAfter, position⟩, tree, frame⟩
    have same := same_file frame
    have sameInode : after.cursor.location.inode = inode := same.inode
    have sameVolume : after.cursor.volume.frame = handle.cursor.volume.frame :=
      show after.frame.cursor.volume = handle.cursor.volume.frame by rw [frame]; rfl
    have size : after.cursor.volume.blockSize / 4 = handle.cursor.tableSize :=
      congrArg (· / 4) same.blockSize
    refine ⟨_, pendingAfter, sizable_grown handle frame tree sizable.padded sizable.blockSize
      sizable.square housed
      (reachable_recorded pointers sizable.outside), same.size, position,
      show after.frame.openMode = handle.openMode by rw [frame]; rfl, ⟨_, sameVolume⟩,
      ⟨_, _, rfl, sameInode.trans grownIs.symm⟩, ?_, ?_⟩
    · rw [sameInode, recorded, Function.update_self]
    · intro j below
      obtain ⟨data, there⟩ := @blocks_recorded contents lba offset j _ inode _ _ _ sizable.tree
        pointers
        sizable.outside below
      unfold Handle.blocks blockOf
      rw [sameInode, size]
      rw [data]
      exact there
  · intro flushed rests sameSize sameOffset frame
    have size : flushed.cursor.tableSize = handle.cursor.tableSize :=
      congrArg (· / 4) (block_size_of_frame frame)
    exact seek_sought rests (padded_of_frame frame sizable.padded) (size ▸ sizable.square)
      (by rw [sameSize]; exact larger)

variable (handle) in
/-- Behind the loop, once the record is written. -/
theorem flush_lengthened {inode : Inode} {m : Nat} {volume : Ext2Volume}
    (growable : handle.cursor.Growable m)
    (edged : handle.cursor.Edged) (spares : handle.cursor.Spares m lba)
    (pointers : inode.pointer = handle.cursor.location.inode.pointer)
    (housed : (handle.cursor.withInode inode).Housed lba offset)
    (blocks : (newSize + handle.cursor.volume.blockSize - 1) / handle.cursor.volume.blockSize = m)
    (sized : handle.blockCache.length = handle.cursor.volume.blockSize)
    (clean : ∀ info, handle.blockCacheInfo = some info → info.dirty = false)
    (stores : volume.Stores (recorded handle.cursor.volume.device lba offset inode))
    (frame : volume.frame = handle.cursor.volume.frame) :
    Yields (fun _ after => (handle.patched inode newSize volume).Emptied
        (recorded handle.cursor.view lba offset inode) { after with blockCacheInfo := none })
      (fun _ => True) (flush (handle.patched inode newSize volume)) := by
  have apart := Cursor.spares_dirty spares
  have blockSize := block_size_of_frame frame
  have here : handle.cursor.view lba = handle.cursor.volume.device lba :=
    (growable.views.unchanged lba apart).symm
  obtain ⟨again, view⟩ := Cursor.growable_with_volume
    (show ∀ level, ((handle.cursor.withInode inode).location.tables level).dirty → _ from apart)
      stores frame
    (Cursor.growable_with_inode growable pointers) (by
      change lba ∉ reachable inode.pointer handle.cursor.view handle.cursor.tableSize
      rw [pointers]
      exact spares.outside)
  have room := (place_inside housed.tables housed.place).2
  have count : (handle.patched inode newSize volume).count = m := by
    change (newSize + volume.blockSize - 1) / volume.blockSize = m
    rw [blockSize]
    exact blocks
  have placed : (handle.patched inode newSize volume).cursor.Housed lba offset :=
    ⟨tables_of_frame frame housed.tables, (place_of_frame frame _).trans housed.place,
      housed.nonzero,
      (marked_of_frame frame lba).trans housed.marked, housed.complete⟩
  have saw : (handle.patched inode newSize volume).cursor.view = recorded handle.cursor.view lba
      offset inode := by
    rw [recorded, here]
    exact view
  have stillEdged : (handle.patched inode newSize volume).cursor.Edged := by
    intro level dirty
    rw [show (handle.patched inode newSize volume).cursor.volume.blockCount = _
      from block_count_of_frame frame]
    exact edged level dirty
  rw [← saw]
  refine flush_grown (by rw [count]; exact again)
    stillEdged placed ?_ (sized.trans blockSize.symm) clean
  rw [saw]
  apply recorded_again
  rw [here, growable.views.stores.sized]
  exact room

theorem grow_by_blocks (sizable : handle.Sizable contents lba offset)
    (idle : handle.Idle contents (handle.fileMap contents).Tables)
    (clean : ∀ info, handle.blockCacheInfo = some info → info.dirty = false)
    (larger : handle.offset < newSize) (bound : handle.size ≤ newSize)
    (vacant : handle.cursor.TablesVacant handle.count
      ((newSize + handle.cursor.volume.blockSize - 1) / handle.cursor.volume.blockSize -
        handle.count)) :
    Yields (fun _ after => ∃ grown, handle.Larger contents lba offset newSize after grown)
      (fun _ => True) (grow newSize handle) := by
  refine grow_yields bound ?_
  rintro m isCount
  rw [← isCount] at vacant
  obtain ⟨view, growable⟩ := growable_of_idle sizable idle
  have more : handle.count ≤ m := by
    rw [isCount]
    exact Nat.div_le_div_right (by omega)
  have lbaSpared := spares_of_idle sizable idle sizable.housed.nonzero sizable.housed.marked
    sizable.outside
  have atEnd : handle.cursor.volume.marked handle.cursor.volume.blockCount = true →
      handle.cursor.Spares handle.count handle.cursor.volume.blockCount := by
    intro marked
    have inside := (place_inside sizable.housed.tables sizable.housed.place).1
    refine spares_of_idle sizable idle (by omega) marked fun member => ?_
    exact Nat.lt_irrefl _ (sizable.tree.used _ member).1
  refine yields_bind (grow_loop_lengthens (m + 1) handle 0 growable vacant more) ?_
  rintro total _ ⟨cursor, rfl, lengthened, -, -⟩
  obtain ⟨stays, kept⟩ := lengthened.spares lba lbaSpared
  have final := lengthened.growable
  have outline := lengthened.outline
  have blockSize := same_outline_block_size outline
  have size : cursor.tableSize = handle.cursor.tableSize := congrArg (· / 4) blockSize
  have housed := @housed_grown lba offset newSize cursor cursor.location.inode
    handle.cursor.volume.fileSize64
    (mul32 total handle.cursor.volume.sectorsPerBlock)
    (housed_of_outline sizable.housed outline lengthened.inode stays.marked) rfl
  have pointers := pointer_grown cursor.location.inode handle.cursor.volume.fileSize64 newSize
    (mul32 total handle.cursor.volume.sectorsPerBlock)
  generalize grownIs : cursor.location.inode.grown handle.cursor.volume.fileSize64 newSize
    (mul32 total handle.cursor.volume.sectorsPerBlock) = inode at housed pointers
  have ends := @resize_ends { handle with cursor := cursor } (recorded cursor.view lba offset inode)
    lba offset
    newSize inode (fun inode => inode.grown handle.cursor.volume.fileSize64 newSize
      (mul32 total handle.cursor.volume.sectorsPerBlock))
    (.fromStart handle.offset) (Sought (recorded cursor.view lba offset inode) handle.offset)
      grownIs housed
    final.views.stores
    (fun volume stores frame => flush_lengthened { handle with cursor := cursor } final
      (Cursor.lengthened_edged lengthened atEnd) stays pointers housed (by rw [blockSize, isCount])
      (idle.sized.trans blockSize.symm) clean stores frame) ?_
  · refine yields_weaken ends ?_ fun _ _ => trivial
    rintro _ after ⟨⟨pendingAfter, position⟩, tree, frame⟩
    have same := same_file frame
    have sameInode : after.cursor.location.inode = inode := same.inode
    have sameVolume : after.cursor.volume.frame = cursor.volume.frame :=
      show after.frame.cursor.volume = cursor.volume.frame by rw [frame]; rfl
    have sizeAfter : after.cursor.volume.blockSize / 4 = cursor.tableSize :=
      congrArg (· / 4) same.blockSize
    refine ⟨_, pendingAfter, sizable_grown { handle with cursor := cursor } frame tree final.padded
      final.blockSize.1 final.square housed (reachable_recorded pointers stays.outside), same.size,
        position,
      show after.frame.openMode = handle.openMode by rw [frame]; rfl, ?_,
      ⟨cursor.location.inode, _, lengthened.inode, sameInode.trans grownIs.symm⟩, ?_, ?_⟩
    · obtain ⟨bitmaps, outlined⟩ := outline
      exact ⟨bitmaps, sameVolume.trans outlined⟩
    · rw [sameInode, recorded, Function.update_self, kept, view]
    · intro j below
      obtain ⟨data, there⟩ := @blocks_recorded cursor.view lba offset j cursor.location.inode
        inode _ _ _
        final.tree pointers stays.outside (Nat.lt_of_lt_of_le below more)
      unfold Handle.blocks blockOf
      rw [sameInode, sizeAfter, data, there, size,
        lengthened.data j below, lengthened.same j below, view]
      rfl
  · intro flushed rests sameSize sameOffset frame
    have flushedSize : flushed.cursor.tableSize = cursor.tableSize :=
      congrArg (· / 4) (block_size_of_frame frame)
    exact seek_sought rests (padded_of_frame frame final.padded) (flushedSize ▸ final.square)
      (by rw [sameSize]; exact larger)

end Handle

end Campix.Ext2
