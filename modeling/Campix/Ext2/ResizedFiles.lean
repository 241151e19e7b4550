import Campix.Ext2.WrittenBack

/-!
# The end of a change of size

Once the blocks are taken, `grow` writes the inode, flushes the handle, drops the buffer
and seeks back. The handle then rests on the tree of the longer file: the device has all of
it, and the copies of tables are those on the way to the block at the offset.
-/

namespace Campix.Ext2

open Lib.Fallible Lib.Outcome Drivers Ext2Volume

set_option autoImplicit false

namespace Cursor

variable {cursor : Cursor} {lba offset pointer : Nat} {inode : Inode}

def saved (cursor : Cursor) : Cursor :=
  { cursor with location := { cursor.location with inodeDirty := false } }

/-- Where the record of the inode is: in a marked block. -/
structure Housed (cursor : Cursor) (lba offset : Nat) : Prop where
  tables : cursor.volume.InodeTables
  place : cursor.volume.inodePlace cursor.location.inode.inodeI = some (lba, offset)
  nonzero : lba ≠ 0
  marked : cursor.volume.marked lba = true
  complete : cursor.location.inode.ossv2.length = 12

theorem follow_with_inode {level : Fin 3} {idx : Nat}
    (found : follow level idx cursor = .ok pointer cursor) :
    follow level idx (cursor.withInode inode) = .ok pointer (cursor.withInode inode) := by
  change (if idx * 4 < (cursor.location.tables level).table.length then _ else _ : OnCursor Nat)
    cursor = _ at found
  change (if idx * 4 < (cursor.location.tables level).table.length then _ else _ : OnCursor Nat)
    (cursor.withInode inode) = _
  split_ifs at found ⊢
  · cases found
    rfl
  · cases found

theorem found_with_inode (same : inode.pointer = cursor.location.inode.pointer)
    (found : getNextBlock cursor = .ok pointer cursor) :
    getNextBlock (cursor.withInode inode) = .ok pointer (cursor.withInode inode) := by
  have direct := direct_of_pointer same
  have stays : (cursor.withInode inode).location.location = cursor.location.location := rfl
  rw [getNextBlock, state_bind_get] at found ⊢
  rw [stays]
  cases place : cursor.location.location.location with
  | direct index =>
      rw [place] at found
      change (if inside : index < 12 then pure (inode.directBlockPointers ⟨index, inside⟩)
        else _ : OnCursor Nat)
        (cursor.withInode inode) = _
      rw [direct]
      dsimp only at found
      split_ifs at found ⊢
      · cases found
        rfl
      · cases found
  | single i =>
      rw [place] at found
      exact follow_with_inode found
  | double i j =>
      rw [place] at found
      exact follow_with_inode found
  | triple i j l =>
      rw [place] at found
      exact follow_with_inode found

end Cursor

namespace Handle

variable {handle after : Handle} {base contents : Contents} {k lba offset newSize target : Nat}
variable {info : BlockCacheInfo} {inode : Inode}

def Rooted (handle : Handle) (contents : Contents) : Prop :=
  FileTree handle.cursor.location.inode.pointer contents handle.cursor.tableSize
    handle.cursor.volume.InUse
    handle.count

/-- A handle with nothing to write back, wherever it stands. -/
structure Rests (handle : Handle) (contents : Contents) : Prop where
  idle : handle.Idle contents
    (OnTree handle.cursor.location.inode contents handle.cursor.tableSize handle.count)
  tree : handle.Rooted contents

section Rooted

variable (tree : handle.Rooted contents)

include tree

theorem tables_of_tree {level : Fin 3} {addr : Nat}
    (onTree : OnTree handle.cursor.location.inode contents handle.cursor.tableSize handle.count
      level addr) :
    (handle.fileMap contents).Tables level addr := by
  have inner := inner_of_on_tree tree onTree
  exact ⟨inner.1, fun ⟨_, below, same⟩ => inner_apart tree below inner same.symm⟩

theorem rooted_readable (below : k < handle.count) :
    Readable handle.cursor.volume handle.cursor.location.inode contents
      (handle.fileMap contents).Tables k := by
  obtain ⟨inside, linked, onDevice⟩ := tree_readable tree rfl (fun _ used => used.1) below
  exact ⟨inside, fun level addr found => tables_of_tree tree (linked level addr found), onDevice⟩

theorem rooted_linked (some_ : 0 < handle.count) : handle.Linked contents AnyTable := by
  refine ⟨fun _ _ nonzero => nonzero, fun k inside => ?_⟩
  have below : k < handle.count := by omega
  obtain ⟨within, linked, onDevice⟩ := rooted_readable tree below
  exact ⟨within, fun level addr found => (linked level addr found).1, onDevice⟩

theorem rooted_sole : (handle.fileMap contents).Sole := tree_sole tree

theorem rooted_words (padded : handle.cursor.volume.Padded) : handle.count < 2 ^ 32 :=
  Nat.lt_of_le_of_lt (tree_count_le tree fun _ used => used.1) padded.word

end Rooted

theorem seek_rests (rests : handle.Rests contents) (padded : handle.cursor.volume.Padded)
    (square : handle.cursor.tableSize * handle.cursor.tableSize < 2 ^ 32)
    (inside : target < handle.size) :
    Yields (fun _ after => (∃ k info, after.Pending contents contents k info ∧ info.dirty = false) ∧
        after.frame = handle.frame ∧ after.offset = target)
      (fun _ => False) (seek (.fromStart target) handle) := by
  have tree := rests.tree
  have idle := rests.idle
  have positive := idle.cursor.views.stores.positive
  have below : target / handle.cursor.volume.blockSize < handle.count := by
    apply lt_count positive
    exact Nat.lt_of_le_of_lt (Nat.div_mul_le_self _ _) inside
  have words := rooted_words tree padded
  have readable := rooted_readable tree below
  have found : fseekHelper (.fromStart target) handle.offset handle.size = some target := by
    unfold fseekHelper
    dsimp only
    rw [if_neg (by omega)]
  have moves := Cursor.arrives_wide idle.cursor.views idle.cursor.clean idle.cursor.ready
    (fun level addr onTree => (tables_of_tree tree onTree).1)
    (tree_readable tree rfl (fun _ used => used.1) below)
    (fun level addr isTable => ⟨(show (handle.fileMap contents).Tables level addr from isTable).1,
      fun same => isTable.2 ⟨_, below, same.symm⟩⟩)
  rw [← Cursor.seek_eq readable.inside (.inr square)] at moves
  refine yields_weaken (seek_of_moves moves readable idle found (by omega) (by omega))
    ?_ fun _ impossible => impossible
  rintro _ after ⟨⟨info, settled, buffered, block⟩, frame, offset⟩
  refine ⟨⟨_, info, pending_of_buffered (fun _ _ => rfl) ?_ buffered ?_ ?_, buffered.clean⟩, frame,
    offset⟩
  · rw [file_map_of_frame frame]
    exact settled
  · rw [count_of_frame frame]
    exact .inl below
  · rw [block]
    exact Nat.mod_le _ _

def Emptied (handle : Handle) (contents : Contents) (after : Handle) : Prop :=
  ∃ cursor : Cursor, after = { handle with cursor := cursor, blockCacheInfo := none } ∧
    cursor.fileFrame = handle.cursor.saved.fileFrame ∧ after.Rests contents

theorem rests_of_saved {cursor : Cursor} (frame : cursor.fileFrame = handle.cursor.saved.fileFrame)
    (views : cursor.Views contents) (clean : ∀ level, (cursor.location.tables level).dirty = false)
    (ready : cursor.Ready contents
      (OnTree handle.cursor.location.inode contents handle.cursor.tableSize handle.count))
    (tree : handle.Rooted contents) (last : handle.cursor.location.maxBlockExclusive = handle.count)
    (sized : handle.blockCache.length = handle.cursor.volume.blockSize)
    (small : handle.cursor.volume.blockSize < 2 ^ 32) :
    Rests { handle with cursor := cursor, blockCacheInfo := none } contents := by
  have same : Handle.frame { handle with cursor := cursor, blockCacheInfo := none } =
      Handle.frame { handle with cursor := handle.cursor.saved } :=
    congrArg (fun cursor => { handle.frame with cursor := cursor }) frame
  have volume : cursor.volume.frame = handle.cursor.volume.frame := congrArg Cursor.volume frame
  obtain ⟨blockSize, blockCount, inode, lastSame, saved, -⟩ := same_file same
  have count := count_of_frame same
  have tableSize : cursor.tableSize = handle.cursor.tableSize := congrArg (· / 4) blockSize
  have inUse : cursor.volume.InUse = handle.cursor.volume.InUse := by
    funext block
    unfold Ext2Volume.InUse
    rw [marked_of_frame volume, show cursor.volume.blockCount = handle.cursor.volume.blockCount
      from blockCount]
  refine ⟨⟨⟨views, clean, ?_⟩, saved, ?_, sized.trans blockSize.symm, ?_⟩, ?_⟩
  · rw [count]
    change cursor.Ready contents (OnTree cursor.location.inode contents cursor.tableSize _)
    rw [show cursor.location.inode = handle.cursor.location.inode from inode, tableSize]
    exact ready
  · rw [count]
    exact lastSame.trans last
  · rw [blockSize]
    exact small
  · unfold Rooted
    rw [count]
    change FileTree cursor.location.inode.pointer contents cursor.tableSize cursor.volume.InUse _
    rw [show cursor.location.inode = handle.cursor.location.inode from inode, tableSize, inUse]
    exact tree

/-- Behind the loop of `grow`, if nothing was waiting in the buffer. -/
theorem flush_grown (growable : handle.cursor.Growable handle.count) (edged : handle.cursor.Edged)
    (housed : handle.cursor.Housed lba offset)
    (there : recorded handle.cursor.view lba
      offset handle.cursor.location.inode = handle.cursor.view)
    (sized : handle.blockCache.length = handle.cursor.volume.blockSize)
    (clean : ∀ info, handle.blockCacheInfo = some info → info.dirty = false) :
    Yields (fun _ after => handle.Emptied handle.cursor.view { after with blockCacheInfo := none })
      (fun _ => True)
      (flush handle) := by
  have flushes := Cursor.flush_spec growable.views edged housed.tables housed.complete
    housed.place there
  refine yields_bind (yields_on_cursor flushes) ?_
  rintro _ _ ⟨cursor, rfl, views, still, saved, copies, frame⟩
  have ready : cursor.Ready handle.cursor.view
      (OnTree handle.cursor.location.inode
        handle.cursor.view handle.cursor.tableSize handle.count) := by
    intro level addr onTree
    obtain ⟨copy, -⟩ := growable.ready level addr onTree
    refine ⟨fun present => ?_, fun other _ dirty => absurd (dirty.symm.trans (still other))
      (by decide)⟩
    rw [(copies level).1]
    exact copy ((copies level).2.symm.trans present)
  have rests := rests_of_saved frame views still ready growable.tree growable.blocks sized
    growable.blockSize.2
  rw [state_bind_get]
  cases present : handle.blockCacheInfo with
  | none => exact .ok ⟨cursor, rfl, frame, rests⟩
  | some info =>
      change Yields _ _ ((if info.dirty then _ else _ : OnHandle Unit) _)
      rw [if_neg (by rw [clean info present]; exact Bool.false_ne_true)]
      exact .ok ⟨cursor, rfl, frame, rests⟩

def patched (handle : Handle) (inode : Inode) (newSize : Nat) (volume : Ext2Volume) : Handle :=
  { handle with size := newSize, cursor := (handle.cursor.withInode inode).withVolume volume }

section Patched

variable {volume : Ext2Volume} (pending : handle.Pending contents contents k info)
  (tree : handle.Rooted contents)
  (same : inode.pointer = handle.cursor.location.inode.pointer)
  (blocks : (newSize + handle.cursor.volume.blockSize - 1) / handle.cursor.volume.blockSize =
    handle.count)
  (outside : lba ∉ reachable handle.cursor.location.inode.pointer contents handle.cursor.tableSize)
  (frame : volume.frame = handle.cursor.volume.frame)

include pending in
theorem patched_frame {final : Ext2Volume} (finalFrame : final.frame = volume.frame) :
    ((handle.cursor.withInode inode).withVolume final).fileFrame =
      (handle.patched inode newSize volume).cursor.saved.fileFrame := by
  have saved : handle.cursor.location.inodeDirty = false := pending.settled.saved
  have unchanged : (handle.patched inode newSize volume).cursor.saved =
      (handle.cursor.withInode inode).withVolume volume := by
    unfold Cursor.saved patched Cursor.withVolume Cursor.withInode
    rw [← saved]
  rw [unchanged]
  exact congrArg (fun volume => Cursor.mk volume
    ((handle.cursor.withInode inode).withVolume final).fileFrame.location) finalFrame

include pending tree same blocks outside frame

/-- Once all of it is on the device. -/
theorem patched_rests {final : Ext2Volume}
    (stores : final.Stores (recorded contents lba offset inode))
    (finalFrame : final.frame = volume.frame) :
    Rests { handle.patched inode newSize volume with
      cursor := (handle.cursor.withInode inode).withVolume final, blockCacheInfo := none }
      (recorded contents lba offset inode) := by
  have blockSize := block_size_of_frame frame
  have blockCount := block_count_of_frame frame
  have patchedCount : (handle.patched inode newSize volume).count = handle.count := by
    change (newSize + volume.blockSize - 1) / volume.blockSize = _
    rw [blockSize, blocks]
  have tableSize : (handle.patched inode newSize volume).cursor.tableSize =
      handle.cursor.tableSize :=
    congrArg (· / 4) blockSize
  have inUse : volume.InUse = handle.cursor.volume.InUse := by
    funext block
    unfold Ext2Volume.InUse
    rw [marked_of_frame frame, blockCount]
  have kept : ∀ table, Inner handle.cursor.location.inode.pointer contents handle.cursor.tableSize
      table →
      recorded contents lba offset inode table = contents table := by
    rintro table ⟨nonzero, location, place, digits, inside, found⟩
    apply recorded_other
    rintro rfl
    exact outside (reachable_of_place digits found nonzero)
  have rooted : (handle.patched inode newSize volume).Rooted
      (recorded contents lba offset inode) := by
    unfold Rooted
    rw [patchedCount, tableSize]
    change FileTree inode.pointer _ _ volume.InUse _
    rw [same, inUse]
    exact tree_congr tree kept fun _ used => used
  have here := pending.settled.cursor
  refine rests_of_saved (patched_frame pending finalFrame) ⟨?_, ?_, ?_, ?_⟩
    here.clean ?_ rooted ?_ ?_ ?_
  · change final.Stores final.device
    rw [stores.device]
    exact stores
  · intro level
    exact (here.views.sized level).trans ((block_size_of_frame finalFrame).trans blockSize).symm
  · intro level dirty
    exact absurd (dirty.symm.trans (here.clean level)) (by decide)
  · intro block _
    exact congrFun stores.device block
  · intro level addr onTree
    rw [patchedCount, tableSize] at onTree
    have old : OnTree handle.cursor.location.inode contents handle.cursor.tableSize handle.count
        level addr := by
      obtain ⟨j, below, found⟩ := onTree
      change (tablePath inode _ _)[level.val]? = _ at found
      rw [table_path_of_pointer same, (pointers_congr tree kept below).1] at found
      exact ⟨j, below, found⟩
    obtain ⟨nonzero, foreign⟩ := tables_of_tree tree old
    obtain ⟨copy, -⟩ := here.ready level addr ⟨nonzero, foreign⟩
    refine ⟨fun present => ?_, fun other _ dirty => absurd (dirty.symm.trans (here.clean other))
      (by decide)⟩
    rw [kept addr (inner_of_on_tree tree old)]
    exact (copy present).trans (pending.deviceKeeps addr foreign)
  · rw [patchedCount]
    exact pending.settled.last
  · exact pending.settled.sized.trans blockSize.symm
  · change volume.blockSize < _
    rw [blockSize]
    exact pending.settled.small

theorem flush_patched (some_ : 0 < handle.count) (writable : handle.cursor.volume.readOnly = false)
    (stores : volume.Stores (recorded handle.cursor.volume.device lba offset inode)) :
    Yields (fun _ after => (handle.patched inode newSize volume).Emptied
      (recorded contents lba offset inode)
        { after with blockCacheInfo := none })
      (fun _ => True) (flush (handle.patched inode newSize volume)) := by
  have sole := rooted_sole tree
  have linked := rooted_linked tree some_
  have here := pending.settled.cursor
  obtain ⟨inside, onDevice⟩ := pending_inside sole linked pending
  have below : k < handle.count := by
    have := pending.inside
    omega
  have pointer := pending_pointer sole pending
  have apart : lba ≠ handle.cursor.pointer k := by
    rintro rfl
    rw [pointer] at outside
    exact outside (reachable_of_place (digits_locate (tree_below tree below)) (tree_data tree below)
      (data_used tree below).1)
  have device : volume.device = recorded handle.cursor.volume.device lba offset inode :=
    stores.device
  have unchanged : recorded contents lba offset inode lba = recorded handle.cursor.volume.device lba
      offset inode lba := by
    unfold recorded
    rw [Function.update_self, Function.update_self, pending.others lba fun _ => apart]
  have rest : ∀ final : Ext2Volume, final.Stores (recorded contents lba offset inode) →
      final.frame = volume.frame →
      (handle.patched inode newSize volume).Emptied (recorded contents lba offset inode)
        { handle.patched inode newSize volume with
          cursor := (handle.cursor.withInode inode).withVolume final, blockCacheInfo := none } := by
    intro final finalStores finalFrame
    exact ⟨_, rfl, patched_frame pending finalFrame,
      patched_rests pending tree same blocks outside frame finalStores finalFrame⟩
  have tables : onCursor Cursor.flush (handle.patched inode newSize volume) =
      .ok () (handle.patched inode newSize volume) :=
    flush_tables_clean here.clean pending.settled.saved
  change Yields _ _ ((onCursor Cursor.flush >>= fun _ => _ : OnHandle Unit)
    (handle.patched inode newSize volume))
  rw [state_bind_ok tables]
  have present : (handle.patched inode newSize volume).blockCacheInfo = some info := pending.present
  rw [state_bind_get, present]
  change Yields _ _ ((if info.dirty then _ else _ : OnHandle Unit)
    (handle.patched inode newSize volume))
  split_ifs with dirty
  · have found := Cursor.found_on_volume
      (Cursor.found_with_inode same (Cursor.found_at here inside)) volume
    have stored : volume.Stores volume.device := by
      rw [device]
      exact stores
    have sized : handle.blockCache.length = volume.blockSize :=
      pending.settled.sized.trans (block_size_of_frame frame).symm
    have allowed : volume.readOnly = false :=
      (show volume.frame.readOnly = handle.cursor.volume.frame.readOnly by rw [frame]).trans
        writable
    obtain ⟨final, written, finalStores, finalFrame⟩ := Cursor.write_block_found
      (show Ext2Volume.Stores _ _ from stored) found sized allowed
        (by rw [block_count_of_frame frame]; exact onDevice)
    have whole : Function.update volume.device (handle.cursor.pointer k) handle.blockCache =
        recorded contents lba offset inode := by
      funext block
      by_cases here : block = handle.cursor.pointer k
      · rw [here, Function.update_self, recorded_other _ apart.symm]
        exact pending_block sole pending
      · rw [Function.update_of_ne here, device]
        by_cases record : block = lba
        · rw [record]
          exact unchanged.symm
        · rw [recorded_other _ record, recorded_other _ record]
          exact pending.others block fun _ => here
    have writes : onCursor (Cursor.writeBlock handle.blockCache)
        (handle.patched inode newSize volume) =
        .ok (handle.patched inode newSize volume).cursor.usedSize
          { handle.patched inode newSize volume with
          cursor := (handle.cursor.withInode inode).withVolume final } := by
      unfold onCursor
      rw [show Cursor.writeBlock handle.blockCache (handle.patched inode newSize volume).cursor = _
        from written]
      rfl
    rw [show (handle.patched inode newSize volume).blockCache = handle.blockCache from rfl,
      state_bind_ok writes]
    exact .ok (rest final (whole ▸ finalStores) finalFrame)
  · have clean : handle.cursor.volume.device = contents :=
      funext fun block => pending.others block fun changed => absurd changed dirty
    rw [clean] at stores
    exact .ok (rest volume stores rfl)

end Patched

theorem rooted_of_frame (frame : after.frame = handle.frame) (tree : handle.Rooted contents) :
    after.Rooted contents := by
  obtain ⟨blockSize, blockCount, inode, -, -, -⟩ := same_file frame
  have volume : after.cursor.volume.frame = handle.cursor.volume.frame :=
    show after.frame.cursor.volume = handle.frame.cursor.volume by rw [frame]
  have inUse : after.cursor.volume.InUse = handle.cursor.volume.InUse := by
    funext block
    unfold Ext2Volume.InUse
    rw [marked_of_frame volume, blockCount]
  unfold Rooted
  rw [inode, inUse, count_of_frame frame, show after.cursor.tableSize = handle.cursor.tableSize from
    congrArg (· / 4) blockSize]
  exact tree

/-- What follows the loop of `grow`, up to the seek. -/
theorem resize_ends {change : Inode → Inode} {position : SeekPosition} {Sought : Handle → Prop}
    (isInode : change handle.cursor.location.inode = inode)
    (housed : (handle.cursor.withInode inode).Housed lba offset)
    (stores : handle.cursor.volume.Stores handle.cursor.volume.device)
    (empties : ∀ volume : Ext2Volume,
      volume.Stores (recorded handle.cursor.volume.device lba offset inode) →
      volume.frame = handle.cursor.volume.frame →
      Yields (fun _ after => (handle.patched inode newSize volume).Emptied contents
          { after with blockCacheInfo := none })
        (fun _ => True) (flush (handle.patched inode newSize volume)))
    (seeks : ∀ flushed : Handle, flushed.Rests contents → flushed.size = newSize →
      flushed.offset = handle.offset → flushed.cursor.volume.frame = handle.cursor.volume.frame →
      Yields (fun _ after => Sought after ∧ after.frame = flushed.frame) (fun _ => True)
        (seek position flushed)) :
    Yields (fun _ after => Sought after ∧ after.Rooted contents ∧
        after.frame = Handle.frame { handle with size := newSize, cursor := (handle.cursor.withInode inode).saved })
      (fun _ => True)
      ((do
        modify fun handle : Handle => { handle with size := newSize }
        modifyInode change
        updateInode
        flush
        modify fun handle : Handle => { handle with blockCacheInfo := none }
        seek position) handle) := by
  have writes := update_inode_stores housed.tables stores housed.complete housed.place
  change Yields _ _ ((updateInode >>= fun _ => _ : OnHandle Unit)
    { handle with size := newSize, cursor := handle.cursor.withInode (change handle.cursor.location.inode) })
  rw [isInode]
  have updates : Yields (fun _ after => ∃ volume : Ext2Volume,
      after = handle.patched inode newSize volume ∧
      volume.Stores (recorded handle.cursor.volume.device lba offset inode) ∧
      volume.frame = handle.cursor.volume.frame) (fun _ => True)
      (updateInode { handle with size := newSize, cursor := handle.cursor.withInode inode }) := by
    have written := Cursor.yields_on_volume
      (show Yields _ _ (Cursor.updateInode inode (handle.cursor.withInode inode).volume)
        from writes)
    refine yields_weaken (yields_on_cursor written) ?_ fun _ _ => trivial
    rintro _ _ ⟨_, rfl, volume, rfl, holds⟩
    exact ⟨volume, rfl, holds⟩
  refine yields_bind updates ?_
  rintro _ _ ⟨volume, rfl, volumeStores, frame⟩
  refine yields_bind (empties volume volumeStores frame) ?_
  rintro _ flushed ⟨cursor, emptied, saved, rests⟩
  change Yields _ _ (seek position { flushed with blockCacheInfo := none })
  rw [emptied] at rests ⊢
  have volumeSame : cursor.volume.frame = volume.frame := congrArg Cursor.volume saved
  refine yields_weaken (seeks _ rests rfl rfl (volumeSame.trans frame)) ?_ fun _ _ => trivial
  rintro _ after ⟨sought, same⟩
  refine ⟨sought, rooted_of_frame same rests.tree, ?_⟩
  rw [same]
  have whole : cursor.fileFrame = ((handle.cursor.withInode inode).saved).fileFrame := by
    rw [saved]
    exact congrArg (fun volume => Cursor.mk volume
      (handle.cursor.withInode inode).saved.fileFrame.location) frame
  exact congrArg (fun cursor => { Handle.frame { handle with size := newSize } with cursor := cursor }) whole

end Handle

end Campix.Ext2
