import Campix.Ext2.GrowthRuns
import Campix.Ext2.InodeUpdates

/-!
# What a growth writes back

Behind the loop of `grow` the inode is written to its record and the changed tables to
their blocks. None of them is a block of another kind: the record is in a block that is no
block of the file. A seek from there on finds every block of the file, whatever the copies
of tables were before.
-/

namespace Campix.Ext2

open Lib.Outcome Lib.Slice Lib.Word Ext2Volume

set_option autoImplicit false

section SamePointers

variable {inode after : Inode} (same : after.pointer = inode.pointer)

include same

theorem direct_of_pointer : after.directBlockPointers = inode.directBlockPointers := by
  funext direct
  have equal := congrFun same direct.val
  unfold Inode.pointer at equal
  simpa only [direct.isLt, dif_pos, Fin.eta] using equal

theorem indirect_of_pointer : after.singleIndirectBlockPointer = inode.singleIndirectBlockPointer ∧
    after.doubleIndirectBlockPointer = inode.doubleIndirectBlockPointer ∧
    after.tripleIndirectBlockPointer = inode.tripleIndirectBlockPointer :=
  ⟨congrFun same 12, congrFun same 13, congrFun same 14⟩

theorem table_path_of_pointer (contents : Contents) (location : InodeReadingLocationInfo) :
    tablePath after contents location = tablePath inode contents location := by
  obtain ⟨single, double, triple⟩ := indirect_of_pointer same
  cases location <;> simp only [tablePath, single, double, triple]

theorem data_pointer_of_pointer (contents : Contents) (location : InodeReadingLocationInfo) :
    dataPointer after contents location = dataPointer inode contents location := by
  obtain ⟨single, double, triple⟩ := indirect_of_pointer same
  have direct := direct_of_pointer same
  cases location <;> simp only [dataPointer, direct, single, double, triple]

theorem on_tree_of_pointer {contents : Contents} {tableSize n : Nat} :
    OnTree after contents tableSize n = OnTree inode contents tableSize n := by
  funext level addr
  simp only [OnTree, table_path_of_pointer same]

end SamePointers

namespace Ext2Volume

variable {volume : Ext2Volume} {inode : Inode} {lba offset : Nat}

def recordOf (inode : Inode) : List UInt8 :=
  { inode with generationNumber := add32 inode.generationNumber 1 }.toRawInode.bytes

def recorded (contents : Contents) (lba offset : Nat) (inode : Inode) : Contents :=
  Function.update contents lba (splice (contents lba) offset (recordOf inode))

theorem length_record_of (inode : Inode) : (recordOf inode).length = 128 := RawInode.length_bytes _

theorem recorded_other (contents : Contents) {block : Nat} (apart : block ≠ lba) :
    recorded contents lba offset inode block = contents block :=
  Function.update_of_ne apart _ _

theorem recorded_again {contents : Contents} (fits : offset + 128 ≤ (contents lba).length) :
    recorded (recorded contents lba offset inode) lba offset inode = recorded contents lba offset
      inode := by
  have inside : offset + (recordOf inode).length ≤ (contents lba).length := by
    rw [length_record_of]
    exact fits
  unfold recorded
  rw [Function.update_self, Function.update_idem, splice_again inside]

theorem stores_of_holds {after : Ext2Volume} {contents : Contents}
    (holds : ∀ block, after.HoldsAt block (contents block))
    (sized : ∀ block, (contents block).length = after.blockSize) (positive : 0 < after.blockSize) :
    after.Stores contents :=
  ⟨funext fun block => (holds block).device,
    fun item member => (holds item.1).cached item member rfl, sized, positive⟩

/-- `update_inode` writes the record, and nothing else. -/
theorem update_inode_stores (tables : volume.InodeTables) (stores : volume.Stores volume.device)
    (complete : inode.ossv2.length = 12)
    (place : volume.inodePlace inode.inodeI = some (lba, offset)) :
    Yields (fun _ after => after.Stores (recorded volume.device lba offset inode) ∧
      after.frame = volume.frame)
      (fun _ => True) (Cursor.updateInode inode volume) := by
  have held : ∀ block, volume.HoldsAt block (volume.device block) :=
    fun block => ⟨rfl, fun item member same => same ▸ stores.cached item member⟩
  obtain ⟨-, room⟩ := place_inside tables place
  have fits : offset + (recordOf inode).length ≤ (volume.device lba).length := by
    rw [length_record_of, stores.sized]
    exact room
  rw [update_inode_eq tables inode complete]
  refine yields_weaken (update_inode_spec tables _ place (held lba) (stores.sized lba))
    ?_ fun _ _ => trivial
  rintro _ after ⟨kept, written⟩
  have blockSize := block_size_of_frame kept.frame
  refine ⟨stores_of_holds (fun block => ?_) (fun block => ?_) (blockSize ▸ stores.positive),
    kept.frame⟩
  · by_cases here : block = lba
    · subst here
      rw [recorded, Function.update_self]
      exact written
    · rw [recorded_other _ here]
      exact kept.holds block _ here (held block)
  · rw [blockSize]
    by_cases here : block = lba
    · subst here
      rw [recorded, Function.update_self, length_splice fits]
      exact stores.sized block
    · rw [recorded_other _ here]
      exact stores.sized block

end Ext2Volume

namespace Cursor

variable {cursor after : Cursor} {contents : Contents} {n block lba offset : Nat} {inode : Inode}

def withInode (cursor : Cursor) (inode : Inode) : Cursor :=
  { cursor with location := { cursor.location with inode := inode } }

def withVolume (cursor : Cursor) (volume : Ext2Volume) : Cursor := { cursor with volume := volume }

theorem growable_with_inode (growable : cursor.Growable n)
    (same : inode.pointer = cursor.location.inode.pointer) :
    (cursor.withInode inode).Growable n := by
  have tables : (cursor.withInode inode).TreeTables n = cursor.TreeTables n :=
    on_tree_of_pointer same
  refine ⟨?_, ⟨growable.views.stores,
    growable.views.sized, growable.views.changed, growable.views.unchanged⟩,
    growable.padded, ?_, growable.known, growable.blockSize, growable.square, growable.blocks⟩
  · have tree := growable.tree
    rw [← same] at tree
    exact tree
  · intro level addr onTree
    rw [tables] at onTree
    exact growable.ready level addr onTree

section Rewritten

variable {volume : Ext2Volume} {buffer : Block}
  (apart : ∀ level, (cursor.location.tables level).dirty →
    (cursor.location.tables level).addr ≠ block)
  (stores : volume.Stores (Function.update cursor.volume.device block buffer))
  (frame : volume.frame = cursor.volume.frame)

include apart stores frame

/-- A block of which there is no changed copy is changed on the device. -/
theorem views_with_volume (views : cursor.Views contents) :
    (cursor.withVolume volume).Views (Function.update contents block buffer) := by
  have device : volume.device = Function.update cursor.volume.device block buffer := stores.device
  refine ⟨?_, ?_, ?_, ?_⟩
  · change volume.Stores volume.device
    rw [device]
    exact stores
  · intro level
    exact (views.sized level).trans (block_size_of_frame frame).symm
  · intro level dirty
    obtain ⟨nonzero, table⟩ := views.changed level dirty
    exact ⟨nonzero, table.trans (Function.update_of_ne (apart level dirty) buffer contents).symm⟩
  · intro other clean
    change volume.device other = _
    rw [device]
    by_cases here : other = block
    · rw [here, Function.update_self, Function.update_self]
    · rw [Function.update_of_ne here, Function.update_of_ne here]
      exact views.unchanged other clean

theorem growable_with_volume (growable : cursor.Growable n)
    (outside : block ∉ reachable cursor.location.inode.pointer cursor.view cursor.tableSize) :
    (cursor.withVolume volume).Growable n ∧
      (cursor.withVolume volume).view = Function.update cursor.view block buffer := by
  have views := views_with_volume apart stores frame growable.views
  have view := view_eq views
  have blockSize := block_size_of_frame frame
  have blockCount := block_count_of_frame frame
  have size : (cursor.withVolume volume).tableSize = cursor.tableSize := congrArg (· / 4) blockSize
  have noTable : ∀ table, Inner cursor.location.inode.pointer cursor.view cursor.tableSize table →
      table ≠ block := by
    rintro table ⟨nonzero, location, place, digits, -, found⟩ rfl
    exact outside (reachable_of_place digits found nonzero)
  have tree : FileTree cursor.location.inode.pointer (Function.update cursor.view block buffer)
      cursor.tableSize
      volume.InUse n := by
    refine tree_congr growable.tree
      (fun table inner => Function.update_of_ne (noTable table inner) _ _) ?_
    rintro other ⟨onDevice, marked⟩
    exact ⟨by rw [blockCount]; exact onDevice, by rw [marked_of_frame frame]; exact marked⟩
  refine ⟨⟨?_, by rw [view]; exact views, padded_of_frame frame growable.padded, ?_, ?_, ?_, ?_, growable.blocks⟩, view⟩
  · rw [view, size]
    exact tree
  · intro level addr onTree
    have old : cursor.TreeTables n level addr := by
      obtain ⟨k, below, found⟩ := onTree
      rw [view, size] at found
      obtain ⟨path, -⟩ := pointers_congr growable.tree
        (fun table inner => Function.update_of_ne (noTable table inner) buffer cursor.view) below
      refine ⟨k, below, ?_⟩
      rw [← path]
      exact found
    obtain ⟨copy, others⟩ := growable.ready level addr old
    refine ⟨fun present => ?_, others⟩
    rw [view, Function.update_of_ne (noTable addr (inner_of_on_tree growable.tree old))]
    exact copy present
  · intro level dirty
    rw [show (cursor.withVolume volume).volume = volume from rfl, marked_of_frame frame]
    exact growable.known level dirty
  · rw [show (cursor.withVolume volume).volume.blockSize = cursor.volume.blockSize from blockSize]
    exact growable.blockSize
  · rw [size]
    exact growable.square

end Rewritten

/-- The copies are what they were; some of them have been written to the volume. -/
structure Saving (cursor : Cursor) (contents : Contents) (after : Cursor) : Prop where
  views : after.Views contents
  frame : after.frame = cursor.frame
  copies : ∀ level, (after.location.tables level).table = (cursor.location.tables level).table ∧
    (after.location.tables level).addr = (cursor.location.tables level).addr
  dirty : ∀ level, (after.location.tables level).dirty → (cursor.location.tables level).dirty

theorem saving_self (views : cursor.Views contents) : cursor.Saving contents cursor :=
  ⟨views, rfl, fun _ => ⟨rfl, rfl⟩, fun _ dirty => dirty⟩

theorem saving_written {middle : Cursor} {level : Fin 3} {volume : Ext2Volume}
    {cached : CachedTable}
    (saving : cursor.Saving contents middle) (same : cached = middle.location.tables level)
    (dirty : cached.dirty = true)
    (frame : volume.frame = middle.volume.frame)
    (stores : volume.Stores (Function.update middle.volume.device cached.addr cached.table)) :
    cursor.Saving contents ((middle.withVolume volume).withTable level
      { cached with dirty := false }) := by
  have back := views_written_back saving.views same dirty frame stores
  refine ⟨back, ?_, fun other => ?_, fun other dirtyOther => ?_⟩
  · exact (congrArg (fun volume => Cursor.mk volume middle.frame.location) frame).trans saving.frame
  · by_cases here : other = level
    · rw [here, with_table_self]
      subst same
      exact saving.copies level
    · rw [with_table_other here]
      exact saving.copies other
  · by_cases here : other = level
    · rw [here]
      exact saving.dirty level (same ▸ dirty)
    · rw [with_table_other here] at dirtyOther
      exact saving.dirty other dirtyOther

theorem flush_table_spec {middle : Cursor} (level : Fin 3) (edged : cursor.Edged)
    (saving : cursor.Saving contents middle) :
    Yields (fun _ after => cursor.Saving contents after ∧
      (after.location.tables level).dirty = false ∧
        ∀ other, (middle.location.tables other).dirty = false →
          (after.location.tables other).dirty = false)
      (fun _ => True) (flushTable level middle) := by
  change Yields _ _ ((if (middle.location.tables level).dirty ∧
    (middle.location.tables level).addr ≠ 0 then _ else _ :
    OnCursor Unit) middle)
  split_ifs with changed
  · obtain ⟨dirty, nonzero⟩ := changed
    have write := write_block_spec (middle.location.tables level).addr saving.views.stores
      (saving.views.sized level)
    refine yields_bind (yields_on_volume
      (yields_weaken write (fun _ _ holds => holds) fun _ _ => trivial)) ?_
    rintro written _ ⟨volume, rfl, frame, finished⟩
    rcases finished with ⟨-, -, stores⟩ | ⟨atEnd, -, -⟩
    · have clean : ((middle.withVolume volume).withTable level
          { middle.location.tables level with dirty := false }).location.tables level =
            { middle.location.tables level with dirty := false } := with_table_self _ _ _
      refine .ok ⟨saving_written saving rfl dirty frame stores,
        congrArg CachedTable.dirty clean, ?_⟩
      intro other before
      by_cases here : other = level
      · rw [here]
        exact congrArg CachedTable.dirty clean
      · exact (congrArg CachedTable.dirty
          (with_table_other here (middle.withVolume volume) _)).trans before
    · refine absurd ?_ (edged level (saving.dirty level dirty))
      rw [← (saving.copies level).2, atEnd]
      exact block_count_of_frame (volume_of_frame saving.frame)
  · refine .ok ⟨saving, ?_, fun _ clean => clean⟩
    rw [Bool.eq_false_iff]
    intro dirty
    exact changed ⟨dirty, (saving.views.changed level dirty).1⟩

theorem flush_spec (views : cursor.Views contents) (edged : cursor.Edged)
    (tables : cursor.volume.InodeTables)
    (complete : cursor.location.inode.ossv2.length = 12)
    (place : cursor.volume.inodePlace cursor.location.inode.inodeI = some (lba, offset))
    (there : recorded contents lba offset cursor.location.inode = contents) :
    Yields (fun _ after => after.Views contents ∧
      (∀ level, (after.location.tables level).dirty = false) ∧
        after.location.inodeDirty = false ∧
        (∀ level, (after.location.tables level).table = (cursor.location.tables level).table ∧
          (after.location.tables level).addr = (cursor.location.tables level).addr) ∧
        after.fileFrame = { cursor.fileFrame with
          location := { cursor.fileFrame.location with inodeDirty := false } })
      (fun _ => True) (flush cursor) := by
  refine yields_bind (flush_table_spec 0 edged (saving_self views))
    fun _ first ⟨saving, clean0, _⟩ => ?_
  refine yields_bind (flush_table_spec 1 edged saving) fun _ second ⟨saving, clean1, kept1⟩ => ?_
  refine yields_bind (flush_table_spec 2 edged saving) fun _ third ⟨saving, clean2, kept2⟩ => ?_
  have clean : ∀ level, (third.location.tables level).dirty = false := by
    intro level
    fin_cases level
    · exact kept2 0 (kept1 0 clean0)
    · exact kept2 1 clean1
    · exact clean2
  have inode := inode_of_frame saving.frame
  have frame := volume_of_frame saving.frame
  have device := device_of_clean saving.views clean
  have saved : third.location.inodeDirty = cursor.location.inodeDirty :=
    show third.frame.location.inodeDirty = cursor.frame.location.inodeDirty by rw [saving.frame]
  have fileFrame : third.fileFrame = cursor.fileFrame :=
    congrArg (fun frame : Cursor =>
      { frame with location := { frame.location with location := ⟨.direct 0, 0⟩ } })
      saving.frame
  change Yields _ _ ((if third.location.inodeDirty then _ else _ : OnCursor Unit) third)
  split_ifs with dirty
  · rw [inode]
    have writes := update_inode_stores (tables_of_frame frame tables) saving.views.stores complete
      ((place_of_frame frame _).trans place)
    rw [device, there] at writes
    refine yields_bind (yields_on_volume
      (yields_weaken writes (fun _ _ holds => holds) fun _ _ => trivial)) ?_
    rintro _ _ ⟨volume, rfl, stores, same⟩
    refine .ok ⟨⟨?_, ?_, ?_, ?_⟩, clean, rfl, saving.copies, ?_⟩
    · change volume.Stores volume.device
      rw [stores.device]
      exact stores
    · intro level
      exact (saving.views.sized level).trans (block_size_of_frame same).symm
    · intro level changed
      exact absurd (changed.symm.trans (clean level)) (by decide)
    · intro block _
      exact congrFun stores.device block
    · rw [← fileFrame]
      exact congrArg (fun volume => Cursor.mk
        volume { third.fileFrame.location with inodeDirty := false }) same
  · refine .ok ⟨saving.views, clean, Bool.eq_false_iff.mpr dirty, saving.copies, ?_⟩
    rw [fileFrame]
    rw [saved] at dirty
    have off : cursor.fileFrame.location.inodeDirty = false := Bool.eq_false_iff.mpr dirty
    rw [← off]

end Cursor

end Campix.Ext2
