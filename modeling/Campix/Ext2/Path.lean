import Campix.Ext2.Contents
import Campix.Ext2.Numbering
import Mathlib.Data.Fin.VecNotation
import Mathlib.Data.Fintype.Basic
import Mathlib.Tactic.FinCases

/-!
# Paths through the tables

The tables on the way to a block and the pointer to the block itself, as functions of the
inode and of the contents of the volume, and what `check_table1` to `check_table3` make of
them at a location.
-/

namespace Campix.Ext2

open Lib.Fallible Lib.Outcome

set_option autoImplicit false

def tablePath (inode : Inode) (contents : Contents) : InodeReadingLocationInfo → List Nat
  | .direct _ => []
  | .single _ => [inode.singleIndirectBlockPointer]
  | .double i _ =>
      [inode.doubleIndirectBlockPointer, entry (contents inode.doubleIndirectBlockPointer) i]
  | .triple i j _ =>
      [inode.tripleIndirectBlockPointer, entry (contents inode.tripleIndirectBlockPointer) i,
        entry (contents (entry (contents inode.tripleIndirectBlockPointer) i)) j]

def dataPointer (inode : Inode) (contents : Contents) : InodeReadingLocationInfo → Nat
  | .direct d => if inside : d < 12 then inode.directBlockPointers ⟨d, inside⟩ else 0
  | .single i => entry (contents inode.singleIndirectBlockPointer) i
  | .double i j => entry (contents (entry (contents inode.doubleIndirectBlockPointer) i)) j
  | .triple i j k =>
      entry (contents (entry (contents (entry (contents inode.tripleIndirectBlockPointer) i)) j)) k

def pointers (inode : Inode) (contents : Contents) (location : InodeReadingLocationInfo) :
    List Nat :=
  tablePath inode contents location ++ [dataPointer inode contents location]

namespace Cursor

variable {cursor after : Cursor} {contents : Contents} {level : Fin 3} {addr : Nat}
  {path : List Nat}
variable {Tables : Fin 3 → Nat → Prop}

/-- The copies of tables, where there are copies of them, are up to date. `Tables` says
which blocks are tables, and at which level. -/
def Ready (cursor : Cursor) (contents : Contents) (Tables : Fin 3 → Nat → Prop) : Prop :=
  ∀ level addr, Tables level addr →
    ((cursor.location.tables level).addr = addr →
      (cursor.location.tables level).table = contents addr) ∧
      ∀ other, other ≠ level → (cursor.location.tables other).dirty →
        (cursor.location.tables other).addr ≠ addr

def Loaded (cursor : Cursor) (contents : Contents) (path : List Nat) : Prop :=
  ∀ (level : Fin 3) (addr : Nat), path[level.val]? = some addr →
    (cursor.location.tables level).addr = addr ∧
      (cursor.location.tables level).table = contents addr

theorem checked_table (views : cursor.Views contents) (ready : cursor.Ready contents Tables)
    (isTable : Tables level addr) (nonzero : addr ≠ 0)
    (checked : cursor.Checked contents level addr after) :
    (after.location.tables level).table = contents addr := by
  obtain ⟨copy, apart⟩ := ready level addr isTable
  have table := checked.table nonzero
  split_ifs at table with present
  · rw [table, copy present]
  · rw [table]
    apply views.unchanged
    intro other dirty
    by_cases here : other = level
    · rw [here]
      exact present
    · exact apart other here dirty

theorem checked_ready (views : cursor.Views contents) (ready : cursor.Ready contents Tables)
    (nonzero : ∀ level addr, Tables level addr → addr ≠ 0)
    (checked : cursor.Checked contents level addr after) : after.Ready contents Tables := by
  intro place found isTable
  obtain ⟨copy, apart⟩ := ready place found isTable
  constructor
  · intro present
    by_cases here : place = level
    · subst here
      obtain rfl : addr = found := checked.loaded.symm.trans present
      exact checked_table views ready isTable (nonzero _ _ isTable) checked
    · rw [checked.others place here] at present ⊢
      exact copy present
  · intro other different dirty
    by_cases here : other = level
    · subst here
      obtain ⟨before, same⟩ := checked.dirty dirty
      rw [checked.loaded, ← same]
      exact apart other different before
    · rw [checked.others other here] at dirty ⊢
      exact apart other different dirty

structure Reached (cursor : Cursor) (contents : Contents) (Tables : Fin 3 → Nat → Prop)
    (after : Cursor) :
    Prop where
  views : after.Views contents
  frame : after.frame = cursor.frame
  ready : after.Ready contents Tables
  dirty : ∀ level, (after.location.tables level).dirty →
    (cursor.location.tables level).dirty ∧
      (cursor.location.tables level).addr = (after.location.tables level).addr

theorem reached_checked {middle : Cursor} (reached : cursor.Reached contents Tables middle)
    (nonzero : ∀ level addr, Tables level addr → addr ≠ 0)
    (checked : middle.Checked contents level addr after) : cursor.Reached contents Tables
    after := by
  refine ⟨checked.views, checked.frame.trans reached.frame,
    checked_ready reached.views reached.ready nonzero checked, ?_⟩
  intro place dirty
  by_cases here : place = level
  · subst here
    obtain ⟨before, same⟩ := checked.dirty dirty
    obtain ⟨first, kept⟩ := reached.dirty place before
    exact ⟨first, by rw [kept, same, checked.loaded]⟩
  · rw [checked.others place here] at dirty ⊢
    exact reached.dirty place dirty

def checkedAddr (inode : Inode) (contents : Contents) : InodeReadingLocationInfo → Fin 3 → Nat
  | .direct _ => ![0, 0, 0]
  | .single _ => ![inode.singleIndirectBlockPointer, 0, 0]
  | .double i j =>
      ![inode.doubleIndirectBlockPointer, entry (contents inode.doubleIndirectBlockPointer) i,
        entry (contents (entry (contents inode.doubleIndirectBlockPointer) i)) j]
  | .triple i j _ =>
      ![inode.tripleIndirectBlockPointer, entry (contents inode.tripleIndirectBlockPointer) i,
        entry (contents (entry (contents inode.tripleIndirectBlockPointer) i)) j]

theorem checked_addr_of_path {inode : Inode} {location : InodeReadingLocationInfo}
    (onPath : (tablePath inode contents location)[level.val]? = some addr) :
    checkedAddr inode contents location level = addr := by
  cases location <;> fin_cases level <;> simp_all [tablePath, checkedAddr]

theorem checked_addr_off_path {inode : Inode} {location : InodeReadingLocationInfo}
    (offPath : (tablePath inode contents location)[level.val]? = none) :
    checkedAddr inode contents location level = 0 ∨
      checkedAddr inode contents location level = dataPointer inode contents location := by
  cases location <;> fin_cases level <;> simp_all [tablePath, checkedAddr, dataPointer]

variable {location : InodeReadingLocationInfo}

theorem check_table1_eq (place : cursor.location.location.location = location) :
    checkTable1 cursor = checkTable 0 (checkedAddr cursor.location.inode contents location 0)
      cursor := by
  unfold checkTable1
  cases location <;>
    · change checkTable 0 _ cursor = _
      rw [place]
      rfl

theorem follow_loaded {level : Fin 3} {idx addr : Nat} (views : cursor.Views contents)
    (inside : idx < cursor.volume.blockSize / 4)
    (table : (cursor.location.tables level).table = contents addr) :
    follow level idx cursor = .ok (entry (contents addr) idx) cursor := by
  have length := views.sized level
  rw [follow_eq (by omega), table]

theorem check_table2_follow {i j : Nat}
    (there : cursor.location.location.location = .double i j ∨
      ∃ k, cursor.location.location.location = .triple i j k)
    (followed : follow 0 i cursor = .ok addr after) : checkTable2 cursor = checkTable 1 addr
    after := by
  have found : addrOfTable2 cursor = .ok addr after := by
    rw [addrOfTable2, state_bind_get]
    rcases there with there | ⟨k, there⟩
    · rw [there]
      exact followed
    · rw [there]
      exact followed
  exact state_bind_ok found

theorem check_table3_follow {i j : Nat}
    (there : cursor.location.location.location = .double i j ∨
      ∃ k, cursor.location.location.location = .triple i j k)
    (followed : follow 1 j cursor = .ok addr after) : checkTable3 cursor = checkTable 2 addr
    after := by
  have found : addrOfTable3 cursor = .ok addr after := by
    rw [addrOfTable3, state_bind_get]
    rcases there with there | ⟨k, there⟩
    · rw [there]
      exact followed
    · rw [there]
      exact followed
  exact state_bind_ok found

theorem check_table2_eq (views : cursor.Views contents)
    (place : cursor.location.location.location = location)
    (digits : Digits (cursor.volume.blockSize / 4) location)
    (table : ∀ addr, (tablePath cursor.location.inode contents location)[0]? = some addr →
      (cursor.location.tables 0).table = contents addr) :
    checkTable2 cursor = checkTable 1 (checkedAddr cursor.location.inode contents location 1)
      cursor := by
  have addr : addrOfTable2 cursor = .ok (checkedAddr cursor.location.inode contents location 1)
      cursor := by
    rw [addrOfTable2, state_bind_get, place]
    cases location with
    | direct d => rfl
    | single i => rfl
    | double i j => exact follow_loaded views digits.1 (table _ rfl)
    | triple i j k => exact follow_loaded views digits.1 (table _ rfl)
  exact state_bind_ok addr

theorem check_table3_eq (views : cursor.Views contents)
    (place : cursor.location.location.location = location)
    (digits : Digits (cursor.volume.blockSize / 4) location)
    (table : ∀ addr, (tablePath cursor.location.inode contents location)[1]? = some addr →
      (cursor.location.tables 1).table = contents addr) :
    checkTable3 cursor = checkTable 2 (checkedAddr cursor.location.inode contents location 2)
      cursor := by
  have addr : addrOfTable3 cursor = .ok (checkedAddr cursor.location.inode contents location 2)
      cursor := by
    rw [addrOfTable3, state_bind_get, place]
    cases location with
    | direct d => rfl
    | single i => rfl
    | double i j => exact follow_loaded views digits.2 (table _ rfl)
    | triple i j k => exact follow_loaded views digits.2.1 (table _ rfl)
  exact state_bind_ok addr

theorem inode_of_frame (same : after.frame = cursor.frame) :
    after.location.inode = cursor.location.inode :=
  show after.frame.location.inode = cursor.frame.location.inode by rw [same]

theorem location_of_frame (same : after.frame = cursor.frame) :
    after.location.location = cursor.location.location :=
  show after.frame.location.location = cursor.frame.location.location by rw [same]

theorem volume_of_frame (same : after.frame = cursor.frame) :
    after.volume.frame = cursor.volume.frame :=
  congrArg Cursor.volume same

/-- The state behind `check_table3`. -/
structure Arrived (cursor : Cursor) (contents : Contents) (Tables : Fin 3 → Nat → Prop)
    (location : InodeReadingLocationInfo) (after : Cursor) : Prop where
  reached : cursor.Reached contents Tables after
  loaded : after.Loaded contents (tablePath cursor.location.inode contents location)
  addr : ∀ level, (after.location.tables level).addr =
    checkedAddr cursor.location.inode contents location level

theorem check_one_table {middle : Cursor} {inode : Inode}
    (reached : cursor.Reached contents Tables middle)
    (level : Fin 3) (nonzero : ∀ level addr, Tables level addr → addr ≠ 0)
    (linked : ∀ (level : Fin 3) addr, (tablePath inode contents location)[level.val]? = some addr →
      Tables level addr) :
    Yields
      (fun _ after => cursor.Reached contents Tables after ∧
        (∀ other, other ≠ level → after.location.tables other = middle.location.tables other) ∧
        (after.location.tables level).addr = checkedAddr inode contents location level ∧
        ∀ addr, (tablePath inode contents location)[level.val]? = some addr →
          (after.location.tables level).table = contents addr)
      (fun _ => (∃ addr ∈ pointers inode contents location, addr ≥ cursor.volume.blockCount) ∨
        ∃ level, (cursor.location.tables level).dirty)
      (checkTable level (checkedAddr inode contents location level) middle) := by
  refine yields_weaken (check_table_spec reached.views level _) ?_ ?_
  · intro _ after checked
    refine ⟨reached_checked reached nonzero checked, checked.others, checked.loaded, ?_⟩
    intro addr member
    have isTable := linked level addr member
    rw [checked_addr_of_path member] at checked
    exact checked_table reached.views reached.ready isTable (nonzero _ _ isTable) checked
  · rintro _ (⟨nonzero, beyond⟩ | dirty)
    · rw [Ext2Volume.block_count_of_frame (volume_of_frame reached.frame)] at beyond
      refine .inl ⟨_, ?_, beyond⟩
      cases member : (tablePath inode contents location)[level.val]? with
      | some other =>
          rw [checked_addr_of_path member]
          exact List.mem_append_left _ (List.mem_of_getElem? member)
      | none =>
          rcases checked_addr_off_path member with zero | data
          · exact absurd zero nonzero
          · rw [data]
            exact List.mem_append_right _ (List.mem_singleton_self _)
    · exact .inr ⟨level, (reached.dirty level dirty).1⟩

theorem check_tables_spec (views : cursor.Views contents)
    (place : cursor.location.location.location = location)
    (digits : Digits (cursor.volume.blockSize / 4) location)
    (ready : cursor.Ready contents Tables) (nonzero : ∀ level addr, Tables level addr → addr ≠ 0)
    (linked : ∀ (level : Fin 3) addr,
      (tablePath cursor.location.inode contents location)[level.val]? = some addr →
        Tables level addr) :
    Yields (fun _ after => cursor.Arrived contents Tables location after)
      (fun _ => (∃ addr ∈ pointers cursor.location.inode contents location,
          addr ≥ cursor.volume.blockCount) ∨ ∃ level, (cursor.location.tables level).dirty)
      (checkTables cursor) := by
  have start : cursor.Reached contents Tables cursor :=
    ⟨views, rfl, ready, fun level dirty => ⟨dirty, rfl⟩⟩
  have still : ∀ {middle : Cursor}, middle.frame = cursor.frame →
      middle.location.inode = cursor.location.inode ∧
        middle.location.location.location = location ∧
        Digits (middle.volume.blockSize / 4) location := by
    intro middle frame
    refine ⟨inode_of_frame frame, by rw [location_of_frame frame, place], ?_⟩
    rw [Ext2Volume.block_size_of_frame (volume_of_frame frame)]
    exact digits
  unfold checkTables
  have first := check_one_table start 0 nonzero linked
  rw [← check_table1_eq place] at first
  refine yields_bind first ?_
  rintro _ middle1 ⟨reached1, -, addr1, table1⟩
  obtain ⟨inode1, place1, digits1⟩ := still reached1.frame
  have second := check_one_table reached1 1 nonzero linked
  rw [← inode1] at second table1
  rw [← check_table2_eq reached1.views place1 digits1 table1] at second
  rw [inode1] at second table1
  refine yields_bind second ?_
  rintro _ middle2 ⟨reached2, others2, addr2, table2⟩
  obtain ⟨inode2, place2, digits2⟩ := still reached2.frame
  have third := check_one_table reached2 2 nonzero linked
  rw [← inode2] at third table2
  rw [← check_table3_eq reached2.views place2 digits2 table2] at third
  rw [inode2] at third table2
  refine yields_weaken third ?_ fun _ failed => failed
  rintro _ after ⟨reached3, others3, addr3, table3⟩
  have addr : ∀ level, (after.location.tables level).addr =
      checkedAddr cursor.location.inode contents location level := by
    intro level
    fin_cases level
    · exact (congrArg CachedTable.addr
        ((others3 0 (by decide)).trans (others2 0 (by decide)))).trans addr1
    · exact (congrArg CachedTable.addr (others3 1 (by decide))).trans addr2
    · exact addr3
  refine ⟨reached3, ?_, addr⟩
  intro level found member
  refine ⟨(addr level).trans (checked_addr_of_path member), ?_⟩
  fin_cases level
  · exact (congrArg CachedTable.table ((others3 0 (by decide)).trans (others2 0 (by decide)))).trans
      (table1 found member)
  · exact (congrArg CachedTable.table (others3 1 (by decide))).trans (table2 found member)
  · exact table3 found member

theorem get_next_block_eq (views : cursor.Views contents)
    (place : cursor.location.location.location = location)
    (digits : Digits (cursor.volume.blockSize / 4) location)
    (loaded : cursor.Loaded contents (tablePath cursor.location.inode contents location)) :
    getNextBlock cursor = .ok (dataPointer cursor.location.inode contents location) cursor := by
  rw [getNextBlock, state_bind_get, place]
  cases location with
  | direct d =>
      have inside : d < 12 := digits
      simp only [dataPointer, dif_pos inside]
      rfl
  | single i => exact follow_loaded views digits (loaded 0 _ rfl).2
  | double i j => exact follow_loaded views digits.2 (loaded 1 _ rfl).2
  | triple i j k => exact follow_loaded views digits.2.2 (loaded 2 _ rfl).2

def moveTo (cursor : Cursor) (location : InodeReadingLocationInfo) : Cursor :=
  { cursor with location :=
      { cursor.location with location := ⟨location, cursor.volume.blockSize / 4⟩ } }

theorem views_move_to (views : cursor.Views contents) (location : InodeReadingLocationInfo) :
    (cursor.moveTo location).Views contents :=
  ⟨views.stores, views.sized, views.changed, views.unchanged⟩

theorem seek_eq {k : Nat} (inside : k < capacity (cursor.volume.blockSize / 4))
    (fits : k < 12 + cursor.volume.blockSize / 4 ∨
      cursor.volume.blockSize / 4 * (cursor.volume.blockSize / 4) < 2 ^ 32) :
    seek k cursor = checkTables (cursor.moveTo (locate (cursor.volume.blockSize / 4) k)) := by
  rw [seek, state_bind_get, new_locate inside fits]
  rfl

/-- The comparison with the last block is on `u32`, so it may miss the end, but it never
stops before it. -/
theorem advance_eq {k n : Nat} (small : cursor.volume.blockSize / 4 < 2 ^ 32)
    (place : cursor.location.location =
      ⟨locate (cursor.volume.blockSize / 4) k, cursor.volume.blockSize / 4⟩)
    (more : k + 1 < capacity (cursor.volume.blockSize / 4))
    (last : cursor.location.maxBlockExclusive = n) (before : k + 1 < n) :
    advance cursor = (do checkTables; return true : OnCursor Bool)
      (cursor.moveTo (locate (cursor.volume.blockSize / 4) (k + 1))) := by
  obtain ⟨index, digits⟩ := index_of_locate
    (show k < capacity (cursor.volume.blockSize / 4) by omega)
  have current := current_block_idx_eq _ digits
  rw [index, ← place] at current
  have reduced : k % 2 ^ 32 ≤ k := Nat.mod_le ..
  change (if (cursor.location.location.currentBlockIdx : Int) ≥
    cursor.location.maxBlockExclusive - 1
    then _ else _ : OnCursor Bool) cursor = _
  rw [if_neg (by rw [current, last]; omega), place, advance_locate small more]
  rfl

theorem read_block_spec {buffer : Block} (views : cursor.Views contents)
    (place : cursor.location.location.location = location)
    (digits : Digits (cursor.volume.blockSize / 4) location)
    (loaded : cursor.Loaded contents (tablePath cursor.location.inode contents location))
    (length : buffer.length = cursor.volume.blockSize) :
    Yields
      (fun result after => after.Views contents ∧ after.frame = cursor.frame ∧
        after.location = cursor.location ∧
        dataPointer cursor.location.inode contents location < cursor.volume.blockCount ∧
        result = (cursor.usedSize,
          cursor.volume.device (dataPointer cursor.location.inode contents location)))
      (fun _ => dataPointer cursor.location.inode contents location ≥ cursor.volume.blockCount)
      (readBlock buffer cursor) := by
  change Yields _ _ ((if buffer.length <
    cursor.volume.blockSize then _ else _ : OnCursor (Nat × Block)) cursor)
  rw [if_neg (by omega), state_bind_ok (get_next_block_eq views place digits loaded)]
  refine yields_bind (yields_on_volume (Ext2Volume.read_block_spec _ views.stores length)) ?_
  rintro _ after ⟨volume, rfl, rfl, stores, frame, inside⟩
  refine .ok ⟨views_after_read views stores frame, ?_, rfl, inside, ?_⟩
  · exact congrArg (fun volume => Cursor.mk volume cursor.frame.location) frame
  · simp only [usedSize, Ext2Volume.block_size_of_frame frame]

end Cursor

end Campix.Ext2
