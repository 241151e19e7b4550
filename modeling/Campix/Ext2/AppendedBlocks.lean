import Campix.Ext2.StrayTables

/-!
# Appended blocks are fresh, or not

`allocate_new_block` as a whole: it moves behind the last block of the file and fills the
way to the next one. The result is compared with what an append ought to do.
-/

namespace Campix.Ext2

open Lib.Fallible Lib.Outcome Lib.Slice Lib.Word Ext2Volume

set_option autoImplicit false

namespace Cursor

/-- What a block holds once the changed tables of the handle are written. -/
def view (cursor : Cursor) : Contents := fun lba =>
  match (List.finRange 3).find? fun level =>
      (cursor.location.tables level).dirty ∧ (cursor.location.tables level).addr = lba with
  | some level => (cursor.location.tables level).table
  | none => cursor.volume.device lba

variable {cursor after : Cursor} {contents : Contents} {Tables : Fin 3 → Nat → Prop} {n : Nat}

theorem view_eq (views : cursor.Views contents) : cursor.view = contents := by
  funext lba
  unfold view
  split
  · rename_i level found
    have here := List.find?_some found
    simp only [decide_eq_true_eq] at here
    rw [(views.changed level here.1).2, here.2]
  · rename_i missing
    apply views.unchanged
    intro level dirty same
    have unfit := List.find?_eq_none.mp missing level (List.mem_finRange level)
    exact unfit (by simp [dirty, same])

def tableSize (cursor : Cursor) : Nat := cursor.volume.blockSize / 4

/-- A handle on a file of this many blocks: its copies of tables are up to date and the last
block of the file is mapped. All pointers on the ways to the last block and to the next one
are marked. -/
structure Appendable (cursor : Cursor) (Tables : Fin 3 → Nat → Prop) (n : Nat) : Prop where
  views : cursor.Views cursor.view
  padded : cursor.volume.Padded
  set : TableSet cursor.volume Tables
  ready : cursor.Ready cursor.view Tables
  blockSize : 4 ≤ cursor.volume.blockSize ∧ cursor.volume.blockSize < 2 ^ 32
  square : cursor.tableSize * cursor.tableSize < 2 ^ 32
  blocks : cursor.location.maxBlockExclusive = n
  word : n < 2 ^ 32
  last : 0 < n → Readable cursor.volume cursor.location.inode cursor.view Tables (n - 1) ∧
    ∀ pointer ∈ pointers cursor.location.inode cursor.view (locate cursor.tableSize (n - 1)),
      pointer ≠ 0 ∧ cursor.volume.marked pointer = true
  marks : ∀ pointer ∈ way cursor.location.inode cursor.view (locate cursor.tableSize n),
    pointer ≠ 0 → cursor.volume.marked pointer = true

/-- No table is linked behind the end of the file: those on the way to the next block are on
the way to the last one. -/
def EndsLast (cursor : Cursor) (n : Nat) : Prop :=
  ∀ level < (turns (locate cursor.tableSize n)).length, ∀ pointer,
    (way cursor.location.inode cursor.view (locate cursor.tableSize n))[level]? = some pointer →
      pointer ≠ 0 → 0 < n ∧
        (tablePath cursor.location.inode cursor.view (locate cursor.tableSize (n - 1)))[level]? =
          some pointer

structure Extensible (cursor : Cursor) (Tables : Fin 3 → Nat → Prop) (n : Nat) : Prop
    extends cursor.Appendable Tables n where
  past : cursor.EndsLast n

def lastGroup (cursor : Cursor) (n : Nat) : Nat :=
  if n = 0 then 0
  else sub32 (dataPointer cursor.location.inode cursor.view (locate cursor.tableSize (n - 1))) 1 /
    cursor.volume.blocksPerGroup

theorem sane_move_to (sane : cursor.Sane contents Tables) (location : InodeReadingLocationInfo) :
    (cursor.moveTo location).Sane contents Tables :=
  ⟨views_move_to sane.views location, sane.padded, sane.set, sane.ready, sane.known⟩

theorem table_set_of_frame {volume : Ext2Volume} (set : TableSet cursor.volume Tables)
    (same : volume.frame = cursor.volume.frame) : TableSet volume Tables := by
  refine ⟨set.nonzero, fun level addr isTable => ?_, set.unique⟩
  rw [marked_of_frame same]
  exact set.marked level addr isTable

/-- The location of the handle at a block whose pointers are all in use. -/
theorem arrive_sane {k : Nat} (file : cursor.Appendable Tables n)
    (inside : k < capacity cursor.tableSize)
    (linked : ∀ (level : Fin 3) addr, (tablePath cursor.location.inode cursor.view
      (locate cursor.tableSize k))[level.val]? = some addr → Tables level addr)
    (inUse : ∀ level, checkedAddr cursor.location.inode cursor.view (locate cursor.tableSize k)
      level = 0 ∨
      cursor.volume.marked (checkedAddr
        cursor.location.inode cursor.view (locate cursor.tableSize k)
        level) = true) :
    Yields (fun _ after => after.Sane cursor.view Tables ∧
        after.Loaded cursor.view (tablePath
          cursor.location.inode cursor.view (locate cursor.tableSize k)) ∧
        (∀ level, (after.location.tables level).addr =
          checkedAddr cursor.location.inode cursor.view (locate cursor.tableSize k) level) ∧
        after.frame = (cursor.moveTo (locate cursor.tableSize k)).frame)
      (fun _ => True) (seek k cursor) := by
  obtain ⟨-, digits⟩ := index_of_locate inside
  rw [seek_eq inside (.inr file.square)]
  have ready : (cursor.moveTo (locate cursor.tableSize k)).Ready cursor.view Tables := file.ready
  refine yields_weaken (check_tables_spec (views_move_to file.views _) rfl digits ready
    file.set.nonzero linked) (fun _ after arrived => ?_) (fun _ _ => trivial)
  have frame := volume_of_frame arrived.reached.frame
  refine ⟨⟨arrived.reached.views,
    padded_of_frame frame file.padded, table_set_of_frame file.set frame,
    arrived.reached.ready, ?_⟩, arrived.loaded, arrived.addr, arrived.reached.frame⟩
  intro other
  rw [arrived.addr other, marked_of_frame frame]
  exact inUse other

/-- What `moveBehindLast` leaves. The copies of tables are those on the way to the last block. -/
structure BehindLast (cursor : Cursor) (Tables : Fin 3 → Nat → Prop) (n : Nat)
    (after : Cursor) : Prop where
  inside : n < capacity cursor.tableSize
  sane : after.Sane cursor.view Tables
  addr : 0 < n → ∀ level, (after.location.tables level).addr =
    checkedAddr cursor.location.inode cursor.view (locate cursor.tableSize (n - 1)) level
  place : after.location.location = ⟨locate cursor.tableSize n, cursor.tableSize⟩
  frame : after.frame = (cursor.moveTo (locate cursor.tableSize n)).frame

structure Behind (cursor : Cursor) (Tables : Fin 3 → Nat → Prop) (n : Nat) (after : Cursor) : Prop
    extends cursor.BehindLast Tables n after where
  loaded : after.LoadedTo cursor.view Tables (locate cursor.tableSize n)

theorem first_location_spec (file : cursor.Appendable Tables 0) :
    Yields (fun _ after => cursor.BehindLast Tables 0 after) (fun _ => True) (seek 0 cursor) := by
  have direct : locate cursor.tableSize 0 = .direct 0 := rfl
  have inside : 0 < capacity cursor.tableSize := by unfold capacity; omega
  apply yields_weaken (arrive_sane file inside ?_ fun level => .inl ?_)
  · rintro _ after ⟨sane, -, -, frame⟩
    exact ⟨inside, sane, fun impossible => absurd impossible (Nat.lt_irrefl 0),
      location_of_frame frame,
      frame⟩
  · intro _ _
    trivial
  · intro level addr impossible
    rw [direct] at impossible
    exact absurd impossible (by simp [tablePath])
  · rw [direct]
    fin_cases level <;> rfl

/-- All blocks that are looked at on the way to the last block are in use. -/
theorem last_checked {location : InodeReadingLocationInfo}
    (used : ∀ pointer ∈ pointers cursor.location.inode cursor.view location,
      pointer ≠ 0 ∧ cursor.volume.marked pointer = true) (level : Fin 3) :
    checkedAddr cursor.location.inode cursor.view location level = 0 ∨
      cursor.volume.marked (checkedAddr cursor.location.inode cursor.view location level) =
        true := by
  cases found : (tablePath cursor.location.inode cursor.view location)[level.val]? with
  | some addr =>
      rw [checked_addr_of_path found]
      exact .inr (used addr (List.mem_append_left _ (List.mem_of_getElem? found))).2
  | none =>
      cases checked_addr_off_path found with
      | inl zero => exact .inl zero
      | inr data =>
          rw [data]
          exact .inr (used _ (List.mem_append_right _ (List.mem_singleton_self _))).2

theorem move_behind_last_moves (file : cursor.Appendable Tables n) :
    Yields (fun group after => group = cursor.lastGroup n ∧ cursor.BehindLast Tables n after)
      (fun _ => True) (moveBehindLast cursor) := by
  have positive : 0 < cursor.tableSize := Nat.div_pos file.blockSize.1 (by decide)
  have bound : cursor.tableSize < 2 ^ 32 :=
    Nat.lt_of_le_of_lt (Nat.div_le_self _ _) file.blockSize.2
  change Yields _ _ ((if cursor.location.maxBlockExclusive = 0 then _ else _ : OnCursor Nat) cursor)
  by_cases empty : n = 0
  · subst empty
    rw [if_pos (show cursor.location.maxBlockExclusive = 0 from file.blocks)]
    apply yields_bind (first_location_spec file)
    intro _ after moved
    exact .ok ⟨rfl, moved⟩
  · rw [if_neg (by rw [file.blocks]; omega)]
    have some_ : 0 < n := Nat.pos_of_ne_zero empty
    obtain ⟨readable, used⟩ := file.last some_
    have index : sub32 (blockCount cursor.location) 1 = n - 1 := by
      have count : blockCount cursor.location = n := by
        unfold blockCount
        rw [file.blocks]
        have word := file.word
        omega
      rw [count, sub32, if_pos (show 1 ≤ n from some_)]
    rw [index]
    apply yields_bind (arrive_sane file readable.inside readable.linked (last_checked used))
    rintro _ middle ⟨sane, loaded, addr, frame⟩
    obtain ⟨-, digits⟩ := index_of_locate readable.inside
    have inode : middle.location.inode = cursor.location.inode :=
      show middle.frame.location.inode = _ by rw [frame]; rfl
    have blockSize : middle.volume.blockSize = cursor.volume.blockSize :=
      show middle.frame.volume.blockSize = _ by rw [frame]; rfl
    have place : middle.location.location = ⟨locate cursor.tableSize (n - 1), cursor.tableSize⟩ :=
      location_of_frame frame
    have data : getNextBlock middle = .ok (dataPointer cursor.location.inode cursor.view
        (locate cursor.tableSize (n - 1))) middle := by
      have next := get_next_block_eq sane.views (congrArg InodeReadingLocation.location place)
        (by rw [blockSize]; exact digits) (by rw [inode]; exact loaded)
      rwa [inode] at next
    rw [state_bind_ok data]
    rw [state_bind_get, place]
    by_cases more : n - 1 + 1 < capacity cursor.tableSize
    swap
    · have end_ := readable.inside
      change n - 1 < capacity cursor.tableSize at end_
      rw [advance_last positive (by omega)]
      exact .error trivial
    rw [advance_locate bound more, Nat.sub_add_cancel some_]
    have perGroup : middle.volume.blocksPerGroup = cursor.volume.blocksPerGroup :=
      show middle.frame.volume.blocksPerGroup = _ by rw [frame]; rfl
    have moved : middle.moveTo (locate cursor.tableSize n) = { middle with location :=
        { middle.location with location := ⟨locate cursor.tableSize n, cursor.tableSize⟩ } } := by
      unfold moveTo
      rw [blockSize]
      rfl
    have behind := sane_move_to sane (locate cursor.tableSize n)
    rw [moved] at behind
    refine .ok ⟨?_, by omega, behind, fun _ => addr, rfl, ?_⟩
    · rw [lastGroup, if_neg empty, perGroup]
    · have same := congrArg (fun frame : Cursor => { frame with location :=
        { frame.location with location := ⟨locate cursor.tableSize n, cursor.tableSize⟩ } }) frame
      exact same

/-- Without tables behind the end, those on the way to the next block are those of the last
one. -/
theorem behind_of_last (ext : cursor.Extensible Tables n)
    (moved : cursor.BehindLast Tables n after) :
    cursor.Behind Tables n after := by
  have inode : after.location.inode = cursor.location.inode :=
    show after.frame.location.inode = _ by rw [moved.frame]; rfl
  refine ⟨moved, ?_⟩
  intro level pointer small found nonzero
  obtain ⟨some_, onPath⟩ := ext.past level small pointer (by rw [← inode]; exact found) nonzero
  have three := turns_length (locate cursor.tableSize n)
  have value : (Fin.ofNat 3 level).val = level := Nat.mod_eq_of_lt (by omega)
  have here : (tablePath cursor.location.inode cursor.view
      (locate cursor.tableSize (n - 1)))[(Fin.ofNat 3 level).val]? = some pointer := by
    rw [value]
    exact onPath
  exact ⟨(ext.last some_).1.linked _ _ here, (moved.addr some_ _).trans (checked_addr_of_path here)⟩

theorem move_behind_last_spec (ext : cursor.Extensible Tables n) :
    Yields (fun group after => group = cursor.lastGroup n ∧ cursor.Behind Tables n after)
      (fun _ => True) (moveBehindLast cursor) :=
  yields_weaken (move_behind_last_moves ext.toAppendable)
    (fun _ _ holds => ⟨holds.1, behind_of_last ext holds.2⟩) fun _ _ => trivial

def Filled (before : Cursor) (location : InodeReadingLocationInfo) (place : Nat) : Prop :=
  (way before.location.inode before.view location)[place]? = some 0 ∨
    place = (turns location).length

/-- The pointer to the new block and the tables that were linked are blocks that nothing
refers to, free before and marked now, each of them once, and a new table holds one entry. -/
structure AppendsFresh (referenced : Nat → Prop) (before after : Cursor)
    (location : InodeReadingLocationInfo) : Prop where
  fresh : ∀ place pointer, before.Filled location place →
    (way after.location.inode after.view location)[place]? = some pointer →
      pointer ≠ 0 ∧ before.volume.marked pointer = false ∧ after.volume.marked pointer = true ∧
        ¬referenced pointer
  once : ∀ place other pointer, before.Filled location place → before.Filled location other →
    (way after.location.inode after.view location)[place]? = some pointer →
    (way after.location.inode after.view location)[other]? = some pointer → place = other
  empty : ∀ place table, place < (turns location).length →
    (way before.location.inode before.view location)[place]? = some 0 →
    (way after.location.inode after.view location)[place]? = some table →
    ∀ idx < before.tableSize, (turns location)[place]? ≠ some idx → entry (after.view table) idx = 0

/-- The place of the new pointer is free, and the free blocks that become tables are empty. -/
structure Vacant (cursor : Cursor) (n : Nat) : Prop where
  slot : (way cursor.location.inode cursor.view (locate cursor.tableSize n))[
    (turns (locate cursor.tableSize n)).length]? = some 0
  empty : ∀ block ∈ handOuts (missing
    cursor.location.inode cursor.view (locate cursor.tableSize n) - 1)
    cursor.volume (cursor.lastGroup n), ∀ idx < cursor.tableSize, entry (cursor.view block) idx = 0

variable {location : InodeReadingLocationInfo} {referenced : Nat → Prop} {group : Nat}

theorem filled_iff {hole place : Nat}
    (here : (way cursor.location.inode cursor.view location)[hole]? = some 0)
    (there : ∀ before < hole, ∀ table,
      (way cursor.location.inode cursor.view location)[before]? = some table → table ≠ 0)
    (bound : place < (turns location).length + 1) :
    cursor.Filled location place ↔ hole ≤ place := by
  have inside := (List.getElem?_eq_some_iff.mp here).1
  have length : (way cursor.location.inode cursor.view location).length =
      (turns location).length + 1 :=
    length_chase _ _
  have shape : way cursor.location.inode cursor.view location = _ := chase_hole here there
  have front : ((way cursor.location.inode cursor.view location).take hole).length = hole := by
    rw [List.length_take]
    omega
  constructor
  · rintro (zero | end_)
    · by_contra before
      exact there place (by omega) 0 zero rfl
    · omega
  · intro behind
    left
    rw [shape, List.getElem?_append_right (by rw [← way, front]; exact behind), ← way, front,
      List.getElem?_replicate, if_pos (by omega)]

theorem fresh_needs_marks {hole count : Nat}
    (here : (way cursor.location.inode cursor.view location)[hole]? = some 0)
    (there : ∀ before < hole, ∀ table,
      (way cursor.location.inode cursor.view location)[before]? = some table → table ≠ 0)
    (appends : AppendsFresh referenced cursor after location)
    (granted : Granted count cursor.volume after.volume) :
    missing cursor.location.inode cursor.view location ≤ count := by
  obtain ⟨blocks, few, marks⟩ := granted.blocks
  have total : (way after.location.inode after.view location).length =
      (turns location).length + 1 :=
    length_chase _ _
  have found : ∀ {place pointer : Nat},
      ((way after.location.inode after.view location).drop hole)[place]? = some pointer →
      (way after.location.inode after.view location)[hole + place]? = some pointer ∧
        cursor.Filled location (hole + place) := by
    intro place pointer at_
    rw [List.getElem?_drop] at at_
    have bound := (List.getElem?_eq_some_iff.mp at_).1
    exact ⟨at_, (filled_iff here there (by omega)).mpr (by omega)⟩
  have nodup : ((way after.location.inode after.view location).drop hole).Nodup := by
    rw [List.nodup_iff_getElem?_ne_getElem?]
    intro first second ordered bound same
    obtain ⟨pointer, at_⟩ : ∃ pointer,
        ((way after.location.inode after.view location).drop hole)[second]? =
        some pointer := ⟨_, List.getElem?_eq_getElem bound⟩
    obtain ⟨secondHere, secondFilled⟩ := found at_
    obtain ⟨firstHere, firstFilled⟩ := found (same.trans at_)
    have equal := appends.once _ _ pointer firstFilled secondFilled firstHere secondHere
    omega
  have subset : (way after.location.inode after.view location).drop hole ⊆ blocks := by
    intro pointer member
    obtain ⟨place, at_⟩ := List.mem_iff_getElem?.mp member
    obtain ⟨pointerHere, filled⟩ := found at_
    obtain ⟨nonzero, free, inUse, -⟩ := appends.fresh _ pointer filled pointerHere
    rcases marks pointer nonzero inUse with before | block
    · exact absurd (before.symm.trans free) (by decide)
    · exact block
  have count := (List.subperm_of_subset nodup subset).length_le
  rw [List.length_drop, total] at count
  rw [missing_eq here there]
  omega

theorem grown_getElem {hole place : Nat} {blocks : List Nat} {grown : Contents}
    (growth : cursor.Grown contents Tables location hole blocks after grown)
    (long : hole ≤ (way cursor.location.inode contents location).length) :
    (way after.location.inode grown location)[hole + place]? = blocks[place]? := by
  have front : ((way cursor.location.inode contents location).take hole).length = hole := by
    rw [List.length_take]
    omega
  rw [growth.way, List.getElem?_append_right (by omega), front, Nat.add_sub_cancel_left]

/-- An append that threads new blocks is fresh if the new tables were empty. -/
theorem grown_fresh {hole : Nat} {blocks : List Nat}
    (here : (way cursor.location.inode cursor.view location)[hole]? = some 0)
    (there : ∀ before < hole, ∀ table,
      (way cursor.location.inode cursor.view location)[before]? = some table → table ≠ 0)
    (growth : cursor.Grown cursor.view Tables location hole blocks after after.view)
    (unused : ∀ pointer, referenced pointer → cursor.volume.marked pointer = true) :
    AppendsFresh referenced cursor after location ↔
      ∀ (place table : Nat), blocks[place]? = some table → hole + place < (turns location).length →
        ∀ idx < cursor.tableSize, entry (cursor.view table) idx = 0 := by
  have long := (List.getElem?_eq_some_iff.mp here).1
  have length : (way cursor.location.inode cursor.view location).length =
      (turns location).length + 1 :=
    length_chase _ _
  have total : (way after.location.inode after.view location).length =
      (turns location).length + 1 :=
    length_chase _ _
  have behind : ∀ {place pointer : Nat}, cursor.Filled location place →
      (way after.location.inode after.view location)[place]? = some pointer →
      hole ≤ place ∧ blocks[place - hole]? = some pointer := by
    intro place pointer filled at_
    have bound := (List.getElem?_eq_some_iff.mp at_).1
    have after_ := (filled_iff here there (by omega)).mp filled
    refine ⟨after_, ?_⟩
    rwa [show place = hole + (place - hole) by omega, grown_getElem growth (by omega)] at at_
  constructor
  · intro appends place table at_ small idx bound
    obtain ⟨turn, turnHere⟩ : ∃ turn, (turns location)[hole + place]? = some turn :=
      ⟨_, List.getElem?_eq_getElem small⟩
    by_cases same : idx = turn
    · rw [same]
      exact growth.vacant place table turn at_ turnHere
    · rw [← growth.entries place table turn idx at_ turnHere same]
      have filled := (filled_iff here there (by omega : hole + place < _)).mpr (by omega)
      have zero := filled.resolve_right (by omega)
      refine appends.empty (hole + place) table small zero ?_ idx bound ?_
      · rw [grown_getElem growth (by omega)]
        exact at_
      · rw [turnHere]
        exact fun equal => same (Option.some.inj equal).symm
  · intro vacant
    refine ⟨?_, ?_, ?_⟩
    · intro place pointer filled at_
      obtain ⟨-, block⟩ := behind filled at_
      have member := List.mem_of_getElem? block
      obtain ⟨nonzero, -, free⟩ := growth.fresh pointer member
      refine ⟨nonzero, free, ?_, fun used => ?_⟩
      · rw [growth.marks pointer nonzero, decide_eq_true member, Bool.or_true]
      · exact absurd ((unused pointer used).symm.trans free) (by decide)
    · intro place other pointer filled otherFilled at_ otherAt
      obtain ⟨first, firstBlock⟩ := behind filled at_
      obtain ⟨second, secondBlock⟩ := behind otherFilled otherAt
      have bound := (List.getElem?_eq_some_iff.mp firstBlock).1
      have equal := (List.getElem?_inj bound growth.nodup).mp (firstBlock.trans secondBlock.symm)
      omega
    · intro place table small zero at_ idx bound apart
      obtain ⟨after_, block⟩ := behind (.inl zero) at_
      obtain ⟨turn, turnHere⟩ : ∃ turn, (turns location)[hole + (place - hole)]? = some turn :=
        ⟨_, List.getElem?_eq_getElem (by omega)⟩
      have other : idx ≠ turn := by
        rintro rfl
        rw [Nat.add_sub_cancel' after_] at turnHere
        exact apart turnHere
      rw [growth.entries (place - hole) table turn idx block turnHere other]
      exact vacant (place - hole) table block (by omega) idx bound

/-- What `AppendsFresh` looks at. -/
structure SameSight (cursor other : Cursor) : Prop where
  inode : other.location.inode = cursor.location.inode
  view : other.view = cursor.view
  marks : ∀ block, other.volume.marked block = cursor.volume.marked block
  blockSize : other.volume.blockSize = cursor.volume.blockSize

theorem appends_fresh_congr {before last : Cursor} (first : SameSight cursor before)
    (second : SameSight after last) (appends : AppendsFresh referenced before last location) :
    AppendsFresh referenced cursor after location := by
  have filled : ∀ place, cursor.Filled location place → before.Filled location place := by
    intro place holds
    unfold Filled
    rw [first.inode, first.view]
    exact holds
  have size : before.tableSize = cursor.tableSize := by
    unfold tableSize
    rw [first.blockSize]
  have sight : way last.location.inode last.view location =
      way after.location.inode after.view location := by
    rw [second.inode, second.view]
  refine ⟨fun place pointer here at_ => ?_, fun place other pointer here there at_ otherAt => ?_,
    fun place table small zero at_ idx bound apart => ?_⟩
  · rw [← sight] at at_
    have fresh := appends.fresh place pointer (filled place here) at_
    rwa [first.marks, second.marks] at fresh
  · rw [← sight] at at_ otherAt
    exact appends.once place other pointer (filled place here) (filled other there) at_ otherAt
  · rw [← sight] at at_
    rw [← second.view]
    exact appends.empty place table small (by rw [first.inode, first.view]; exact zero) at_ idx
      (by rw [size]; exact bound) apart

theorem same_sight_symm {other : Cursor} (same : SameSight cursor other) : SameSight other cursor :=
  ⟨same.inode.symm, same.view.symm, fun block => (same.marks block).symm, same.blockSize.symm⟩

theorem same_sight_counted (cursor : Cursor) (count : Int) :
    SameSight cursor { cursor with location := { cursor.location with maxBlockExclusive := count } } :=
  ⟨rfl, rfl, fun _ => rfl, rfl⟩

theorem behind_last_sight {moved : Cursor} (arrived : cursor.BehindLast Tables n moved) :
    SameSight cursor moved := by
  have frame := arrived.frame
  refine ⟨?_, view_eq arrived.sane.views, ?_, ?_⟩
  · exact show moved.frame.location.inode = _ by rw [frame]; rfl
  · intro block
    exact (marked_of_frame (volume_of_frame frame) block).trans rfl
  · exact show moved.frame.volume.blockSize = _ by rw [frame]; rfl

/-- Where the last pointer of the way is there, all pointers are. -/
theorem all_there (slot : (way cursor.location.inode contents location)[(turns location).length]? ≠
    some 0) :
    ∀ before table : Nat, (way cursor.location.inode contents location)[before]? = some table →
      table ≠ 0 := by
  have length : (way cursor.location.inode contents location).length =
      (turns location).length + 1 :=
    length_chase _ _
  obtain ⟨last, at_⟩ : ∃ last, (way
      cursor.location.inode contents location)[(turns location).length]? =
      some last := ⟨_, List.getElem?_eq_getElem (by omega)⟩
  have nonzero : last ≠ 0 := by
    rintro rfl
    exact slot at_
  intro before table found
  have bound := (List.getElem?_eq_some_iff.mp found).1
  exact chase_nonzero _ at_ nonzero before (by omega) table found

/-- What `appendBlock` makes of the way, behind the last block. -/
theorem append_fresh_iff {moved last : Cursor} (behind : cursor.Behind Tables n moved)
    (unused : ∀ pointer, referenced pointer → cursor.volume.marked pointer = true)
    (slot : (way moved.location.inode moved.view (locate cursor.tableSize n))[
      (turns (locate cursor.tableSize n)).length]? = some 0)
    (appends : moved.Appends moved.view Tables (locate cursor.tableSize n) (cursor.lastGroup n)
      last) :
    AppendsFresh referenced moved last (locate cursor.tableSize n) ↔ cursor.Vacant n := by
  obtain ⟨inode, view, marks, blockSize⟩ := behind_last_sight behind.toBehindLast
  have size : moved.tableSize = cursor.tableSize := by
    unfold tableSize
    rw [blockSize]
  have outs : ∀ count, handOuts count moved.volume (cursor.lastGroup n) =
      handOuts count cursor.volume (cursor.lastGroup n) := by
    intro count
    exact hand_outs_of_frame (volume_of_frame behind.frame) count _
  have unusedThen : ∀ pointer, referenced pointer → moved.volume.marked pointer = true := by
    intro pointer used
    rw [marks]
    exact unused pointer used
  have vacant : cursor.Vacant n ↔ ∀ block ∈ handOuts
      (missing moved.location.inode moved.view (locate cursor.tableSize n) - 1) moved.volume
      (cursor.lastGroup n), ∀ idx < moved.tableSize, entry (moved.view block) idx = 0 := by
    rw [inode, view, size, outs]
    rw [inode, view] at slot
    exact ⟨fun holds => holds.empty, fun empty => ⟨slot, empty⟩⟩
  rw [vacant]
  rcases appends with ⟨hole, grown, there, here, growth⟩ | skipped
  · have seen : last.view = grown := by
      obtain ⟨_, sane, -, -⟩ := growth.sane
      exact view_eq sane.views
    subst seen
    have count := missing_eq here there
    have inside := growth.inside
    have taken := hand_outs_take (missing
      moved.location.inode moved.view (locate cursor.tableSize n) - 1)
      moved.volume (cursor.lastGroup n)
    rw [Nat.sub_add_cancel (by omega)] at taken
    rw [grown_fresh here there growth unusedThen, taken]
    constructor
    · intro empty block member idx bound
      obtain ⟨place, at_⟩ := List.mem_iff_getElem?.mp member
      rw [List.getElem?_take] at at_
      split_ifs at at_ with small
      exact empty place block at_ (by omega) idx bound
    · intro empty place table at_ small idx bound
      refine empty table (List.mem_iff_getElem?.mpr ⟨place, ?_⟩) idx bound
      rw [List.getElem?_take, if_pos (by omega)]
      exact at_
  · classical
    have some_ : ∃ hole, (way moved.location.inode moved.view (locate cursor.tableSize n))[hole]? =
        some 0 := ⟨_, slot⟩
    have here := Nat.find_spec some_
    have there : ∀ before < Nat.find some_, ∀ table,
        (way moved.location.inode moved.view (locate cursor.tableSize n))[before]? = some table →
        table ≠ 0 := by
      intro before small table found zero
      exact Nat.find_min some_ small (zero ▸ found)
    have inside := (List.getElem?_eq_some_iff.mp here).1
    have count := missing_eq here there
    have total : (way moved.location.inode moved.view (locate cursor.tableSize n)).length =
        (turns (locate cursor.tableSize n)).length + 1 := length_chase _ _
    constructor
    · intro fresh
      have needed := fresh_needs_marks here there fresh skipped.granted
      omega
    · intro empty
      obtain ⟨stale, member, idx, bound, dirty⟩ := skipped.stale
      exact absurd (empty stale member idx bound) dirty

theorem kept_not_fresh (file : cursor.Appendable Tables n)
    (kept : way after.location.inode after.view (locate cursor.tableSize n) =
      way cursor.location.inode cursor.view (locate cursor.tableSize n)) :
    ¬AppendsFresh referenced cursor after (locate cursor.tableSize n) := by
  intro appends
  have length : (way cursor.location.inode cursor.view (locate cursor.tableSize n)).length =
      (turns (locate cursor.tableSize n)).length + 1 := length_chase _ _
  obtain ⟨pointer, at_⟩ : ∃ pointer, (way cursor.location.inode cursor.view
      (locate cursor.tableSize n))[(turns (locate cursor.tableSize n)).length]? = some pointer :=
    ⟨_, List.getElem?_eq_getElem (by omega)⟩
  obtain ⟨nonzero, free, -⟩ := appends.fresh _ pointer (.inr rfl) (by rw [kept]; exact at_)
  have inUse := file.marks pointer (List.mem_of_getElem? at_) nonzero
  exact absurd (inUse.symm.trans free) (by decide)

theorem extensible_fresh_iff (ext : cursor.Extensible Tables n)
    (unused : ∀ pointer, referenced pointer → cursor.volume.marked pointer = true) {count : Nat}
    (ran : allocateNewBlock cursor = .ok count after) :
    AppendsFresh referenced cursor after (locate cursor.tableSize n) ↔ cursor.Vacant n := by
  suffices yields : Yields (fun _ after =>
      AppendsFresh referenced cursor after (locate cursor.tableSize n) ↔ cursor.Vacant n)
      (fun _ => True) (allocateNewBlock cursor) by
    rw [ran] at yields
    cases yields with
    | ok holds => exact holds
  unfold allocateNewBlock
  refine yields_bind (move_behind_last_spec ext) ?_
  rintro _ moved ⟨rfl, behind⟩
  have sight := behind_last_sight behind.toBehindLast
  have inode := sight.inode
  have view := sight.view
  have blockSize := sight.blockSize
  obtain ⟨-, digits⟩ := index_of_locate behind.inside
  have place : moved.location.location.location = locate cursor.tableSize n := by rw [behind.place]
  change Yields _ _ ((if mul32 (blockCount moved.location) moved.volume.sectorsPerBlock +
    4 * moved.volume.sectorsPerBlock > 0xFFFF_FFFF then _ else _ : OnCursor Nat) moved)
  split_ifs
  · exact .error trivial
  have sane : moved.Sane moved.view Tables := by
    rw [view]
    exact behind.sane
  have loaded : moved.LoadedTo moved.view Tables (locate cursor.tableSize n) := by
    rw [view]
    exact behind.loaded
  have wayDigits : Digits (moved.volume.blockSize / 4) (locate cursor.tableSize n) := by
    rw [blockSize]
    exact digits
  by_cases slot : (way moved.location.inode moved.view (locate cursor.tableSize n))[
      (turns (locate cursor.tableSize n)).length]? = some 0
  · refine yields_bind (append_spec sane place wayDigits loaded slot)
      fun allocation last appends => ?_
    refine .ok ?_
    rw [← append_fresh_iff behind unused slot appends]
    have counted := same_sight_counted last (last.location.maxBlockExclusive + 1)
    constructor
    · exact appends_fresh_congr (same_sight_symm sight) counted
    · exact appends_fresh_congr sight (same_sight_symm counted)
  · have there := all_there slot
    rw [state_bind_ok (append_taken sane place wayDigits loaded there)]
    refine .ok ?_
    constructor
    · intro appends
      have kept : way moved.location.inode moved.view (locate cursor.tableSize n) =
          way cursor.location.inode cursor.view (locate cursor.tableSize n) := by
        rw [inode, view]
      exact absurd appends (kept_not_fresh ext.toAppendable kept)
    · intro vacant
      rw [inode, view] at slot
      exact absurd vacant.slot slot

/-- No block is linked twice: a table on the way to the next block is not the last block, and
where it is on the way to the last block too, both ways lead to it alike. -/
def LinkedOnce (cursor : Cursor) (n : Nat) : Prop :=
  0 < n → ∀ level < (turns (locate cursor.tableSize n)).length, ∀ pointer ≠ 0,
    (way cursor.location.inode cursor.view (locate cursor.tableSize n))[level]? = some pointer →
    pointer ≠ dataPointer cursor.location.inode cursor.view (locate cursor.tableSize (n - 1)) ∧
    ∀ other : Nat, (tablePath cursor.location.inode cursor.view
      (locate cursor.tableSize (n - 1)))[other]? = some pointer → other = level ∧
      ∀ before < level, (way cursor.location.inode
        cursor.view (locate cursor.tableSize n))[before]? =
        (tablePath cursor.location.inode cursor.view (locate cursor.tableSize (n - 1)))[before]?

/-- A table on the way to the next block, the first one that is not on the way to the last
block. -/
structure Stray (cursor : Cursor) (n level table : Nat) : Prop where
  some_ : 0 < n
  small : level < (turns (locate cursor.tableSize n)).length
  found : (way cursor.location.inode cursor.view (locate cursor.tableSize n))[level]? = some table
  nonzero : table ≠ 0
  absent : (tablePath cursor.location.inode cursor.view
    (locate cursor.tableSize (n - 1)))[level]? ≠ some table
  first : ∀ before < level, ∀ pointer,
    (way cursor.location.inode cursor.view (locate cursor.tableSize n))[before]? = some pointer →
    pointer ≠ 0 ∧ (tablePath cursor.location.inode cursor.view
      (locate cursor.tableSize (n - 1)))[before]? = some pointer

theorem exists_stray (past : ¬cursor.EndsLast n) : ∃ level table, cursor.Stray n level table := by
  classical
  have positive : 0 < n := by
    by_contra empty
    obtain rfl : n = 0 := by omega
    exact past fun level impossible => absurd impossible (Nat.not_lt_zero _)
  have some_ : ∃ level, ∃ table, level < (turns (locate cursor.tableSize n)).length ∧
      (way cursor.location.inode cursor.view (locate cursor.tableSize n))[level]? = some table ∧
      table ≠ 0 ∧ (tablePath cursor.location.inode cursor.view
        (locate cursor.tableSize (n - 1)))[level]? ≠ some table := by
    by_contra none_
    refine past fun level small table found nonzero => ⟨positive, ?_⟩
    by_contra absent
    exact none_ ⟨level, table, small, found, nonzero, absent⟩
  obtain ⟨table, small, found, nonzero, absent⟩ := Nat.find_spec some_
  refine ⟨Nat.find some_, table, positive, small, found, nonzero, absent, ?_⟩
  intro before earlier pointer at_
  have there := chase_nonzero _ found nonzero before (Nat.le_of_lt earlier) pointer at_
  refine ⟨there, ?_⟩
  by_contra missing
  exact Nat.find_min some_ earlier ⟨pointer, Nat.lt_trans earlier small, at_, there, missing⟩

/-- Behind the last block no copy from the level of a stray table on is one of a table on the
way to the next block. -/
theorem stray_aside {moved : Cursor} {level table : Nat} (file : cursor.Appendable Tables n)
    (once : cursor.LinkedOnce n) (arrived : cursor.BehindLast Tables n moved)
    (stray : cursor.Stray n level table) {place pointer : Nat}
    (small : place < (turns (locate cursor.tableSize n)).length)
    (at_ : (way cursor.location.inode cursor.view (locate cursor.tableSize n))[place]? = some
      pointer)
    (nonzero : pointer ≠ 0) : Aside level pointer moved := by
  have views := arrived.sane.views
  refine ⟨views.stores, views.sized, arrived.sane.padded, nonzero, ?_, ?_⟩
  · rw [(behind_last_sight arrived).marks]
    exact file.marks pointer (List.mem_of_getElem? at_) nonzero
  · intro other above same
    obtain ⟨apart, alike⟩ := once stray.some_ place small pointer nonzero at_
    rw [arrived.addr stray.some_] at same
    cases onPath : (tablePath cursor.location.inode cursor.view
        (locate cursor.tableSize (n - 1)))[other.val]? with
    | none =>
        rcases checked_addr_off_path onPath with zero | data
        · exact nonzero (same.symm.trans zero)
        · exact apart (same.symm.trans data)
    | some addr =>
        rw [checked_addr_of_path onPath] at same
        subst same
        obtain ⟨here, before⟩ := alike other.val onPath
        rcases Nat.eq_or_lt_of_le above with level_ | behind
        · have found := stray.found
          rw [level_, here, at_] at found
          exact stray.absent (by rw [level_, onPath, found])
        · exact stray.absent (by rw [← before level (by omega), stray.found])

theorem leaves_view {level block : Nat} (aside : Aside level block cursor)
    (left : Leaves level block cursor after) : after.view block = cursor.view block := by
  have same : ∀ place : Fin 3, ((after.location.tables place).dirty ∧
      (after.location.tables place).addr = block) ↔ ((cursor.location.tables place).dirty ∧
        (cursor.location.tables place).addr = block) := by
    intro place
    by_cases small : place.val < level
    · rw [left.below place small]
    · exact iff_of_false (fun here => left.aside.copies place (by omega) here.2)
        fun here => aside.copies place (by omega) here.2
  unfold view
  simp only [same, left.device]
  split
  · rename_i place found
    have here := List.find?_some found
    simp only [decide_eq_true_eq] at here
    have small : place.val < level := by
      by_contra above
      exact aside.copies place (by omega) here.2
    rw [left.below place small]
  · rfl

/-- The entries before the stray table are those of the way to the last block. -/
theorem stray_passes {moved : Cursor} {level table : Nat} (file : cursor.Appendable Tables n)
    (arrived : cursor.BehindLast Tables n moved) (stray : cursor.Stray n level table) :
    ∀ before each, ((turns (locate cursor.tableSize n)).take level)[before]? = some each →
      entry (moved.location.tables (Fin.ofNat 3 (0 + before))).table each ≠ 0 := by
  intro before each here
  have there := chase_nonzero _ stray.found stray.nonzero
  have small := stray.small
  have three := turns_length (locate cursor.tableSize n)
  have length : (way cursor.location.inode cursor.view (locate cursor.tableSize n)).length =
      (turns (locate cursor.tableSize n)).length + 1 := length_chase _ _
  rw [List.getElem?_take] at here
  split_ifs at here with earlier
  obtain ⟨pointer, at_⟩ : ∃ pointer, (way cursor.location.inode cursor.view
      (locate cursor.tableSize n))[before]? = some pointer :=
    ⟨_, List.getElem?_eq_getElem (by omega)⟩
  obtain ⟨-, onPath⟩ := stray.first before earlier pointer at_
  have value : (Fin.ofNat 3 before).val = before := Nat.mod_eq_of_lt (by omega)
  have onPath' : (tablePath cursor.location.inode cursor.view
      (locate cursor.tableSize (n - 1)))[(Fin.ofNat 3 before).val]? = some pointer := by
    rw [value]
    exact onPath
  have isTable := (file.last stray.some_).1.linked _ _ onPath'
  have addr := (arrived.addr stray.some_ (Fin.ofNat 3 before)).trans
    (checked_addr_of_path onPath')
  have next := chase_step at_ (fun other le => there other (by omega)) here
  rw [Nat.zero_add, (arrived.sane.ready _ _ isTable).1 addr]
  exact there (before + 1) earlier _ next

/-- The append writes into copies that are none of the tables on the way. -/
theorem stray_keeps_way {moved : Cursor} {level table : Nat} {allocation : Allocation}
    (file : cursor.Appendable Tables n) (once : cursor.LinkedOnce n)
    (arrived : cursor.BehindLast Tables n moved) (stray : cursor.Stray n level table) :
    Yields (fun _ last => way last.location.inode last.view (locate cursor.tableSize n) =
        way cursor.location.inode cursor.view (locate cursor.tableSize n))
      (fun _ => True) (appendBlock allocation moved) := by
  have sight := behind_last_sight arrived
  have place : moved.location.location.location = locate cursor.tableSize n := by rw [arrived.place]
  obtain ⟨-, digits⟩ := index_of_locate arrived.inside
  have inside : ∀ each ∈ turns (locate cursor.tableSize n), each < moved.volume.blockSize / 4 := by
    rw [sight.blockSize]
    exact turns_small digits
  have indirect : turns (locate cursor.tableSize n) ≠ [] := by
    intro none_
    have small := stray.small
    rw [none_] at small
    exact absurd small (Nat.not_lt_zero _)
  have there := chase_nonzero _ stray.found stray.nonzero
  have head_ : head moved.location.inode (locate cursor.tableSize n) ≠ 0 := by
    rw [sight.inode]
    exact there 0 (Nat.zero_le _) _ (chase_head _ _)
  obtain ⟨turn, turnHere⟩ : ∃ turn, (turns (locate cursor.tableSize n))[level]? = some turn :=
    ⟨_, List.getElem?_eq_getElem stray.small⟩
  have split : turns (locate cursor.tableSize n) = (turns (locate cursor.tableSize n)).take level ++
      turn :: (turns (locate cursor.tableSize n)).drop (level + 1) := by
    conv_lhs => rw [← List.take_append_drop level (turns (locate cursor.tableSize n)),
      List.drop_eq_getElem?_toList_append, turnHere]
    rfl
  have front : ((turns (locate cursor.tableSize n)).take level).length = level := by
    rw [List.length_take]
    have small := stray.small
    omega
  rw [append_block_eq place indirect, state_bind_ok (link_head_skips head_), split,
    fill_through _ 0 turn _ (stray_passes file arrived stray), Nat.zero_add]
  have kept : ∀ index < (turns (locate cursor.tableSize n)).length, ∀ pointer,
      (way cursor.location.inode cursor.view (locate cursor.tableSize n))[index]? = some pointer →
      pointer ≠ 0 → Aside level pointer moved ∧
        Yields (fun _ last => Leaves level pointer moved last)
        (fun _ => True) (fill ((turns (locate cursor.tableSize n)).take level).length
          (turn :: (turns (locate cursor.tableSize n)).drop (level + 1)) allocation moved) := by
    intro index small pointer at_ nonzero
    have aside := stray_aside file once arrived stray small at_ nonzero
    refine ⟨aside, fill_leaves _ aside place split (by omega) fun each member => ?_⟩
    exact inside each (by rw [split]; exact List.mem_append_right _ member)
  have view := sight.view
  cases outcome : fill ((turns (locate cursor.tableSize n)).take level).length
      (turn :: (turns (locate cursor.tableSize n)).drop (level + 1)) allocation moved with
  | error failure last => exact .error trivial
  | ok allocation last =>
      rw [outcome] at kept
      have left : ∀ index < (turns (locate cursor.tableSize n)).length, ∀ pointer,
          (way cursor.location.inode cursor.view (locate cursor.tableSize n))[index]? = some
            pointer →
          pointer ≠ 0 → Aside level pointer moved ∧ Leaves level pointer moved last := by
        intro index small pointer at_ nonzero
        obtain ⟨aside, yields⟩ := kept index small pointer at_ nonzero
        cases yields with
        | ok leaves => exact ⟨aside, leaves⟩
      obtain ⟨-, tableLeft⟩ := left level stray.small table stray.found stray.nonzero
      refine .ok ?_
      rw [inode_of_steady tableLeft.steady, sight.inode]
      refine chase_congr _ _ fun index small pointer at_ nonzero => ?_
      obtain ⟨aside, leaves⟩ := left index small pointer at_ nonzero
      rw [leaves_view aside leaves, view]

theorem stray_not_fresh (file : cursor.Appendable Tables n) (once : cursor.LinkedOnce n)
    (past : ¬cursor.EndsLast n) {count : Nat} (ran : allocateNewBlock cursor = .ok count after) :
    ¬AppendsFresh referenced cursor after (locate cursor.tableSize n) := by
  obtain ⟨level, table, stray⟩ := exists_stray past
  suffices yields : Yields (fun _ after => way after.location.inode after.view
        (locate cursor.tableSize n) = way cursor.location.inode cursor.view
          (locate cursor.tableSize n))
      (fun _ => True) (allocateNewBlock cursor) by
    rw [ran] at yields
    cases yields with
    | ok kept => exact kept_not_fresh file kept
  unfold allocateNewBlock
  refine yields_bind (move_behind_last_moves file) ?_
  rintro _ moved ⟨rfl, arrived⟩
  change Yields _ _ ((if mul32 (blockCount moved.location) moved.volume.sectorsPerBlock +
    4 * moved.volume.sectorsPerBlock > 0xFFFF_FFFF then _ else _ : OnCursor Nat) moved)
  split_ifs
  · exact .error trivial
  refine yields_bind (stray_keeps_way file once arrived stray) fun allocation last kept => ?_
  exact .ok kept

/-- A handle that was just opened on a file of twelve blocks, on a volume where every block
is full of one byte and ten blocks are free. -/
def twelveBlocks (byte : UInt8) : Cursor where
  volume := {
    device := fun _ => List.replicate 1024 byte
    blockCache := []
    blockCacheSize := 1
    bitmaps := fun group =>
      if group = 0 then [0xFF, 0x1F, 0x80] ++ List.replicate 1021 0xFF else []
    readOnly := false
    fileSize64 := true
    blockSize := 1024
    blockCount := 24
    sectorsPerBlock := 2
    blockGroupCount := 1
    blocksPerGroup := 8192
    superblockBlock := 1
    inodesPerGroup := 8
    inodesPerBlock := 8
    inodeSize := 128
    inodeTables := [1] }
  location := {
    location := ⟨.direct 0, 256⟩
    inode := {
      inodeType := .file
      permissions := 0
      uid := 0
      sizeLo := 12288
      atime := 0
      ctime := 0
      mtime := 0
      dtime := 0
      gid := 0
      linksCount := 1
      sectorsCount := 24
      flags := 0
      ossv1 := 0
      directBlockPointers := fun place => place.val + 2
      singleIndirectBlockPointer := 0
      doubleIndirectBlockPointer := 0
      tripleIndirectBlockPointer := 0
      generationNumber := 0
      extendedAttributeBlock := 0
      sizeHiOrDirAcl := 0
      fragmentBlock := 0
      ossv2 := List.replicate 12 0
      inodeI := 12 }
    maxBlockExclusive := 12
    tables := fun _ => ⟨List.replicate 1024 0, 0, false⟩
    inodeDirty := false }

theorem twelve_blocks_table_size (byte : UInt8) : (twelveBlocks byte).tableSize = 256 := by
  have blockSize : (twelveBlocks byte).volume.blockSize = 1024 := rfl
  rw [tableSize, blockSize]

theorem twelve_blocks_free {bit : Nat} (bound : bit < 8192)
    (unset : Bitmap.bitAt ([0xFF, 0x1F, 0x80] ++ List.replicate 1021 0xFF) bit = false) : bit <
    23 := by
  by_contra large
  by_cases third : bit / 8 < 3
  · obtain rfl : bit = 23 := by omega
    exact absurd unset (by decide)
  · have full : ∀ place < 8, Bitmap.bit 0xFF place = true := by decide
    have byte : ([0xFF, 0x1F, 0x80] ++ List.replicate 1021 (0xFF : UInt8)).getD (bit / 8)
        0 = 0xFF := by
      rw [List.getD_eq_getElem?_getD, List.getElem?_append_right (by simpa using third),
        List.getElem?_replicate, if_pos (by simp; omega)]
      rfl
    rw [Bitmap.bitAt, byte, full _ (Nat.mod_lt _ (by decide))] at unset
    exact absurd unset (by decide)

theorem twelve_blocks_padded (byte : UInt8) : (twelveBlocks byte).volume.Padded := by
  refine ⟨show 0 < 8192 by decide, show 24 < 2 ^ 32 by decide, ?_⟩
  intro group inside bit bound unset
  obtain rfl : group = 0 := Nat.lt_one_iff.mp inside
  have length : ((twelveBlocks byte).volume.bitmaps 0).length = 1024 := by
    change ([0xFF, 0x1F, 0x80] ++ List.replicate 1021 (0xFF : UInt8)).length = 1024
    rw [List.length_append, List.length_replicate]
    rfl
  have small := twelve_blocks_free (by omega : bit < 8192) unset
  exact ⟨show bit < 8192 by omega, show 0 * 8192 + 1 + bit < 24 by omega⟩

theorem twelve_blocks_views (byte : UInt8) :
    (twelveBlocks byte).Views (twelveBlocks byte).volume.device := by
  have stores : (twelveBlocks byte).volume.Stores (twelveBlocks byte).volume.device :=
    ⟨rfl, fun item impossible => absurd impossible List.not_mem_nil, fun _ => List.length_replicate,
      show 0 < 1024 by decide⟩
  refine ⟨stores, fun _ => List.length_replicate, ?_, fun _ _ => rfl⟩
  intro level impossible
  exact absurd impossible Bool.false_ne_true

theorem locate_eleven : locate 256 11 = .direct 11 := by decide

theorem twelve_blocks_appendable (byte : UInt8) :
    (twelveBlocks byte).Appendable (fun _ _ => False) 12 := by
  have views := twelve_blocks_views byte
  have seen := view_eq views
  have size := twelve_blocks_table_size byte
  have toLast : pointers (twelveBlocks byte).location.inode (twelveBlocks byte).view
      (locate 256 (12 - 1)) = [13] := by
    rw [show 12 - 1 = 11 from rfl, locate_eleven]
    rfl
  have toNext : way (twelveBlocks byte).location.inode (twelveBlocks byte).view (locate 256 12) =
      [0, 0] := by
    rw [locate_twelve]
    rfl
  have marked : (twelveBlocks byte).volume.marked 13 = true := by
    have perGroup : (twelveBlocks byte).volume.blocksPerGroup = 8192 := rfl
    rw [Ext2Volume.marked, perGroup]
    exact show Bitmap.bitAt ([0xFF, 0x1F, 0x80] ++ List.replicate 1021 0xFF) 12 = true by decide
  refine ⟨by rw [seen]; exact views, twelve_blocks_padded byte,
    ⟨fun _ _ impossible => impossible.elim, fun _ _ impossible => impossible.elim,
      fun _ _ _ impossible => impossible.elim⟩, fun _ _ impossible => impossible.elim,
    show 4 ≤ 1024 ∧ 1024 < 2 ^ 32 by decide, by rw [size]; decide, rfl, by decide, ?_, ?_⟩
  · intro _
    have quarter : (twelveBlocks byte).volume.blockSize / 4 = 256 := size
    refine ⟨⟨by rw [quarter]; decide, ?_, ?_⟩, ?_⟩
    · intro level addr impossible
      rw [quarter, show 12 - 1 = 11 from rfl, locate_eleven] at impossible
      exact absurd impossible (by simp [tablePath])
    · intro addr member
      rw [quarter, toLast, List.mem_singleton] at member
      rw [member]
      exact show 13 < 24 by decide
    · intro pointer member
      rw [size, toLast, List.mem_singleton] at member
      rw [member]
      exact ⟨by decide, marked⟩
  · intro pointer member nonzero
    rw [size, toNext] at member
    exact absurd (by simpa using member) nonzero

theorem twelve_blocks_end (byte : UInt8) : (twelveBlocks byte).EndsLast 12 := by
  have size := twelve_blocks_table_size byte
  intro level small pointer found nonzero
  rw [size, locate_twelve] at small found
  obtain rfl : level = 0 := Nat.lt_one_iff.mp small
  exact absurd (Option.some.inj found).symm nonzero

theorem twelve_blocks_once (byte : UInt8) : (twelveBlocks byte).LinkedOnce 12 := by
  intro _ level small pointer nonzero found
  exact absurd (twelve_blocks_end byte level small pointer found nonzero).2 (by
    rw [twelve_blocks_table_size, show 12 - 1 = 11 from rfl, locate_eleven]
    simp [tablePath])

def tableBehindEnd : Cursor where
  volume := { (twelveBlocks 0).volume with
    bitmaps := fun group =>
      if group = 0 then [0xFF, 0x3F, 0x80] ++ List.replicate 1021 0xFF else [] }
  location := { (twelveBlocks 0).location with
    inode := { (twelveBlocks 0).location.inode with singleIndirectBlockPointer := 14 } }

/-- The new block is entered in a copy of no table, and no pointer of the file leads to it. -/
theorem table_behind_end_loses :
    tableBehindEnd.Vacant 12 ∧ ∃ count after, allocateNewBlock tableBehindEnd = .ok count after ∧
      ¬AppendsFresh (fun _ => False) tableBehindEnd after (locate tableBehindEnd.tableSize 12) := by
  have size : tableBehindEnd.tableSize = 256 := rfl
  have toNext : way tableBehindEnd.location.inode tableBehindEnd.view (locate 256 12) =
      [14, 0] := by
    rw [locate_twelve]
    rfl
  constructor
  · have none_ : missing tableBehindEnd.location.inode tableBehindEnd.view (locate 256 12) - 1 =
        0 := by
      rw [missing, toNext]
      rfl
    refine ⟨?_, fun block impossible => ?_⟩
    · rw [size, toNext, locate_twelve]
      rfl
    · rw [size, none_] at impossible
      exact absurd impossible List.not_mem_nil
  · have outcome : (match allocateNewBlock tableBehindEnd with
        | .ok _ after => (way after.location.inode after.view (.single 0))[1]?
        | .error _ _ => none) = some 0 := by
      decide +kernel
    cases ran : allocateNewBlock tableBehindEnd with
    | error failure after =>
        rw [ran] at outcome
        exact absurd outcome (by simp)
    | ok count after =>
        rw [ran] at outcome
        refine ⟨count, after, rfl, fun appends => ?_⟩
        rw [size, locate_twelve] at appends
        exact (appends.fresh 1 0 (.inr rfl) outcome).1 rfl

end Cursor

end Campix.Ext2
