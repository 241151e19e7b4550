import Campix.Ext2.BitmapBlocks
import Campix.Ext2.Marks
import Campix.Ext2.Ways

/-!
# Filling the tables on the way

`allocate_new_block` walks down the tables of a location and puts a new block into each
entry that is zero. As long as the new tables have a zero where the next block goes, the
blocks are threaded; an entry that is not zero is taken as it is, and one block less is
marked.
-/

namespace Campix.Ext2

open Lib.Fallible Lib.Outcome

set_option autoImplicit false

namespace Ext2Volume

variable {volume middle after : Ext2Volume}

theorem marked_of_frame (same : after.frame = volume.frame) (block : Nat) :
    after.marked block = volume.marked block :=
  show after.frame.marked block = volume.frame.marked block by rw [same]

theorem padded_of_frame (same : after.frame = volume.frame) (padded : volume.Padded) :
    after.Padded := by
  have framed : volume.frame.Padded := ⟨padded.perGroup, padded.word, padded.padding⟩
  rw [← same] at framed
  exact ⟨framed.perGroup, framed.word, framed.padding⟩

structure Granted (count : Nat) (volume after : Ext2Volume) : Prop where
  padded : after.Padded
  blocks : ∃ blocks : List Nat, blocks.length ≤ count ∧
    ∀ block ≠ 0, after.marked block = true → volume.marked block = true ∨ block ∈ blocks

theorem granted_of_frame (padded : volume.Padded) (same : after.frame = volume.frame) :
    Granted 0 volume after :=
  ⟨padded_of_frame same padded, [], Nat.le_refl 0,
    fun block _ marked => .inl (by rwa [marked_of_frame same] at marked)⟩

theorem granted_trans {first second : Nat} (begins : Granted first volume middle)
    (ends : Granted second middle after) : Granted (first + second) volume after := by
  obtain ⟨blocks, length, marks⟩ := begins.blocks
  obtain ⟨later, laterLength, laterMarks⟩ := ends.blocks
  refine ⟨ends.padded, blocks ++ later, by rw [List.length_append]; omega, ?_⟩
  intro block nonzero marked
  rcases laterMarks block nonzero marked with before | member
  · rcases marks block nonzero before with start | member
    · exact .inl start
    · exact .inr (List.mem_append_left _ member)
  · exact .inr (List.mem_append_right _ member)

theorem granted_le {fewer count : Nat} (granted : Granted fewer volume after) (le : fewer ≤ count) :
    Granted count volume after := by
  obtain ⟨blocks, length, marks⟩ := granted.blocks
  exact ⟨granted.padded, blocks, by omega, marks⟩

theorem granted_of_handed_out {block : Nat} (out : HandedOut volume block after) :
    Granted 1 volume after := by
  refine ⟨out.padded, [block], Nat.le_refl 1, ?_⟩
  intro other nonzero marked
  rw [out.marks other nonzero, Bool.or_eq_true, decide_eq_true_eq] at marked
  exact marked.imp_right fun same => List.mem_singleton.mpr same

end Ext2Volume

open Ext2Volume

namespace Cursor

variable {cursor after : Cursor} {contents : Contents} {location : InodeReadingLocationInfo}

theorem on_volume_frame {Value : Type} {operation : OnVolume Value}
    {post : Value → Ext2Volume → Prop}
    (yields : Yields post (fun _ => True) (operation cursor.volume))
    (frames : ∀ value volume, post value volume → volume.frame = cursor.volume.frame) :
    Yields (fun _ after => after.frame = cursor.frame) (fun _ => True)
      (onVolume operation cursor) := by
  apply yields_weaken (yields_on_volume yields)
  · rintro value _ ⟨volume, rfl, holds⟩
    exact congrArg (fun same => Cursor.mk same cursor.frame.location) (frames value volume holds)
  · intro _ _
    trivial

theorem check_table_frame (level : Fin 3) (addr : Nat) :
    Yields (fun _ after => after.frame = cursor.frame) (fun _ => True)
      (checkTable level addr cursor) := by
  have saved : Yields (fun _ after => after.frame = cursor.frame) (fun _ => True)
      (saveIfAddressesDiffer level addr cursor) := by
    change Yields _ _ ((if _ then _ else _ : OnCursor Unit) cursor)
    split_ifs
    · refine yields_bind (on_volume_frame (write_block_holds _ _) fun _ _ holds => holds.1.frame)
        fun written middle same => ?_
      split_ifs
      · exact .error trivial
      · exact .ok same
    · exact .ok rfl
  unfold checkTable
  refine yields_bind saved fun _ middle same => ?_
  change Yields _ _ ((if addr = 0 then _ else _ : OnCursor Unit) middle)
  split_ifs
  · exact .ok same
  · have read := @read_block_holds middle.volume addr (middle.location.tables level).table
    unfold loadTable
    cases outcome : Ext2Volume.readBlock addr (middle.location.tables level).table
      middle.volume with
    | ok result volume =>
        rw [outcome] at read
        cases read with
        | ok holds =>
            have read := congrArg (fun same => Cursor.mk same middle.frame.location) holds.1.frame
            exact .ok (read.trans same)
    | error failure volume => exact .error trivial
  · exact .ok same

theorem follow_yields (level : Fin 3) (idx : Nat) :
    Yields (fun _ after => after = cursor) (fun _ => True) (follow level idx cursor) := by
  change Yields _ _ ((if idx * 4 < (cursor.location.tables level).table.length then _ else _ :
    OnCursor Nat) cursor)
  split_ifs
  · exact .ok rfl
  · exact .error trivial

theorem check_table1_frame :
    Yields (fun _ after => after.frame = cursor.frame) (fun _ => True)
      (checkTable1 cursor) :=
  check_table_frame 0 _

theorem check_followed_frame {addrOfTable : OnCursor Nat} (level : Fin 3)
    (reads : Yields (fun _ after => after = cursor) (fun _ => True) (addrOfTable cursor)) :
    Yields (fun _ after => after.frame = cursor.frame) (fun _ => True)
      ((addrOfTable >>= checkTable level) cursor) := by
  apply yields_bind reads
  intro found after same
  rw [same]
  exact check_table_frame level found

theorem addr_of_table2_yields :
    Yields (fun _ after => after = cursor) (fun _ => True) (addrOfTable2 cursor) := by
  rw [addrOfTable2, state_bind_get]
  cases cursor.location.location.location with
  | direct d => exact .ok rfl
  | single i => exact .ok rfl
  | double i j => exact follow_yields 0 i
  | triple i j k => exact follow_yields 0 i

theorem check_table2_frame :
    Yields (fun _ after => after.frame = cursor.frame) (fun _ => True) (checkTable2 cursor) :=
  check_followed_frame 1 addr_of_table2_yields

theorem addr_of_table3_yields :
    Yields (fun _ after => after = cursor) (fun _ => True) (addrOfTable3 cursor) := by
  rw [addrOfTable3, state_bind_get]
  cases cursor.location.location.location with
  | direct d => exact .ok rfl
  | single i => exact .ok rfl
  | double i j => exact follow_yields 1 j
  | triple i j k => exact follow_yields 1 j

theorem check_table3_frame :
    Yields (fun _ after => after.frame = cursor.frame) (fun _ => True) (checkTable3 cursor) :=
  check_followed_frame 2 addr_of_table3_yields

theorem seek_frame (block : Nat) :
    Yields (fun _ after => ∃ location, after.frame =
        { cursor with location := { cursor.location with location := location } }.frame)
      (fun _ => True) (seek block cursor) := by
  rw [seek, state_bind_get]
  cases InodeReadingLocation.new (cursor.volume.blockSize / 4) block with
  | none => exact .error trivial
  | some location =>
      refine yields_bind (.ok rfl : Yields (fun _ after => after =
          { cursor with location := { cursor.location with location := location } })
        (fun _ => True) (modifyLocation (fun cached => { cached with location := location })
          cursor)) ?_
      intro _ moved there
      refine yields_bind check_table1_frame fun _ first firstFrame => ?_
      refine yields_bind check_table2_frame fun _ second secondFrame => ?_
      refine yields_weaken check_table3_frame (fun _ third thirdFrame => ?_) fun _ _ => trivial
      refine ⟨location, ?_⟩
      rw [← there]
      exact thirdFrame.trans (secondFrame.trans firstFrame)

def loadLevel : Nat → OnCursor Unit
  | 1 => checkTable2
  | 2 => checkTable3
  | _ => pure ()

def fill : Nat → List Nat → Allocation → OnCursor Allocation
  | _, [], allocation => pure allocation
  | level, [turn], allocation => fillEntry (Fin.ofNat 3 level) turn (pure ()) allocation
  | level, turn :: next :: turns, allocation => do
      let allocation ← fillEntry (Fin.ofNat 3 level) turn (loadLevel (level + 1)) allocation
      fill (level + 1) (next :: turns) allocation

def linkHead : InodeReadingLocationInfo → Allocation → OnCursor Allocation
  | .direct _ => pure
  | .single _ => linkTable1 Inode.singleIndirectBlockPointer setSingle
  | .double _ _ => linkTable1 Inode.doubleIndirectBlockPointer setDouble
  | .triple _ _ _ => linkTable1 Inode.tripleIndirectBlockPointer setTriple

theorem append_block_eq {allocation : Allocation}
    (place : cursor.location.location.location = location)
    (indirect : turns location ≠ []) :
    appendBlock allocation cursor = (linkHead location allocation >>= fill 0 (turns location))
      cursor := by
  rw [appendBlock, state_bind_get, place]
  cases location with
  | direct d => exact absurd rfl indirect
  | single i => rfl
  | double i j => rfl
  | triple i j k => rfl

theorem fill_entry_skips {level : Fin 3} {turn : Nat} {load : OnCursor Unit}
    {allocation : Allocation}
    (taken : entry (cursor.location.tables level).table turn ≠ 0) :
    fillEntry level turn load allocation cursor = .ok allocation cursor := by
  change (if entry (cursor.location.tables level).table turn = 0 then _ else _ :
    OnCursor Allocation) cursor = _
  rw [if_neg taken]
  rfl

def withEntry (cursor : Cursor) (level : Fin 3) (turn block : Nat) (volume : Ext2Volume) : Cursor :=
  { cursor with volume := volume }.withTable level
    { table := setEntry (cursor.location.tables level).table turn block
      addr := (cursor.location.tables level).addr
      dirty := true }

theorem fill_entry_links {level : Fin 3} {turn : Nat} {load : OnCursor Unit}
    {allocation : Allocation}
    {post : Allocation → Cursor → Prop} (free : entry (cursor.location.tables level).table turn = 0)
    (loads : ∀ block next volume, cursor.volume.handOut allocation.group = some
      (block, next.group, volume) →
      Yields (fun _ after => post next after) (fun _ => True)
        (load (cursor.withEntry level turn block volume))) :
    Yields post (fun _ => True) (fillEntry level turn load allocation cursor) := by
  change Yields _ _ ((if entry (cursor.location.tables level).table turn = 0 then _ else _ :
    OnCursor Allocation) cursor)
  rw [if_pos free]
  refine yields_bind balloc_spec ?_
  rintro ⟨block, next⟩ _ ⟨volume, rfl, out, -⟩
  change Yields _ _ ((load >>= fun _ => pure next : OnCursor Allocation)
    (cursor.withEntry level turn block volume))
  exact yields_bind (loads block next volume out) fun _ after holds => .ok holds

theorem load_level_frame (level : Nat) :
    Yields (fun _ after => after.frame = cursor.frame) (fun _ => True)
      (loadLevel level cursor) := by
  match level with
  | 0 => exact .ok rfl
  | 1 => exact check_table2_frame
  | 2 => exact check_table3_frame
  | _ + 3 => exact .ok rfl

theorem fill_entry_granted {level : Fin 3} {turn : Nat} {load : OnCursor Unit}
    {allocation : Allocation}
    (padded : cursor.volume.Padded)
    (frames : ∀ middle : Cursor, Yields (fun _ after => after.frame = middle.frame)
      (fun _ => True) (load middle)) :
    Yields (fun _ after => Granted 1 cursor.volume after.volume) (fun _ => True)
      (fillEntry level turn load allocation cursor) := by
  by_cases free : entry (cursor.location.tables level).table turn = 0
  · refine fill_entry_links free fun block next volume out => ?_
    refine yields_weaken (frames _) (fun _ after same => ?_) (fun _ _ => trivial)
    have granted := granted_of_handed_out (hand_out_spec padded out)
    exact granted_trans granted (granted_of_frame granted.padded (congrArg Cursor.volume same))
  · rw [fill_entry_skips free]
    exact .ok (granted_le (granted_of_frame padded rfl) (by decide))

theorem fill_granted (turns : List Nat) :
    ∀ (level : Nat) (cursor : Cursor) (allocation : Allocation),
    cursor.volume.Padded →
    Yields (fun _ after => Granted turns.length cursor.volume after.volume) (fun _ => True)
      (fill level turns allocation cursor) := by
  induction turns with
  | nil =>
      intro level cursor allocation padded
      exact .ok (granted_of_frame padded rfl)
  | cons turn turns ih =>
      intro level cursor allocation padded
      cases turns with
      | nil => exact fill_entry_granted padded fun middle => .ok rfl
      | cons next turns =>
          refine yields_bind (fill_entry_granted padded fun middle => load_level_frame _)
            fun allocation middle granted => ?_
          refine yields_weaken (ih (level + 1) middle allocation granted.padded)
            (fun _ after later => ?_) (fun _ _ => trivial)
          exact granted_le (granted_trans granted later) (by simp only [List.length_cons]; omega)

theorem fill_skipped {level turn : Nat} {later : List Nat} {allocation : Allocation}
    (padded : cursor.volume.Padded)
    (taken : entry (cursor.location.tables (Fin.ofNat 3 level)).table turn ≠ 0) :
    Yields (fun _ after => Granted later.length cursor.volume after.volume) (fun _ => True)
      (fill level (turn :: later) allocation cursor) := by
  cases later with
  | nil =>
      change Yields _ _ (fillEntry _ _ _ _ _)
      rw [fill_entry_skips taken]
      exact .ok (granted_of_frame padded rfl)
  | cons next later =>
      unfold fill
      rw [state_bind_ok (fill_entry_skips taken)]
      exact fill_granted (next :: later) (level + 1) cursor allocation padded

structure TableSet (volume : Ext2Volume) (Tables : Fin 3 → Nat → Prop) : Prop where
  nonzero : ∀ level addr, Tables level addr → addr ≠ 0
  marked : ∀ level addr, Tables level addr → volume.marked addr = true
  unique : ∀ level other addr, Tables level addr → Tables other addr → level = other

def addTable (Tables : Fin 3 → Nat → Prop) (level : Fin 3) (pointer : Nat) : Fin 3 → Nat → Prop :=
  fun other addr => Tables other addr ∨ other = level ∧ addr = pointer

def addTables (Tables : Fin 3 → Nat → Prop) : Nat → List Nat → List Nat → Fin 3 → Nat → Prop
  | level, _ :: next :: turns, block :: blocks =>
      addTables (addTable Tables (Fin.ofNat 3 (level + 1)) block) (level + 1) (next :: turns) blocks
  | _, _, _ => Tables

/-- Copies of the tables of the file are up to date, and all copies are of blocks in use. -/
structure Sane (cursor : Cursor) (contents : Contents) (Tables : Fin 3 → Nat → Prop) : Prop where
  views : cursor.Views contents
  padded : cursor.volume.Padded
  set : TableSet cursor.volume Tables
  ready : cursor.Ready contents Tables
  known : ∀ other, (cursor.location.tables other).addr = 0 ∨
    cursor.volume.marked (cursor.location.tables other).addr = true

structure Standing (cursor : Cursor) (contents : Contents) (Tables : Fin 3 → Nat → Prop)
    (level : Fin 3) (pointer : Nat) : Prop extends cursor.Sane contents Tables where
  table : Tables level pointer
  loaded : (cursor.location.tables level).addr = pointer

variable {Tables : Fin 3 → Nat → Prop} {level : Fin 3} {pointer block turn : Nat}
  {volume : Ext2Volume}

theorem standing_copy (standing : cursor.Standing contents Tables level pointer) :
    (cursor.location.tables level).table = contents pointer :=
  (standing.ready level pointer standing.table).1 standing.loaded

theorem sane_absent (sane : cursor.Sane contents Tables)
    (nonzero : block ≠ 0) (free : cursor.volume.marked block = false) (other : Fin 3) :
    (cursor.location.tables other).addr ≠ block := by
  rintro rfl
  rcases sane.known other with zero | marked
  · exact nonzero zero
  · exact absurd (marked.symm.trans free) (by decide)

theorem table_set_marked (set : TableSet cursor.volume Tables)
    (out : HandedOut cursor.volume block volume) : TableSet volume Tables := by
  refine ⟨set.nonzero, fun place addr isTable => ?_, set.unique⟩
  rw [out.marks addr (set.nonzero place addr isTable), set.marked place addr isTable, Bool.true_or]

section WithEntry

variable (standing : cursor.Standing contents Tables level pointer)
  (out : HandedOut cursor.volume block volume) (inside : turn < cursor.volume.blockSize / 4)

include standing

theorem with_entry_here : (cursor.withEntry level turn block volume).location.tables level =
    ⟨setEntry (contents pointer) turn block, pointer, true⟩ := by
  rw [withEntry, with_table_self, standing_copy standing, standing.loaded]

theorem with_entry_addr (other : Fin 3) :
    ((cursor.withEntry level turn block volume).location.tables other).addr =
      (cursor.location.tables other).addr := by
  by_cases same : other = level
  · rw [same, with_entry_here standing, standing.loaded]
  · rw [withEntry, with_table_other same]

include out inside

theorem with_entry_views : (cursor.withEntry level turn block volume).Views
    (Function.update contents pointer (setEntry (contents pointer) turn block)) := by
  have views := standing.views
  have nonzero := standing.set.nonzero level pointer standing.table
  have apart := (standing.ready level pointer standing.table).2
  have here : (cursor.withEntry level turn block volume).location.tables level = _ :=
    with_entry_here standing
  have others : ∀ other, other ≠ level →
      (cursor.withEntry level turn block volume).location.tables other =
      cursor.location.tables other := fun other different => with_table_other different _ _
  have device : volume.device = cursor.volume.device := by rw [out.rest]
  have stores : volume.Stores volume.device := by
    rw [out.rest]
    exact ⟨rfl, views.stores.cached, views.stores.sized, views.stores.positive⟩
  refine ⟨stores, ?_, ?_, ?_⟩
  · intro other
    change _ = volume.blockSize
    rw [show volume.blockSize = cursor.volume.blockSize by rw [out.rest]]
    by_cases same : other = level
    · rw [same, here, ← standing_copy standing, length_set_entry (by rw [views.sized]; omega)]
      exact views.sized level
    · rw [others other same]
      exact views.sized other
  · intro other dirty
    by_cases same : other = level
    · rw [same, here, Function.update_self]
      exact ⟨nonzero, rfl⟩
    · rw [others other same] at dirty ⊢
      obtain ⟨used, table⟩ := views.changed other dirty
      rw [Function.update_of_ne (apart other same dirty)]
      exact ⟨used, table⟩
  · intro lba clean
    have elsewhere : lba ≠ pointer := by
      have touched := clean level (by rw [here])
      rw [here] at touched
      exact Ne.symm touched
    rw [Function.update_of_ne elsewhere]
    change volume.device lba = _
    rw [device]
    apply views.unchanged
    intro other dirty
    by_cases same : other = level
    · rw [same, standing.loaded]
      exact Ne.symm elsewhere
    · have unchanged := clean other (by rw [others other same]; exact dirty)
      rwa [others other same] at unchanged

theorem with_entry_standing : (cursor.withEntry level turn block volume).Standing
    (Function.update contents pointer (setEntry (contents pointer) turn block)) Tables level
    pointer := by
  have here : (cursor.withEntry level turn block volume).location.tables level = _ :=
    with_entry_here standing
  have others : ∀ other, other ≠ level →
      (cursor.withEntry level turn block volume).location.tables other =
      cursor.location.tables other := fun other different => with_table_other different _ _
  refine ⟨⟨with_entry_views standing out inside, out.padded, table_set_marked standing.set out,
    ?_, ?_⟩,
    standing.table, by rw [here]⟩
  · intro place addr isTable
    obtain ⟨current, alone⟩ := standing.ready place addr isTable
    constructor
    · intro present
      by_cases same : place = level
      · subst same
        rw [here] at present ⊢
        obtain rfl : pointer = addr := present
        rw [Function.update_self]
      · rw [others place same] at present ⊢
        have elsewhere : addr ≠ pointer := by
          rintro rfl
          exact same (standing.set.unique place level addr isTable standing.table)
        rw [Function.update_of_ne elsewhere]
        exact current present
    · intro other different dirty
      by_cases same : other = level
      · subst same
        rw [here]
        rintro rfl
        exact different (standing.set.unique other place pointer standing.table isTable)
      · rw [others other same] at dirty ⊢
        exact alone other different dirty
  · intro other
    rw [with_entry_addr standing]
    by_cases zero : (cursor.location.tables other).addr = 0
    · exact .inl zero
    · right
      have marked := (standing.known other).resolve_left zero
      change volume.marked _ = true
      rw [out.marks _ zero, marked, Bool.true_or]

end WithEntry

theorem load_standing {next : Fin 3} (sane : cursor.Sane contents Tables)
    (nonzero : block ≠ 0) (inUse : cursor.volume.marked block = true)
    (absent : ∀ other, (cursor.location.tables other).addr ≠ block)
    (new : ∀ place, ¬Tables place block) :
    Yields (fun _ after => after.Standing contents (addTable Tables next block) next block ∧
        after.frame = cursor.frame)
      (fun _ => True) (checkTable next block cursor) := by
  refine yields_weaken (check_table_spec sane.views next block) (fun _ after checked => ?_)
    (fun _ _ => trivial)
  have frame := volume_of_frame checked.frame
  have clean : (after.location.tables next).dirty = false := by
    rw [Bool.eq_false_iff]
    intro dirty
    exact absent next (checked.dirty dirty).2
  have copy : (after.location.tables next).table = contents block := by
    have table := checked.table nonzero
    rw [if_neg (absent next)] at table
    rw [table]
    exact sane.views.unchanged block fun other _ => absent other
  have stillReady := checked_ready sane.views sane.ready sane.set.nonzero checked
  refine ⟨⟨⟨checked.views, padded_of_frame frame sane.padded, ⟨?_, ?_, ?_⟩, ?_, ?_⟩,
    .inr ⟨rfl, rfl⟩, checked.loaded⟩, checked.frame⟩
  · rintro place addr (old | ⟨-, rfl⟩)
    · exact sane.set.nonzero place addr old
    · exact nonzero
  · intro place addr isTable
    rw [marked_of_frame frame]
    rcases isTable with old | ⟨-, rfl⟩
    · exact sane.set.marked place addr old
    · exact inUse
  · rintro place other addr (old | ⟨rfl, rfl⟩) (otherOld | ⟨same, found⟩)
    · exact sane.set.unique place other addr old otherOld
    · exact absurd (found ▸ old) (new place)
    · exact absurd otherOld (new other)
    · exact same.symm
  · rintro place addr (old | ⟨rfl, rfl⟩)
    · exact stillReady place addr old
    · refine ⟨fun _ => copy, fun other different dirty => ?_⟩
      rw [checked.others other different]
      exact absent other
  · intro other
    rw [marked_of_frame frame]
    by_cases same : other = next
    · right
      rw [same, checked.loaded]
      exact inUse
    · rw [checked.others other same]
      exact sane.known other

/-- All of the cursor but blocks, bitmaps and copies of tables. -/
def steady (cursor : Cursor) : Cursor :=
  { cursor.frame with volume := { cursor.frame.volume with bitmaps := fun _ => [] } }

theorem steady_of_frame (same : after.frame = cursor.frame) : after.steady = cursor.steady := by
  unfold steady
  rw [same]

theorem block_size_of_steady (same : after.steady = cursor.steady) :
    after.volume.blockSize = cursor.volume.blockSize :=
  show after.steady.volume.blockSize = cursor.steady.volume.blockSize by rw [same]

theorem block_count_of_steady (same : after.steady = cursor.steady) :
    after.volume.blockCount = cursor.volume.blockCount :=
  show after.steady.volume.blockCount = cursor.steady.volume.blockCount by rw [same]

theorem location_of_steady (same : after.steady = cursor.steady) :
    after.location.location = cursor.location.location :=
  show after.steady.location.location = cursor.steady.location.location by rw [same]

theorem inode_of_steady (same : after.steady = cursor.steady) :
    after.location.inode = cursor.location.inode :=
  show after.steady.location.inode = cursor.steady.location.inode by rw [same]

theorem with_entry_steady (out : HandedOut cursor.volume block volume) :
    (cursor.withEntry level turn block volume).steady = cursor.steady := by
  unfold steady withEntry withTable frame
  rw [out.rest]
  rfl

structure Threaded (cursor : Cursor) (contents : Contents) (Tables : Fin 3 → Nat → Prop)
    (level : Nat)
    (pointer : Nat) (turns blocks : List Nat) (after : Cursor) : Prop where
  length : blocks.length = turns.length
  nodup : blocks.Nodup
  fresh : ∀ block ∈ blocks, block ≠ 0 ∧ block < cursor.volume.blockCount ∧
    cursor.volume.marked block = false
  marks : ∀ other, other ≠ 0 → after.volume.marked other =
    (cursor.volume.marked other || decide (other ∈ blocks))
  sane : after.Sane (thread contents pointer turns blocks) (addTables Tables level turns blocks)
  vacant : ∀ (place table turn : Nat), blocks[place]? = some table → turns[place + 1]? = some turn →
    entry (contents table) turn = 0
  same : after.steady = cursor.steady

/-- One block less was marked, because a block that became a table was not empty. -/
structure Skipped (cursor : Cursor) (contents : Contents) (count : Nat) (group : Nat)
    (after : Cursor) :
    Prop where
  granted : Granted count cursor.volume after.volume
  stale : ∃ block ∈ handOuts count cursor.volume group,
    ∃ idx < cursor.volume.blockSize / 4, entry (contents block) idx ≠ 0

theorem load_level_eq {before : List Nat} {next : Nat} {later : List Nat}
    (place : cursor.location.location.location = location)
    (split : turns location = before ++ turn :: next :: later)
    (inside : turn * 4 < (cursor.location.tables (Fin.ofNat 3 before.length)).table.length) :
    loadLevel (before.length + 1) cursor = checkTable (Fin.ofNat 3 (before.length + 1))
      (entry (cursor.location.tables (Fin.ofNat 3 before.length)).table turn) cursor := by
  cases location with
  | direct d => exact absurd split (by simp [turns])
  | single i =>
      have lengths := congrArg List.length split
      simp only [turns, List.length_append, List.length_cons, List.length_nil] at lengths
      omega
  | double i j =>
      obtain rfl : before = [] := by
        have lengths := congrArg List.length split
        simp only [turns, List.length_append, List.length_cons, List.length_nil] at lengths
        exact List.length_eq_zero_iff.mp (by omega)
      simp only [turns, List.nil_append, List.cons.injEq] at split
      obtain ⟨rfl, rfl, -⟩ := split
      exact check_table2_follow (.inl place) (follow_eq inside)
  | triple i j k =>
      cases before with
      | nil =>
          simp only [turns, List.nil_append, List.cons.injEq] at split
          obtain ⟨rfl, rfl, -⟩ := split
          exact check_table2_follow (.inr ⟨k, place⟩) (follow_eq inside)
      | cons first before =>
          obtain rfl : before = [] := by
            have lengths := congrArg List.length split
            simp only [turns, List.length_append, List.length_cons, List.length_nil] at lengths
            exact List.length_eq_zero_iff.mp (by omega)
          simp only [turns, List.cons_append, List.nil_append, List.cons.injEq] at split
          obtain ⟨rfl, rfl, -⟩ := split
          exact check_table3_follow (.inr ⟨k, place⟩) (follow_eq inside)

theorem hand_outs_cons {count group next : Nat} {from_ : Ext2Volume}
    (out : from_.handOut group = some (block, next, volume)) :
    handOuts (count + 1) from_ group = block :: handOuts count volume next := by
  rw [handOuts, out]

theorem threaded_one {place : Nat} {contents' : Contents}
    (written : contents' = Function.update
      contents pointer (setEntry (contents pointer) turn block))
    (out : HandedOut cursor.volume block volume)
    (standing : (cursor.withEntry level turn block volume).Standing contents' Tables level
      pointer) :
    Threaded cursor contents Tables place pointer [turn] [block]
      (cursor.withEntry level turn block volume) := by
  subst written
  refine ⟨rfl, List.nodup_singleton _, ?_, ?_, standing.toSane, ?_, with_entry_steady out⟩
  · intro other member
    rw [List.mem_singleton] at member
    subst member
    exact ⟨out.nonzero, out.inside, out.free⟩
  · intro other nonzero
    simp only [List.mem_singleton]
    exact out.marks other nonzero
  · intro place table turn _ impossible
    exact absurd impossible (by simp)

structure Linked (cursor : Cursor) (contents : Contents) (Tables : Fin 3 → Nat → Prop)
    (level : Fin 3)
    (pointer turn block : Nat) (volume : Ext2Volume) (next : Fin 3) (middle : Cursor) : Prop where
  out : HandedOut cursor.volume block volume
  apart : block ≠ pointer
  standing : middle.Standing (Function.update
    contents pointer (setEntry (contents pointer) turn block))
    (addTable Tables next block) next block
  frame : middle.frame = (cursor.withEntry level turn block volume).frame

variable {next : Fin 3} {middle : Cursor}

theorem linked_marks (linked : cursor.Linked contents Tables level pointer turn block volume next
    middle)
    {other : Nat} (nonzero : other ≠ 0) :
    middle.volume.marked other = (cursor.volume.marked other || decide (other = block)) := by
  rw [marked_of_frame (volume_of_frame linked.frame)]
  exact linked.out.marks other nonzero

theorem linked_steady (linked : cursor.Linked contents Tables level pointer turn block volume next
    middle) :
    middle.steady = cursor.steady :=
  (steady_of_frame linked.frame).trans (with_entry_steady linked.out)

theorem linked_granted (linked : cursor.Linked contents Tables level pointer turn block volume next
    middle) :
    Granted 1 cursor.volume middle.volume :=
  granted_trans (granted_of_handed_out linked.out)
    (granted_of_frame linked.out.padded (volume_of_frame linked.frame))

theorem linked_threaded {place follow : Nat} {later blocks : List Nat}
    (linked : cursor.Linked contents Tables level pointer turn block volume
      (Fin.ofNat 3 (place + 1)) middle)
    (threaded : middle.Threaded (Function.update
      contents pointer (setEntry (contents pointer) turn block))
      (addTable Tables (Fin.ofNat 3 (place + 1)) block) (place + 1) block
        (follow :: later) blocks after)
    (inUse : cursor.volume.marked pointer = true) (vacant : entry (contents block) follow = 0) :
    cursor.Threaded contents Tables place pointer (turn :: follow :: later) (block :: blocks)
      after := by
  have blockCount : middle.volume.blockCount = cursor.volume.blockCount :=
    block_count_of_steady (linked_steady linked)
  refine ⟨by rw [List.length_cons, threaded.length]; rfl, ?_, ?_, ?_, threaded.sane, ?_,
    threaded.same.trans (linked_steady linked)⟩
  · refine List.nodup_cons.mpr ⟨fun member => ?_, threaded.nodup⟩
    obtain ⟨nonzero, -, free⟩ := threaded.fresh block member
    rw [linked_marks linked nonzero, decide_eq_true rfl, Bool.or_true] at free
    exact absurd free (by decide)
  · intro other member
    rcases List.mem_cons.mp member with rfl | later
    · exact ⟨linked.out.nonzero, linked.out.inside, linked.out.free⟩
    · obtain ⟨nonzero, inside, free⟩ := threaded.fresh other later
      rw [linked_marks linked nonzero, Bool.or_eq_false_iff] at free
      exact ⟨nonzero, blockCount ▸ inside, free.1⟩
  · intro other nonzero
    rw [threaded.marks other nonzero, linked_marks linked nonzero, Bool.or_assoc]
    simp only [List.mem_cons, Bool.decide_or]
  · intro place table turn found here
    cases place with
    | zero =>
        obtain rfl : block = table := by simpa using found
        obtain rfl : follow = turn := by simpa using here
        exact vacant
    | succ place =>
        rw [List.getElem?_cons_succ] at found here
        have empty := threaded.vacant place table turn found here
        have elsewhere : table ≠ pointer := by
          rintro rfl
          obtain ⟨nonzero, -, free⟩ := threaded.fresh table (List.mem_of_getElem? found)
          rw [linked_marks linked nonzero, inUse, Bool.true_or] at free
          exact absurd free (by decide)
        rwa [Function.update_of_ne elsewhere] at empty

theorem standing_vacant {level : Fin 3} {pointer turn : Nat}
    (standing : cursor.Standing contents Tables level pointer)
    (free : entry (contents pointer) turn = 0) :
    entry (cursor.location.tables level).table turn = 0 := by
  rw [standing_copy standing]
  exact free

/-- The first free entry on the way gets a new block, which is loaded as the next table. -/
theorem fill_entry_linked {before later : List Nat} {turn follow level pointer : Nat}
    {allocation : Allocation} (place : cursor.location.location.location = location)
    (split : turns location = before ++ turn :: follow :: later) (length : before.length = level)
    (inside : turn < cursor.volume.blockSize / 4)
    (standing : cursor.Standing contents Tables (Fin.ofNat 3 level) pointer)
    (free : entry (contents pointer) turn = 0) :
    Yields (fun next middle => ∃ block volume,
        cursor.volume.handOut allocation.group = some (block, next.group, volume) ∧
        cursor.Linked contents Tables (Fin.ofNat 3 level) pointer turn block volume
          (Fin.ofNat 3 (level + 1)) middle)
      (fun _ => True)
      (fillEntry (Fin.ofNat 3 level) turn (loadLevel (level + 1)) allocation cursor) := by
  refine fill_entry_links (standing_vacant standing free) fun block next volume out => ?_
  have spec := hand_out_spec standing.padded out
  have written := with_entry_standing standing spec inside
  have apart : block ≠ pointer := by
    intro same
    have inUse := standing.set.marked _ _ standing.table
    rw [← same, spec.free] at inUse
    exact absurd inUse (by decide)
  have absent : ∀ other, ((cursor.withEntry (Fin.ofNat 3 level) turn block volume).location.tables
      other).addr ≠ block := by
    intro other
    rw [with_entry_addr standing]
    exact sane_absent standing.toSane spec.nonzero spec.free other
  have new : ∀ place, ¬Tables place block := fun place isTable =>
    absurd ((standing.set.marked place block isTable).symm.trans spec.free) (by decide)
  have inUse : volume.marked block = true := by
    rw [spec.marks block spec.nonzero, decide_eq_true rfl, Bool.or_true]
  have pointsTo : entry ((cursor.withEntry (Fin.ofNat 3 level) turn block volume).location.tables
      (Fin.ofNat 3 level)).table turn = block := by
    have word := standing.padded.word
    have bound := spec.inside
    rw [withEntry, with_table_self]
    exact entry_set_entry (by rw [standing.views.sized]; omega) (by omega)
  have shape := @load_level_eq (cursor.withEntry (Fin.ofNat 3 level) turn block volume)
    location turn before follow later place split (by
      have sized := written.views.sized (Fin.ofNat 3 level)
      have blockSize : volume.blockSize = cursor.volume.blockSize := by rw [spec.rest]
      rw [length, sized]
      change _ < volume.blockSize
      omega)
  rw [length, pointsTo] at shape
  rw [shape]
  apply yields_weaken (load_standing written.toSane spec.nonzero inUse absent new)
  · intro _ middle loaded
    exact ⟨block, volume, out, spec, apart, loaded.1, loaded.2⟩
  · intro _ _
    trivial

theorem linked_hand_outs {place next : Fin 3} {turn pointer block group following : Nat}
    {volume : Ext2Volume} {middle : Cursor}
    (linked : cursor.Linked contents Tables place pointer turn block volume next middle)
    (out : cursor.volume.handOut group = some (block, following, volume)) (count : Nat) :
    handOuts (count + 1) cursor.volume group = block :: handOuts count middle.volume following := by
  rw [hand_outs_cons out, hand_outs_of_frame (volume_of_frame linked.frame)]
  rfl

/-- A stale entry further down is one of this way, too. -/
theorem linked_skipped {place next : Fin 3} {turn pointer block group following count : Nat}
    {volume : Ext2Volume} {middle after : Cursor}
    (linked : cursor.Linked contents Tables place pointer turn block volume next middle)
    (out : cursor.volume.handOut group = some (block, following, volume))
    (table : Tables place pointer)
    (skipped : middle.Skipped (Function.update contents pointer
      (setEntry (contents pointer) turn block)) count following after) :
    cursor.Skipped contents (count + 1) group after := by
  obtain ⟨granted, stale, member, idx, bound, dirty⟩ := skipped
  have elsewhere : stale ≠ pointer := by
    intro same
    have inUse := linked.standing.set.marked _ _ (.inl table)
    have unused := (hand_outs_free _ linked.standing.padded _ member).2
    rw [same, inUse] at unused
    exact absurd unused (by decide)
  rw [Function.update_of_ne elsewhere] at dirty
  have room : idx < cursor.volume.blockSize / 4 := by
    rwa [block_size_of_steady (linked_steady linked)] at bound
  refine ⟨granted_le (granted_trans (linked_granted linked) granted) (by omega), stale, ?_, idx,
    room, dirty⟩
  rw [linked_hand_outs linked out]
  exact List.mem_cons_of_mem _ member

/-- From a table with a free entry on, all blocks are new and threaded, or one of the
new tables was not empty. -/
theorem fill_thread (later : List Nat) : ∀ (before : List Nat) (turn level : Nat) (cursor : Cursor)
    (contents : Contents) (Tables : Fin 3 → Nat → Prop) (pointer : Nat) (allocation : Allocation),
    cursor.location.location.location = location → turns location = before ++ turn :: later →
    before.length = level → (∀ each ∈ turn :: later, each < cursor.volume.blockSize / 4) →
    cursor.Standing contents Tables (Fin.ofNat 3 level) pointer →
    entry (contents pointer) turn = 0 →
    Yields (fun _ after =>
        cursor.Threaded contents Tables level pointer (turn :: later)
          (handOuts (later.length + 1) cursor.volume allocation.group) after ∨
        cursor.Skipped contents later.length allocation.group after)
      (fun _ => True) (fill level (turn :: later) allocation cursor) := by
  induction later with
  | nil =>
      intro before turn level cursor contents Tables pointer allocation _ _ _ small standing free
      have inside := small turn List.mem_cons_self
      refine fill_entry_links (standing_vacant standing free) fun block next volume out =>
        .ok (.inl ?_)
      have spec := hand_out_spec standing.padded out
      have one : handOuts 1 cursor.volume allocation.group = [block] := hand_outs_cons out
      change Threaded _ _ _ _ _ _ (handOuts 1 _ _) _
      rw [one]
      exact threaded_one rfl spec (with_entry_standing standing spec inside)
  | cons follow later ih =>
      intro before turn level cursor contents Tables pointer allocation place split length small
        standing free
      have inside := small turn List.mem_cons_self
      apply yields_bind (fill_entry_linked place split length inside standing free)
      rintro next middle ⟨block, volume, out, linked⟩
      have inUse := standing.set.marked _ _ standing.table
      have smallLater : ∀ each ∈ follow :: later, each < middle.volume.blockSize / 4 := by
        intro each member
        rw [block_size_of_steady (linked_steady linked)]
        exact small each (List.mem_cons_of_mem _ member)
      have placed : middle.location.location.location = location := by
        rw [location_of_steady (linked_steady linked), place]
      by_cases vacant : entry (Function.update contents pointer
          (setEntry (contents pointer) turn block) block) follow = 0
      · apply yields_weaken (ih (before ++ [turn]) follow (level + 1) middle _ _ block next placed
          (by rw [split, List.append_assoc]; rfl) (by rw [List.length_append, length]; rfl)
          smallLater linked.standing vacant)
        · intro _ after outcome
          cases outcome with
          | inl threaded =>
              left
              rw [List.length_cons, linked_hand_outs linked out]
              rw [Function.update_of_ne linked.apart] at vacant
              exact linked_threaded linked threaded inUse vacant
          | inr skipped =>
              right
              exact linked_skipped linked out standing.table skipped
        · intro _ _
          trivial
      -- the new table has a stale entry where the way goes on
      · have stale : entry (middle.location.tables (Fin.ofNat 3 (level + 1))).table follow ≠ 0 := by
          rw [standing_copy linked.standing]
          exact vacant
        apply yields_weaken (fill_skipped linked.standing.padded stale)
        · intro _ after granted
          right
          rw [Function.update_of_ne linked.apart] at vacant
          refine ⟨granted_le (granted_trans (linked_granted linked) granted)
            (by rw [List.length_cons]; omega), block, ?_, follow, ?_, vacant⟩
          · rw [List.length_cons, linked_hand_outs linked out]
            exact List.mem_cons_self
          · exact small follow (List.mem_cons_of_mem _ List.mem_cons_self)
        · intro _ _
          trivial

end Cursor

end Campix.Ext2
