import Campix.Ext2.ClippedWrites
import Campix.Ext2.FileTree
import Campix.Ext2.HandOuts

/-!
# The next block of a file

One call of `allocate_new_block` on a handle whose copies of tables may have changes that
are not written back. Seen through these copies, the tree of the file becomes that of a
file with one block more, if the blocks that become tables held zeros. Blocks that are not
of the file are left alone.
-/

namespace Campix.Ext2

open Lib.Outcome Lib.Word Ext2Volume

set_option autoImplicit false

def Ext2Volume.InUse (volume : Ext2Volume) (block : Nat) : Prop :=
  block < volume.blockCount ∧ volume.marked block = true

def Inode.unlinked (inode : Inode) : Inode :=
  { inode with
    directBlockPointers := fun _ => 0
    singleIndirectBlockPointer := 0
    doubleIndirectBlockPointer := 0
    tripleIndirectBlockPointer := 0 }

theorem tree_count_le {inode : Inode} {contents : Contents} {tableSize n count : Nat}
    {Used : Nat → Prop}
    (tree : FileTree inode.pointer contents tableSize Used n)
    (onDevice : ∀ block, Used block → block < count) :
    n ≤ count := by
  have inside : ∀ k ∈ Finset.range n,
      dataPointer inode contents (locate tableSize k) ∈ Finset.range count := by
    intro k below
    exact Finset.mem_range.mpr (onDevice _ (data_used tree (Finset.mem_range.mp below)).2)
  have distinct : Set.InjOn (fun k => dataPointer inode contents (locate tableSize k))
      (Finset.range n) :=
    fun j inJ k inK same => data_distinct tree (Finset.mem_range.mp inJ)
      (Finset.mem_range.mp inK) same
  have counts := Finset.card_le_card_of_injOn _ inside distinct
  rwa [Finset.card_range, Finset.card_range] at counts

namespace Cursor

variable {cursor after : Cursor} {Tables : Fin 3 → Nat → Prop} {n block : Nat}

def TreeTables (cursor : Cursor) (n : Nat) : Fin 3 → Nat → Prop :=
  OnTree cursor.location.inode cursor.view cursor.tableSize n

/-- A handle on a file of `n` blocks to which more can be appended. -/
structure Growable (cursor : Cursor) (n : Nat) : Prop where
  tree : FileTree cursor.location.inode.pointer cursor.view cursor.tableSize cursor.volume.InUse n
  views : cursor.Views cursor.view
  padded : cursor.volume.Padded
  ready : cursor.Ready cursor.view (cursor.TreeTables n)
  known : ∀ level, (cursor.location.tables level).dirty →
    cursor.volume.marked (cursor.location.tables level).addr = true
  blockSize : 4 ≤ cursor.volume.blockSize ∧ cursor.volume.blockSize < 2 ^ 32
  square : cursor.tableSize * cursor.tableSize < 2 ^ 32
  blocks : cursor.location.maxBlockExclusive = n

/-- A marked block that is none of the file, and of which there is no changed copy. It is
taken for a table of any level to see that appends leave it alone. -/
structure Spares (cursor : Cursor) (n : Nat) (block : Nat) : Prop where
  nonzero : block ≠ 0
  marked : cursor.volume.marked block = true
  outside : block ∉ reachable cursor.location.inode.pointer cursor.view cursor.tableSize
  ready : ∀ place, cursor.Ready cursor.view (addTable (cursor.TreeTables n) place block)

theorem ready_mono {contents : Contents} {Fewer : Fin 3 → Nat → Prop}
    (ready : cursor.Ready contents Tables)
    (fewer : ∀ level addr, Fewer level addr → Tables level addr) : cursor.Ready contents Fewer :=
  fun level addr isTable => ready level addr (fewer level addr isTable)

theorem spares_dirty (spares : cursor.Spares n block) (level : Fin 3)
    (dirty : (cursor.location.tables level).dirty) :
    (cursor.location.tables level).addr ≠ block := by
  have other : ∀ level : Fin 3, level ≠ level + 1 := by decide
  exact (spares.ready (level + 1) (level + 1) block (.inr ⟨rfl, rfl⟩)).2 level (other level) dirty

section Growable

variable (growable : cursor.Growable n)

include growable

theorem growable_word : n < 2 ^ 32 := by
  have few : n ≤ cursor.volume.blockCount := tree_count_le growable.tree fun _ used => used.1
  exact Nat.lt_of_le_of_lt few growable.padded.word

theorem tree_table_set : TableSet cursor.volume (cursor.TreeTables n) := by
  refine ⟨?_, ?_, ?_⟩
  · intro level addr onTree
    exact (inner_of_on_tree growable.tree onTree).1
  · intro level addr onTree
    exact (on_tree_used growable.tree onTree).2
  · intro level other addr here there
    exact on_tree_unique growable.tree here there

theorem spared_table_set (spares : cursor.Spares n block) (place : Fin 3) :
    TableSet cursor.volume (addTable (cursor.TreeTables n) place block) := by
  have set := tree_table_set growable
  have apart : ∀ level, ¬cursor.TreeTables n level block := by
    intro level onTree
    obtain ⟨nonzero, location, index, digits, -, found⟩ := inner_of_on_tree growable.tree onTree
    exact spares.outside (reachable_of_place digits found nonzero)
  refine ⟨?_, ?_, ?_⟩
  · rintro level addr (old | ⟨-, rfl⟩)
    · exact set.nonzero level addr old
    · exact spares.nonzero
  · rintro level addr (old | ⟨-, rfl⟩)
    · exact set.marked level addr old
    · exact spares.marked
  · rintro level other addr (here | ⟨rfl, rfl⟩) (there | ⟨rfl, same⟩)
    · exact set.unique level other addr here there
    · exact absurd (same ▸ here) (apart level)
    · exact absurd there (apart other)
    · rfl

/-- The blocks that an append looks at are those of the tree. -/
theorem growable_extensible (more : n < capacity cursor.tableSize)
    (wide : ∀ level addr, cursor.TreeTables n level addr → Tables level addr)
    (set : TableSet cursor.volume Tables) (ready : cursor.Ready cursor.view Tables) :
    cursor.Extensible Tables n := by
  have tree := growable.tree
  refine ⟨⟨growable.views, growable.padded, set, ready, growable.blockSize, growable.square,
    growable.blocks, growable_word growable, ?_, ?_⟩, ?_⟩
  · intro some_
    have below : n - 1 < n := by omega
    have readable : Readable cursor.volume cursor.location.inode cursor.view (cursor.TreeTables n)
        (n - 1) :=
      tree_readable tree rfl (fun _ used => used.1) below
    refine ⟨⟨readable.inside, fun level addr
      found => wide level addr (readable.linked level addr found),
      readable.onDevice⟩, ?_⟩
    intro pointer member
    rw [pointers_eq_way _ _ _ (tree_way tree below)] at member
    have nonzero := tree_way tree below pointer member
    have digits := digits_locate (tree_below tree below)
    rw [way_eq_route _ _ digits] at member
    exact ⟨nonzero, (tree.used pointer (mem_reachable.mpr ⟨nonzero, _, digits, member⟩)).2⟩
  · intro pointer member nonzero
    rw [way_eq_route _ _ (digits_locate more)] at member
    exact (tree.used pointer (mem_reachable.mpr ⟨nonzero, _, digits_locate more, member⟩)).2
  · intro level inside pointer found nonzero
    rw [way_eq_route _ _ (digits_locate more)] at found
    obtain ⟨some_, shares⟩ := (tree_next tree more found).mp nonzero
    have below : n - 1 < n := by omega
    have digits := digits_locate (tree_below tree below)
    have lengths := turns_length_eq (digits_locate more) digits shares.root
    refine ⟨some_, ?_⟩
    rw [table_path_place (tree_way tree below) (by omega), way_eq_route _ _ digits,
      ← shares_place shares (Nat.le_refl _)]
    exact found

end Growable

/-- What a call that returns has done: the way to the new block was filled from its first
hole on, with the blocks that are handed out next. -/
structure Enlarged (cursor : Cursor) (Tables : Fin 3 → Nat → Prop) (n hole : Nat)
    (moved last : Cursor)
    (grown : Contents) : Prop where
  behind : cursor.Behind Tables n moved
  there : ∀ before < hole, ∀ table : Nat,
    (way cursor.location.inode cursor.view (locate cursor.tableSize n))[before]? = some table →
      table ≠ 0
  here : (way cursor.location.inode cursor.view (locate cursor.tableSize n))[hole]? = some 0
  grown : moved.Grown cursor.view Tables (locate cursor.tableSize n) hole
    (handOuts (missing cursor.location.inode cursor.view (locate cursor.tableSize n)) cursor.volume
      (cursor.lastGroup n)) last grown

def counted (cursor : Cursor) : Cursor :=
  { cursor with location := { cursor.location with
      maxBlockExclusive := cursor.location.maxBlockExclusive + 1 } }

theorem allocate_enlarged {count : Nat} (ext : cursor.Extensible Tables n)
    (vacant : cursor.Vacant n)
    (ran : allocateNewBlock cursor = .ok count after) :
    ∃ hole moved last grown, cursor.Enlarged Tables n hole moved last grown ∧
      after = last.counted := by
  suffices yields : Yields (fun _ after => ∃ hole moved last grown,
      cursor.Enlarged Tables n hole moved last grown ∧ after = last.counted)
      (fun _ => True) (allocateNewBlock cursor) by
    rw [ran] at yields
    cases yields with
    | ok holds => exact holds
  unfold allocateNewBlock
  refine yields_bind (move_behind_last_spec ext) ?_
  rintro _ moved ⟨rfl, behind⟩
  obtain ⟨inode, view, -, blockSize⟩ := behind_last_sight behind.toBehindLast
  have place : moved.location.location.location = locate cursor.tableSize n := by rw [behind.place]
  change Yields _ _ ((if mul32 (blockCount moved.location) moved.volume.sectorsPerBlock +
    4 * moved.volume.sectorsPerBlock > 0xFFFF_FFFF then _ else _ : OnCursor Nat) moved)
  split_ifs
  · exact .error trivial
  have digits : Digits (moved.volume.blockSize / 4) (locate cursor.tableSize n) := by
    rw [blockSize]
    exact digits_locate behind.inside
  have slot := vacant.slot
  rw [← inode] at slot
  refine yields_bind (append_spec behind.sane place digits behind.loaded slot)
    fun allocation last appends => ?_
  have outs : ∀ count, handOuts count moved.volume (cursor.lastGroup n) =
      handOuts count cursor.volume (cursor.lastGroup n) := fun count =>
    hand_outs_of_frame (volume_of_frame behind.frame) count _
  unfold Appends at appends
  rw [inode] at appends
  rcases appends with ⟨hole, grown, there, here, growth⟩ | skipped
  · rw [outs] at growth
    exact .ok ⟨hole, moved, last, grown, ⟨behind, there, here, growth⟩, rfl⟩
  · -- a table that was linked held an entry
    obtain ⟨stale, member, idx, bound, dirty⟩ := skipped.stale
    rw [outs] at member
    rw [blockSize] at bound
    exact absurd (vacant.empty stale member idx bound) dirty

theorem pointer_set_head {location : InodeReadingLocationInfo} (value : Nat) (inode : Inode)
    {place : Nat}
    (apart : place ≠ root location) :
    (setHead location value inode).pointer place = inode.pointer place := by
  cases location with
  | direct d =>
      have other : place ≠ d := apart
      simp [setHead, setDirect, Inode.pointer, other]
  | single i =>
      have other : place ≠ 12 := apart
      simp [setHead, setSingle, Inode.pointer, other]
  | double i j =>
      have other : place ≠ 13 := apart
      simp [setHead, setDouble, Inode.pointer, other]
  | triple i j k =>
      have other : place ≠ 14 := apart
      simp [setHead, setTriple, Inode.pointer, other]

section Enlarged

variable {hole : Nat} {moved last : Cursor} {grown : Contents} (growable : cursor.Growable n)
  (enlarged : cursor.Enlarged Tables n hole moved last grown)

def nextBlocks (cursor : Cursor) (n : Nat) : List Nat :=
  handOuts (missing cursor.location.inode cursor.view (locate cursor.tableSize n)) cursor.volume
    (cursor.lastGroup n)

include enlarged

theorem enlarged_view : last.view = grown := by
  obtain ⟨_, sane, -, -⟩ := enlarged.grown.sane
  exact view_eq sane.views

theorem enlarged_fresh : ∀ block ∈ cursor.nextBlocks n, block ≠ 0 ∧
    block < cursor.volume.blockCount ∧
    cursor.volume.marked block = false := by
  intro block member
  obtain ⟨-, -, marks, -⟩ := behind_last_sight enlarged.behind.toBehindLast
  have blockCount := block_count_of_frame (volume_of_frame enlarged.behind.frame)
  obtain ⟨nonzero, inside, free⟩ := enlarged.grown.fresh block member
  rw [marks] at free
  exact ⟨nonzero, blockCount ▸ inside, free⟩

theorem enlarged_marks {other : Nat} (nonzero : other ≠ 0) :
    last.volume.marked other = (cursor.volume.marked other || decide
      (other ∈ cursor.nextBlocks n)) := by
  obtain ⟨-, -, marks, -⟩ := behind_last_sight enlarged.behind.toBehindLast
  rw [enlarged.grown.marks other nonzero, marks]
  rfl

theorem enlarged_apart {other : Nat} (marked : cursor.volume.marked other = true) :
    other ∉ cursor.nextBlocks n := by
  intro member
  have free := (enlarged_fresh enlarged other member).2.2
  rw [marked] at free
  cases free

include growable

theorem enlarged_graft (vacant : cursor.Vacant n) :
    Grafted cursor.location.inode.pointer last.location.inode.pointer cursor.view last.view
      cursor.tableSize
      (locate cursor.tableSize n) hole (cursor.nextBlocks n) := by
  have growth := enlarged.grown
  have digits := digits_locate enlarged.behind.inside
  obtain ⟨inode, -, -, -⟩ := behind_last_sight enlarged.behind.toBehindLast
  have before := way_eq_route cursor.location.inode cursor.view digits
  have after := way_eq_route last.location.inode grown digits
  rw [enlarged_view enlarged]
  refine ⟨digits, ?_, ?_, ?_, ?_, growth.nodup, ?_, ?_, ?_⟩
  · rw [← before]
    exact enlarged.there
  · rw [← before]
    exact enlarged.here
  · rw [← before, ← after, growth.way, inode]
    rfl
  · intro block member
    obtain ⟨nonzero, -, free⟩ := enlarged_fresh enlarged block member
    refine ⟨nonzero, fun reached => ?_⟩
    rw [(growable.tree.used block reached).2] at free
    cases free
  · intro place apart
    rcases growth.inode with ⟨-, same⟩ | ⟨zero, block, -, set_⟩
    · rw [same, inode]
    · rw [set_, inode]
      exact pointer_set_head block _ (apart.resolve_right (not_not.mpr zero))
  · intro lba idx outside _ apart
    rw [← before] at apart
    rw [← inode] at apart
    exact growth.others lba idx outside apart
  · intro place table idx here inside bound other
    obtain ⟨turn, turnHere⟩ : ∃ turn,
        (turns (locate cursor.tableSize n))[hole + place]? = some turn :=
      ⟨_, List.getElem?_eq_getElem inside⟩
    rw [growth.entries place table turn idx here turnHere fun same => other (same ▸ turnHere)]
    refine vacant.empty table ?_ idx bound
    have count := missing_eq enlarged.here enlarged.there
    rw [hand_outs_take, Nat.sub_add_cancel (by omega)]
    refine List.mem_iff_getElem?.mpr ⟨place, ?_⟩
    rw [List.getElem?_take, if_pos (by omega)]
    exact here

omit growable in
theorem enlarged_volume : last.volume.blockSize = cursor.volume.blockSize ∧
    last.volume.blockCount = cursor.volume.blockCount ∧
    last.volume.blocksPerGroup = cursor.volume.blocksPerGroup := by
  have same : last.steady.volume = moved.steady.volume := by rw [enlarged.grown.same]
  have frame : moved.volume.frame = cursor.volume.frame :=
    (volume_of_frame enlarged.behind.frame).trans rfl
  refine ⟨?_, ?_, ?_⟩
  · exact (congrArg Ext2Volume.blockSize same).trans
      (show moved.volume.frame.blockSize = cursor.volume.frame.blockSize by rw [frame])
  · exact (congrArg Ext2Volume.blockCount same).trans
      (show moved.volume.frame.blockCount = cursor.volume.frame.blockCount by rw [frame])
  · exact (congrArg Ext2Volume.blocksPerGroup same).trans
      (show moved.volume.frame.blocksPerGroup = cursor.volume.frame.blocksPerGroup by rw [frame])

omit growable in
theorem enlarged_table_size : last.tableSize = cursor.tableSize :=
  congrArg (· / 4) (enlarged_volume enlarged).1

variable (vacant : cursor.Vacant n)

include vacant

theorem enlarged_pointers {k : Nat} (below : k < n) :
    tablePath last.location.inode last.view (locate cursor.tableSize k) =
        tablePath cursor.location.inode cursor.view (locate cursor.tableSize k) ∧
      dataPointer last.location.inode last.view (locate cursor.tableSize k) =
        dataPointer cursor.location.inode cursor.view (locate cursor.tableSize k) := by
  have digits := digits_locate (tree_below growable.tree below)
  apply same_pointers growable.tree below
  rw [way_eq_route _ _ digits, way_eq_route _ _ digits]
  exact tree_grafted_route growable.tree (enlarged_graft growable enlarged vacant) below

theorem enlarged_tree :
    FileTree last.location.inode.pointer last.view last.tableSize last.volume.InUse (n + 1) := by
  obtain ⟨-, blockCount, -⟩ := enlarged_volume enlarged
  rw [enlarged_table_size enlarged]
  refine tree_grows growable.tree enlarged.behind.inside
    (enlarged_graft growable enlarged vacant) ?_ ?_
  · intro block nonzero used
    refine ⟨blockCount ▸ used.1, ?_⟩
    rw [enlarged_marks enlarged nonzero, used.2, Bool.true_or]
  · intro block member
    obtain ⟨nonzero, inside, -⟩ := enlarged_fresh enlarged block member
    refine ⟨blockCount ▸ inside, ?_⟩
    rw [enlarged_marks enlarged nonzero, decide_eq_true member, Bool.or_true]

/-- The tables of the longer file are those of the file and the new ones. -/
theorem enlarged_tables {AllTables : Fin 3 → Nat → Prop}
    (wide : ∀ level addr, cursor.TreeTables n level addr → Tables level addr)
    (old : ∀ level addr, Tables level addr → AllTables level addr)
    (new : ∀ place table, (cursor.nextBlocks n)[place]? = some table →
      hole + place < (turns (locate cursor.tableSize n)).length →
      AllTables (Fin.ofNat 3 (hole + place)) table) :
    ∀ level addr, last.TreeTables (n + 1) level addr → AllTables level addr := by
  intro level addr ⟨k, below, found⟩
  rw [enlarged_table_size enlarged] at found
  have more := enlarged.behind.inside
  have digits := digits_locate more
  by_cases before : k < n
  · rw [(enlarged_pointers growable enlarged vacant before).1] at found
    exact old level addr (wide level addr ⟨k, before, found⟩)
  obtain rfl : k = n := by omega
  have tree := enlarged_tree growable enlarged vacant
  rw [enlarged_table_size enlarged] at tree
  obtain ⟨inside, place⟩ := tree_table tree (Nat.lt_succ_self k) found
  have graft := enlarged_graft growable enlarged vacant
  have few := turns_length (locate cursor.tableSize k)
  by_cases behind : hole ≤ level.val
  · have block := grafted_here graft (level.val - hole)
    rw [Nat.add_sub_cancel' behind, place] at block
    have isTable := new (level.val - hole) addr block.symm (by omega)
    rwa [Nat.add_sub_cancel' behind,
      show Fin.ofNat 3 level.val = level from Fin.ext (Nat.mod_eq_of_lt level.isLt)]
      at isTable
  · -- before the hole the ways to this block and to the one before it are the same
    have there : (route cursor.location.inode.pointer cursor.view
        (locate cursor.tableSize k))[level.val]? =
        some addr := by
      rw [graft.leads, List.getElem?_append_left ?_, List.getElem?_take, if_pos (by omega)] at place
      · exact place
      · rw [List.length_take, length_route]
        omega
    have nonzero := graft.there level.val (by omega) addr there
    obtain ⟨some_, shares⟩ := (tree_next growable.tree more there).mp nonzero
    have previous : k - 1 < k := by omega
    have previousDigits := digits_locate (tree_below growable.tree previous)
    have lengths := turns_length_eq digits previousDigits shares.root
    refine old level addr (wide level addr ⟨k - 1, previous, ?_⟩)
    rw [table_path_place (tree_way growable.tree previous) (by omega),
      way_eq_route _ _ previousDigits,
      ← shares_place shares (Nat.le_refl _)]
    exact there

theorem enlarged_last :
    (cursor.nextBlocks n).length = missing cursor.location.inode cursor.view
      (locate cursor.tableSize n) ∧
      (cursor.nextBlocks n).getLast? =
        some (dataPointer last.location.inode last.view (locate cursor.tableSize n)) := by
  have length := enlarged.grown.length
  have inside := enlarged.grown.inside
  have count := missing_eq enlarged.here enlarged.there
  have graft := enlarged_graft growable enlarged vacant
  have tree := enlarged_tree growable enlarged vacant
  rw [enlarged_table_size enlarged] at tree
  change (cursor.nextBlocks n).length = _ at length
  refine ⟨length.trans count.symm, ?_⟩
  rw [List.getLast?_eq_getElem?, ← tree_data tree (Nat.lt_succ_self n), length,
    show (turns (locate cursor.tableSize n)).length + 1 - hole - 1 =
      (turns (locate cursor.tableSize n)).length - hole by omega, ← grafted_here graft,
    Nat.add_sub_cancel' inside]

theorem enlarged_growable {AllTables : Fin 3 → Nat → Prop} (sane : last.Sane grown AllTables)
    (wide : ∀ level addr, last.TreeTables (n + 1) level addr → AllTables level addr) :
    last.counted.Growable (n + 1) := by
  have view := enlarged_view enlarged
  obtain ⟨blockSize, -, -⟩ := enlarged_volume enlarged
  subst view
  have blocks : last.location.maxBlockExclusive = n := by
    have same : last.steady.location.maxBlockExclusive =
        moved.steady.location.maxBlockExclusive := by
      rw [enlarged.grown.same]
    have kept : moved.frame.location.maxBlockExclusive =
        cursor.frame.location.maxBlockExclusive := by
      rw [enlarged.behind.frame]
      rfl
    exact (same.trans kept).trans growable.blocks
  have tree := enlarged_tree growable enlarged vacant
  refine ⟨tree, ⟨sane.views.stores, sane.views.sized, sane.views.changed,
    sane.views.unchanged⟩, sane.padded, ready_mono sane.ready wide, ?_, ?_, ?_, ?_⟩
  · intro level dirty
    exact (sane.known level).resolve_left (sane.views.changed level dirty).1
  · exact blockSize ▸ growable.blockSize
  · exact enlarged_table_size enlarged ▸ growable.square
  · exact congrArg (· + 1) blocks

theorem enlarged_outside {other : Nat} (marked : cursor.volume.marked other = true)
    (outside : other ∉ reachable cursor.location.inode.pointer cursor.view cursor.tableSize) :
    other ∉ reachable last.location.inode.pointer last.view last.tableSize := by
  rw [enlarged_table_size enlarged, grafted_reachable (enlarged_graft growable enlarged vacant)
    growable.tree.distinct, Finset.mem_union, List.mem_toFinset, not_or]
  exact ⟨outside, enlarged_apart enlarged marked⟩

end Enlarged

theorem unlinked_set_head (location : InodeReadingLocationInfo) (value : Nat) (inode : Inode) :
    (setHead location value inode).unlinked = inode.unlinked := by
  cases location <;> rfl

/-- From a file of `n` blocks to one with a block more. -/
structure Lengthens (cursor : Cursor) (n : Nat) (after : Cursor) : Prop where
  growable : after.Growable (n + 1)
  data : ∀ k < n, dataPointer after.location.inode after.view (locate cursor.tableSize k) =
    dataPointer cursor.location.inode cursor.view (locate cursor.tableSize k)
  kept : ∀ block, block ∉ cursor.nextBlocks n → (∀ level, ¬cursor.TreeTables n level block) →
    after.view block = cursor.view block
  spares : ∀ block, cursor.Spares n block → after.Spares (n + 1) block
  inode : after.location.inode.unlinked = cursor.location.inode.unlinked
  card : (reachable after.location.inode.pointer after.view after.tableSize).card =
    (reachable cursor.location.inode.pointer cursor.view cursor.tableSize).card +
      (cursor.nextBlocks n).length
  many : (cursor.nextBlocks n).length =
    missing cursor.location.inode cursor.view (locate cursor.tableSize n)
  took : Took (cursor.nextBlocks n).length cursor.volume (cursor.lastGroup n) after.volume
    (after.lastGroup (n + 1))

/-- Blocks are handed out in a row, from the group of the last block on. -/
theorem allocate_draws {count : Nat} (ext : cursor.Extensible Tables n)
    (ran : allocateNewBlock cursor = .ok count after) :
    ∃ next, Draws cursor.volume ⟨cursor.lastGroup n, 0⟩ after.volume next ∧
      count = next.allocCount := by
  suffices yields : Yields (fun count after => ∃ next, Draws cursor.volume ⟨cursor.lastGroup n, 0⟩
    after.volume next ∧
      count = next.allocCount) (fun _ => True) (allocateNewBlock cursor) by
    rw [ran] at yields
    cases yields with
    | ok holds => exact holds
  unfold allocateNewBlock
  refine yields_bind (move_behind_last_spec ext) ?_
  rintro _ moved ⟨rfl, behind⟩
  have still : Draws cursor.volume ⟨cursor.lastGroup n, 0⟩ moved.volume ⟨cursor.lastGroup n, 0⟩ :=
    draws_of_frame ((volume_of_frame behind.frame).trans rfl) _
  change Yields _ _ ((if mul32 (blockCount moved.location) moved.volume.sectorsPerBlock +
    4 * moved.volume.sectorsPerBlock > 0xFFFF_FFFF then _ else _ : OnCursor Nat) moved)
  split_ifs
  · exact .error trivial
  · refine yields_bind append_block_draws fun next last draws => ?_
    exact .ok ⟨next, draws_trans still draws, rfl⟩

theorem same_marks_length {volume : Ext2Volume} {blocks others : List Nat} {marked : Nat → Bool}
    (nodup : blocks.Nodup) (othersNodup : others.Nodup)
    (fresh : ∀ block ∈ blocks, block ≠ 0 ∧ volume.marked block = false)
    (othersFresh : ∀ block ∈ others, block ≠ 0 ∧ volume.marked block = false)
    (marks : ∀ other, other ≠ 0 → marked other = (volume.marked other || decide (other ∈ blocks)))
    (othersMarks : ∀ other, other ≠ 0 →
      marked other = (volume.marked other || decide (other ∈ others))) :
    blocks.length = others.length := by
  apply List.Perm.length_eq
  rw [List.perm_ext_iff_of_nodup nodup othersNodup]
  intro block
  constructor
  · intro member
    obtain ⟨nonzero, free⟩ := fresh block member
    have same := (marks block nonzero).symm.trans (othersMarks block nonzero)
    rw [free, decide_eq_true member, Bool.false_or, Bool.false_or] at same
    exact of_decide_eq_true same.symm
  · intro member
    obtain ⟨nonzero, free⟩ := othersFresh block member
    have same := (marks block nonzero).symm.trans (othersMarks block nonzero)
    rw [free, decide_eq_true member, Bool.false_or, Bool.false_or] at same
    exact of_decide_eq_true same

section Step

variable {count : Nat} (growable : cursor.Growable n) (vacant : cursor.Vacant n)
  (ran : allocateNewBlock cursor = .ok count after)

include growable vacant ran

/-- Whatever was taken for a table besides those of the file still can be. -/
theorem allocate_tables (ext : cursor.Extensible Tables n)
    (wide : ∀ level addr, cursor.TreeTables n level addr → Tables level addr) :
    ∃ AllTables : Fin 3 → Nat → Prop, after.Ready after.view AllTables ∧
      (∀ level addr, Tables level addr → AllTables level addr) ∧
      ∀ level addr, after.TreeTables (n + 1) level addr → AllTables level addr := by
  obtain ⟨hole, moved, last, grown, enlarged, rfl⟩ := allocate_enlarged ext vacant ran
  obtain ⟨AllTables, sane, old, new⟩ := enlarged.grown.sane
  have ready := sane.ready
  rw [← enlarged_view enlarged] at ready
  exact ⟨AllTables, ready, old, enlarged_tables growable enlarged vacant wide old new⟩

theorem allocate_took (more : n < capacity cursor.tableSize) :
    Took (cursor.nextBlocks n).length cursor.volume (cursor.lastGroup n)
      after.volume (after.lastGroup (n + 1)) ∧
      count % 2 ^ 32 = (cursor.nextBlocks n).length % 2 ^ 32 := by
  have ext := growable_extensible growable more (fun _ _ onTree => onTree) (tree_table_set growable)
    growable.ready
  obtain ⟨next, ⟨number, took, counted⟩, rfl⟩ := allocate_draws ext ran
  obtain ⟨hole, moved, last, grown, enlarged, rfl⟩ := allocate_enlarged ext vacant ran
  obtain ⟨length, ends⟩ := enlarged_last growable enlarged vacant
  obtain ⟨numberLength, taken, group⟩ := took_spec growable.padded took
  have same : (handOuts number cursor.volume (cursor.lastGroup n)).length =
      (cursor.nextBlocks n).length :=
    @same_marks_length _ _ _ last.volume.marked taken.nodup enlarged.grown.nodup
      (fun block member => ⟨(taken.fresh block member).1, (taken.fresh block member).2.2⟩)
      (fun block member => ⟨(enlarged_fresh enlarged block member).1,
        (enlarged_fresh enlarged block member).2.2⟩)
      (fun other nonzero => taken.marks other nonzero)
        (fun other nonzero => enlarged_marks enlarged nonzero)
  have few : number = (cursor.nextBlocks n).length := numberLength.symm.trans same
  have row : handOuts number cursor.volume (cursor.lastGroup n) = cursor.nextBlocks n := by
    rw [few, length]
    rfl
  rw [row] at group
  have last_ : next.group = last.counted.lastGroup (n + 1) := by
    rw [group _ ends, lastGroup, if_neg (Nat.succ_ne_zero n)]
    have tableSize : last.tableSize = cursor.tableSize := enlarged_table_size enlarged
    have perGroup : last.volume.blocksPerGroup = cursor.volume.blocksPerGroup :=
      (enlarged_volume enlarged).2.2
    change _ = sub32 (dataPointer last.location.inode last.view (locate last.tableSize n)) 1 /
      last.volume.blocksPerGroup
    rw [tableSize, perGroup]
  rw [← few, ← last_]
  exact ⟨took, by rw [counted, Nat.zero_add]⟩

/-- The file has one block more, and the blocks that it had are as they were. -/
theorem allocate_lengthens (more : n < capacity cursor.tableSize) : cursor.Lengthens n after := by
  have set := tree_table_set growable
  have ext := growable_extensible growable more (fun _ _ onTree => onTree) set growable.ready
  have took := (allocate_took growable vacant ran more).1
  have spared : ∀ block place, cursor.Spares n block →
      after.Ready after.view (addTable (after.TreeTables (n + 1)) place block) := by
    intro block place spares
    have wide : ∀ level addr, cursor.TreeTables n level addr →
        addTable (cursor.TreeTables n) place block level addr := fun _ _ onTree => .inl onTree
    have extra := growable_extensible growable more wide (spared_table_set growable spares place)
      (spares.ready place)
    obtain ⟨AllTables, ready, old, new⟩ := allocate_tables growable vacant ran extra wide
    apply ready_mono ready
    rintro level addr (onTree | foreign)
    · exact new level addr onTree
    · exact old level addr (.inr foreign)
  obtain ⟨hole, moved, last, grown, enlarged, rfl⟩ := allocate_enlarged ext vacant ran
  obtain ⟨AllTables, sane, old, new⟩ := enlarged.grown.sane
  have wide := enlarged_tables growable enlarged vacant (fun _ _ onTree => onTree) old new
  refine ⟨enlarged_growable growable enlarged vacant sane wide, ?_, ?_, ?_, ?_, ?_,
    (enlarged_last growable enlarged vacant).1, took⟩
  · intro k below
    exact (enlarged_pointers growable enlarged vacant below).2
  · intro block apart noTable
    change last.view block = _
    rw [enlarged_view enlarged]
    exact (enlarged.grown.kept block apart).2 noTable
  · intro block spares
    have marks := enlarged_marks enlarged spares.nonzero
    rw [spares.marked, Bool.true_or] at marks
    exact ⟨spares.nonzero, marks, enlarged_outside growable enlarged vacant spares.marked
      spares.outside,
      fun place => spared block place spares⟩
  · obtain ⟨inode, -, -, -⟩ := behind_last_sight enlarged.behind.toBehindLast
    rcases enlarged.grown.inode with ⟨-, same⟩ | ⟨-, block, -, set_⟩
    · exact congrArg Inode.unlinked (same.trans inode)
    · exact (congrArg Inode.unlinked set_).trans
        ((unlinked_set_head _ _ _).trans (congrArg Inode.unlinked inode))
  · have card := grafted_card (enlarged_graft growable enlarged vacant) growable.tree.distinct
    change (reachable last.location.inode.pointer last.view last.tableSize).card = _
    rw [enlarged_table_size enlarged]
    exact card

end Step

end Cursor

end Campix.Ext2
