import Campix.Ext2.NextBlock

/-!
# Growth by several blocks

The loop of `grow`. How many tables the next block of a file needs follows from the number
of blocks alone, so it is known before the growth which of the blocks that are handed out
become tables. If these held zeros, the loop leaves the tree of the longer file.
-/

namespace Campix.Ext2

open Lib.Fallible Lib.Outcome Lib.Word Ext2Volume

set_option autoImplicit false

instance (place : Nat) (location other : InodeReadingLocationInfo) : Decidable
    (Shares place location other) :=
  decidable_of_iff (root location = root other ∧
    (turns location).take place = (turns other).take place)
    ⟨fun both => ⟨both.1, both.2⟩, fun shares => ⟨shares.root, shares.turns⟩⟩

/-- The number of places on the way to block `k` that are on no way to a block before it. -/
def newPlaces (tableSize k : Nat) : Nat :=
  ((List.range ((turns (locate tableSize k)).length + 1)).filter fun place =>
    k = 0 ∨ ¬Shares place (locate tableSize k) (locate tableSize (k - 1))).length

def plan (tableSize : Nat) : Nat → Nat → List Bool
  | 0, _ => []
  | rounds + 1, k =>
      List.replicate (newPlaces tableSize k - 1) true ++ false :: plan tableSize rounds (k + 1)

def Barren (contents : Contents) (tableSize : Nat) (blocks : List Nat) (tables : List Bool) :
    Prop :=
  ∀ place block : Nat, blocks[place]? = some block → tables[place]? = some true →
    ∀ idx < tableSize, entry (contents block) idx = 0

namespace Ext2Volume

variable {volume after : Ext2Volume} {group next : Nat}

theorem hand_outs_begin (first second : Nat) :
    handOuts first volume group = (handOuts (first + second) volume group).take first := by
  induction second with
  | zero =>
      by_cases zero : first = 0
      · subst zero
        rfl
      · obtain ⟨few, rfl⟩ := Nat.exists_eq_succ_of_ne_zero zero
        rw [Nat.add_zero, hand_outs_take (few + 1), List.take_take, Nat.min_self]
  | succ second ih =>
      rw [ih, ← Nat.add_assoc, hand_outs_take (first + second), List.take_take,
        Nat.min_eq_left (Nat.le_add_right first second)]

theorem same_outline_block_size (same : SameOutline volume after) :
    after.blockSize = volume.blockSize := by
  obtain ⟨bitmaps, frame⟩ := same
  exact show after.frame.blockSize = volume.frame.blockSize by rw [frame]

theorem same_outline_block_count (same : SameOutline volume after) :
    after.blockCount = volume.blockCount := by
  obtain ⟨bitmaps, frame⟩ := same
  exact show after.frame.blockCount = volume.frame.blockCount by rw [frame]

/-- Nothing is handed out by a volume that is mounted to be read only. -/
theorem took_writable {count : Nat} (took : Took (count + 1) volume group after next) :
    volume.readOnly = false := by
  obtain ⟨block, _, middle, out, -⟩ := takes_cases took
  cases locked : volume.readOnly with
  | false => rfl
  | true =>
      have refused : volume.frame.getBlockAllocatorForGroup group = none := by
        unfold getBlockAllocatorForGroup
        exact if_pos locked
      unfold handOut at out
      rw [refused] at out
      cases out

end Ext2Volume

namespace Cursor

variable {cursor after last : Cursor} {n m rounds : Nat}

/-- The blocks that become tables in a growth by so many blocks hold no pointers. -/
def TablesVacant (cursor : Cursor) (n rounds : Nat) : Prop :=
  Barren cursor.view cursor.tableSize
    (handOuts (plan cursor.tableSize rounds n).length cursor.volume (cursor.lastGroup n))
    (plan cursor.tableSize rounds n)

section Growable

variable (growable : cursor.Growable n)

include growable

theorem missing_eq_new (more : n < capacity cursor.tableSize) :
    missing cursor.location.inode cursor.view (locate cursor.tableSize n) = newPlaces
      cursor.tableSize n := by
  have digits := digits_locate more
  have listed : route cursor.location.inode.pointer cursor.view (locate cursor.tableSize n) =
      (List.range ((turns (locate cursor.tableSize n)).length + 1)).map fun place =>
        ((route cursor.location.inode.pointer cursor.view (locate cursor.tableSize n))[place]?).getD
          0 := by
    apply List.ext_getElem?
    intro place
    rw [List.getElem?_map]
    by_cases inside : place < (turns (locate cursor.tableSize n)).length + 1
    · obtain ⟨pointer, found⟩ : ∃ pointer, (route cursor.location.inode.pointer cursor.view
          (locate cursor.tableSize n))[place]? = some pointer := route_place (by omega)
      rw [List.getElem?_range inside, found, Option.map_some, found, Option.getD_some]
    · rw [List.getElem?_eq_none (by rw [length_route]; omega),
        List.getElem?_eq_none (by rw [List.length_range]; omega)]
      rfl
  unfold missing newPlaces
  rw [way_eq_route _ _ digits, listed, List.filter_map, List.length_map]
  congr 1
  apply List.filter_congr
  intro place member
  obtain ⟨pointer, found⟩ : ∃ pointer, (route cursor.location.inode.pointer cursor.view
      (locate cursor.tableSize n))[place]? = some pointer := by
    have bound := List.mem_range.mp member
    exact route_place (by omega)
  have next := tree_next growable.tree more found
  simp only [Function.comp_apply, found, Option.getD_some, decide_eq_decide]
  constructor
  · intro zero
    by_contra shared
    rw [not_or, not_not] at shared
    exact next.mpr ⟨Nat.pos_of_ne_zero shared.1, shared.2⟩ zero
  · intro unshared
    by_contra nonzero
    obtain ⟨some_, shares⟩ := next.mp nonzero
    rcases unshared with zero | apart
    · omega
    · exact apart shares

theorem new_places_pos (more : n < capacity cursor.tableSize) :
    0 < newPlaces cursor.tableSize n := by
  have slot := tree_slot growable.tree more
  have inside : (turns (locate cursor.tableSize n)).length ∈
      (List.range ((turns (locate cursor.tableSize n)).length + 1)).filter fun place =>
        n = 0 ∨ ¬Shares place (locate cursor.tableSize n) (locate cursor.tableSize (n - 1)) := by
    rw [List.mem_filter, decide_eq_true_eq]
    refine ⟨List.mem_range.mpr (Nat.lt_succ_self _), ?_⟩
    by_contra shared
    rw [not_or, not_not] at shared
    exact (tree_next growable.tree more slot).mpr ⟨Nat.pos_of_ne_zero shared.1, shared.2⟩ rfl
  exact List.length_pos_of_mem inside

theorem vacant_of_plan (more : n < capacity cursor.tableSize)
    (vacant : cursor.TablesVacant n (rounds + 1)) :
    cursor.Vacant n := by
  have digits := digits_locate more
  refine ⟨?_, ?_⟩
  · rw [way_eq_route _ _ digits]
    exact tree_slot growable.tree more
  · rw [missing_eq_new growable more]
    intro block member idx bound
    obtain ⟨place, here⟩ := List.mem_iff_getElem?.mp member
    have long : (plan cursor.tableSize (rounds + 1) n).length =
        newPlaces cursor.tableSize n - 1 + ((plan cursor.tableSize rounds (n + 1)).length + 1) := by
      rw [plan, List.length_append, List.length_replicate, List.length_cons]
    rw [hand_outs_begin _ ((plan cursor.tableSize rounds (n + 1)).length + 1),
      List.getElem?_take] at here
    split_ifs at here with small
    refine vacant place block (by rw [long]; exact here) ?_ idx bound
    rw [plan, List.getElem?_append_left (by rw [List.length_replicate]; exact small),
      List.getElem?_replicate,
      if_pos small]

theorem lengthens_outline (lengthens : cursor.Lengthens n after) :
    SameOutline cursor.volume after.volume :=
  ⟨_, (took_spec growable.padded lengthens.took).2.1.rest⟩

theorem lengthens_size (lengthens : cursor.Lengthens n after) :
    after.tableSize = cursor.tableSize :=
  congrArg (· / 4) (same_outline_block_size (lengthens_outline growable lengthens))

theorem lengthens_free {block : Nat} (lengthens : cursor.Lengthens n after) (nonzero : block ≠ 0)
    (free : after.volume.marked block = false) : after.view block = cursor.view block := by
  have marks := (took_spec growable.padded lengthens.took).2.1.marks block nonzero
  change after.volume.marked block = (cursor.volume.marked block || _) at marks
  rw [free] at marks
  obtain ⟨unmarked, apart⟩ := Bool.or_eq_false_iff.mp marks.symm
  have row : handOuts (cursor.nextBlocks n).length cursor.volume (cursor.lastGroup n) =
      cursor.nextBlocks n := by
    rw [lengthens.many]
    rfl
  rw [row] at apart
  apply lengthens.kept block (of_decide_eq_false apart)
  intro level onTree
  have used := (on_tree_used growable.tree onTree).2
  rw [unmarked] at used
  cases used

theorem plan_after (more : n < capacity cursor.tableSize) (lengthens : cursor.Lengthens n after)
    (vacant : cursor.TablesVacant n (rounds + 1)) : after.TablesVacant (n + 1) rounds := by
  have positive := new_places_pos growable more
  have size := lengthens_size growable lengthens
  have taken : (cursor.nextBlocks n).length = newPlaces cursor.tableSize n :=
    lengthens.many.trans (missing_eq_new growable more)
  have took := lengthens.took
  rw [taken] at took
  have long : (plan cursor.tableSize (rounds + 1) n).length =
      newPlaces cursor.tableSize n + (plan cursor.tableSize rounds (n + 1)).length := by
    rw [plan, List.length_append, List.length_replicate, List.length_cons]
    omega
  have row := took_hand_outs (plan cursor.tableSize rounds (n + 1)).length took
  have front := (took_spec growable.padded took).1
  intro place block here isTable idx bound
  rw [size] at here isTable bound
  have later := hand_outs_free (plan cursor.tableSize rounds (n + 1)).length
    lengthens.growable.padded block
    (List.mem_of_getElem? here)
  rw [lengthens_free growable lengthens later.1 later.2]
  refine vacant (newPlaces cursor.tableSize n + place) block ?_ ?_ idx bound
  · rw [long, row, List.getElem?_append_right (by omega), front, Nat.add_sub_cancel_left]
    exact here
  · rw [plan, List.getElem?_append_right (by rw [List.length_replicate]; omega),
      List.length_replicate,
      show newPlaces cursor.tableSize n + place - (newPlaces cursor.tableSize n - 1) = place +
        1 by omega,
      List.getElem?_cons_succ]
    exact isTable

/-- The location behind the last block of the largest file does not exist. -/
theorem allocate_full (full : n = capacity cursor.tableSize) :
    Yields (fun _ _ => False) (fun _ => True) (allocateNewBlock cursor) := by
  have positive : 0 < cursor.tableSize := Nat.div_pos growable.blockSize.1 (by decide)
  have word := growable_word growable
  have some_ : 0 < n := by
    rw [full]
    unfold capacity
    omega
  have index : sub32 (blockCount cursor.location) 1 = n - 1 := by
    have count : blockCount cursor.location = n := by
      unfold blockCount
      rw [growable.blocks]
      omega
    rw [count, sub32, if_pos (show 1 ≤ n from some_)]
  have last : n - 1 < capacity cursor.tableSize := by omega
  suffices stops : Yields (fun _ _ => False) (fun _ => True) (moveBehindLast cursor) by
    exact yields_bind stops fun _ _ impossible => impossible.elim
  change Yields _ _ ((if cursor.location.maxBlockExclusive = 0 then _ else _ : OnCursor Nat) cursor)
  rw [if_neg (by rw [growable.blocks]; omega), index]
  have arrives : Yields (fun _ after => after.location.location =
      ⟨locate cursor.tableSize (n - 1), cursor.tableSize⟩) (fun _ => True)
        (seek (n - 1) cursor) := by
    rw [seek_eq last (.inr growable.square)]
    exact yields_weaken check_tables_frame (fun _ _ same => location_of_frame same) fun _ _ =>
      trivial
  refine yields_bind arrives fun _ middle place => ?_
  refine yields_bind get_next_block_yields fun block looked same => ?_
  rw [same]
  rw [state_bind_get, place, advance_last positive (by omega)]
  exact .error trivial

end Growable

/-- The number of data blocks and tables of the file. -/
def treeSize (cursor : Cursor) : Nat :=
  (reachable cursor.location.inode.pointer cursor.view cursor.tableSize).card

/-- From a file of `n` blocks to one of `m`. -/
structure Lengthened (cursor : Cursor) (n : Nat) (after : Cursor) (m : Nat) : Prop where
  growable : after.Growable m
  data : ∀ k < n, dataPointer after.location.inode after.view (locate cursor.tableSize k) =
    dataPointer cursor.location.inode cursor.view (locate cursor.tableSize k)
  same : ∀ k < n, after.view (dataPointer
    cursor.location.inode cursor.view (locate cursor.tableSize k)) =
    cursor.view (dataPointer cursor.location.inode cursor.view (locate cursor.tableSize k))
  spares : ∀ block, cursor.Spares n block → after.Spares m block ∧
    after.view block = cursor.view block
  inode : after.location.inode.unlinked = cursor.location.inode.unlinked
  outline : SameOutline cursor.volume after.volume
  marks : ∀ block, block ≠ 0 → after.volume.marked block = true →
    cursor.volume.marked block = true ∨ block < cursor.volume.blockCount

theorem lengthened_self (growable : cursor.Growable n) : cursor.Lengthened n cursor n :=
  ⟨growable, fun _ _ => rfl, fun _ _ => rfl, fun _ spares => ⟨spares, rfl⟩, rfl, ⟨_, rfl⟩,
    fun _ _ marked => .inl marked⟩

theorem lengthens_marks {block : Nat} (growable : cursor.Growable n)
    (lengthens : cursor.Lengthens n after)
    (nonzero : block ≠ 0) (marked : after.volume.marked block = true) :
    cursor.volume.marked block = true ∨ block < cursor.volume.blockCount := by
  obtain ⟨-, taken, -⟩ := took_spec growable.padded lengthens.took
  have marks := taken.marks block nonzero
  change after.volume.marked block = (cursor.volume.marked block || _) at marks
  rw [marked] at marks
  rcases Bool.or_eq_true_iff.mp marks.symm with old | new
  · exact .inl old
  · exact .inr (taken.fresh block (of_decide_eq_true new)).2.1

theorem lengthened_succ (growable : cursor.Growable n) (first : cursor.Lengthens n after)
    (rest : after.Lengthened (n + 1) last m) : cursor.Lengthened n last m := by
  have size := lengthens_size growable first
  have data := rest.data
  have same := rest.same
  rw [size] at data same
  have kept : ∀ block, cursor.volume.marked block = true →
      (∀ level, ¬cursor.TreeTables n level block) →
      after.view block = cursor.view block := by
    intro block marked noTable
    refine first.kept block ?_ noTable
    intro member
    have free := (hand_outs_free _ growable.padded block member).2
    rw [marked] at free
    cases free
  refine ⟨rest.growable, ?_, ?_, ?_, rest.inode.trans first.inode,
    same_outline_trans (lengthens_outline growable first) rest.outline, ?_⟩
  · intro k below
    rw [data k (by omega), first.data k below]
  · intro k below
    have later := same k (by omega)
    rw [first.data k below] at later
    rw [later]
    apply kept _ (data_used growable.tree below).2.2
    intro level onTree
    exact inner_apart growable.tree below (inner_of_on_tree growable.tree onTree) rfl
  · intro block spares
    obtain ⟨stays, view⟩ := rest.spares block (first.spares block spares)
    refine ⟨stays, view.trans (kept block spares.marked ?_)⟩
    intro level onTree
    obtain ⟨nonzero, location, place, digits, -, found⟩ := inner_of_on_tree growable.tree onTree
    exact spares.outside (reachable_of_place digits found nonzero)
  · intro block nonzero marked
    rcases rest.marks block nonzero marked with old | inside
    · exact lengthens_marks growable first nonzero old
    · exact .inr (by rwa [same_outline_block_count (lengthens_outline growable first)] at inside)

/-- No changed copy is one of the block at the end of the volume, where a write does nothing. -/
def Edged (cursor : Cursor) : Prop :=
  ∀ level, (cursor.location.tables level).dirty →
    (cursor.location.tables level).addr ≠ cursor.volume.blockCount

/-- If the block at the end counts as taken, there must not be a copy of it. -/
theorem lengthened_edged (lengthened : cursor.Lengthened n after m)
    (spare : cursor.volume.marked cursor.volume.blockCount = true →
      cursor.Spares n cursor.volume.blockCount) : after.Edged := by
  intro level dirty atEnd
  have growable := lengthened.growable
  have marked := growable.known level dirty
  have nonzero := (growable.views.changed level dirty).1
  rw [atEnd] at marked nonzero
  rw [same_outline_block_count lengthened.outline] at marked nonzero atEnd
  rcases lengthened.marks _ nonzero marked with old | inside
  · exact spares_dirty (lengthened.spares _ (spare old)).1 level dirty atEnd
  · exact absurd inside (Nat.lt_irrefl _)

end Cursor

namespace Handle

variable {handle after : Handle} {m : Nat}

/-- The loop of `grow`: every call that returns has appended one block, and the blocks that
were taken are counted. -/
theorem grow_loop_lengthens (rounds : Nat) : ∀ {n : Nat} (handle : Handle) (diffAlloc : Nat),
    handle.cursor.Growable n → handle.cursor.TablesVacant n (m - n) → n ≤ m →
    Yields (fun total after => ∃ cursor, after = { handle with cursor := cursor } ∧
        handle.cursor.Lengthened n cursor m ∧
        (total + handle.cursor.treeSize) % 2 ^ 32 = (diffAlloc + cursor.treeSize) % 2 ^ 32 ∧
        (n < m → handle.cursor.volume.readOnly = false))
      (fun _ => True) (growLoop m rounds diffAlloc handle) := by
  induction rounds with
  | zero =>
      intro n handle diffAlloc _ _ _
      exact .error trivial
  | succ rounds ih =>
      intro n handle diffAlloc growable vacant le
      have count : handle.blockCount = n := by
        have word := Cursor.growable_word growable
        unfold blockCount Cursor.blockCount
        rw [growable.blocks]
        omega
      change Yields _ _ ((if handle.blockCount < m then _ else _ : OnHandle Nat) handle)
      rw [count]
      by_cases more : n < m
      swap
      · obtain rfl : n = m := by omega
        rw [if_neg more]
        exact .ok ⟨handle.cursor, rfl, Cursor.lengthened_self growable, rfl,
          fun less => absurd less more⟩
      rw [if_pos more]
      by_cases room : n < capacity handle.cursor.tableSize
      swap
      · have inside := growable.tree.inside
        have full := Cursor.allocate_full growable (by omega)
        exact yields_bind (yields_on_cursor full) fun _ _ ⟨_, _, impossible⟩ => impossible.elim
      obtain ⟨left, rounds_⟩ : ∃ left, m - n = left + 1 := ⟨m - n - 1, by omega⟩
      rw [rounds_] at vacant
      have next := Cursor.vacant_of_plan growable room vacant
      cases ran : Cursor.allocateNewBlock handle.cursor with
      | error failure cursor =>
          have stops : onCursor Cursor.allocateNewBlock handle = .error failure
              { handle with cursor := cursor } := by
            unfold onCursor
            rw [ran]
          rw [state_bind_error stops]
          exact .error trivial
      | ok number cursor =>
          have returns : onCursor Cursor.allocateNewBlock handle = .ok number
              { handle with cursor := cursor } := by
            unfold onCursor
            rw [ran]
          rw [state_bind_ok returns]
          have lengthens := Cursor.allocate_lengthens growable next ran room
          obtain ⟨took, counted⟩ := Cursor.allocate_took growable next ran room
          have later := Cursor.plan_after growable room lengthens vacant
          have remaining : m - (n + 1) = left := by omega
          rw [← remaining] at later
          refine yields_weaken (ih { handle with cursor := cursor }
            _ lengthens.growable later more) ?_
            fun _ _ => trivial
          rintro total _ ⟨final, rfl, lengthened, balance, -⟩
          refine ⟨final, rfl, Cursor.lengthened_succ growable lengthens lengthened, ?_, fun _ => ?_⟩
          · have card : cursor.treeSize = handle.cursor.treeSize +
                (handle.cursor.nextBlocks n).length :=
              lengthens.card
            have add : add32 diffAlloc number = (diffAlloc + number) % 2 ^ 32 := rfl
            rw [add] at balance
            change (total + cursor.treeSize) % 2 ^ 32 = _ at balance
            omega
          · have some_ : (handle.cursor.nextBlocks n).length =
                (handle.cursor.nextBlocks n).length - 1 + 1 := by
              have positive := Cursor.new_places_pos growable room
              have many := lengthens.many.trans (Cursor.missing_eq_new growable room)
              omega
            rw [some_] at took
            exact took_writable took

end Handle

end Campix.Ext2
