import Campix.Ext2.AppendedBlocks
import Campix.Ext2.Upkeep

/-!
# A growth that runs out of space

`grow` appends one block after the other. When no block is free it returns the error and
leaves behind what the appends before have done; the handle is as before exactly when the
first block that is asked for is already missing.
-/

namespace Campix.Ext2

open Lib.Fallible Lib.Outcome Drivers

set_option autoImplicit false

namespace Ext2Volume

variable {volume after : Ext2Volume}

def Full (volume : Ext2Volume) : Prop :=
  ∀ group allocator, volume.getBlockAllocatorForGroup group = some allocator →
    allocator.bitmap.findFirstUnset = none

theorem full_of_frame (same : after.frame = volume.frame) (full : after.Full) : volume.Full := by
  intro group allocator found
  apply full group allocator
  rw [← found]
  change after.frame.getBlockAllocatorForGroup group = volume.frame.getBlockAllocatorForGroup group
  rw [same]

theorem alloc_block_none {allocator : BlockAllocator}
    (none : allocator.bitmap.findFirstUnset = none) :
    allocator.allocBlock = .error .outOfSpace := by
  unfold BlockAllocator.allocBlock
  rw [none]

theorem alloc_block_error {allocator : BlockAllocator} {error : VfsError}
    (failed : allocator.allocBlock = .error error) : allocator.bitmap.findFirstUnset = none := by
  unfold BlockAllocator.allocBlock at failed
  cases found : allocator.bitmap.findFirstUnset with
  | none => rfl
  | some bitIndex =>
      rw [found] at failed
      cases failed

/-- The scan of the groups changes nothing unless it finds a block. -/
theorem alloc_block_from_full (full : volume.Full) (groups : Nat) : ∀ group,
    allocBlockFrom groups group volume = .error noSpace volume := by
  induction groups with
  | zero =>
      intro group
      rfl
  | succ groups ih =>
      intro group
      rw [allocBlockFrom, state_bind_get]
      cases found : volume.getBlockAllocatorForGroup group with
      | none => exact ih (group + 1)
      | some allocator =>
          dsimp only
          rw [alloc_block_none (full group allocator found)]
          exact ih (group + 1)

theorem alloc_block_from_error {failure : Failure} (groups : Nat) : ∀ group,
    allocBlockFrom groups group volume = .error failure after →
      after = volume ∧ ∀ seen allocator, group ≤ seen → seen < group + groups →
        volume.getBlockAllocatorForGroup seen = some allocator →
          allocator.bitmap.findFirstUnset = none := by
  induction groups with
  | zero =>
      intro group failed
      cases failed
      refine ⟨rfl, fun seen _ lower upper => ?_⟩
      omega
  | succ groups ih =>
      intro group failed
      rw [allocBlockFrom, state_bind_get] at failed
      have first : allocBlockFrom groups (group + 1) volume = .error failure after ∧
          ∀ allocator, volume.getBlockAllocatorForGroup group = some allocator →
            allocator.bitmap.findFirstUnset = none := by
        cases found : volume.getBlockAllocatorForGroup group with
        | none =>
            rw [found] at failed
            exact ⟨failed, fun _ impossible => by cases impossible⟩
        | some allocator =>
            rw [found] at failed
            dsimp only at failed
            cases allocated : allocator.allocBlock with
            | ok result =>
                rw [allocated] at failed
                cases failed
            | error error =>
                rw [allocated] at failed
                refine ⟨failed, fun other same => ?_⟩
                cases same
                exact alloc_block_error allocated
      obtain ⟨same, later⟩ := ih (group + 1) first.1
      refine ⟨same, fun seen allocator lower upper found => ?_⟩
      by_cases here : seen = group
      · subst here
        exact first.2 allocator found
      · exact later seen allocator (by omega) (by omega) found

theorem alloc_block_any_error {failure : Failure}
    (failed : allocBlockAny volume = .error failure after) : after = volume ∧ volume.Full := by
  obtain ⟨same, none⟩ := alloc_block_from_error volume.blockGroupCount 0 failed
  refine ⟨same, fun group allocator found => none group allocator (Nat.zero_le _) ?_ found⟩
  unfold getBlockAllocatorForGroup at found
  split_ifs at found
  omega

def SameOutline (volume after : Ext2Volume) : Prop :=
  ∃ bitmaps, after.frame = { volume.frame with bitmaps := bitmaps }

theorem alloc_block_from_outline (groups : Nat) : ∀ {block : Nat} (group : Nat),
    allocBlockFrom groups group volume = .ok block after → SameOutline volume after := by
  induction groups with
  | zero =>
      intro block group impossible
      cases impossible
  | succ groups ih =>
      intro block group allocates
      rw [allocBlockFrom, state_bind_get] at allocates
      cases found : volume.getBlockAllocatorForGroup group with
      | none =>
          rw [found] at allocates
          exact ih (group + 1) allocates
      | some allocator =>
          rw [found] at allocates
          dsimp only at allocates
          cases allocated : allocator.allocBlock with
          | ok result =>
              rw [allocated] at allocates
              cases allocates
              exact ⟨_, rfl⟩
          | error error =>
              rw [allocated] at allocates
              exact ih (group + 1) allocates

theorem same_outline_trans {middle : Ext2Volume} (begins : SameOutline volume middle)
    (ends : SameOutline middle after) : SameOutline volume after := by
  obtain ⟨_, first⟩ := begins
  obtain ⟨bitmaps, second⟩ := ends
  refine ⟨bitmaps, ?_⟩
  rw [second, first]

end Ext2Volume

open Ext2Volume

namespace Cursor

variable {Value Result : Type} {cursor after : Cursor} {allocation : Allocation}

/-- What no append of a block touches before it has succeeded. -/
structure Kept (cursor after : Cursor) : Prop where
  outline : SameOutline cursor.volume after.volume
  blocks : after.location.maxBlockExclusive = cursor.location.maxBlockExclusive

theorem kept_trans {middle : Cursor} (begins : Kept cursor middle) (ends : Kept middle after) :
    Kept cursor after :=
  ⟨same_outline_trans begins.outline ends.outline, ends.blocks.trans begins.blocks⟩

theorem kept_of_frame (same : after.frame = cursor.frame) : Kept cursor after := by
  constructor
  · exact ⟨_, volume_of_frame same⟩
  · change after.frame.location.maxBlockExclusive = cursor.frame.location.maxBlockExclusive
    rw [same]

/-- An operation that runs out of space only when the volume is full. -/
inductive Exhausts (cursor : Cursor) : EStateM.Result Failure Cursor Value → Prop
  | ok {value : Value} {after : Cursor} (kept : Kept cursor after) : Exhausts cursor
    (.ok value after)
  | full {after : Cursor} (kept : Kept cursor after) (full : after.volume.Full) :
      Exhausts cursor (.error noSpace after)
  | other {failure : Failure} {after : Cursor} (different : failure ≠ noSpace) :
      Exhausts cursor (.error failure after)

theorem exhausts_bind {first : OnCursor Value} {rest : Value → OnCursor Result}
    (begins : Exhausts cursor (first cursor))
    (continues : ∀ value after, Exhausts after (rest value after)) :
    Exhausts cursor ((first >>= rest) cursor) := by
  cases outcome : first cursor with
  | ok value middle =>
      rw [state_bind_ok outcome]
      rw [outcome] at begins
      cases begins with
      | ok kept =>
          have ends := continues value middle
          cases ending : rest value middle with
          | ok result after =>
              rw [ending] at ends
              cases ends with
              | ok keptLater => exact .ok (kept_trans kept keptLater)
          | error failure after =>
              rw [ending] at ends
              cases ends with
              | full keptLater full => exact .full (kept_trans kept keptLater) full
              | other different => exact .other different
  | error failure middle =>
      rw [state_bind_error outcome]
      rw [outcome] at begins
      cases begins with
      | full kept full => exact .full kept full
      | other different => exact .other different

def Undemanding (operation : OnCursor Value) : Prop :=
  Maintains (fun cursor => Spared noSpace cursor.volume) (fun found _ => found ≠ noSpace) operation

theorem exhausts_of_frame {operation : OnCursor Value} (undemanding : Undemanding operation)
    (frames : Yields (fun _ after => after.frame = cursor.frame) (fun _ => True)
      (operation cursor)) :
    Exhausts cursor (operation cursor) := by
  cases outcome : operation cursor with
  | ok value after =>
      rw [outcome] at frames
      cases frames with
      | ok same => exact .ok (kept_of_frame same)
  | error failure after =>
      have settles := undemanding cursor (.inl rfl)
      unfold Settles at settles
      rw [outcome] at settles
      cases settles with
      | error different => exact .other different

theorem kept_self (cursor : Cursor) : Kept cursor cursor := kept_of_frame rfl

theorem balloc_exhausts : Exhausts cursor (balloc allocation cursor) := by
  rw [balloc, state_bind_get]
  cases found : cursor.volume.getBlockAllocatorForGroup allocation.group with
  | none => exact .other (by decide)
  | some allocator =>
      dsimp only
      cases allocated : allocator.allocBlock with
      | ok result => exact .ok ⟨⟨_, rfl⟩, rfl⟩
      | error error =>
          apply exhausts_bind
          · unfold onVolume
            cases any : allocBlockAny cursor.volume with
            | ok block volume => exact .ok ⟨alloc_block_from_outline _ 0 any, rfl⟩
            | error failure volume =>
                obtain ⟨rfl, full⟩ := alloc_block_any_error any
                obtain rfl : failure = noSpace := by
                  have fails : allocBlockAny cursor.volume = .error noSpace cursor.volume :=
                    alloc_block_from_full full _ 0
                  rw [any] at fails
                  cases fails
                  rfl
                exact .full (kept_self cursor) full
          · intro block middle
            exact .ok (kept_self middle)

/-- On a full volume nothing is handed out, and nothing is changed. -/
theorem balloc_full (full : cursor.volume.Full) :
    ∃ failure, balloc allocation cursor = .error failure cursor := by
  rw [balloc, state_bind_get]
  cases found : cursor.volume.getBlockAllocatorForGroup allocation.group with
  | none => exact ⟨_, rfl⟩
  | some allocator =>
      dsimp only
      rw [alloc_block_none (full _ allocator found)]
      have fails : onVolume allocBlockAny cursor = .error noSpace cursor := by
        unfold onVolume
        rw [show allocBlockAny cursor.volume = .error noSpace cursor.volume from
          alloc_block_from_full full _ 0]
      exact ⟨_, state_bind_error fails⟩

theorem fill_entry_exhausts {load : OnCursor Unit} (level : Fin 3) (turn : Nat)
    (loads : ∀ middle : Cursor, Exhausts middle (load middle)) :
    Exhausts cursor (fillEntry level turn load allocation cursor) := by
  change Exhausts cursor ((if entry (cursor.location.tables level).table turn = 0 then _ else _ :
    OnCursor Allocation) cursor)
  split_ifs
  · apply exhausts_bind balloc_exhausts
    intro result middle
    apply @exhausts_bind _ _ middle
    · exact .ok ⟨⟨_, rfl⟩, rfl⟩
    · intro _ linked
      apply exhausts_bind (loads linked)
      intro _ loaded
      exact .ok (kept_self loaded)
  · exact .ok (kept_self cursor)

theorem load_level_undemanding (level : Nat) : Undemanding (loadLevel level) := by
  match level with
  | 0 => exact maintains_pure _
  | 1 => exact maintains_check_table2 spares_stable
  | 2 => exact maintains_check_table3 spares_stable
  | _ + 3 => exact maintains_pure _

theorem fill_exhausts (turns : List Nat) :
    ∀ (level : Nat) (cursor : Cursor) (allocation : Allocation),
    Exhausts cursor (fill level turns allocation cursor) := by
  induction turns with
  | nil =>
      intro level cursor allocation
      exact .ok (kept_self cursor)
  | cons turn turns ih =>
      intro level cursor allocation
      cases turns with
      | nil => exact fill_entry_exhausts _ turn fun middle => .ok (kept_self middle)
      | cons next turns =>
          apply exhausts_bind
          · apply fill_entry_exhausts
            intro middle
            exact exhausts_of_frame (load_level_undemanding _) (load_level_frame _)
          · intro allocation middle
            exact ih (level + 1) middle allocation

theorem link_table1_exhausts (pointer : Inode → Nat) (setPointer : Nat → Inode → Inode) :
    Exhausts cursor (linkTable1 pointer setPointer allocation cursor) := by
  change Exhausts cursor ((if pointer cursor.location.inode = 0 then _ else _ : OnCursor Allocation)
    cursor)
  split_ifs
  · apply exhausts_bind balloc_exhausts
    intro result middle
    apply @exhausts_bind _ _ middle
    · exact .ok ⟨⟨_, rfl⟩, rfl⟩
    · intro _ linked
      apply exhausts_bind (exhausts_of_frame (maintains_check_table1 spares_stable)
        check_table1_frame)
      intro _ loaded
      exact .ok (kept_self loaded)
  · exact .ok (kept_self cursor)

theorem link_head_exhausts (location : InodeReadingLocationInfo) :
    Exhausts cursor (linkHead location allocation cursor) := by
  cases location with
  | direct d => exact .ok (kept_self cursor)
  | single i => exact link_table1_exhausts _ _
  | double i j => exact link_table1_exhausts _ _
  | triple i j k => exact link_table1_exhausts _ _

theorem append_direct_eq {d : Nat} (place : cursor.location.location.location = .direct d) :
    appendBlock allocation cursor = (if inside : d < 12 then
      if cursor.location.inode.directBlockPointers ⟨d, inside⟩ = 0 then do
        let (block, allocation) ← balloc allocation
        modifyInode (setDirect d block)
        return allocation
      else return allocation
    else throw .panic : OnCursor Allocation) cursor := by
  rw [appendBlock, state_bind_get, place]

theorem direct_or_turns (location : InodeReadingLocationInfo) :
    (∃ d, location = .direct d) ∨ turns location ≠ [] := by
  cases location with
  | direct d => exact .inl ⟨d, rfl⟩
  | single i => exact .inr (List.cons_ne_nil _ _)
  | double i j => exact .inr (List.cons_ne_nil _ _)
  | triple i j k => exact .inr (List.cons_ne_nil _ _)

theorem append_block_exhausts : Exhausts cursor (appendBlock allocation cursor) := by
  rcases direct_or_turns cursor.location.location.location with ⟨d, place⟩ | indirect
  · rw [append_direct_eq place]
    split_ifs
    · apply exhausts_bind balloc_exhausts
      intro result middle
      exact .ok ⟨⟨_, rfl⟩, rfl⟩
    · exact .ok (kept_self cursor)
    · exact .other (by decide)
  · rw [append_block_eq rfl indirect]
    exact exhausts_bind (link_head_exhausts _) fun allocation middle =>
      fill_exhausts _ 0 middle allocation

/-- A pointer on the way to the block at the location is zero, in the inode or in the
tables that are loaded. -/
def WantsBlock (cursor : Cursor) : Prop :=
  head cursor.location.inode cursor.location.location.location = 0 ∨
    ∃ level turn, (turns cursor.location.location.location)[level]? = some turn ∧
      entry (cursor.location.tables (Fin.ofNat 3 level)).table turn = 0

theorem fill_present (turns : List Nat) : ∀ level,
    (∀ place turn, turns[place]? = some turn →
      entry (cursor.location.tables (Fin.ofNat 3 (level + place))).table turn ≠ 0) →
    fill level turns allocation cursor = .ok allocation cursor := by
  induction turns with
  | nil =>
      intro level present
      rfl
  | cons turn turns ih =>
      intro level present
      have here : entry (cursor.location.tables (Fin.ofNat 3 level)).table turn ≠ 0 :=
        present 0 turn rfl
      cases turns with
      | nil => exact fill_entry_skips here
      | cons next turns =>
          unfold fill
          rw [state_bind_ok (fill_entry_skips here)]
          apply ih (level + 1)
          intro place later found
          rw [Nat.add_right_comm]
          exact present (place + 1) later found

theorem fill_entry_full {level : Fin 3} {turn : Nat} {load : OnCursor Unit}
    (full : cursor.volume.Full)
    (free : entry (cursor.location.tables level).table turn = 0) :
    ∃ failure, fillEntry level turn load allocation cursor = .error failure cursor := by
  obtain ⟨failure, fails⟩ := @balloc_full cursor allocation full
  refine ⟨failure, ?_⟩
  change (if entry (cursor.location.tables level).table turn = 0 then _ else _ :
    OnCursor Allocation) cursor = _
  rw [if_pos free, state_bind_error fails]

theorem fill_full (full : cursor.volume.Full) (turns : List Nat) : ∀ level,
    (∃ place turn, turns[place]? = some turn ∧
      entry (cursor.location.tables (Fin.ofNat 3 (level + place))).table turn = 0) →
    ∃ failure, fill level turns allocation cursor = .error failure cursor := by
  induction turns with
  | nil =>
      intro level wanted
      obtain ⟨place, turn, impossible, -⟩ := wanted
      cases impossible
  | cons turn turns ih =>
      intro level wanted
      obtain ⟨place, later, found, free⟩ := wanted
      by_cases here : entry (cursor.location.tables (Fin.ofNat 3 level)).table turn = 0
      · cases turns with
        | nil => exact fill_entry_full full here
        | cons next turns =>
            obtain ⟨failure, fails⟩ := @fill_entry_full _ allocation _ _ (loadLevel (level + 1))
              full here
            exact ⟨failure, state_bind_error fails⟩
      · -- the zero is behind an entry that is taken as it is
        cases place with
        | zero =>
            cases found
            exact absurd free here
        | succ place =>
            cases turns with
            | nil => cases found
            | cons next turns =>
                unfold fill
                rw [state_bind_ok (fill_entry_skips here)]
                apply ih (level + 1)
                refine ⟨place, later, found, ?_⟩
                rw [Nat.add_right_comm]
                exact free

theorem link_table1_full {pointer : Inode → Nat} {setPointer : Nat → Inode → Inode}
    (full : cursor.volume.Full) (free : pointer cursor.location.inode = 0) :
    ∃ failure, linkTable1 pointer setPointer allocation cursor = .error failure cursor := by
  obtain ⟨failure, fails⟩ := @balloc_full cursor allocation full
  refine ⟨failure, ?_⟩
  change (if pointer cursor.location.inode = 0 then _ else _ : OnCursor Allocation) cursor = _
  rw [if_pos free, state_bind_error fails]

theorem link_table1_present {pointer : Inode → Nat} {setPointer : Nat → Inode → Inode}
    (present : pointer cursor.location.inode ≠ 0) :
    linkTable1 pointer setPointer allocation cursor = .ok allocation cursor := by
  change (if pointer cursor.location.inode = 0 then _ else _ : OnCursor Allocation) cursor = _
  rw [if_neg present]
  rfl

theorem link_head_present {location : InodeReadingLocationInfo}
    (present : head cursor.location.inode location ≠ 0) :
    linkHead location allocation cursor = .ok allocation cursor := by
  cases location with
  | direct d => rfl
  | single i => exact link_table1_present present
  | double i j => exact link_table1_present present
  | triple i j k => exact link_table1_present present

theorem link_head_full {location : InodeReadingLocationInfo} (full : cursor.volume.Full)
    (indirect : turns location ≠ []) (free : head cursor.location.inode location = 0) :
    ∃ failure, linkHead location allocation cursor = .error failure cursor := by
  cases location with
  | direct d => exact absurd rfl indirect
  | single i => exact link_table1_full full free
  | double i j => exact link_table1_full full free
  | triple i j k => exact link_table1_full full free

theorem append_block_present (present : ¬cursor.WantsBlock) :
    appendBlock allocation cursor = .ok allocation cursor := by
  have headPresent : head cursor.location.inode cursor.location.location.location ≠ 0 :=
    fun zero => present (.inl zero)
  rcases direct_or_turns cursor.location.location.location with ⟨d, place⟩ | indirect
  · rw [append_direct_eq place]
    rw [place] at headPresent
    simp only [head] at headPresent
    split_ifs with inside zero
    · rw [dif_pos inside] at headPresent
      exact absurd zero headPresent
    · rfl
    · rw [dif_neg inside] at headPresent
      exact absurd rfl headPresent
  · rw [append_block_eq rfl indirect, state_bind_ok (link_head_present headPresent)]
    apply fill_present _ 0
    intro level turn found zero
    rw [Nat.zero_add] at zero
    exact present (.inr ⟨level, turn, found, zero⟩)

/-- On a full volume an append that asks for a block fails and leaves everything as it is. -/
theorem append_block_full (full : cursor.volume.Full) (wants : cursor.WantsBlock) :
    ∃ failure, appendBlock allocation cursor = .error failure cursor := by
  rcases direct_or_turns cursor.location.location.location with ⟨d, place⟩ | indirect
  · rw [append_direct_eq place]
    split_ifs with inside zero
    · obtain ⟨failure, fails⟩ := @balloc_full cursor allocation full
      exact ⟨failure, state_bind_error fails⟩
    · unfold WantsBlock at wants
      rw [place] at wants
      simp [head, turns, inside, zero] at wants
    · exact ⟨_, rfl⟩
  · rw [append_block_eq rfl indirect]
    by_cases zero : head cursor.location.inode cursor.location.location.location = 0
    · obtain ⟨failure, fails⟩ := @link_head_full cursor allocation _ full indirect zero
      exact ⟨failure, state_bind_error fails⟩
    · rw [state_bind_ok (link_head_present zero)]
      apply fill_full full
      simp only [Nat.zero_add]
      exact wants.resolve_left zero

def Moved (cursor after : Cursor) : Prop :=
  ∃ location, after.frame =
    { cursor with location := { cursor.location with location := location } }.frame

theorem get_next_block_yields :
    Yields (fun _ after => after = cursor) (fun _ => True) (getNextBlock cursor) := by
  rw [getNextBlock, state_bind_get]
  cases cursor.location.location.location with
  | direct d =>
      dsimp only
      split_ifs
      · exact .ok rfl
      · exact .error trivial
  | single i => exact follow_yields 0 i
  | double i j => exact follow_yields 1 j
  | triple i j k => exact follow_yields 2 k

theorem move_behind_last_moved :
    Yields (fun _ after => cursor.Moved after) (fun _ => True) (moveBehindLast cursor) := by
  change Yields _ _ ((if cursor.location.maxBlockExclusive = 0 then _ else _ : OnCursor Nat) cursor)
  split_ifs
  · exact yields_bind (seek_frame 0) fun _ sought moved => .ok moved
  · apply yields_bind (seek_frame _)
    intro _ sought moved
    apply yields_bind get_next_block_yields
    intro block same unchanged
    rw [unchanged]
    rw [state_bind_get]
    cases sought.location.location.advance with
    | none => exact .error trivial
    | some next =>
        obtain ⟨location, framed⟩ := moved
        refine .ok ⟨next, ?_⟩
        have volume := congrArg Cursor.volume framed
        have rest := congrArg (fun cursor => { cursor.location with location := next }) framed
        exact Cursor.mk.injEq .. ▸ ⟨volume, rest⟩

theorem check_table_views {contents : Contents} (views : cursor.Views contents) (level : Fin 3)
    (addr : Nat) :
    Yields (fun _ after => after.Views contents) (fun _ => True) (checkTable level addr cursor) :=
  yields_weaken (check_table_spec views level addr) (fun _ _ checked => checked.views) fun _ _ =>
    trivial

variable {contents : Contents}

theorem check_followed_views {addrOfTable : OnCursor Nat} (views : cursor.Views contents)
    (level : Fin 3)
    (reads : Yields (fun _ after => after = cursor) (fun _ => True) (addrOfTable cursor)) :
    Yields (fun _ after => after.Views contents) (fun _ => True)
      ((addrOfTable >>= checkTable level) cursor) := by
  apply yields_bind reads
  intro found after same
  rw [same]
  exact check_table_views views level found

/-- Moving the location writes tables back, and the volume looks the same. -/
theorem seek_views (views : cursor.Views contents) (block : Nat) :
    Yields (fun _ after => after.Views contents) (fun _ => True) (seek block cursor) := by
  rw [seek, state_bind_get]
  cases InodeReadingLocation.new (cursor.volume.blockSize / 4) block with
  | none => exact .error trivial
  | some location =>
      have start : Yields (fun _ after => after.Views contents) (fun _ => True)
          (modifyLocation (fun cached => { cached with location := location }) cursor) :=
        .ok ⟨views.stores, views.sized, views.changed, views.unchanged⟩
      apply yields_bind start
      intro _ moved movedViews
      apply yields_bind (check_table_views movedViews 0 _)
      intro _ first firstViews
      apply yields_bind (check_followed_views firstViews 1 addr_of_table2_yields)
      intro _ second secondViews
      exact check_followed_views secondViews 2 addr_of_table3_yields

theorem move_behind_last_views (views : cursor.Views contents) :
    Yields (fun _ after => after.Views contents) (fun _ => True) (moveBehindLast cursor) := by
  change Yields _ _ ((if cursor.location.maxBlockExclusive = 0 then _ else _ : OnCursor Nat) cursor)
  split_ifs
  · exact yields_bind (seek_views views 0) fun _ sought moved => .ok moved
  · apply yields_bind (seek_views views _)
    intro _ sought soughtViews
    apply yields_bind get_next_block_yields
    intro block same unchanged
    rw [unchanged]
    rw [state_bind_get]
    cases sought.location.location.advance with
    | none => exact .error trivial
    | some next =>
        exact .ok ⟨soughtViews.stores, soughtViews.sized, soughtViews.changed,
          soughtViews.unchanged⟩

theorem kept_of_moved (moved : cursor.Moved after) : Kept cursor after := by
  obtain ⟨location, same⟩ := moved
  have kept : Kept { cursor with location := { cursor.location with location := location } }
    after :=
    kept_of_frame same
  exact ⟨kept.outline, kept.blocks⟩

theorem append_block_keeps :
    Yields (fun _ after => Kept cursor after) (fun _ => True) (appendBlock allocation cursor) := by
  have exhausts := @append_block_exhausts cursor allocation
  cases outcome : appendBlock allocation cursor with
  | ok next after =>
      rw [outcome] at exhausts
      cases exhausts with
      | ok kept => exact .ok kept
  | error failure after => exact .error trivial

theorem allocate_new_block_counts :
    Yields (fun _ after => SameOutline cursor.volume after.volume ∧
        after.location.maxBlockExclusive = cursor.location.maxBlockExclusive + 1)
      (fun _ => True) (allocateNewBlock cursor) := by
  apply yields_bind move_behind_last_moved
  intro group moved behind
  have start := kept_of_moved behind
  change Yields _ _ ((if _ > 0xFFFF_FFFF then _ else _ : OnCursor Nat) moved)
  split_ifs
  · exact .error trivial
  · apply yields_bind append_block_keeps
    intro allocation appended kept
    have whole := kept_trans start kept
    refine .ok ⟨whole.outline, ?_⟩
    rw [← whole.blocks]

theorem allocate_new_block_error (failed : allocateNewBlock cursor = .error noSpace after) :
    ∃ group moved, moveBehindLast cursor = .ok group moved ∧
      appendBlock ⟨group, 0⟩ moved = .error noSpace after := by
  obtain ⟨group, moved, behind, rest⟩ :=
    error_of_bind (maintains_move_behind_last (@spares_stable noSpace)) (.inl rfl) failed
  refine ⟨group, moved, behind, ?_⟩
  change (if _ > 0xFFFF_FFFF then _ else _ : OnCursor Nat) moved = _ at rest
  split_ifs at rest
  · cases rest
  · have everywhere : ∀ cursor : Cursor, Spared noSpace cursor.volume := fun _ => .inl rfl
    apply error_of_first everywhere _ rest
    intro allocation
    exact maintains_bind (maintains_modify fun _ holds => holds) fun _ => maintains_pure _

theorem allocate_new_block_full (failed : allocateNewBlock cursor = .error noSpace after) :
    Kept cursor after ∧ after.volume.Full := by
  obtain ⟨group, moved, behind, rest⟩ := allocate_new_block_error failed
  have moves := @move_behind_last_moved cursor
  rw [behind] at moves
  have exhausts := @append_block_exhausts moved ⟨group, 0⟩
  rw [rest] at exhausts
  cases moves with
  | ok holds =>
      cases exhausts with
      | full kept full => exact ⟨kept_trans (kept_of_moved holds) kept, full⟩
      | other different => exact absurd rfl different

/-- A pointer on the way to the block behind the last one is missing. -/
def LacksNext (cursor : Cursor) : Prop :=
  ∃ group moved, moveBehindLast cursor = .ok group moved ∧ moved.WantsBlock

variable {Tables : Fin 3 → Nat → Prop} {n : Nat} {location : InodeReadingLocationInfo}

theorem way_step {level turn pointer : Nat} (sane : cursor.Sane contents Tables)
    (loaded : cursor.LoadedTo contents Tables location)
    (found : (way cursor.location.inode contents location)[level]? = some pointer)
    (there : ∀ before ≤ level, ∀ table,
      (way cursor.location.inode contents location)[before]? = some table → table ≠ 0)
    (here : (turns location)[level]? = some turn) :
    (way cursor.location.inode contents location)[level + 1]? =
      some (entry (cursor.location.tables (Fin.ofNat 3 level)).table turn) := by
  have nonzero := there level (Nat.le_refl _) pointer found
  obtain ⟨isTable, addr⟩ := loaded level pointer (List.getElem?_eq_some_iff.mp here).1 found nonzero
  rw [(sane.ready _ pointer isTable).1 addr]
  exact chase_step found there here

/-- Where the tables on the way are loaded, a block is asked for if a pointer on the way is
zero. -/
theorem wants_block_iff (sane : cursor.Sane contents Tables)
    (loaded : cursor.LoadedTo contents Tables location)
    (place : cursor.location.location.location = location) :
    cursor.WantsBlock ↔ 0 ∈ way cursor.location.inode contents location := by
  have pointerAt : ∀ level, level ≤ (turns location).length →
      ∃ pointer, (way cursor.location.inode contents location)[level]? = some pointer := by
    intro level bound
    have inside : level < (way cursor.location.inode contents location).length := by
      rw [way, length_chase]
      omega
    exact ⟨_, List.getElem?_eq_getElem inside⟩
  unfold WantsBlock
  rw [place]
  constructor
  · intro wants
    by_contra absent
    have there : ∀ (level : Nat) (pointer : Nat),
        (way cursor.location.inode contents location)[level]? = some pointer → pointer ≠ 0 := by
      rintro level _ found rfl
      exact absent (List.mem_of_getElem? found)
    rcases wants with zero | ⟨level, turn, here, zero⟩
    · exact there 0 _ (chase_head _ _) zero
    · obtain ⟨pointer, found⟩ := pointerAt level (List.getElem?_eq_some_iff.mp here).1.le
      exact there _ _ (way_step sane loaded found (fun before _ => there before) here) zero
  · intro member
    by_contra present
    -- by induction along the way, no pointer is zero
    have there : ∀ level : Nat, ∀ before ≤ level, ∀ table,
        (way cursor.location.inode contents location)[before]? = some table → table ≠ 0 := by
      intro level
      induction level with
      | zero =>
          intro before bound table found zero
          obtain rfl : before = 0 := Nat.le_zero.mp bound
          rw [way, chase_head, zero] at found
          exact present (.inl (Option.some.inj found))
      | succ level ih =>
          intro before bound table found zero
          by_cases last : before = level + 1
          · subst last
            have inside := (List.getElem?_eq_some_iff.mp found).1
            rw [way, length_chase] at inside
            obtain ⟨pointer, passed⟩ := pointerAt level (by omega)
            have here : (turns location)[level]? = some ((turns location)[level]) :=
              List.getElem?_eq_getElem (by omega)
            rw [way_step sane loaded passed ih here] at found
            exact present (.inr ⟨level, _, here, (Option.some.inj found).trans zero⟩)
          · exact ih before (by omega) table found zero
    obtain ⟨level, _, found⟩ := List.getElem_of_mem member
    exact there level level (Nat.le_refl _) 0 (List.getElem?_eq_some_iff.mpr ⟨_, found⟩) rfl

/-- For a file that ends behind its last block the way can be read off the volume. -/
theorem lacks_next_iff {group : Nat} {moved : Cursor} (ext : cursor.Extensible Tables n)
    (moves : moveBehindLast cursor = .ok group moved) :
    cursor.LacksNext ↔ 0 ∈ way cursor.location.inode cursor.view (locate cursor.tableSize n) := by
  have spec := move_behind_last_spec ext
  rw [moves] at spec
  cases spec with
  | ok holds =>
      obtain ⟨-, behind⟩ := holds
      have inode : moved.location.inode = cursor.location.inode :=
        congrArg (fun cursor => cursor.location.inode) behind.frame
      have wants := wants_block_iff behind.sane behind.loaded (congrArg _ behind.place)
      rw [inode] at wants
      rw [← wants]
      constructor
      · intro lacks
        obtain ⟨_, _, again, missing⟩ := lacks
        rw [moves] at again
        cases again
        exact missing
      · intro missing
        exact ⟨group, moved, moves, missing⟩

/-- On a full volume the first block that is missing ends the append, and only the location
has moved. -/
theorem allocate_new_block_lacking {group : Nat} {moved : Cursor} (full : cursor.volume.Full)
    (behind : moveBehindLast cursor = .ok group moved) (wants : moved.WantsBlock) :
    cursor.Moved moved ∧ ∃ failure, allocateNewBlock cursor = .error failure moved := by
  have moves := @move_behind_last_moved cursor
  rw [behind] at moves
  cases moves with
  | ok holds =>
      refine ⟨holds, ?_⟩
      obtain ⟨location, same⟩ := holds
      have still : moved.volume.Full := full_of_frame (congrArg Cursor.volume same).symm full
      obtain ⟨failure, fails⟩ := @append_block_full moved ⟨group, 0⟩ still wants
      unfold allocateNewBlock
      rw [state_bind_ok behind]
      change ∃ failure, (if _ > 0xFFFF_FFFF then _ else _ : OnCursor Nat)
        moved = .error failure moved
      split_ifs
      · exact ⟨_, rfl⟩
      · exact ⟨failure, state_bind_error fails⟩

end Cursor

namespace Handle

variable {handle after : Handle} {newBlockCount : Nat}

/-- What is left behind by a growth that ran out of space: it is the first append that
failed, or blocks were appended before. -/
structure RanOut (handle after : Handle) : Prop where
  size : after.size = handle.size
  outline : SameOutline handle.cursor.volume after.cursor.volume
  full : after.cursor.volume.Full
  rounds : Cursor.allocateNewBlock handle.cursor = .error noSpace after.cursor ∨
    (∃ count next, Cursor.allocateNewBlock handle.cursor = .ok count next) ∧
      handle.cursor.location.maxBlockExclusive < after.cursor.location.maxBlockExclusive

theorem ran_out_at_least (ranOut : handle.RanOut after) :
    handle.cursor.location.maxBlockExclusive ≤ after.cursor.location.maxBlockExclusive := by
  rcases ranOut.rounds with first | ⟨-, later⟩
  · exact (Cursor.allocate_new_block_full first).1.blocks.ge
  · exact later.le

theorem grow_loop_error (rounds : Nat) : ∀ (handle : Handle) (diffAlloc : Nat),
    growLoop newBlockCount rounds diffAlloc handle = .error noSpace after →
      handle.RanOut after := by
  induction rounds with
  | zero =>
      intro handle diffAlloc failed
      cases failed
  | succ rounds ih =>
      intro handle diffAlloc failed
      change (if handle.blockCount < newBlockCount then _ else _ : OnHandle Nat)
        handle = _ at failed
      split_ifs at failed
      · cases outcome : Cursor.allocateNewBlock handle.cursor with
        | ok count cursor =>
            have appends : onCursor Cursor.allocateNewBlock handle =
                .ok count { handle with cursor := cursor } := by
              unfold onCursor
              rw [outcome]
            rw [state_bind_ok appends] at failed
            have later := ih _ _ failed
            have counts := @Cursor.allocate_new_block_counts handle.cursor
            rw [outcome] at counts
            cases counts with
            | ok holds =>
                obtain ⟨outline, more⟩ := holds
                have least := ran_out_at_least later
                refine ⟨later.size, same_outline_trans outline later.outline, later.full,
                  .inr ⟨⟨_, _, outcome⟩, ?_⟩⟩
                change cursor.location.maxBlockExclusive ≤ _ at least
                omega
        | error failure cursor =>
            have fails : onCursor Cursor.allocateNewBlock handle =
                .error failure { handle with cursor := cursor } := by
              unfold onCursor
              rw [outcome]
            rw [state_bind_error fails] at failed
            cases failed
            obtain ⟨kept, full⟩ := Cursor.allocate_new_block_full outcome
            exact ⟨rfl, kept.outline, full, .inl outcome⟩
      · cases failed

theorem blocks_for_yields (newSize : Nat) :
    Yields (fun _ after => after = handle) (fun _ => True) (blocksFor newSize handle) := by
  change Yields _ _ ((if _ ≥ 2 ^ 32 then _ else _ : OnHandle Nat) handle)
  split_ifs
  · exact .error trivial
  · exact .ok rfl

theorem grow_error {newSize : Nat} (failed : grow newSize handle = .error noSpace after) :
    handle.RanOut after := by
  change (if newSize < handle.size then _ else _ : OnHandle Unit) handle = _ at failed
  split_ifs at failed
  · cases failed
  · obtain ⟨newBlockCount, same, counted, rest⟩ :=
      error_of_bind (maintains_blocks_for (@spares_durable noSpace) newSize) (.inl rfl) failed
    have unchanged := @blocks_for_yields handle newSize
    rw [counted] at unchanged
    cases unchanged with
    | ok holds =>
        rw [holds] at rest
        have everywhere : ∀ handle, Safe noSpace handle := fun _ => .inl rfl
        have loop := error_of_first everywhere ?_ rest
        · exact grow_loop_error _ _ _ loop
        · -- behind the loop no block is asked for
          intro diffAlloc
          exact maintains_resized spares_durable newSize _ _

structure Unchanged (before after : Handle) : Prop where
  inode : after.cursor.location.inode = before.cursor.location.inode
  tables : after.cursor.view = before.cursor.view
  size : after.size = before.size
  blocks : after.cursor.location.maxBlockExclusive = before.cursor.location.maxBlockExclusive
  bitmaps : after.cursor.volume.bitmaps = before.cursor.volume.bitmaps

def twelveBlocks (byte : UInt8) : Handle where
  cursor := {
    volume := { (Cursor.twelveBlocks 0).volume with
      bitmaps := fun group => if group = 0 then [0xFF, byte] ++ List.replicate 1022 0xFF else [] }
    location := (Cursor.twelveBlocks 0).location }
  openMode := 3
  offset := 0
  size := 12288
  blockCache := List.replicate 1024 0
  blockCacheInfo := none

theorem twelve_blocks_coherent (byte : UInt8) :
    (twelveBlocks byte).cursor.Views (twelveBlocks byte).cursor.view := by
  have views : (twelveBlocks byte).cursor.Views (twelveBlocks byte).cursor.volume.device := by
    have stores := (Cursor.twelve_blocks_views 0).stores
    exact ⟨⟨rfl, stores.cached, stores.sized, stores.positive⟩,
      (Cursor.twelve_blocks_views 0).sized,
      (Cursor.twelve_blocks_views 0).changed, fun _ _ => rfl⟩
  rwa [Cursor.view_eq views]

theorem twelve_blocks_full : (twelveBlocks 0xFF).cursor.volume.Full := by
  have scan : ∀ group < 1, ∀ allocator ∈
      (twelveBlocks 0xFF).cursor.volume.getBlockAllocatorForGroup group,
      allocator.bitmap.findFirstUnset = none := by
    decide +kernel
  intro group allocator found
  apply scan group _ allocator found
  by_contra beyond
  have none : (twelveBlocks 0xFF).cursor.volume.getBlockAllocatorForGroup group = none :=
    if_pos (Nat.not_lt.mp beyond)
  rw [none] at found
  cases found

end Handle

end Campix.Ext2
