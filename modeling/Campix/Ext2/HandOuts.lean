import Campix.Ext2.Appending

/-!
# Blocks handed out one after another

`appendBlock` takes blocks from the allocators and does nothing else to them: the volume
that it leaves has the bitmaps of so many calls of `balloc`, and the allocation names the
group of the last block. The blocks of several appends are therefore those that one row of
calls hands out.
-/

namespace Campix.Ext2

open Lib.Fallible Lib.Outcome Lib.Word

set_option autoImplicit false

namespace Ext2Volume

/-- The volume and the group behind this many calls of `balloc`. -/
def takes : Nat → Ext2Volume → Nat → Option (Ext2Volume × Nat)
  | 0, volume, group => some (volume, group)
  | count + 1, volume, group =>
      match volume.handOut group with
      | none => none
      | some (_, next, after) => takes count after next

variable {volume middle after : Ext2Volume} {group next last : Nat}

theorem takes_succ (count : Nat) {block : Nat}
    (out : volume.handOut group = some (block, next, after)) :
    takes (count + 1) volume group = takes count after next := by
  rw [takes, out]

theorem hand_outs_succ (count : Nat) {block : Nat}
    (out : volume.handOut group = some (block, next, after)) :
    handOuts (count + 1) volume group = block :: handOuts count after next := by
  rw [handOuts, out]

theorem takes_cases {count : Nat} (taken : takes (count + 1) volume group = some (after, last)) :
    ∃ block next middle, volume.handOut group = some (block, next, middle) ∧
      takes count middle next = some (after, last) := by
  cases out : volume.handOut group with
  | none =>
      rw [takes, out] at taken
      cases taken
  | some result =>
      obtain ⟨block, next, middle⟩ := result
      rw [takes_succ count out] at taken
      exact ⟨block, next, middle, rfl, taken⟩

theorem takes_add (first : Nat) : ∀ {volume : Ext2Volume} {group : Nat} (second : Nat),
    takes first volume group = some (middle, next) →
    takes (first + second) volume group = takes second middle next ∧
      handOuts (first + second) volume group =
        handOuts first volume group ++ handOuts second middle next := by
  induction first with
  | zero =>
      intro volume group second taken
      cases taken
      rw [Nat.zero_add]
      exact ⟨rfl, rfl⟩
  | succ first ih =>
      intro volume group second taken
      obtain ⟨block, following, between, out, rest⟩ := takes_cases taken
      obtain ⟨later, blocks⟩ := ih second rest
      rw [show first + 1 + second = first + second + 1 by
        omega, takes_succ _ out, hand_outs_succ _ out,
        hand_outs_succ _ out, later, blocks]
      exact ⟨rfl, rfl⟩

theorem hand_out_group (padded : volume.Padded) {block : Nat}
    (out : volume.handOut group = some (block, next, after)) :
    next = sub32 block 1 / volume.blocksPerGroup := by
  have spec := hand_out_spec padded out
  unfold handOut at out
  split at out
  · cases out
  split at out
  · cases out
    by_contra elsewhere
    have nonzero := spec.nonzero
    have index : sub32 block 1 = block - 1 := if_pos (by omega)
    rw [index] at elsewhere
    have unset := spec.free
    have set_ := spec.marks block nonzero
    rw [decide_eq_true rfl, Bool.or_true] at set_
    unfold marked at unset set_
    dsimp only at set_
    rw [Function.update_of_ne (Ne.symm elsewhere), unset] at set_
    cases set_
  · split at out
    · cases out
      rw [spec.rest]
    · cases out

/-- Blocks that were free and are marked now, with nothing else changed. -/
structure Taken (volume : Ext2Volume) (blocks : List Nat) (after : Ext2Volume) : Prop where
  nodup : blocks.Nodup
  fresh : ∀ block ∈ blocks, block ≠ 0 ∧ block < volume.blockCount ∧ volume.marked block = false
  marks : ∀ other, other ≠ 0 → after.marked other = (volume.marked other || decide (other ∈ blocks))
  padded : after.Padded
  rest : after = { volume with bitmaps := after.bitmaps }

theorem taken_cons {block : Nat} {blocks : List Nat} (out : HandedOut volume block middle)
    (taken : Taken middle blocks after) : Taken volume (block :: blocks) after := by
  have blockCount : middle.blockCount = volume.blockCount := by rw [out.rest]
  have later : ∀ other ∈ blocks, other ≠ 0 ∧ volume.marked other = false ∧ other ≠ block := by
    intro other member
    obtain ⟨nonzero, -, free⟩ := taken.fresh other member
    rw [out.marks other nonzero, Bool.or_eq_false_iff, decide_eq_false_iff_not] at free
    exact ⟨nonzero, free⟩
  refine ⟨List.nodup_cons.mpr ⟨fun member => (later block member).2.2 rfl, taken.nodup⟩, ?_, ?_,
    taken.padded, ?_⟩
  · intro other member
    rcases List.mem_cons.mp member with rfl | rest
    · exact ⟨out.nonzero, out.inside, out.free⟩
    · obtain ⟨nonzero, free, -⟩ := later other rest
      exact ⟨nonzero, blockCount ▸ (taken.fresh other rest).2.1, free⟩
  · intro other nonzero
    rw [taken.marks other nonzero, out.marks other nonzero, Bool.or_assoc]
    simp only [List.mem_cons, Bool.decide_or]
  · rw [taken.rest, out.rest]

theorem takes_spec (count : Nat) : ∀ {volume : Ext2Volume} {group : Nat}, volume.Padded →
    takes count volume group = some (after, last) →
    (handOuts count volume group).length = count ∧
      Taken volume (handOuts count volume group) after ∧
      ∀ block, (handOuts count volume group).getLast? = some block →
        last = sub32 block 1 / volume.blocksPerGroup := by
  induction count with
  | zero =>
      intro volume group padded taken
      cases taken
      refine ⟨rfl, ⟨List.nodup_nil, nofun, fun other _ => ?_, padded, rfl⟩, nofun⟩
      have none : other ∉ handOuts 0 after last := List.not_mem_nil
      rw [decide_eq_false none, Bool.or_false]
  | succ count ih =>
      intro volume group padded taken
      obtain ⟨block, next, middle, out, rest⟩ := takes_cases taken
      have spec := hand_out_spec padded out
      obtain ⟨length, later, group_⟩ := ih spec.padded rest
      have perGroup : middle.blocksPerGroup = volume.blocksPerGroup := by rw [spec.rest]
      rw [hand_outs_succ count out]
      refine ⟨by rw [List.length_cons, length], taken_cons spec later, ?_⟩
      intro final ends
      cases blocks : handOuts count middle next with
      | nil =>
          rw [blocks] at ends length
          obtain rfl : count = 0 := length.symm
          cases rest
          cases ends
          exact hand_out_group padded out
      | cons first others =>
          rw [blocks, List.getLast?_cons_cons] at ends
          rw [← perGroup]
          exact group_ final (by rw [blocks]; exact ends)

theorem takes_frame (count : Nat) : ∀ (volume : Ext2Volume) (group : Nat),
    takes count volume.frame group = (takes count volume group).map fun taken =>
      (taken.1.frame, taken.2) := by
  induction count with
  | zero =>
      intro volume group
      rfl
  | succ count ih =>
      intro volume group
      unfold takes
      rw [hand_out_frame]
      cases volume.handOut group with
      | none => rfl
      | some out => exact ih out.2.2 out.2.1

/-- The bitmaps are those behind so many calls of `balloc`. -/
def Took (count : Nat) (volume : Ext2Volume) (group : Nat) (after : Ext2Volume) (last : Nat) :
    Prop :=
  takes count volume.frame group = some (after.frame, last)

theorem took_of_frame (same : after.frame = volume.frame) (group : Nat) :
    Took 0 volume group after group := by
  unfold Took
  rw [same]
  rfl

theorem took_of_hand_out {block : Nat} (out : volume.handOut group = some (block, next, after)) :
    Took 1 volume group after next := by
  unfold Took
  rw [takes_frame, takes_succ 0 out]
  rfl

theorem took_trans {first second : Nat} (begins : Took first volume group middle next)
    (ends : Took second middle next after last) : Took (first + second) volume group after last :=
  (takes_add first second begins).1.trans ends

theorem padded_frame (padded : volume.Padded) : volume.frame.Padded :=
  ⟨padded.perGroup, padded.word, padded.padding⟩

theorem took_spec {count : Nat} (padded : volume.Padded)
    (took : Took count volume group after last) :
    (handOuts count volume group).length = count ∧
      Taken volume.frame (handOuts count volume group) after.frame ∧
      ∀ block, (handOuts count volume group).getLast? = some block →
        last = sub32 block 1 / volume.blocksPerGroup := by
  have spec := takes_spec count (padded_frame padded) took
  rwa [hand_outs_frame] at spec

theorem took_hand_outs {first : Nat} (second : Nat) (took : Took first volume group middle next) :
    handOuts (first + second) volume group = handOuts first volume group ++ handOuts second middle
      next := by
  have whole := (takes_add first second took).2
  rwa [hand_outs_frame, hand_outs_frame, hand_outs_frame] at whole

end Ext2Volume

open Ext2Volume

namespace Cursor

variable {cursor after middle : Cursor} {location : InodeReadingLocationInfo}

/-- From one allocation to the next a row of blocks is taken and counted. -/
def Draws (volume : Ext2Volume) (allocation : Allocation) (after : Ext2Volume) (next : Allocation) :
    Prop :=
  ∃ count, Took count volume allocation.group after next.group ∧
    next.allocCount % 2 ^ 32 = (allocation.allocCount + count) % 2 ^ 32

theorem draws_of_frame {volume last : Ext2Volume} (same : last.frame = volume.frame)
    (allocation : Allocation) :
    Draws volume allocation last allocation :=
  ⟨0, took_of_frame same _, rfl⟩

theorem draws_trans {first second third : Ext2Volume} {begin_ next last : Allocation}
    (begins : Draws first begin_ second next) (ends : Draws second next third last) :
    Draws first begin_ third last := by
  obtain ⟨few, taken, counted⟩ := begins
  obtain ⟨more, later, laterCounted⟩ := ends
  exact ⟨few + more, took_trans taken later, by omega⟩

variable {allocation : Allocation}

theorem balloc_draws :
    Yields (fun result after => Draws cursor.volume allocation after.volume result.2 ∧
        after.location = cursor.location) (fun _ => True) (balloc allocation cursor) := by
  refine yields_weaken balloc_spec ?_ fun _ _ => trivial
  rintro result _ ⟨volume, rfl, out, counted⟩
  refine ⟨⟨1, took_of_hand_out out, ?_⟩, rfl⟩
  rw [counted, add32, Nat.mod_mod]

theorem link_table1_draws (pointer : Inode → Nat) (setPointer : Nat → Inode → Inode) :
    Yields (fun next after => Draws cursor.volume allocation after.volume next) (fun _ => True)
      (linkTable1 pointer setPointer allocation cursor) := by
  change Yields _ _ ((if pointer cursor.location.inode = 0 then _ else _ : OnCursor Allocation)
    cursor)
  split_ifs
  · refine yields_bind balloc_draws ?_
    rintro ⟨block, next⟩ middle ⟨draws, -⟩
    refine yields_bind (.ok rfl : Yields (fun _ after => after = _) (fun _ => True)
      (modifyInode (setPointer block) middle)) ?_
    rintro _ _ rfl
    refine yields_bind check_table1_frame fun _ after same => ?_
    exact .ok (draws_trans draws (draws_of_frame (volume_of_frame same) _))
  · exact .ok (draws_of_frame rfl _)

theorem fill_entry_draws {level : Fin 3} {turn : Nat} {load : OnCursor Unit}
    (frames : ∀ middle : Cursor, Yields (fun _ after => after.frame = middle.frame) (fun _ => True)
      (load middle)) :
    Yields (fun next after => Draws cursor.volume allocation after.volume next) (fun _ => True)
      (fillEntry level turn load allocation cursor) := by
  change Yields _ _ ((if entry (cursor.location.tables level).table turn = 0 then _ else _ :
    OnCursor Allocation) cursor)
  split_ifs
  · refine yields_bind balloc_draws ?_
    rintro ⟨block, next⟩ middle ⟨draws, -⟩
    refine yields_bind (.ok rfl : Yields (fun _ after => after = _) (fun _ => True)
      (setTableEntry level turn block middle)) ?_
    rintro _ _ rfl
    refine yields_bind (frames _) fun _ after same => ?_
    exact .ok (draws_trans draws (draws_of_frame (volume_of_frame same) _))
  · exact .ok (draws_of_frame rfl _)

theorem fill_draws (turns : List Nat) : ∀ (level : Nat) (cursor : Cursor) (allocation : Allocation),
    Yields (fun next after => Draws cursor.volume allocation after.volume next) (fun _ => True)
      (fill level turns allocation cursor) := by
  induction turns with
  | nil =>
      intro level cursor allocation
      exact .ok (draws_of_frame rfl _)
  | cons turn turns ih =>
      intro level cursor allocation
      cases turns with
      | nil => exact fill_entry_draws fun middle => .ok rfl
      | cons next turns =>
          refine yields_bind (fill_entry_draws fun middle => load_level_frame _)
            fun following middle first => ?_
          refine yields_weaken (ih _ _ _) (fun _ _ later => ?_) fun _ _ => trivial
          exact draws_trans first later

theorem link_head_draws (location : InodeReadingLocationInfo) :
    Yields (fun next after => Draws cursor.volume allocation after.volume next) (fun _ => True)
      (linkHead location allocation cursor) := by
  cases location with
  | direct d => exact .ok (draws_of_frame rfl _)
  | single i => exact link_table1_draws _ _
  | double i j => exact link_table1_draws _ _
  | triple i j k => exact link_table1_draws _ _

theorem append_block_draws :
    Yields (fun next after => Draws cursor.volume allocation after.volume next) (fun _ => True)
      (appendBlock allocation cursor) := by
  have indirect : ∀ location, cursor.location.location.location = location → turns location ≠ [] →
      Yields (fun next after => Draws cursor.volume allocation after.volume next) (fun _ => True)
        (appendBlock allocation cursor) := by
    intro location place split
    rw [append_block_eq place split]
    refine yields_bind (link_head_draws location) fun next middle first => ?_
    exact yields_weaken (fill_draws _ _ _ _) (fun _ _ later => draws_trans first later) fun _ _ =>
      trivial
  cases place : cursor.location.location.location with
  | direct d =>
      rw [appendBlock, state_bind_get, place]
      dsimp only
      split_ifs
      · refine yields_bind balloc_draws ?_
        rintro ⟨block, next⟩ middle ⟨draws, -⟩
        exact .ok draws
      · exact .ok (draws_of_frame rfl _)
      · exact .error trivial
  | single i => exact indirect _ place (List.cons_ne_nil _ _)
  | double i j => exact indirect _ place (List.cons_ne_nil _ _)
  | triple i j k => exact indirect _ place (List.cons_ne_nil _ _)

end Cursor

end Campix.Ext2
