import Campix.Ext2.FreshBlocks

/-!
# Tables that no copy is one of

An append looks at copies of tables, whichever blocks they are copies of. What is on the
disk in a block in use stays there as long as no copy that may be written is one of it.
-/

namespace Campix.Ext2.Cursor

open Lib.Outcome Ext2Volume

set_option autoImplicit false

variable {cursor middle after : Cursor} {contents : Contents} {location : InodeReadingLocationInfo}
variable {level block : Nat}

structure Aside (level block : Nat) (cursor : Cursor) : Prop where
  stores : cursor.volume.Stores cursor.volume.device
  sized : ∀ other, (cursor.location.tables other).table.length = cursor.volume.blockSize
  padded : cursor.volume.Padded
  nonzero : block ≠ 0
  inUse : cursor.volume.marked block = true
  copies : ∀ other : Fin 3, level ≤ other.val → (cursor.location.tables other).addr ≠ block

structure Leaves (level block : Nat) (cursor after : Cursor) : Prop where
  aside : Aside level block after
  device : after.volume.device block = cursor.volume.device block
  below : ∀ other : Fin 3, other.val < level →
    after.location.tables other = cursor.location.tables other
  steady : after.steady = cursor.steady

theorem leaves_self (aside : Aside level block cursor) : Leaves level block cursor cursor :=
  ⟨aside, rfl, fun _ _ => rfl, rfl⟩

theorem leaves_trans (first : Leaves level block cursor middle)
    (second : Leaves level block middle after) :
    Leaves level block cursor after :=
  ⟨second.aside, second.device.trans first.device,
    fun other small => (second.below other small).trans (first.below other small),
    second.steady.trans first.steady⟩

theorem with_volume_leaves {volume : Ext2Volume} (aside : Aside level block cursor)
    (stores : volume.Stores volume.device) (frame : volume.frame = cursor.volume.frame)
    (device : volume.device block = cursor.volume.device block) :
    Leaves level block cursor { cursor with volume := volume } := by
  refine ⟨⟨stores, fun other => ?_,
    padded_of_frame frame aside.padded, aside.nonzero, ?_, aside.copies⟩,
    device, fun _ _ => rfl, ?_⟩
  · exact (aside.sized other).trans (block_size_of_frame frame).symm
  · exact (marked_of_frame frame block).trans aside.inUse
  · exact steady_of_frame (congrArg (fun same => Cursor.mk same cursor.frame.location) frame)

theorem with_table_leaves {place : Fin 3} {cached : CachedTable} (aside : Aside level block cursor)
    (above : level ≤ place.val) (length : cached.table.length = cursor.volume.blockSize)
    (apart : cached.addr ≠ block) : Leaves level block cursor (cursor.withTable place cached) := by
  refine ⟨⟨aside.stores, fun other => ?_,
    aside.padded, aside.nonzero, aside.inUse, fun other small => ?_⟩,
    rfl, fun other small => ?_, rfl⟩
  · by_cases same : other = place
    · rw [same, with_table_self]
      exact length
    · rw [with_table_other same]
      exact aside.sized other
  · by_cases same : other = place
    · rw [same, with_table_self]
      exact apart
    · rw [with_table_other same]
      exact aside.copies other small
  · apply with_table_other
    rintro rfl
    omega

theorem save_leaves (aside : Aside level block cursor) {place : Fin 3} (above : level ≤ place.val)
    (addr : Nat) :
    Yields (fun _ after => Leaves level block cursor after) (fun _ => True)
      (saveIfAddressesDiffer place addr cursor) := by
  change Yields _ _ ((if _ then _ else _ : OnCursor Unit) cursor)
  split_ifs
  swap
  · exact .ok (leaves_self aside)
  have apart := aside.copies place above
  have write := write_block_spec (cursor.location.tables place).addr aside.stores
    (aside.sized place)
  refine yields_bind (yields_on_volume (yields_weaken write (fun _ _ holds => holds)
    fun _ _ => trivial)) ?_
  rintro written _ ⟨volume, rfl, frame, outcome⟩
  have left : Leaves level block cursor { cursor with volume := volume } := by
    rcases outcome with ⟨-, -, stores⟩ | ⟨-, -, rfl⟩
    · have device : volume.device = _ := stores.device
      refine with_volume_leaves aside (by rw [device]; exact stores) frame ?_
      rw [device, Function.update_of_ne (Ne.symm apart)]
    · exact with_volume_leaves aside aside.stores rfl rfl
  split_ifs
  · exact .error trivial
  · exact .ok (leaves_trans left (with_table_leaves left.aside above (left.aside.sized place)
      apart))

theorem load_leaves (aside : Aside level block cursor) {place : Fin 3} (above : level ≤ place.val)
    {addr : Nat} (apart : addr ≠ block) :
    Yields (fun _ after => Leaves level block cursor after) (fun _ => True)
      (loadTable place addr cursor) := by
  have read := Ext2Volume.read_block_spec addr aside.stores (aside.sized place)
  unfold loadTable
  cases outcome : Ext2Volume.readBlock addr (cursor.location.tables place).table cursor.volume with
  | error failure volume => exact .error trivial
  | ok result volume =>
      rw [outcome] at read
      cases read with
      | ok holds =>
          obtain ⟨rfl, stores, frame, -⟩ := holds
          have device : volume.device = _ := stores.device
          have left : Leaves level block cursor { cursor with volume := volume } :=
            with_volume_leaves aside (by rw [device]; exact stores) frame (congrFun device block)
          have length : (cursor.volume.device addr).length = volume.blockSize := by
            rw [aside.stores.sized, block_size_of_frame frame]
          exact .ok (leaves_trans left (@with_table_leaves _ level block place
            { cursor.location.tables place with table := cursor.volume.device addr, addr := addr }
            left.aside above length apart))

theorem check_table_leaves (aside : Aside level block cursor) {place : Fin 3}
    (above : level ≤ place.val) {addr : Nat} (apart : addr ≠ block) :
    Yields (fun _ after => Leaves level block cursor after) (fun _ => True)
      (checkTable place addr cursor) := by
  unfold checkTable
  refine yields_bind (save_leaves aside above addr) fun _ saved left => ?_
  change Yields _ _ ((if addr = 0 then _ else if _ then _ else _ : OnCursor Unit) saved)
  split_ifs
  · exact .ok (leaves_trans left (@with_table_leaves _ level block place
      { saved.location.tables place with addr := 0 } left.aside above (left.aside.sized place)
      (Ne.symm left.aside.nonzero)))
  · exact yields_weaken (load_leaves left.aside above apart)
      (fun _ _ loaded => leaves_trans left loaded) fun _ _ => trivial
  · exact .ok left

theorem with_entry_leaves {place : Fin 3} {turn new : Nat} {volume : Ext2Volume}
    (aside : Aside level block cursor) (above : level ≤ place.val)
    (inside : turn < cursor.volume.blockSize / 4) (out : HandedOut cursor.volume new volume) :
    Leaves level block cursor (cursor.withEntry place turn new volume) := by
  have device : volume.device = cursor.volume.device := by rw [out.rest]
  have blockSize : volume.blockSize = cursor.volume.blockSize := by rw [out.rest]
  have stores : volume.Stores volume.device := by
    rw [out.rest]
    exact ⟨rfl, aside.stores.cached, aside.stores.sized, aside.stores.positive⟩
  have inUse : volume.marked block = true := by
    rw [out.marks block aside.nonzero, aside.inUse, Bool.true_or]
  have left : Leaves level block cursor { cursor with volume := volume } := by
    refine ⟨⟨stores, fun other => (aside.sized other).trans blockSize.symm, out.padded,
      aside.nonzero,
      inUse, aside.copies⟩, congrFun device block, fun _ _ => rfl, ?_⟩
    unfold steady frame
    rw [out.rest]
    rfl
  refine leaves_trans left (with_table_leaves left.aside above ?_ (aside.copies place above))
  change (setEntry (cursor.location.tables place).table turn new).length = volume.blockSize
  rw [length_set_entry (by rw [aside.sized]; omega), aside.sized, blockSize]

theorem load_level_leaves {before later : List Nat} {turn next new : Nat} {volume : Ext2Volume}
    (aside : Aside level block cursor) (place : cursor.location.location.location = location)
    (split : turns location = before ++ turn :: next :: later) (above : level ≤ before.length)
    (inside : turn < cursor.volume.blockSize / 4) (out : HandedOut cursor.volume new volume) :
    Yields (fun _ after => Leaves level block cursor after) (fun _ => True)
      (loadLevel (before.length + 1) (cursor.withEntry (Fin.ofNat 3 before.length)
        turn new volume)) := by
  have three := turns_length location
  rw [split, List.length_append, List.length_cons, List.length_cons] at three
  have here : (Fin.ofNat 3 before.length).val = before.length := Nat.mod_eq_of_lt (by omega)
  have there : (Fin.ofNat 3 (before.length + 1)).val = before.length + 1 :=
    Nat.mod_eq_of_lt (by omega)
  have written := with_entry_leaves aside (by omega : level ≤ (Fin.ofNat 3 before.length).val)
    inside out
  have word := aside.padded.word
  have bound := out.inside
  have pointsTo : entry ((cursor.withEntry
      (Fin.ofNat 3 before.length) turn new volume).location.tables
      (Fin.ofNat 3 before.length)).table turn = new := by
    rw [withEntry, with_table_self]
    exact entry_set_entry (by rw [aside.sized]; omega) (by omega)
  have shape := @load_level_eq (cursor.withEntry (Fin.ofNat 3 before.length) turn new volume)
    location turn before next later place split (by
      rw [written.aside.sized, block_size_of_steady written.steady]
      omega)
  have apart : new ≠ block := by
    rintro rfl
    exact absurd (aside.inUse.symm.trans out.free) (by decide)
  rw [shape, pointsTo]
  exact yields_weaken (check_table_leaves written.aside (by omega) apart)
    (fun _ _ loaded => leaves_trans written loaded) fun _ _ => trivial

theorem fill_entry_leaves {place : Fin 3} {turn : Nat} {load : OnCursor Unit}
    {allocation : Allocation}
    (aside : Aside level block cursor)
    (loads : ∀ new volume, HandedOut cursor.volume new volume →
      Yields (fun _ after => Leaves level block cursor after) (fun _ => True)
        (load (cursor.withEntry place turn new volume))) :
    Yields (fun _ after => Leaves level block cursor after) (fun _ => True)
      (fillEntry place turn load allocation cursor) := by
  by_cases free : entry (cursor.location.tables place).table turn = 0
  · refine fill_entry_links free fun new next volume out => ?_
    exact loads new volume (hand_out_spec aside.padded out)
  · rw [fill_entry_skips free]
    exact .ok (leaves_self aside)

theorem fill_leaves (later : List Nat) : ∀ {before : List Nat} {turn : Nat} {cursor : Cursor}
    {allocation : Allocation}, Aside level block cursor →
    cursor.location.location.location = location → turns location = before ++ turn :: later →
    level ≤ before.length → (∀ each ∈ turn :: later, each < cursor.volume.blockSize / 4) →
    Yields (fun _ after => Leaves level block cursor after) (fun _ => True)
      (fill before.length (turn :: later) allocation cursor) := by
  induction later with
  | nil =>
      intro before turn cursor allocation aside place split above small
      have three := turns_length location
      rw [split, List.length_append, List.length_singleton] at three
      have here : (Fin.ofNat 3 before.length).val = before.length := Nat.mod_eq_of_lt (by omega)
      refine fill_entry_leaves aside fun new volume out => ?_
      exact .ok (with_entry_leaves aside (by omega) (small turn (List.mem_singleton_self _)) out)
  | cons next later ih =>
      intro before turn cursor allocation aside place split above small
      have first : Yields (fun _ after => Leaves level block cursor after) (fun _ => True)
          (fillEntry (Fin.ofNat 3 before.length) turn (loadLevel (before.length + 1)) allocation
            cursor) :=
        fill_entry_leaves aside fun new volume out =>
          load_level_leaves aside place split above (small turn List.mem_cons_self) out
      unfold fill
      refine yields_bind first fun allocation filled left => ?_
      have rest := @ih (before ++ [turn]) next filled allocation left.aside
        (by rw [location_of_steady left.steady]; exact place)
        (by rw [split, List.append_assoc]; rfl) (by rw [List.length_append]; omega)
        (fun each member => by
          rw [block_size_of_steady left.steady]
          exact small each (List.mem_cons_of_mem _ member))
      rw [List.length_append, List.length_singleton] at rest
      exact yields_weaken rest (fun _ _ ends => leaves_trans left ends) fun _ _ => trivial

/-- A way depends on what the blocks hold that it leads through. -/
theorem chase_congr {grown : Contents} (turns : List Nat) : ∀ pointer : Nat,
    (∀ place < turns.length, ∀ table, (chase contents pointer turns)[place]? = some table →
      table ≠ 0 → grown table = contents table) →
    chase grown pointer turns = chase contents pointer turns := by
  induction turns with
  | nil =>
      intro pointer _
      rfl
  | cons turn turns ih =>
      intro pointer same
      have first : (if pointer = 0 then 0 else entry (grown pointer) turn) =
          if pointer = 0 then 0 else entry (contents pointer) turn := by
        split_ifs with zero
        · rfl
        · rw [same 0 (by simp) pointer rfl zero]
      rw [chase, chase, first, ih]
      intro place inside table found nonzero
      exact same (place + 1) (by simpa using inside) table found nonzero

theorem chase_nonzero (turns : List Nat) : ∀ {pointer place found : Nat},
    (chase contents pointer turns)[place]? = some found → found ≠ 0 →
    ∀ before ≤ place, ∀ table, (chase contents pointer turns)[before]? = some table →
      table ≠ 0 := by
  induction turns with
  | nil =>
      intro pointer place found at_ nonzero before _ table here
      obtain rfl := List.mem_singleton.mp (List.mem_of_getElem? at_)
      obtain rfl := List.mem_singleton.mp (List.mem_of_getElem? here)
      exact nonzero
  | cons turn turns ih =>
      intro pointer place found at_ nonzero before le table here
      have first : pointer ≠ 0 := by
        rintro rfl
        rw [chase_zero] at at_
        exact nonzero (List.eq_of_mem_replicate (List.mem_of_getElem? at_))
      rw [chase] at at_ here
      cases before with
      | zero =>
          obtain rfl := Option.some.inj here
          exact first
      | succ before =>
          obtain ⟨later, rfl⟩ : ∃ later, place = later + 1 := ⟨place - 1, by omega⟩
          rw [List.getElem?_cons_succ] at at_ here
          exact ih at_ nonzero before (by omega) table here

end Campix.Ext2.Cursor
