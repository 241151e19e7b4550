import Campix.Ext2.Location

/-!
# The contents of the blocks

The bytes of a block are spread over the device, the cache of blocks in front of it and,
while a table of pointers is changed in memory, the location of the handle. `Stores` and
`Views` state the contents that all of them together stand for; the operations are
described by what they do to those contents, and `frame` is what they leave alone.
-/

namespace Campix.Ext2

open Lib.Outcome

set_option autoImplicit false

abbrev Contents := Nat → Block

namespace Ext2Volume

def frame (volume : Ext2Volume) : Ext2Volume :=
  { volume with device := fun _ => [], blockCache := [] }

theorem block_size_of_frame {volume after : Ext2Volume} (same : after.frame = volume.frame) :
    after.blockSize = volume.blockSize :=
  show after.frame.blockSize = volume.frame.blockSize by rw [same]

theorem block_count_of_frame {volume after : Ext2Volume} (same : after.frame = volume.frame) :
    after.blockCount = volume.blockCount :=
  show after.frame.blockCount = volume.frame.blockCount by rw [same]

structure Stores (volume : Ext2Volume) (contents : Contents) : Prop where
  device : volume.device = contents
  cached : ∀ item ∈ volume.blockCache, item.2 = contents item.1
  sized : ∀ lba, (contents lba).length = volume.blockSize
  positive : 0 < volume.blockSize

variable {volume : Ext2Volume} {contents : Contents}

theorem stores_touch (stores : volume.Stores contents) (lba : Nat) :
    (volume.touch lba (contents lba)).Stores contents := by
  refine ⟨stores.device, ?_, stores.sized, stores.positive⟩
  intro item inside
  have member := List.mem_of_mem_take inside
  rcases List.mem_cons.mp member with rfl | old
  · rfl
  · exact stores.cached item (List.mem_of_mem_filter old)

theorem cached_eq {lba : Nat} {block : Block} (stores : volume.Stores contents)
    (found : volume.cached lba = some block) : block = contents lba := by
  obtain ⟨item, search, rfl⟩ := Option.map_eq_some_iff.mp found
  have key : item.1 = lba := by simpa using List.find?_some search
  rw [← key]
  exact stores.cached item (List.mem_of_find?_eq_some search)

theorem read_block_spec {buf : Block} (lba : Nat) (stores : volume.Stores contents)
    (length : buf.length = volume.blockSize) :
    Yields
      (fun result after => result = (volume.blockSize, contents lba) ∧ after.Stores contents ∧
        after.frame = volume.frame ∧ lba < volume.blockCount)
      (fun _ => lba ≥ volume.blockCount) (readBlock lba buf volume) := by
  change Yields _ _ ((if buf.length < volume.blockSize then _ else _ : OnVolume (Nat × Block))
    volume)
  rw [if_neg (by omega)]
  by_cases inside : lba ≥ volume.blockCount
  · rw [if_pos inside]
    exact .error inside
  · rw [if_neg inside]
    cases found : volume.cached lba with
    | none =>
        have slice : volume.device lba = contents lba := congrFun stores.device lba
        have rest : buf.drop volume.blockSize = [] := List.drop_eq_nil_of_le length.le
        refine .ok ⟨?_, ?_, rfl, by omega⟩
        · rw [slice, stores.sized, rest, List.append_nil]
        · rw [slice]
          exact stores_touch stores lba
    | some block =>
        obtain rfl := cached_eq stores found
        change Yields _ _ ((if buf.length ≠
          (contents lba).length then _ else _ : OnVolume (Nat × Block)) _)
        rw [if_neg (by rw [length, stores.sized]; simp)]
        exact .ok ⟨rfl, stores_touch stores lba, rfl, by omega⟩

theorem stores_write {lba : Nat} {buf : Block} (stores : volume.Stores contents)
    (length : buf.length = volume.blockSize) (cache : List (Nat × Block))
    (fresh : ∀ item ∈ cache, item.2 = Function.update contents lba buf item.1) :
    { volume with device := Function.update volume.device lba buf, blockCache := cache }.Stores
      (Function.update contents lba buf) := by
  refine ⟨by rw [← stores.device], fresh, ?_, stores.positive⟩
  intro other
  by_cases same : other = lba
  · subst same
    rw [Function.update_self, length]
  · rw [Function.update_of_ne same]
    exact stores.sized other

theorem cached_of_miss {lba : Nat} (stores : volume.Stores contents)
    (found : volume.cached lba = none) (buf : Block) :
    ∀ item ∈ volume.blockCache, item.2 = Function.update contents lba buf item.1 := by
  intro item member
  have other : item.1 ≠ lba := by
    have missing := List.find?_eq_none.mp (Option.map_eq_none_iff.mp found) item member
    simpa using missing
  rw [Function.update_of_ne other]
  exact stores.cached item member

theorem cached_of_hit (stores : volume.Stores contents) (lba : Nat) (buf : Block) :
    ∀ item ∈ (volume.touch lba buf).blockCache,
      item.2 = Function.update contents lba buf item.1 := by
  intro item member
  rcases List.mem_cons.mp (List.mem_of_mem_take member) with rfl | old
  · rw [Function.update_self]
  · obtain ⟨kept, other⟩ := List.mem_filter.mp old
    rw [Function.update_of_ne (by simpa using other)]
    exact stores.cached item kept

theorem write_block_spec {buf : Block} (lba : Nat) (stores : volume.Stores contents)
    (length : buf.length = volume.blockSize) :
    Yields
      (fun written after => after.frame = volume.frame ∧
        (lba < volume.blockCount ∧ written = volume.blockSize ∧
            after.Stores (Function.update contents lba buf) ∨
          lba = volume.blockCount ∧ written = 0 ∧ after = volume))
      (fun _ => volume.readOnly ∨ lba > volume.blockCount) (writeBlock lba buf volume) := by
  change Yields _ _ ((if buf.length < volume.blockSize then _ else _ : OnVolume Nat) volume)
  rw [if_neg (by omega)]
  by_cases locked : volume.readOnly
  · rw [if_pos locked]
    exact .error (.inl locked)
  · rw [if_neg locked]
    by_cases beyond : lba > volume.blockCount
    · rw [if_pos beyond]
      exact .error (.inr beyond)
    · rw [if_neg beyond]
      by_cases atEnd : lba = volume.blockCount
      · rw [if_pos atEnd]
        exact .ok ⟨rfl, .inr ⟨atEnd, rfl, rfl⟩⟩
      · rw [if_neg atEnd]
        have whole : buf.take volume.blockSize = buf := List.take_of_length_le length.le
        dsimp only
        rw [whole]
        have inside : lba < volume.blockCount := by omega
        cases found : volume.cached lba with
        | none =>
            have uncached : { volume with device := Function.update volume.device lba buf }.cached lba =
                none := found
            rw [uncached]
            have kept := cached_of_miss stores found buf
            exact .ok ⟨rfl, .inl ⟨inside, length, stores_write stores length _ kept⟩⟩
        | some block =>
            have hit : { volume with device := Function.update volume.device lba buf }.cached lba =
                some block := found
            rw [hit]
            have kept := cached_of_hit stores lba buf
            exact .ok ⟨rfl, .inl ⟨inside, rfl, stores_write stores length _ kept⟩⟩

end Ext2Volume

namespace Cursor

def frame (cursor : Cursor) : Cursor where
  volume := cursor.volume.frame
  location := { cursor.location with tables := fun _ => ⟨[], 0, false⟩ }

/-- The contents of the volume once the changed tables are written to it. A copy that is
not changed may be out of date. -/
structure Views (cursor : Cursor) (contents : Contents) : Prop where
  stores : cursor.volume.Stores cursor.volume.device
  sized : ∀ level, (cursor.location.tables level).table.length = cursor.volume.blockSize
  changed : ∀ level, (cursor.location.tables level).dirty →
    (cursor.location.tables level).addr ≠ 0 ∧
      (cursor.location.tables level).table = contents (cursor.location.tables level).addr
  unchanged : ∀ lba, (∀ level, (cursor.location.tables level).dirty →
    (cursor.location.tables level).addr ≠ lba) → cursor.volume.device lba = contents lba

variable {cursor after : Cursor} {contents : Contents} {level : Fin 3} {addr : Nat}

theorem yields_on_volume {Value : Type} {operation : OnVolume Value} {failed : Prop}
    {post : Value → Ext2Volume → Prop}
    (yields : Yields post (fun _ => failed) (operation cursor.volume)) :
    Yields (fun value after => ∃ volume, after = { cursor with volume := volume } ∧
      post value volume)
      (fun _ => failed) (onVolume operation cursor) := by
  unfold onVolume
  cases outcome : operation cursor.volume with
  | ok value volume =>
      rw [outcome] at yields
      cases yields with
      | ok holds => exact .ok ⟨volume, rfl, holds⟩
  | error failure volume =>
      rw [outcome] at yields
      cases yields with
      | error holds => exact .error holds

def withTable (cursor : Cursor) (level : Fin 3) (cached : CachedTable) : Cursor :=
  { cursor with location :=
      { cursor.location with tables := Function.update cursor.location.tables level cached } }

theorem with_table_self (cursor : Cursor) (level : Fin 3) (cached : CachedTable) :
    (cursor.withTable level cached).location.tables level = cached :=
  Function.update_self ..

theorem with_table_other {other : Fin 3} (different : other ≠ level) (cursor : Cursor)
    (cached : CachedTable) :
    (cursor.withTable level cached).location.tables other = cursor.location.tables other :=
  Function.update_of_ne different ..

/-- A copy that is not changed may be replaced by any other. -/
theorem views_with_clean {cached : CachedTable} (views : cursor.Views contents)
    (before : (cursor.location.tables level).dirty = false) (clean : cached.dirty = false)
    (length : cached.table.length = cursor.volume.blockSize) :
    (cursor.withTable level cached).Views contents := by
  have same : ∀ other, ((cursor.withTable level cached).location.tables other).dirty = true →
      (cursor.withTable level cached).location.tables other = cursor.location.tables other := by
    intro other dirty
    by_cases here : other = level
    · subst here
      rw [with_table_self, clean] at dirty
      exact absurd dirty (by decide)
    · exact with_table_other here cursor cached
  refine ⟨views.stores, ?_, ?_, ?_⟩
  · intro other
    by_cases here : other = level
    · subst here
      rw [with_table_self]
      exact length
    · rw [with_table_other here]
      exact views.sized other
  · intro other dirty
    have old := same other dirty
    rw [old] at dirty ⊢
    exact views.changed other dirty
  · intro lba apart
    apply views.unchanged lba
    intro other dirty
    have different : other ≠ level := by
      rintro rfl
      rw [before] at dirty
      exact absurd dirty (by decide)
    rw [← with_table_other different cursor cached] at dirty ⊢
    exact apart other dirty

theorem views_written_back {volume : Ext2Volume} {cached : CachedTable}
    (views : cursor.Views contents)
    (same : cached = cursor.location.tables level) (dirty : cached.dirty = true)
    (frame : volume.frame = cursor.volume.frame)
    (stores : volume.Stores (Function.update cursor.volume.device cached.addr cached.table)) :
    ({ cursor with volume := volume }.withTable level { cached with dirty := false }).Views
      contents := by
  subst same
  have blockSize : volume.blockSize = cursor.volume.blockSize :=
    Ext2Volume.block_size_of_frame frame
  have device : volume.device = _ := stores.device
  obtain ⟨-, held⟩ := views.changed level dirty
  refine ⟨?_, ?_, ?_, ?_⟩
  · change volume.Stores volume.device
    rw [device]
    exact stores
  · intro other
    by_cases here : other = level
    · subst here
      rw [with_table_self]
      exact (views.sized other).trans blockSize.symm
    · rw [with_table_other here]
      exact (views.sized other).trans blockSize.symm
  · intro other stillDirty
    have different : other ≠ level := by
      rintro rfl
      rw [with_table_self] at stillDirty
      exact absurd stillDirty Bool.false_ne_true
    rw [with_table_other different] at stillDirty ⊢
    exact views.changed other stillDirty
  · intro lba apart
    change volume.device lba = contents lba
    rw [device]
    by_cases here : lba = (cursor.location.tables level).addr
    · subst here
      rw [Function.update_self]
      exact held
    · rw [Function.update_of_ne here]
      apply views.unchanged lba
      intro other otherDirty
      by_cases level' : other = level
      · rw [level']
        exact Ne.symm here
      · have := apart other
        rw [with_table_other level'] at this
        exact this otherDirty

/-- A table is written back before another one takes its place. -/
theorem save_spec (views : cursor.Views contents) (toLoadAddr : Nat) :
    Yields
      (fun _ after => after.Views contents ∧ after.frame = cursor.frame ∧
        (∀ lba, lba ≠ (cursor.location.tables level).addr →
          after.volume.device lba = cursor.volume.device lba) ∧
        ∃ dirty, after.location.tables = Function.update cursor.location.tables level
            { cursor.location.tables level with dirty := dirty } ∧
          (dirty → (cursor.location.tables level).dirty ∧
            (cursor.location.tables level).addr = toLoadAddr))
      (fun _ => (cursor.location.tables level).dirty)
        (saveIfAddressesDiffer level toLoadAddr cursor) := by
  change Yields _ _ ((if (cursor.location.tables level).dirty ∧ _ then _ else _ : OnCursor Unit)
    cursor)
  split_ifs with different
  · obtain ⟨dirty, -, apart⟩ := different
    have write := Ext2Volume.write_block_spec (cursor.location.tables level).addr views.stores
      (views.sized level)
    refine yields_bind (yields_on_volume
      (yields_weaken write (fun _ _ holds => holds) fun _ _ => dirty)) ?_
    rintro written middle ⟨volume, rfl, frame, finished⟩
    rcases finished with ⟨-, rfl, stores⟩ | ⟨-, rfl, rfl⟩
    · rw [if_neg (by simp)]
      have back := views_written_back views rfl dirty frame stores
      refine .ok ⟨back, ?_, ?_, false, rfl, fun impossible => absurd impossible Bool.false_ne_true⟩
      · exact congrArg (fun volume => Cursor.mk volume cursor.frame.location) frame
      · intro lba other
        change volume.device lba = _
        rw [stores.device, Function.update_of_ne other]
    · rw [if_pos views.stores.positive.ne]
      exact .error dirty
  · refine .ok ⟨views, rfl, fun _ _ => rfl, (cursor.location.tables level).dirty,
      (Function.update_eq_self ..).symm, ?_⟩
    intro dirty
    by_contra apart
    exact different ⟨dirty, (views.changed level dirty).1, fun same => apart ⟨dirty, same⟩⟩

/-- What `check_table1`, `check_table2` and `check_table3` leave. A copy of the table is
kept when there is one, whatever it holds. -/
structure Checked (cursor : Cursor) (contents : Contents) (level : Fin 3) (addr : Nat)
    (after : Cursor) :
    Prop where
  views : after.Views contents
  frame : after.frame = cursor.frame
  others : ∀ other, other ≠ level → after.location.tables other = cursor.location.tables other
  loaded : (after.location.tables level).addr = addr
  dirty : (after.location.tables level).dirty →
    (cursor.location.tables level).dirty ∧ (cursor.location.tables level).addr = addr
  table : addr ≠ 0 → if (cursor.location.tables level).addr = addr
    then (after.location.tables level).table = (cursor.location.tables level).table
    else (after.location.tables level).table = cursor.volume.device addr

/-- Reading a block changes only the cache. -/
theorem views_after_read {volume : Ext2Volume} (views : cursor.Views contents)
    (stores : volume.Stores cursor.volume.device) (frame : volume.frame = cursor.volume.frame) :
    { cursor with volume := volume }.Views contents := by
  have device : volume.device = cursor.volume.device := stores.device
  refine ⟨?_, ?_, views.changed, ?_⟩
  · change volume.Stores volume.device
    rw [device]
    exact stores
  · intro level
    exact (views.sized level).trans (Ext2Volume.block_size_of_frame frame).symm
  · intro lba apart
    change volume.device lba = contents lba
    rw [device]
    exact views.unchanged lba apart

/-- A table that has nothing to write back is replaced. -/
theorem reload_checked {level : Fin 3} {addr : Nat} {middle : Cursor} {volume : Ext2Volume}
    {table : Block}
    (views : middle.Views contents) (frame : middle.frame = cursor.frame)
    (others : ∀ other, other ≠ level → middle.location.tables other = cursor.location.tables other)
    (clean : (middle.location.tables level).dirty = false)
    (stores : volume.Stores middle.volume.device) (same : volume.frame = middle.volume.frame)
    (length : table.length = middle.volume.blockSize)
    (loaded : addr ≠ 0 → (cursor.location.tables level).addr ≠ addr ∧
      table = cursor.volume.device addr) :
    cursor.Checked contents level addr
      ({ middle with volume := volume }.withTable level ⟨table, addr, false⟩) := by
  have current := views_after_read views stores same
  have blockSize := Ext2Volume.block_size_of_frame same
  refine ⟨views_with_clean current clean rfl (length.trans blockSize.symm), ?_, ?_, ?_, ?_, ?_⟩
  · rw [← frame]
    exact congrArg (fun volume => Cursor.mk volume middle.frame.location) same
  · intro other different
    rw [with_table_other different]
    exact others other different
  · rw [with_table_self]
  · intro stillDirty
    rw [with_table_self] at stillDirty
    exact absurd stillDirty Bool.false_ne_true
  · intro nonzero
    obtain ⟨absent, table⟩ := loaded nonzero
    rw [with_table_self, if_neg absent]
    exact table

theorem check_table_spec (views : cursor.Views contents) (level : Fin 3) (addr : Nat) :
    Yields (fun _ after => cursor.Checked contents level addr after)
      (fun _ => addr ≠ 0 ∧ addr ≥ cursor.volume.blockCount ∨ (cursor.location.tables level).dirty)
      (checkTable level addr cursor) := by
  unfold checkTable
  refine yields_bind (yields_weaken (save_spec views addr) (fun _ _ holds => holds)
    fun _ dirty => .inr dirty) ?_
  rintro _ middle ⟨views', frame, device, dirty, tables, still⟩
  have here : middle.location.tables level =
      { cursor.location.tables level with dirty := dirty } := by
    rw [tables, Function.update_self]
  have others : ∀ other, other ≠ level →
      middle.location.tables other = cursor.location.tables other := by
    intro other different
    rw [tables, Function.update_of_ne different]
  change Yields _ _ ((if addr = 0 then _ else
    if (middle.location.tables level).addr ≠ addr then _ else _ : OnCursor Unit) middle)
  by_cases zero : addr = 0
  · rw [if_pos zero]
    have clean : (middle.location.tables level).dirty = false := by
      rw [here, Bool.eq_false_iff]
      intro wasDirty
      obtain ⟨before, nothing⟩ := still wasDirty
      exact (views.changed level before).1 (nothing.trans zero)
    have done := reload_checked views' frame others clean views'.stores rfl (views'.sized level)
      (fun nonzero => absurd zero nonzero)
    apply Yields.ok
    rw [← zero]
    rw [← clean] at done
    exact done
  rw [if_neg zero]
  by_cases different : (middle.location.tables level).addr ≠ addr
  · rw [if_pos different]
    have absent : (cursor.location.tables level).addr ≠ addr := by rwa [here] at different
    have clean : (middle.location.tables level).dirty = false := by
      rw [here, Bool.eq_false_iff]
      exact fun wasDirty => absent (still wasDirty).2
    have blockCount : middle.volume.blockCount = cursor.volume.blockCount :=
      Ext2Volume.block_count_of_frame (congrArg Cursor.volume frame)
    have read := Ext2Volume.read_block_spec addr views'.stores (views'.sized level)
    unfold loadTable
    cases outcome : Ext2Volume.readBlock addr (middle.location.tables level).table
      middle.volume with
    | error failure volume =>
        rw [outcome] at read
        cases read with
        | error beyond => exact .error (.inl ⟨zero, blockCount ▸ beyond⟩)
    | ok result volume =>
        rw [outcome] at read
        cases read with
        | ok holds =>
            obtain ⟨rfl, stores, same, -⟩ := holds
            have done := reload_checked views' frame others clean stores same
              (views'.stores.sized addr) fun _ => ⟨absent, device addr (Ne.symm absent)⟩
            rw [← clean] at done
            exact .ok done
  · rw [if_neg different]
    have present : (cursor.location.tables level).addr = addr := by
      rw [here] at different
      exact not_not.mp different
    refine .ok ⟨views', frame, others, by rw [here]; exact present, ?_, ?_⟩
    · rw [here]
      exact still
    · intro _
      rw [if_pos present, here]

theorem follow_eq {idx : Nat} (inside : idx * 4 < (cursor.location.tables level).table.length) :
    follow level idx cursor = .ok (entry (cursor.location.tables level).table idx) cursor := by
  change (if idx * 4 < (cursor.location.tables level).table.length then _ else _ : OnCursor Nat)
    cursor = _
  rw [if_pos inside]
  rfl

end Cursor

end Campix.Ext2
