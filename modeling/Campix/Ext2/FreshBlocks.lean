import Campix.Ext2.Appending
import Campix.Ext2.Reads
import Mathlib.Data.List.Perm.Subperm

/-!
# Blocks appended to a file

`allocate_new_block` from the state of a handle on a file of some number of blocks. The
pointers on the way to the new block are new blocks from the first hole on, all of them
free before and marked now, if and only if the blocks that become tables hold nothing but
zeros: a new table is read from the disk, and what it holds there is taken for pointers.
-/

namespace Campix.Ext2

open Lib.Fallible Lib.Outcome Ext2Volume

set_option autoImplicit false

namespace Cursor

variable {cursor after middle : Cursor} {contents : Contents} {location : InodeReadingLocationInfo}
variable {Tables : Fin 3 → Nat → Prop} {volume : Ext2Volume} {block : Nat} {allocation : Allocation}

def setHead : InodeReadingLocationInfo → Nat → Inode → Inode
  | .direct d => setDirect d
  | .single _ => setSingle
  | .double _ _ => setDouble
  | .triple _ _ _ => setTriple

theorem head_set_head {tableSize : Nat} (digits : Digits tableSize location) (value : Nat)
    (inode : Inode) : head (setHead location value inode) location = value := by
  cases location with
  | direct d =>
      have inside : d < 12 := digits
      simp [head, setHead, setDirect, inside]
  | single i => rfl
  | double i j => rfl
  | triple i j k => rfl

def withHead (cursor : Cursor) (location : InodeReadingLocationInfo) (block : Nat)
    (volume : Ext2Volume) : Cursor where
  volume := volume
  location := { cursor.location with
    inode := setHead location block cursor.location.inode
    inodeDirty := true }

theorem with_head_sane (sane : cursor.Sane contents Tables)
    (out : HandedOut cursor.volume block volume) :
    (cursor.withHead location block volume).Sane contents Tables := by
  have device : volume.device = cursor.volume.device := by rw [out.rest]
  have blockSize : volume.blockSize = cursor.volume.blockSize := by rw [out.rest]
  have stores : volume.Stores volume.device := by
    rw [out.rest]
    exact ⟨rfl, sane.views.stores.cached, sane.views.stores.sized, sane.views.stores.positive⟩
  refine ⟨⟨stores, ?_, sane.views.changed, ?_⟩,
    out.padded, table_set_marked sane.set out, sane.ready, ?_⟩
  · intro level
    exact (sane.views.sized level).trans blockSize.symm
  · intro lba clean
    change volume.device lba = contents lba
    rw [device]
    exact sane.views.unchanged lba clean
  · intro other
    by_cases zero : (cursor.location.tables other).addr = 0
    · exact .inl zero
    · right
      change volume.marked (cursor.location.tables other).addr = true
      rw [out.marks _ zero, (sane.known other).resolve_left zero, Bool.true_or]

theorem link_head_spec {tableSize : Nat} (sane : cursor.Sane contents Tables)
    (place : cursor.location.location.location = location) (digits : Digits tableSize location)
    (indirect : turns location ≠ []) (hole : head cursor.location.inode location = 0) :
    Yields (fun next middle => ∃ block volume,
        cursor.volume.handOut allocation.group = some (block, next.group, volume) ∧
        HandedOut cursor.volume block volume ∧
        middle.Standing contents (addTable Tables 0 block) 0 block ∧
        middle.frame = (cursor.withHead location block volume).frame)
      (fun _ => True) (linkHead location allocation cursor) := by
  have shape : ∀ (pointer : Inode → Nat) (setPointer : Nat → Inode → Inode),
      pointer cursor.location.inode = 0 → (∀ block, setPointer block = setHead location block) →
      Yields (fun next middle => ∃ block volume,
          cursor.volume.handOut allocation.group = some (block, next.group, volume) ∧
          HandedOut cursor.volume block volume ∧
          middle.Standing contents (addTable Tables 0 block) 0 block ∧
          middle.frame = (cursor.withHead location block volume).frame)
        (fun _ => True) (linkTable1 pointer setPointer allocation cursor) := by
    intro pointer setPointer zero setter
    change Yields _ _ ((if pointer cursor.location.inode = 0 then _ else _ :
      OnCursor Allocation) cursor)
    rw [if_pos zero]
    refine yields_bind balloc_spec ?_
    rintro ⟨block, next⟩ _ ⟨volume, rfl, out, -⟩
    have spec := hand_out_spec sane.padded out
    change Yields _ _ ((modifyInode (setPointer block) >>= fun _ => checkTable1 >>= fun _ =>
      pure next : OnCursor Allocation) { cursor with volume := volume })
    rw [setter block]
    change Yields _ _ ((checkTable1 >>= fun _ => pure next : OnCursor Allocation)
      (cursor.withHead location block volume))
    have addr : checkedAddr (cursor.withHead location block volume).location.inode contents
        location 0 =
        block := by
      have pointsTo := head_set_head digits block cursor.location.inode
      cases location with
      | direct d => exact absurd rfl indirect
      | single i => exact pointsTo
      | double i j => exact pointsTo
      | triple i j k => exact pointsTo
    have inUse : volume.marked block = true := by
      rw [spec.marks block spec.nonzero, decide_eq_true rfl, Bool.or_true]
    have new : ∀ place, ¬Tables place block := fun place isTable =>
      absurd ((sane.set.marked place block isTable).symm.trans spec.free) (by decide)
    have linked : (cursor.withHead location block volume).Sane contents Tables :=
      with_head_sane sane spec
    have load := @load_standing _ _ _ block 0 linked spec.nonzero inUse
      (fun other => sane_absent sane spec.nonzero spec.free other) new
    have first : checkTable1 (cursor.withHead location block volume) =
        checkTable 0 block (cursor.withHead location block volume) := by
      have shape := @check_table1_eq (cursor.withHead location block volume) contents location place
      rw [shape, addr]
    rw [← first] at load
    exact yields_bind load fun _ middle loaded => .ok ⟨block, volume, out, spec, loaded⟩
  cases location with
  | direct d => exact absurd rfl indirect
  | single i => exact shape _ _ hole fun _ => rfl
  | double i j => exact shape _ _ hole fun _ => rfl
  | triple i j k => exact shape _ _ hole fun _ => rfl

theorem fill_through (before : List Nat) : ∀ (level turn : Nat) (later : List Nat),
    (∀ place each, before[place]? = some each →
      entry (cursor.location.tables (Fin.ofNat 3 (level + place))).table each ≠ 0) →
    fill level (before ++ turn :: later) allocation cursor =
      fill (level + before.length) (turn :: later) allocation cursor := by
  induction before with
  | nil =>
      intro level turn later _
      rfl
  | cons first before ih =>
      intro level turn later taken
      have skips : entry (cursor.location.tables (Fin.ofNat 3 level)).table first ≠ 0 :=
        taken 0 first rfl
      have rest := ih (level + 1) turn later (fun place each here => by
        have passed := taken (place + 1) each here
        rwa [show level + (place + 1) = level + 1 + place by omega] at passed)
      have shape : ∃ next tail, before ++ turn :: later = next :: tail := by
        cases before with
        | nil => exact ⟨turn, later, rfl⟩
        | cons next before => exact ⟨next, before ++ turn :: later, rfl⟩
      obtain ⟨next, tail, split⟩ := shape
      rw [List.cons_append, split, fill, state_bind_ok (fill_entry_skips skips), ← split, rest,
        List.length_cons]
      congr 1
      omega

theorem fill_taken (turns : List Nat) : ∀ level : Nat,
    (∀ place each, turns[place]? = some each →
      entry (cursor.location.tables (Fin.ofNat 3 (level + place))).table each ≠ 0) →
    fill level turns allocation cursor = .ok allocation cursor := by
  induction turns with
  | nil =>
      intro level _
      rfl
  | cons first turns ih =>
      intro level taken
      have skips : entry (cursor.location.tables (Fin.ofNat 3 level)).table first ≠ 0 :=
        taken 0 first rfl
      cases turns with
      | nil => exact fill_entry_skips skips
      | cons next turns =>
          rw [fill, state_bind_ok (fill_entry_skips skips)]
          refine ih (level + 1) fun place each here => ?_
          have passed := taken (place + 1) each here
          rwa [show level + (place + 1) = level + 1 + place by omega] at passed

/-- The number of pointers on the way that are not there yet. -/
def missing (inode : Inode) (contents : Contents) (location : InodeReadingLocationInfo) : Nat :=
  ((way inode contents location).filter (· = 0)).length

structure Grown (cursor : Cursor) (contents : Contents) (Tables : Fin 3 → Nat → Prop)
    (location : InodeReadingLocationInfo) (hole : Nat) (blocks : List Nat) (after : Cursor)
    (grown : Contents) : Prop where
  length : blocks.length = (turns location).length + 1 - hole
  inside : hole ≤ (turns location).length
  nodup : blocks.Nodup
  fresh : ∀ block ∈ blocks, block ≠ 0 ∧ block < cursor.volume.blockCount ∧
    cursor.volume.marked block = false
  marks : ∀ other, other ≠ 0 → after.volume.marked other =
    (cursor.volume.marked other || decide (other ∈ blocks))
  others : ∀ lba idx, lba ∉ blocks →
    (∀ before : Nat, hole = before + 1 →
      (way cursor.location.inode contents location)[before]? = some lba →
      (turns location)[before]? ≠ some idx) →
    entry (grown lba) idx = entry (contents lba) idx
  way : way after.location.inode grown location =
    (way cursor.location.inode contents location).take hole ++ blocks
  sane : ∃ AllTables, after.Sane grown AllTables ∧
    (∀ level addr, Tables level addr → AllTables level addr) ∧
    ∀ place table, blocks[place]? = some table → hole + place < (turns location).length →
      AllTables (Fin.ofNat 3 (hole + place)) table
  vacant : ∀ (place table turn : Nat), blocks[place]? = some table →
    (turns location)[hole + place]? = some turn → entry (contents table) turn = 0
  entries : ∀ (place table turn idx : Nat), blocks[place]? = some table →
    (turns location)[hole + place]? = some turn → idx ≠ turn →
    entry (grown table) idx = entry (contents table) idx
  kept : ∀ lba, lba ∉ blocks → (∀ idx, entry (contents lba) idx ≠ 0 →
    entry (grown lba) idx = entry (contents lba) idx) ∧
    ((∀ level, ¬Tables level lba) → grown lba = contents lba)
  inode : hole ≠ 0 ∧ after.location.inode = cursor.location.inode ∨
    hole = 0 ∧ ∃ block, blocks[0]? = some block ∧
      after.location.inode = setHead location block cursor.location.inode
  same : after.steady = { cursor.steady with location := { cursor.steady.location with
    inode := after.location.inode, inodeDirty := after.location.inodeDirty } }

theorem missing_eq {hole : Nat}
    (here : (way cursor.location.inode contents location)[hole]? = some 0)
    (there : ∀ before < hole, ∀ table,
      (way cursor.location.inode contents location)[before]? = some table → table ≠ 0) :
    missing cursor.location.inode contents location = (turns location).length + 1 - hole := by
  have bound := (List.getElem?_eq_some_iff.mp here).1
  have front : ((way cursor.location.inode contents location).take hole).filter (· = 0) = [] := by
    rw [List.filter_eq_nil_iff]
    intro table member
    obtain ⟨place, found⟩ := List.mem_iff_getElem?.mp member
    rw [List.getElem?_take] at found
    split_ifs at found with small
    simpa using there place small table found
  unfold missing
  rw [way, chase_hole here there, List.filter_append]
  change (((way cursor.location.inode contents location).take hole).filter (· = 0) ++ _).length = _
  rw [front, List.nil_append, List.filter_eq_self.mpr (by simp), List.length_replicate]

theorem add_tables_old (turns : List Nat) : ∀ (Tables : Fin 3 → Nat → Prop) (level : Nat)
    (blocks : List Nat) {place : Fin 3} {addr : Nat}, Tables place addr →
    addTables Tables level turns blocks place addr := by
  induction turns with
  | nil =>
      intro Tables level blocks place addr isTable
      exact isTable
  | cons turn turns ih =>
      intro Tables level blocks place addr isTable
      cases turns with
      | nil => exact isTable
      | cons next turns =>
          cases blocks with
          | nil => exact isTable
          | cons block blocks =>
              rw [addTables]
              exact ih _ _ _ (.inl isTable)

theorem add_tables_new (turns : List Nat) : ∀ (Tables : Fin 3 → Nat → Prop) (level : Nat)
    (blocks : List Nat) {place table : Nat}, blocks[place]? = some table →
    place + 1 < turns.length →
    addTables Tables level turns blocks (Fin.ofNat 3 (level + 1 + place)) table := by
  induction turns with
  | nil =>
      intro Tables level blocks place table _ impossible
      exact absurd impossible (by simp)
  | cons turn turns ih =>
      intro Tables level blocks place table found bound
      cases turns with
      | nil =>
          rw [List.length_singleton] at bound
          omega
      | cons next turns =>
          cases blocks with
          | nil => exact absurd found (by simp)
          | cons block blocks =>
              rw [addTables]
              cases place with
              | zero =>
                  obtain rfl : block = table := by simpa using found
                  exact add_tables_old _ _ _ _ (.inr ⟨rfl, rfl⟩)
              | succ place =>
                  rw [List.getElem?_cons_succ] at found
                  have later := ih (addTable Tables (Fin.ofNat 3 (level + 1)) block)
                    (level + 1) blocks
                    found (by simpa using bound)
                  rwa [show level + 1 + 1 + place = level + 1 + (place + 1) by omega] at later

theorem thread_exact {pointer turn size : Nat} {later blocks : List Nat}
    (sized : ∀ lba, (contents lba).length = size) (small : ∀ each ∈ turn :: later, each < size / 4)
    (length : blocks.length = (turn :: later).length) (nodup : (pointer :: blocks).Nodup)
    {lba idx : Nat} (outside : lba ∉ blocks) (apart : lba = pointer → idx ≠ turn) :
    entry (thread contents pointer (turn :: later) blocks lba) idx = entry (contents lba) idx := by
  by_cases here : lba = pointer
  · subst here
    exact entry_thread (turn :: later) contents lba blocks sized small length nodup 0 lba turn
      idx rfl
      rfl (apart rfl)
  · rw [thread_other _ _ _ _ here outside]

/-- A thread changes entries of its first table that were zero, and nothing else outside
of its blocks. -/
theorem thread_kept {pointer turn size : Nat} {later blocks : List Nat}
    (sized : ∀ lba, (contents lba).length = size) (small : ∀ each ∈ turn :: later, each < size / 4)
    (length : blocks.length = (turn :: later).length) (nodup : (pointer :: blocks).Nodup)
    (free : entry (contents pointer) turn = 0) {lba : Nat} (outside : lba ∉ blocks) :
    (∀ idx, entry (contents lba) idx ≠ 0 →
      entry (thread contents pointer (turn :: later) blocks lba) idx = entry (contents lba) idx) ∧
    (lba ≠ pointer → thread contents pointer (turn :: later) blocks lba = contents lba) := by
  refine ⟨fun idx taken => ?_, fun elsewhere => thread_other _ _ _ _ elsewhere outside⟩
  apply thread_exact sized small length nodup outside
  rintro rfl rfl
  exact taken free

variable {hole pointer turn : Nat} {later blocks : List Nat}

def LoadedTo (cursor : Cursor) (contents : Contents) (Tables : Fin 3 → Nat → Prop)
    (location : InodeReadingLocationInfo) : Prop :=
  ∀ level pointer, level < (turns location).length →
    (way cursor.location.inode contents location)[level]? = some pointer → pointer ≠ 0 →
      Tables (Fin.ofNat 3 level) pointer ∧
        (cursor.location.tables (Fin.ofNat 3 level)).addr = pointer

theorem contents_sized (views : cursor.Views contents) (lba : Nat) :
    (contents lba).length = cursor.volume.blockSize := by
  by_cases cached : ∃ level, (cursor.location.tables level).dirty ∧
      (cursor.location.tables level).addr = lba
  · obtain ⟨level, dirty, rfl⟩ := cached
    rw [← (views.changed level dirty).2]
    exact views.sized level
  · rw [← views.unchanged lba fun level dirty same => cached ⟨level, dirty, same⟩]
    exact views.stores.sized lba

section Threaded

variable {level : Nat} {path : List Nat}
  (threaded : cursor.Threaded contents Tables level pointer path blocks after)

include threaded

theorem not_threaded {addr : Nat} (inUse : cursor.volume.marked addr = true) : addr ∉ blocks := by
  intro member
  have unused := (threaded.fresh addr member).2.2
  rw [inUse] at unused
  exact absurd unused (by decide)

theorem threaded_nodup (inUse : cursor.volume.marked pointer = true) : (pointer :: blocks).Nodup :=
  List.nodup_cons.mpr ⟨not_threaded threaded inUse, threaded.nodup⟩

theorem threaded_chase (views : cursor.Views contents) (padded : cursor.volume.Padded)
    (small : ∀ each ∈ path, each < cursor.volume.blockSize / 4)
    (inUse : cursor.volume.marked pointer = true) (nonzero : pointer ≠ 0) :
    chase (thread contents pointer path blocks) pointer path = pointer :: blocks := by
  apply chase_thread path contents pointer blocks (contents_sized views) small threaded.length
    (threaded_nodup threaded inUse) nonzero
  intro block member
  obtain ⟨used, bound, -⟩ := threaded.fresh block member
  exact ⟨used, Nat.lt_trans bound padded.word⟩

end Threaded

/-- Up to the table with the hole the way is the old one, and from there on it leads along the
new blocks. -/
theorem way_threaded (sane : cursor.Sane contents Tables)
    (loaded : cursor.LoadedTo contents Tables location)
    (rest : (turns location).drop hole = turn :: later) (inside : hole < (turns location).length)
    (found : (way cursor.location.inode contents location)[hole]? = some pointer)
    (there : ∀ before ≤ hole, ∀ table,
      (way cursor.location.inode contents location)[before]? = some table → table ≠ 0)
    (small : ∀ each ∈ turn :: later, each < cursor.volume.blockSize / 4)
    (threaded : cursor.Threaded contents Tables hole pointer (turn :: later) blocks after) :
    way cursor.location.inode (thread contents pointer (turn :: later) blocks) location =
      (way cursor.location.inode contents location).take (hole + 1) ++ blocks := by
  have lengths := turns_length location
  have nonzero := there hole (Nat.le_refl _) pointer found
  have isTable := (loaded hole pointer inside found nonzero).1
  have agree : ∀ place < hole, ∀ table,
      (chase contents (head cursor.location.inode location) (turns location))[place]? = some table →
      table ≠ 0 ∧ thread contents pointer (turn :: later) blocks table = contents table := by
    intro place before table here
    have present := there place (by omega) table here
    have tableHere := (loaded place table (by omega) here present).1
    have apart : table ≠ pointer := by
      rintro rfl
      have level := sane.set.unique _ _ _ tableHere isTable
      have values := congrArg Fin.val level
      simp only [Fin.ofNat, Nat.mod_eq_of_lt (show place < 3 by omega),
        Nat.mod_eq_of_lt (show hole < 3 by omega)] at values
      omega
    have outside := not_threaded threaded (sane.set.marked _ _ tableHere)
    exact ⟨present, thread_other _ _ _ _ apart outside⟩
  have shape := chase_split hole (turns location) (head cursor.location.inode location)
    pointer agree
    found
  have last : (chase contents (head cursor.location.inode location) (turns location))[hole]? =
      some pointer := found
  rw [rest, threaded_chase threaded sane.views sane.padded small (sane.set.marked _ _ isTable)
    nonzero]
    at shape
  unfold way
  rw [shape, List.take_add_one, last, List.append_assoc]
  rfl

theorem grown_of_threaded (sane : cursor.Sane contents Tables)
    (digits : Digits (cursor.volume.blockSize / 4) location)
    (loaded : cursor.LoadedTo contents Tables location)
    (split : turns location = (turns location).take hole ++ turn :: later)
    (inside : hole < (turns location).length)
    (found : (way cursor.location.inode contents location)[hole]? = some pointer)
    (there : ∀ before ≤ hole, ∀ table,
      (way cursor.location.inode contents location)[before]? = some table → table ≠ 0)
    (free : entry (contents pointer) turn = 0)
    (threaded : cursor.Threaded contents Tables hole pointer (turn :: later) blocks after) :
    cursor.Grown contents Tables location (hole + 1) blocks after
      (thread contents pointer (turn :: later) blocks) := by
  have front : ((turns location).take hole).length = hole := by
    rw [List.length_take]
    omega
  have count : (turns location).length = hole + (later.length + 1) := by
    have total := congrArg List.length split
    rwa [List.length_append, front, List.length_cons] at total
  have rest : (turns location).drop hole = turn :: later := by
    nth_rewrite 1 [split]
    rw [List.drop_append_of_le_length (by omega),
      List.drop_eq_nil_of_le (by omega), List.nil_append]
  have nextTurn : ∀ place, (turns location)[hole + 1 + place]? = later[place]? := by
    intro place
    rw [split, List.getElem?_append_right (by omega), front,
      show hole + 1 + place - hole = place + 1 by omega, List.getElem?_cons_succ]
  have sized := contents_sized sane.views
  have small : ∀ each ∈ turn :: later, each < cursor.volume.blockSize / 4 := by
    intro each member
    apply turns_small digits
    rw [split]
    exact List.mem_append_right _ member
  have isTable := (loaded hole pointer inside found (there hole (Nat.le_refl _) pointer found)).1
  have nodup := threaded_nodup threaded (sane.set.marked _ _ isTable)
  have inode := inode_of_steady threaded.same
  have kept := fun {lba : Nat} (out : lba ∉ blocks) =>
    thread_kept sized small threaded.length nodup free out
  refine ⟨?_, by omega, threaded.nodup, threaded.fresh, threaded.marks, ?_, ?_,
    ⟨_, threaded.sane, fun level addr old => add_tables_old _ _ _ _ old, ?_⟩, ?_, ?_, ?_,
    .inl ⟨by omega, inode⟩, ?_⟩
  · rw [threaded.length, count, List.length_cons]
    omega
  · intro lba idx out apart
    apply thread_exact sized small threaded.length nodup out
    rintro rfl rfl
    apply apart hole rfl found
    rw [split, List.getElem?_append_right (by omega), front, Nat.sub_self]
    rfl
  · rw [inode]
    exact way_threaded sane loaded rest inside found there small threaded
  · intro place table here bound
    have new := add_tables_new (turn :: later) Tables hole blocks here
      (by rw [List.length_cons]; omega)
    exact new
  · intro place table each here at_
    rw [nextTurn] at at_
    exact threaded.vacant place table each here (by rw [List.getElem?_cons_succ]; exact at_)
  · intro place table each idx here at_ apart
    rw [nextTurn] at at_
    exact entry_thread (turn :: later) contents pointer blocks sized small threaded.length nodup
      (place + 1) table each idx (by rw [List.getElem?_cons_succ]; exact here)
      (by rw [List.getElem?_cons_succ]; exact at_) apart
  · intro lba out
    refine ⟨(kept out).1, fun noTable => (kept out).2 ?_⟩
    rintro rfl
    exact noTable _ isTable
  · rw [threaded.same, inode]
    have dirty : after.location.inodeDirty = cursor.location.inodeDirty :=
      show after.steady.location.inodeDirty = cursor.steady.location.inodeDirty by
        rw [threaded.same]
    rw [dirty]
    rfl

theorem with_head_same (out : HandedOut cursor.volume block volume) :
    (cursor.withHead location block volume).steady = { cursor.steady with location :=
      { cursor.steady.location with
        inode := (cursor.withHead location block volume).location.inode
        inodeDirty := (cursor.withHead location block volume).location.inodeDirty } } := by
  unfold steady frame withHead
  rw [out.rest]
  rfl

theorem grown_of_direct {tableSize : Nat} (sane : cursor.Sane contents Tables)
    (digits : Digits tableSize location) (direct : turns location = [])
    (out : HandedOut cursor.volume block volume) :
    cursor.Grown contents Tables location 0 [block] (cursor.withHead location block volume)
      contents := by
  have none : ∀ place, (turns location)[0 + place]? = none := by
    intro place
    rw [direct]
    rfl
  refine ⟨by rw [direct]; rfl, Nat.zero_le _, List.nodup_singleton _, ?_, ?_, fun _ _ _ _ => rfl, ?_,
    ⟨Tables, with_head_sane sane out, fun _ _ old => old, ?_⟩, ?_, ?_,
    fun lba _ => ⟨fun _ _ => rfl, fun _ => rfl⟩, .inr ⟨rfl, block, rfl, rfl⟩, with_head_same out⟩
  · intro other member
    obtain rfl := List.mem_singleton.mp member
    exact ⟨out.nonzero, out.inside, out.free⟩
  · intro other nonzero
    simp only [List.mem_singleton]
    exact out.marks other nonzero
  · have pointsTo := head_set_head digits block cursor.location.inode
    rw [List.take_zero, List.nil_append]
    unfold way
    rw [direct]
    exact congrArg (fun pointer => [pointer]) pointsTo
  · intro place table _ impossible
    rw [direct] at impossible
    exact absurd impossible (Nat.not_lt_zero _)
  · intro place table turn _ here
    rw [none] at here
    exact absurd here (by simp)
  · intro place table turn idx _ here
    rw [none] at here
    exact absurd here (by simp)

theorem grown_of_linked (sane : cursor.Sane contents Tables)
    (digits : Digits (cursor.volume.blockSize / 4) location)
    (split : turns location = turn :: later)
    (out : HandedOut cursor.volume block volume)
    (standing : middle.Standing contents (addTable Tables 0 block) 0 block)
    (frame : middle.frame = (cursor.withHead location block volume).frame)
    (free : entry (contents block) turn = 0)
    (threaded : middle.Threaded contents (addTable Tables 0 block) 0 block (turn :: later)
      blocks after) :
    cursor.Grown contents Tables location 0 (block :: blocks) after
      (thread contents block (turn :: later) blocks) := by
  have steady := (steady_of_frame frame).trans (with_head_same out)
  have inode : after.location.inode = setHead location block cursor.location.inode :=
    (inode_of_steady threaded.same).trans (inode_of_frame frame)
  have blockCount : middle.volume.blockCount = cursor.volume.blockCount :=
    show middle.steady.volume.blockCount = cursor.steady.volume.blockCount by rw [steady]
  have marks : ∀ {other : Nat}, other ≠ 0 → middle.volume.marked other =
      (cursor.volume.marked other || decide (other = block)) := by
    intro other nonzero
    rw [marked_of_frame (volume_of_frame frame)]
    exact out.marks other nonzero
  have sized := contents_sized sane.views
  have small : ∀ each ∈ turn :: later, each < cursor.volume.blockSize / 4 := by
    intro each member
    apply turns_small digits
    rwa [split]
  have inUse := standing.set.marked _ _ standing.table
  have nodup := threaded_nodup threaded inUse
  have fresh : ∀ other ∈ block :: blocks, other ≠ 0 ∧ other < cursor.volume.blockCount ∧
      cursor.volume.marked other = false := by
    intro other member
    rcases List.mem_cons.mp member with rfl | later
    · exact ⟨out.nonzero, out.inside, out.free⟩
    · obtain ⟨nonzero, inside, unmarked⟩ := threaded.fresh other later
      rw [marks nonzero, Bool.or_eq_false_iff] at unmarked
      exact ⟨nonzero, blockCount ▸ inside, unmarked.1⟩
  have word := sane.padded.word
  refine ⟨?_, Nat.zero_le _, nodup, fresh, ?_, ?_, ?_,
    ⟨_, threaded.sane, fun level addr old => add_tables_old _ _ _ _ (.inl old), ?_⟩, ?_, ?_, ?_,
    .inr ⟨rfl, block, rfl, inode⟩, ?_⟩
  · rw [List.length_cons, threaded.length, split]
    rfl
  · intro other nonzero
    rw [threaded.marks other nonzero, marks nonzero, Bool.or_assoc]
    simp only [List.mem_cons, Bool.decide_or]
  · intro lba idx outside _
    rw [List.mem_cons, not_or] at outside
    rw [thread_other (turn :: later) contents block blocks outside.1 outside.2]
  · unfold way
    rw [inode, head_set_head digits, split, chase_thread (turn :: later) contents block blocks sized
      small threaded.length nodup out.nonzero fun each member => ⟨(threaded.fresh each member).1, by
        have bound := (threaded.fresh each member).2.1
        omega⟩]
    rfl
  · intro place table here bound
    rw [split] at bound
    cases place with
    | zero =>
        obtain rfl : block = table := by simpa using here
        exact add_tables_old _ _ _ _ (.inr ⟨rfl, rfl⟩)
    | succ place =>
        rw [List.getElem?_cons_succ] at here
        have new := add_tables_new (turn :: later) (addTable Tables 0 block)
          0 blocks here (by omega)
        rwa [show 0 + 1 + place = 0 + (place + 1) by omega] at new
  · intro place table each here at_
    rw [split, Nat.zero_add] at at_
    cases place with
    | zero =>
        obtain rfl : block = table := by simpa using here
        obtain rfl : turn = each := by simpa using at_
        exact free
    | succ place =>
        rw [List.getElem?_cons_succ] at here
        exact threaded.vacant place table each here at_
  · intro place table each idx here at_ apart
    rw [split, Nat.zero_add] at at_
    exact entry_thread (turn :: later) contents block blocks sized small threaded.length nodup
      place table each idx here at_ apart
  · intro lba outside
    rw [List.mem_cons, not_or] at outside
    have kept := thread_other (turn :: later) contents block blocks outside.1 outside.2
    exact ⟨fun idx _ => by rw [kept], fun _ => kept⟩
  · rw [threaded.same, steady]
    have same := inode_of_steady threaded.same
    have dirty : after.location.inodeDirty = middle.location.inodeDirty :=
      show after.steady.location.inodeDirty = middle.steady.location.inodeDirty by
        rw [threaded.same]
    have middleDirty : middle.location.inodeDirty = true :=
      show middle.frame.location.inodeDirty = true by rw [frame]; rfl
    rw [inode, dirty, middleDirty]
    rfl

theorem entry_loaded (sane : cursor.Sane contents Tables)
    (loaded : cursor.LoadedTo contents Tables location) {place each next : Nat}
    (there : ∀ before ≤ place, ∀ table,
      (way cursor.location.inode contents location)[before]? = some table → table ≠ 0)
    (here : (turns location)[place]? = some each)
    (found : (way cursor.location.inode contents location)[place + 1]? = some next) :
    entry (cursor.location.tables (Fin.ofNat 3 place)).table each = next := by
  have bound := (List.getElem?_eq_some_iff.mp here).1
  have long : place < (way cursor.location.inode contents location).length := by
    unfold way
    rw [length_chase]
    omega
  have table := List.getElem?_eq_getElem long
  have nonzero := there place (Nat.le_refl _) _ table
  obtain ⟨isTable, addr⟩ := loaded place _ bound table nonzero
  have copy := (sane.ready _ _ isTable).1 addr
  have step := chase_step table there here
  rw [copy]
  exact Option.some.inj (step.symm.trans found)

theorem link_head_skips (taken : head cursor.location.inode location ≠ 0) :
    linkHead location allocation cursor = .ok allocation cursor := by
  have skips : ∀ (pointer : Inode → Nat) (setPointer : Nat → Inode → Inode),
      pointer cursor.location.inode ≠ 0 →
      linkTable1 pointer setPointer allocation cursor = .ok allocation cursor := by
    intro pointer setPointer nonzero
    change (if pointer cursor.location.inode = 0 then _ else _ : OnCursor Allocation) cursor = _
    rw [if_neg nonzero]
    rfl
  cases location with
  | direct d => rfl
  | single i => exact skips _ _ taken
  | double i j => exact skips _ _ taken
  | triple i j k => exact skips _ _ taken

/-- Behind the end of the file a block is linked already. -/
theorem append_taken (sane : cursor.Sane contents Tables)
    (place : cursor.location.location.location = location)
    (digits : Digits (cursor.volume.blockSize / 4) location)
    (loaded : cursor.LoadedTo contents Tables location)
    (there : ∀ before table : Nat, (way cursor.location.inode contents location)[before]? = some
      table →
      table ≠ 0) :
    appendBlock allocation cursor = .ok allocation cursor := by
  have first := there 0 _ (chase_head _ _)
  by_cases direct : turns location = []
  · cases location with
    | direct d =>
        have inside : d < 12 := digits
        rw [appendBlock, state_bind_get, place]
        dsimp only
        rw [dif_pos inside, if_neg (by simpa [head, inside] using first)]
        rfl
    | single i => exact absurd direct (by simp [turns])
    | double i j => exact absurd direct (by simp [turns])
    | triple i j k => exact absurd direct (by simp [turns])
  · rw [append_block_eq place direct, state_bind_ok (link_head_skips first)]
    refine fill_taken (turns location) 0 fun index each here => ?_
    have bound := (List.getElem?_eq_some_iff.mp here).1
    have long : index + 1 < (way cursor.location.inode contents location).length := by
      unfold way
      rw [length_chase]
      omega
    rw [Nat.zero_add, entry_loaded sane loaded (fun before _ => there before) here
      (List.getElem?_eq_getElem long)]
    exact there _ _ (List.getElem?_eq_getElem long)

/-- What `appendBlock` does where the last pointer of the way is missing. -/
def Appends (cursor : Cursor) (contents : Contents) (Tables : Fin 3 → Nat → Prop)
    (location : InodeReadingLocationInfo) (group : Nat) (after : Cursor) : Prop :=
  (∃ hole grown, (∀ before < hole, ∀ table,
      (way cursor.location.inode contents location)[before]? = some table → table ≠ 0) ∧
    (way cursor.location.inode contents location)[hole]? = some 0 ∧
    cursor.Grown contents Tables location hole
      (handOuts (missing cursor.location.inode contents location) cursor.volume group)
        after grown) ∨
  cursor.Skipped contents (missing cursor.location.inode contents location - 1) group after

section FromHead

variable (sane : cursor.Sane contents Tables) (place : cursor.location.location.location = location)
  (digits : Digits (cursor.volume.blockSize / 4) location)
  (absent : head cursor.location.inode location = 0)

include absent in
theorem head_missing : (way cursor.location.inode contents location)[0]? = some 0 := by
  unfold way
  rw [chase_head, absent]

theorem none_before_head : ∀ before < 0, ∀ table,
    (way cursor.location.inode contents location)[before]? = some table → table ≠ 0 := by
  intro before impossible
  exact absurd impossible (Nat.not_lt_zero before)

include absent in
theorem missing_from_head :
    missing cursor.location.inode contents location = (turns location).length + 1 :=
  missing_eq (head_missing absent) none_before_head

include sane place digits absent

theorem append_direct (direct : turns location = []) :
    Yields (fun _ after => cursor.Appends contents Tables location allocation.group after)
      (fun _ => True) (appendBlock allocation cursor) := by
  have one : missing cursor.location.inode contents location = 1 := by
    rw [missing_from_head absent, direct]
    rfl
  cases location with
  | direct d =>
      have inside : d < 12 := digits
      have zero : cursor.location.inode.directBlockPointers ⟨d, inside⟩ = 0 := by
        simpa [head, inside] using absent
      rw [appendBlock, state_bind_get, place]
      dsimp only
      rw [dif_pos inside, if_pos zero]
      apply yields_bind balloc_spec
      rintro ⟨block, next⟩ _ ⟨volume, rfl, out, -⟩
      have spec := hand_out_spec sane.padded out
      refine .ok (.inl ⟨0, contents, none_before_head, head_missing absent, ?_⟩)
      rw [one, hand_outs_cons out]
      exact grown_of_direct sane digits direct spec
  | single i => exact absurd direct (by simp [turns])
  | double i j => exact absurd direct (by simp [turns])
  | triple i j k => exact absurd direct (by simp [turns])

/-- The inode gets a new first table, and the way goes on from there. -/
theorem append_indirect (split : turns location = turn :: later) :
    Yields (fun _ after => cursor.Appends contents Tables location allocation.group after)
      (fun _ => True) (appendBlock allocation cursor) := by
  have indirect : turns location ≠ [] := by rw [split]; simp
  have count : missing cursor.location.inode contents location = later.length + 1 + 1 := by
    rw [missing_from_head absent, split, List.length_cons]
  rw [append_block_eq place indirect]
  apply yields_bind (link_head_spec sane place digits indirect absent)
  rintro next middle ⟨block, volume, out, spec, standing, frame⟩
  have granted : Granted 1 cursor.volume middle.volume :=
    granted_trans (granted_of_handed_out spec)
      (granted_of_frame spec.padded (volume_of_frame frame))
  have outs : ∀ number, handOuts (number + 1) cursor.volume allocation.group =
      block :: handOuts number middle.volume next.group := by
    intro number
    rw [hand_outs_cons out, hand_outs_of_frame (volume_of_frame frame)]
    rfl
  have blockSize : middle.volume.blockSize = cursor.volume.blockSize := by
    rw [block_size_of_frame (volume_of_frame frame)]
    change volume.blockSize = _
    rw [spec.rest]
  have small : ∀ each ∈ turn :: later, each < middle.volume.blockSize / 4 := by
    intro each member
    rw [blockSize]
    apply turns_small digits
    rwa [split]
  have fills : fill 0 (turns location) next middle = fill 0 (turn :: later) next middle := by
    rw [split]
  have placed : middle.location.location.location = location := by
    rw [location_of_frame frame]
    exact place
  unfold Appends
  rw [count, fills]
  by_cases free : entry (contents block) turn = 0
  · apply yields_weaken (fill_thread later [] turn 0 middle contents _ block next placed split rfl
      small standing free)
    · intro _ after outcome
      cases outcome with
      | inl threaded =>
          have grown := grown_of_linked sane digits split spec standing frame free threaded
          rw [← outs] at grown
          exact .inl ⟨0, _, none_before_head, head_missing absent, grown⟩
      | inr skipped =>
          obtain ⟨later, stale, member, idx, bound, dirty⟩ := skipped
          refine .inr ⟨granted_le (granted_trans granted later) (by omega), stale, ?_, idx,
            by rwa [blockSize] at bound, dirty⟩
          rw [Nat.add_sub_cancel, outs]
          exact List.mem_cons_of_mem _ member
    · intro _ _
      trivial
  · have taken : entry (middle.location.tables (Fin.ofNat 3 0)).table turn ≠ 0 := by
      change entry (middle.location.tables 0).table turn ≠ 0
      rw [standing_copy standing]
      exact free
    apply yields_weaken (fill_skipped standing.padded taken)
    · intro _ after skipped
      refine .inr ⟨granted_le (granted_trans granted skipped) (by omega), block, ?_, turn, ?_, free⟩
      · rw [Nat.add_sub_cancel, outs]
        exact List.mem_cons_self
      · rw [← blockSize]
        exact small turn List.mem_cons_self
    · intro _ _
      trivial

/-- The pointer in the inode is missing. -/
theorem append_from_head :
    Yields (fun _ after => cursor.Appends contents Tables location allocation.group after)
      (fun _ => True) (appendBlock allocation cursor) := by
  cases split : turns location with
  | nil => exact append_direct sane place digits absent split
  | cons turn later => exact append_indirect sane place digits absent split

end FromHead

theorem append_from_table (sane : cursor.Sane contents Tables)
    (place : cursor.location.location.location = location)
    (digits : Digits (cursor.volume.blockSize / 4) location)
    (loaded : cursor.LoadedTo contents Tables location)
    (here : (way cursor.location.inode contents location)[hole + 1]? = some 0)
    (there : ∀ before < hole + 1, ∀ table,
      (way cursor.location.inode contents location)[before]? = some table → table ≠ 0) :
    Yields (fun _ after => cursor.Appends contents Tables location allocation.group after)
      (fun _ => True) (appendBlock allocation cursor) := by
  have long : hole + 1 < (way cursor.location.inode contents location).length :=
    (List.getElem?_eq_some_iff.mp here).1
  have total : (way cursor.location.inode contents location).length = (turns location).length + 1 :=
    length_chase _ _
  have inside : hole < (turns location).length := by omega
  obtain ⟨turn, turnHere⟩ : ∃ turn, (turns location)[hole]? = some turn :=
    ⟨_, List.getElem?_eq_getElem inside⟩
  obtain ⟨pointer, found⟩ : ∃ pointer, (way cursor.location.inode contents location)[hole]? =
      some pointer := ⟨_, List.getElem?_eq_getElem (by omega)⟩
  have thereUpTo : ∀ before ≤ hole, ∀ table,
      (way cursor.location.inode contents location)[before]? = some table → table ≠ 0 :=
    fun before small => there before (by omega)
  have nonzero := thereUpTo hole (Nat.le_refl _) pointer found
  obtain ⟨isTable, addr⟩ := loaded hole pointer inside found nonzero
  have free : entry (contents pointer) turn = 0 :=
    Option.some.inj ((chase_step found thereUpTo turnHere).symm.trans here)
  have split : turns location = (turns location).take hole ++ turn :: (turns location).drop
      (hole + 1) := by
    conv_lhs => rw [← List.take_append_drop hole (turns location)]
    rw [List.drop_eq_getElem?_toList_append, turnHere]
    rfl
  have front : ((turns location).take hole).length = hole := by
    rw [List.length_take]
    omega
  have first := thereUpTo 0 (Nat.zero_le _) _ (chase_head _ _)
  have indirect : turns location ≠ [] := by
    intro nil
    rw [nil] at inside
    exact absurd inside (Nat.not_lt_zero _)
  have count : missing cursor.location.inode contents location =
      ((turns location).drop (hole + 1)).length + 1 := by
    rw [missing_eq here there, List.length_drop]
    omega
  have through : fill 0 (turns location) allocation cursor =
      fill hole (turn :: (turns location).drop (hole + 1)) allocation cursor := by
    have skips := @fill_through cursor allocation ((turns location).take hole) 0 turn
      ((turns location).drop (hole + 1)) (fun index each at_ => by
        rw [List.getElem?_take] at at_
        split_ifs at at_ with before
        have longEnough : index + 1 < (way
            cursor.location.inode contents location).length := by omega
        rw [Nat.zero_add, entry_loaded sane loaded
          (fun earlier small => there earlier (by omega)) at_
          (List.getElem?_eq_getElem longEnough)]
        exact there _ (by omega) _ (List.getElem?_eq_getElem longEnough))
    rwa [← split, front, Nat.zero_add] at skips
  have standing : cursor.Standing contents Tables (Fin.ofNat 3 hole) pointer :=
    ⟨sane, isTable, addr⟩
  have small : ∀ each ∈ turn :: (turns location).drop (hole + 1),
      each < cursor.volume.blockSize / 4 := by
    intro each member
    apply turns_small digits
    rw [split]
    exact List.mem_append_right _ member
  rw [append_block_eq place indirect, state_bind_ok (link_head_skips first), through]
  refine yields_weaken (fill_thread ((turns location).drop (hole + 1))
    ((turns location).take hole) turn
    hole cursor contents Tables pointer allocation place split front small standing free)
    (fun _ after outcome => ?_) (fun _ _ => trivial)
  unfold Appends
  rw [count]
  rcases outcome with threaded | skipped
  · exact .inl ⟨hole + 1, _, there, here,
      grown_of_threaded sane digits loaded split inside found thereUpTo free threaded⟩
  · exact .inr skipped

theorem append_spec (sane : cursor.Sane contents Tables)
    (place : cursor.location.location.location = location)
    (digits : Digits (cursor.volume.blockSize / 4) location)
    (loaded : cursor.LoadedTo contents Tables location)
    (slot : (way cursor.location.inode contents location)[(turns location).length]? = some 0) :
    Yields (fun _ after => cursor.Appends contents Tables location allocation.group after)
      (fun _ => True) (appendBlock allocation cursor) := by
  have some_ : ∃ hole, (way cursor.location.inode contents location)[hole]? = some 0 := ⟨_, slot⟩
  classical
  have here := Nat.find_spec some_
  have there : ∀ before < Nat.find some_, ∀ table,
      (way cursor.location.inode contents location)[before]? = some table → table ≠ 0 := by
    intro before small table found zero
    exact Nat.find_min some_ small (zero ▸ found)
  cases first : Nat.find some_ with
  | zero =>
      rw [first] at here
      refine append_from_head sane place digits ?_
      exact Option.some.inj ((chase_head _ _).symm.trans here)
  | succ hole =>
      rw [first] at here there
      exact append_from_table sane place digits loaded here there

end Cursor

end Campix.Ext2
