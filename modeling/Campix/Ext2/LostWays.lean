import Campix.Ext2.ReadRuns

/-!
# Lookups behind missing tables

Between its calls a handle has nothing to write back, and a copy of a table that has an
address is what the block at the address holds. Where the pointer to a table is zero, the
copy loses its address but keeps its bytes, and the lookup goes on with these: a new
handle has whatever the heap held before.
-/

namespace Campix.Ext2

open Lib.Fallible Lib.Outcome Lib.Slice

set_option autoImplicit false

namespace Cursor

/-- Nothing is to be written back, and every copy that has an address is up to date. -/
structure Current (cursor : Cursor) : Prop where
  views : cursor.Views cursor.volume.device
  clean : ∀ level, (cursor.location.tables level).dirty = false
  copies : ∀ level, (cursor.location.tables level).addr ≠ 0 →
    (cursor.location.tables level).table = cursor.volume.device (cursor.location.tables level).addr

variable {cursor after : Cursor} {location : InodeReadingLocationInfo} {level : Fin 3} {addr : Nat}

theorem current_ready (current : cursor.Current) : cursor.Ready cursor.volume.device AnyTable := by
  intro level addr nonzero
  constructor
  · intro here
    rw [current.copies level (by rw [here]; exact nonzero), here]
  · intro other _ dirty
    exact absurd ((current.clean other).symm.trans dirty) (by decide)

/-- What a lookup at a clean handle reads and writes. -/
theorem current_of_at {contents : Contents} {k : Nat} (here : cursor.At contents AnyTable k) :
    cursor.Current := by
  have device := device_of_clean here.views here.clean
  refine ⟨?_, here.clean, fun level nonzero => ?_⟩
  · rw [device]
    exact here.views
  · rw [device]
    exact (here.ready level _ nonzero).1 rfl

theorem save_clean (clean : (cursor.location.tables level).dirty = false) (toLoadAddr : Nat) :
    saveIfAddressesDiffer level toLoadAddr cursor = .ok () cursor := by
  change (if (cursor.location.tables level).dirty ∧ _ then _ else _ : OnCursor Unit) cursor = _
  rw [if_neg (by rw [clean]; simp)]
  rfl

/-- Without an address the copy keeps its bytes. -/
theorem check_table_zero (clean : (cursor.location.tables level).dirty = false) :
    checkTable level 0 cursor = .ok () (cursor.withTable level
      { cursor.location.tables level with addr := 0 }) := by
  unfold checkTable
  rw [state_bind_ok (save_clean clean 0)]
  rfl

/-- An address behind the end of the volume is not loaded. -/
theorem check_table_beyond (clean : (cursor.location.tables level).dirty = false)
    (nonzero : addr ≠ 0)
    (absent : (cursor.location.tables level).addr ≠ addr)
    (sized : cursor.volume.blockSize ≤ (cursor.location.tables level).table.length)
    (beyond : addr ≥ cursor.volume.blockCount) :
    ∃ failed, checkTable level addr cursor = .error (.error .outOfBounds) failed := by
  unfold checkTable
  rw [state_bind_ok (save_clean clean addr)]
  change ∃ failed, (if addr = 0 then _ else
    if (cursor.location.tables level).addr ≠ addr then _ else _ : OnCursor Unit) cursor = _
  rw [if_neg nonzero, if_pos absent]
  have refused : Ext2Volume.readBlock addr (cursor.location.tables level).table cursor.volume =
      .error (.error .outOfBounds) cursor.volume := by
    change (if (cursor.location.tables level).table.length < cursor.volume.blockSize then _ else
      if addr ≥ cursor.volume.blockCount then _ else _ : OnVolume (Nat × Block)) cursor.volume = _
    rw [if_neg (by omega), if_pos beyond]
    rfl
  unfold loadTable
  rw [refused]
  exact ⟨_, rfl⟩

def wildPointer : Nat := 0xFFFF_FFFF

/-- The copies of a new handle, all bits of which are set. -/
structure Wild (cursor : Cursor) : Prop extends cursor.Current where
  addr : ∀ level, (cursor.location.tables level).addr = 0
  bytes : ∀ level, (cursor.location.tables level).table = List.replicate
    cursor.volume.blockSize 0xFF
  few : cursor.volume.blockCount ≤ wildPointer

theorem entry_wild {size idx : Nat} (inside : idx < size / 4) :
    entry (List.replicate size 0xFF) idx = wildPointer := by
  have four : min 4 (size - idx * 4) = 4 := by omega
  rw [entry, readLe, List.drop_replicate, List.take_replicate, four]
  rfl

def Astray (cursor : Cursor) (level : Fin 3) : Prop :=
  (cursor.location.tables level).table = List.replicate cursor.volume.blockSize 0xFF

theorem follow_astray {idx : Nat} (astray : cursor.Astray level)
    (inside : idx < cursor.volume.blockSize / 4) :
    follow level idx cursor = .ok wildPointer cursor := by
  rw [follow_eq (by rw [astray, List.length_replicate]; omega), astray, entry_wild inside]

structure Begun (cursor : Cursor) (place : Nat) (after : Cursor) : Prop where
  views : after.Views cursor.volume.device
  clean : ∀ level, (after.location.tables level).dirty = false
  frame : after.frame = cursor.frame
  later : ∀ other : Fin 3, place ≤ other.val →
    after.location.tables other = cursor.location.tables other

section Begun

variable {middle : Cursor} {place : Nat} (wild : cursor.Wild) (begun : cursor.Begun place middle)
  (here : level.val = place)

include begun in
theorem begun_block_size : middle.volume.blockSize = cursor.volume.blockSize :=
  Ext2Volume.block_size_of_frame (volume_of_frame begun.frame)

include begun in
theorem begun_block_count : middle.volume.blockCount = cursor.volume.blockCount :=
  Ext2Volume.block_count_of_frame (volume_of_frame begun.frame)

include wild begun here

theorem begun_addr : (middle.location.tables level).addr = 0 := by
  rw [begun.later level (by omega)]
  exact wild.addr level

theorem check_table_begun (nonzero : addr ≠ 0) :
    Yields (fun _ after => cursor.Begun (place + 1) after ∧ addr < cursor.volume.blockCount ∧
        (after.location.tables level).table = cursor.volume.device addr)
      (fun _ => True) (checkTable level addr middle) := by
  by_cases beyond : addr ≥ cursor.volume.blockCount
  · obtain ⟨failed, stops⟩ := check_table_beyond (begun.clean level) nonzero
      (by rw [begun_addr wild begun here]; exact Ne.symm nonzero) (begun.views.sized level).ge
      (by rw [begun_block_count begun]; exact beyond)
    rw [stops]
    exact .error trivial
  have views : middle.Views middle.volume.device := by
    rw [device_of_clean begun.views begun.clean]
    exact begun.views
  apply yields_weaken (check_table_spec views level addr)
  · intro _ after checked
    have device := device_of_clean begun.views begun.clean
    refine ⟨⟨?_, ?_, checked.frame.trans begun.frame, ?_⟩, by omega, ?_⟩
    · rw [← device]
      exact checked.views
    · intro other
      rw [Bool.eq_false_iff]
      intro dirty
      by_cases same : other = level
      · subst same
        exact absurd ((begun.clean other).symm.trans (checked.dirty dirty).1) (by decide)
      · rw [checked.others other same] at dirty
        exact absurd ((begun.clean other).symm.trans dirty) (by decide)
    · intro other later
      have different : other ≠ level := by
        rintro rfl
        omega
      rw [checked.others other different]
      exact begun.later other (by omega)
    · have table := checked.table nonzero
      rw [begun_addr wild begun here, if_neg (Ne.symm nonzero), device] at table
      exact table
  · intro _ _
    trivial

omit wild begun here in
theorem begun_self (wild : cursor.Wild) : cursor.Begun 0 cursor :=
  ⟨wild.views, wild.clean, rfl, fun _ _ => rfl⟩

omit wild here in
theorem begun_succ : cursor.Begun (place + 1) middle :=
  ⟨begun.views, begun.clean, begun.frame, fun other later => begun.later other (by omega)⟩

omit here in
theorem begun_astray (later : place ≤ level.val) : middle.Astray level := by
  unfold Astray
  rw [begun.later level later, wild.bytes level, begun_block_size begun]

theorem check_table_astray : checkTable level 0 middle = .ok () middle := by
  have same : { middle.location.tables level with addr := 0 } = middle.location.tables level := by
    have zero := begun_addr wild begun here
    cases shape : middle.location.tables level with
    | mk table addr dirty =>
        rw [shape] at zero
        obtain rfl : addr = 0 := zero
        rfl
  rw [check_table_zero (begun.clean level), same]
  unfold withTable
  rw [Function.update_eq_self]

/-- The bytes of the heap do not lead to a block. -/
theorem check_table_wild : ∃ failed, checkTable level wildPointer middle =
    .error (.error .outOfBounds) failed := by
  have few := wild.few
  apply check_table_beyond (begun.clean level) (by decide)
  · rw [begun_addr wild begun here]
    decide
  · rw [begun.views.sized level]
  · rw [begun_block_count begun]
    exact few

end Begun

theorem begun_place {middle : Cursor} {place : Nat} (begun : cursor.Begun place middle)
    (there : cursor.location.location.location = location) :
    middle.location.location.location = location := by
  rw [location_of_frame begun.frame]
  exact there

def Found (location : InodeReadingLocationInfo) (cursor : Cursor) (_ : Unit)
    (looked : Cursor) : Prop :=
  (∀ addr ∈ tablePath cursor.location.inode cursor.volume.device location,
    addr ≠ 0 ∧ addr < cursor.volume.blockCount) ∨
  getNextBlock looked = .ok wildPointer looked

/-- A lookup that ends has passed tables of the volume only, or it ends at a pointer that no
volume has a block for. -/
def Finds (location : InodeReadingLocationInfo) (cursor : Cursor) : Prop :=
  Yields (fun _ looked =>
      (∀ addr ∈ tablePath cursor.location.inode cursor.volume.device location,
        addr ≠ 0 ∧ addr < cursor.volume.blockCount) ∨
      getNextBlock looked = .ok wildPointer looked)
    (fun _ => True) (checkTables cursor)

theorem finds_of_error {failure : Failure} {failed : Cursor}
    (stops : checkTables cursor = .error failure failed) : cursor.Finds location := by
  unfold Finds
  rw [stops]
  exact .error trivial

section Astray

variable (wild : cursor.Wild)

include wild

theorem finds_wild_second {i j : Nat} {middle : Cursor} (begun : cursor.Begun 1 middle)
    (there : middle.location.location.location = .double i j ∨
      ∃ k, middle.location.location.location = .triple i j k)
    (inside : j < cursor.volume.blockSize / 4) (followed : follow 0 i middle = .ok 0 middle) :
    ∃ failed, (checkTable2 >>= fun _ => checkTable3 : OnCursor Unit) middle =
      .error (.error .outOfBounds) failed := by
  have second : checkTable2 middle = .ok () middle := by
    rw [check_table2_follow there followed]
    exact check_table_astray wild begun rfl
  have astray : middle.Astray 1 := begun_astray wild begun (Nat.le_refl 1)
  have third : checkTable3 middle = checkTable 2 wildPointer middle :=
    check_table3_follow there (follow_astray astray (by rw [begun_block_size begun]; exact inside))
  obtain ⟨failed, stops⟩ := check_table_wild wild (begun_succ begun)
    (show (2 : Fin 3).val = 2 from rfl)
  refine ⟨failed, ?_⟩
  rw [state_bind_ok second, third]
  exact stops

theorem finds_wild_first {i j : Nat} (there : cursor.location.location.location = .double i j ∨
      ∃ k, cursor.location.location.location = .triple i j k)
    (inside : i < cursor.volume.blockSize / 4) (first : checkTable1 cursor = .ok () cursor) :
    cursor.Finds location := by
  have begun := begun_self wild
  have astray : cursor.Astray 0 := begun_astray wild begun (Nat.le_refl 0)
  have second : checkTable2 cursor = checkTable 1 wildPointer cursor :=
    check_table2_follow there (follow_astray astray inside)
  obtain ⟨failed, stops⟩ := check_table_wild wild (begun_succ begun)
    (show (1 : Fin 3).val = 1 from rfl)
  refine finds_of_error (show checkTables cursor = .error (.error .outOfBounds) failed from ?_)
  unfold checkTables
  rw [state_bind_ok first]
  exact state_bind_error (second.trans stops)

/-- The only table is missing; the entry is taken from its copy. -/
theorem finds_wild_single {i : Nat} (there : cursor.location.location.location = .single i)
    (inside : i < cursor.volume.blockSize / 4) (first : checkTable1 cursor = .ok () cursor) :
    cursor.Finds location := by
  have begun := begun_self wild
  have skips : ∀ level : Fin 3, checkTable level 0 cursor = .ok () cursor :=
    fun level => check_table_astray wild ⟨begun.views, begun.clean, rfl, fun _ _ => rfl⟩ rfl
  have none2 : addrOfTable2 cursor = .ok 0 cursor := by
    rw [addrOfTable2, state_bind_get, there]
    rfl
  have none3 : addrOfTable3 cursor = .ok 0 cursor := by
    rw [addrOfTable3, state_bind_get, there]
    rfl
  have second : checkTable2 cursor = .ok () cursor := (state_bind_ok none2).trans (skips 1)
  have third : checkTable3 cursor = .ok () cursor := (state_bind_ok none3).trans (skips 2)
  have all : checkTables cursor = .ok () cursor := by
    unfold checkTables
    rw [state_bind_ok first, state_bind_ok second]
    exact third
  have next : getNextBlock cursor = .ok wildPointer cursor := by
    rw [getNextBlock, state_bind_get, there]
    exact follow_astray (begun_astray wild begun (Nat.le_refl 0)) inside
  unfold Finds
  rw [all]
  exact .ok (.inr next)

/-- The way ends in the copy of the last table. -/
theorem finds_wild_third {i j k : Nat} {middle : Cursor} (begun : cursor.Begun 2 middle)
    (there : middle.location.location.location = .triple i j k)
    (inside : k < cursor.volume.blockSize / 4) (followed : follow 1 j middle = .ok 0 middle) :
    checkTable3 middle = .ok () middle ∧ getNextBlock middle = .ok wildPointer middle := by
  constructor
  · rw [check_table3_follow (.inr ⟨k, there⟩) followed]
    exact check_table_astray wild begun rfl
  · have astray : middle.Astray 2 := begun_astray wild begun (Nat.le_refl 2)
    rw [getNextBlock, state_bind_get, there]
    exact follow_astray astray (by rw [begun_block_size begun]; exact inside)

end Astray

theorem follow_begun {idx : Nat} {middle : Cursor} {place : Nat} (begun : cursor.Begun place middle)
    (inside : idx < cursor.volume.blockSize / 4)
    (table : (middle.location.tables level).table = cursor.volume.device addr) :
    follow level idx middle = .ok (entry (cursor.volume.device addr) idx) middle :=
  follow_loaded begun.views (by rw [begun_block_size begun]; exact inside) table

/-- Where all tables on the way are blocks of the volume there is nothing left to find. -/
theorem found_known {operation : OnCursor Unit} {middle : Cursor}
    (inside : ∀ addr ∈ tablePath cursor.location.inode cursor.volume.device location,
      addr ≠ 0 ∧ addr < cursor.volume.blockCount) :
    Yields (Found location cursor) (fun _ => True) (operation middle) := by
  cases operation middle with
  | ok value after => exact .ok (.inl inside)
  | error failure after => exact .error trivial

section Lookup

variable (wild : cursor.Wild)

include wild

theorem finds_single {i : Nat} (there : cursor.location.location.location = .single i)
    (head : checkTable1 cursor =
      checkTable 0 cursor.location.inode.singleIndirectBlockPointer cursor)
    (inside : i < cursor.volume.blockSize / 4) : cursor.Finds (.single i) := by
  have begun := begun_self wild
  by_cases zero : cursor.location.inode.singleIndirectBlockPointer = 0
  · rw [zero, check_table_astray wild begun rfl] at head
    exact finds_wild_single wild there inside head
  · have load := check_table_begun wild begun (show (0 : Fin 3).val = 0 from rfl) zero
    rw [← head] at load
    apply yields_bind load
    intro _ middle loaded
    obtain ⟨-, below, -⟩ := loaded
    apply found_known
    intro addr member
    rw [List.mem_singleton.mp member]
    exact ⟨zero, below⟩

/-- The first two tables of a way through the table `root`. -/
theorem finds_behind_two {i j root : Nat}
    (there : cursor.location.location.location = .double i j ∨
      ∃ k, cursor.location.location.location = .triple i j k)
    (head : checkTable1 cursor = checkTable 0 root cursor)
    (insideI : i < cursor.volume.blockSize / 4) (insideJ : j < cursor.volume.blockSize / 4)
    (ends : ∀ last, cursor.Begun 2 last → root ≠ 0 ∧ root < cursor.volume.blockCount →
      entry (cursor.volume.device root) i ≠ 0 ∧
        entry (cursor.volume.device root) i < cursor.volume.blockCount →
      (last.location.tables 1).table =
        cursor.volume.device (entry (cursor.volume.device root) i) →
      Yields (Found location cursor) (fun _ => True) (checkTable3 last)) :
    cursor.Finds location := by
  have begun := begun_self wild
  by_cases zero : root = 0
  · rw [zero, check_table_astray wild begun rfl] at head
    exact finds_wild_first wild there insideI head
  have load := check_table_begun wild begun (show (0 : Fin 3).val = 0 from rfl) zero
  rw [← head] at load
  change Yields (Found location cursor) (fun _ => True) (checkTables cursor)
  unfold checkTables
  apply yields_bind load
  intro _ middle loaded
  obtain ⟨later, inside, table⟩ := loaded
  have followed := follow_begun later insideI table
  have place : middle.location.location.location = .double i j ∨
      ∃ k, middle.location.location.location = .triple i j k := by
    rw [begun_place later rfl]
    exact there
  by_cases second : entry (cursor.volume.device root) i = 0
  · rw [second] at followed
    obtain ⟨failed, stops⟩ := finds_wild_second wild later place insideJ followed
    rw [stops]
    exact .error trivial
  have load := check_table_begun wild later (show (1 : Fin 3).val = 1 from rfl) second
  rw [← check_table2_follow place followed] at load
  apply yields_bind load
  intro _ last loaded
  obtain ⟨lastBegun, lastInside, lastTable⟩ := loaded
  exact ends last lastBegun ⟨zero, inside⟩ ⟨second, lastInside⟩ lastTable

theorem lookup_wild (there : cursor.location.location.location = location)
    (digits : Digits (cursor.volume.blockSize / 4) location) : cursor.Finds location := by
  have head : checkTable1 cursor =
      checkTable 0 (checkedAddr cursor.location.inode cursor.volume.device location 0) cursor :=
    check_table1_eq there
  cases location with
  | direct d => exact found_known fun _ impossible => absurd impossible List.not_mem_nil
  | single i => exact finds_single wild there head digits
  | double i j =>
      refine finds_behind_two wild (.inl there) head digits.1 digits.2 ?_
      intro last _ first second _
      exact found_known (List.forall_mem_cons.mpr ⟨first, List.forall_mem_singleton.mpr second⟩)
  | triple i j k =>
      have head : checkTable1 cursor =
          checkTable 0 cursor.location.inode.tripleIndirectBlockPointer cursor := head
      refine finds_behind_two wild (.inr ⟨k, there⟩) head digits.1 digits.2.1 ?_
      intro last begun first second table
      have place : last.location.location.location = .triple i j k := begun_place begun there
      have followed := follow_begun begun digits.2.1 table
      by_cases third : entry (cursor.volume.device
          (entry (cursor.volume.device cursor.location.inode.tripleIndirectBlockPointer) i)) j = 0
      · rw [third] at followed
        obtain ⟨done, next⟩ := finds_wild_third wild begun place digits.2.2 followed
        rw [done]
        exact .ok (.inr next)
      have load := check_table_begun wild begun (show (2 : Fin 3).val = 2 from rfl) third
      rw [← check_table3_follow (.inr ⟨k, place⟩) followed] at load
      refine yields_weaken load (fun _ final loaded => .inl ?_) fun _ _ => trivial
      obtain ⟨-, below, -⟩ := loaded
      exact List.forall_mem_cons.mpr ⟨first, List.forall_mem_cons.mpr
        ⟨second, List.forall_mem_singleton.mpr ⟨third, below⟩⟩⟩

end Lookup

end Cursor

end Campix.Ext2
