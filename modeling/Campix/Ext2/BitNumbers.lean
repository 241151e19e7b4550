import Campix.Ext2.Appending

/-!
# The blocks that bits stand for

On an ext2 volume a bit of the bitmap of a group stands for a block counted from the first
data block of the volume, which the superblock names: block 1 where blocks have 1024 bytes,
block 0 where they are larger. The allocators always count from block 1. This module
compares the two for `alloc_block` and for `free_last_block`.
-/

namespace Campix.Ext2

open Lib.Fallible Lib.Outcome Lib.Word

set_option autoImplicit false

namespace Ext2Volume

def standsFor (volume : Ext2Volume) (group bit : Nat) : Nat :=
  volume.superblockBlock + group * volume.blocksPerGroup + bit

/-- The geometry of an ext2 volume: every group has a block, and the bits without a block are
set. -/
structure Valid (volume : Ext2Volume) : Prop where
  perGroup : 0 < volume.blocksPerGroup
  word : volume.blockCount < 2 ^ 32
  first : volume.superblockBlock = if volume.blockSize = 1024 then 1 else 0
  groups : ∀ group < volume.blockGroupCount, volume.standsFor group 0 < volume.blockCount
  padding : ∀ group < volume.blockGroupCount, ∀ bit < 8 * (volume.bitmaps group).length,
    Bitmap.bitAt (volume.bitmaps group) bit = false →
      bit < volume.blocksPerGroup ∧ volume.standsFor group bit < volume.blockCount

variable {volume after : Ext2Volume} {group block : Nat}

theorem valid_of_frame (same : after.frame = volume.frame) (valid : volume.Valid) :
    after.Valid := by
  have frame : after.frame.Valid := by
    rw [same]
    exact ⟨valid.perGroup, valid.word, valid.first, valid.groups, valid.padding⟩
  exact ⟨frame.perGroup, frame.word, frame.first, frame.groups, frame.padding⟩

theorem valid_first (valid : volume.Valid) : volume.superblockBlock = 0 ∨
    volume.superblockBlock = 1 := by
  rw [valid.first]
  split
  · exact .inr rfl
  · exact .inl rfl

theorem min_block_eq (valid : volume.Valid) (inside : group < volume.blockGroupCount) :
    add32 (mul32 group volume.blocksPerGroup) 1 = group * volume.blocksPerGroup + 1 := by
  have starts := valid.groups group inside
  have word := valid.word
  unfold standsFor at starts
  unfold add32 mul32
  rw [Nat.mod_eq_of_lt (show group * volume.blocksPerGroup < 2 ^ 32 by omega),
    Nat.mod_eq_of_lt (by omega)]

/-- The block handed out is the one that the bit which was set stands for, and the bits that
stand for it were not set before. -/
structure AllocatesOwn (volume : Ext2Volume) (group : Nat) (allocator : BlockAllocator)
    (block : Nat)
    (taken : BlockAllocator) : Prop where
  bit : ∃ bit, Bitmap.bitAt allocator.bitmap.data bit = false ∧
    (∀ other, Bitmap.bitAt taken.bitmap.data other =
      (Bitmap.bitAt allocator.bitmap.data other || decide (other = bit))) ∧
    block = volume.standsFor group bit
  free : ∀ each bit, bit < volume.blocksPerGroup → volume.standsFor each bit = block →
    Bitmap.bitAt (volume.bitmaps each) bit = false

theorem stands_for_inj (perGroup : 0 < volume.blocksPerGroup) {each other bit place : Nat}
    (small : bit < volume.blocksPerGroup) (otherSmall : place < volume.blocksPerGroup)
    (same : volume.standsFor each bit = volume.standsFor other place) : each = other ∧
    bit = place := by
  unfold standsFor at same
  have sum : volume.blocksPerGroup * each + bit = volume.blocksPerGroup * other + place := by
    rw [Nat.mul_comm volume.blocksPerGroup, Nat.mul_comm volume.blocksPerGroup]
    omega
  have quotient := congrArg (· / volume.blocksPerGroup) sum
  simp only [Nat.mul_add_div perGroup, Nat.div_eq_of_lt small, Nat.div_eq_of_lt otherSmall,
    Nat.add_zero] at quotient
  refine ⟨quotient, ?_⟩
  rw [quotient] at sum
  omega

theorem allocates_own_iff (valid : volume.Valid) {allocator taken : BlockAllocator}
    (found : volume.getBlockAllocatorForGroup group = some allocator)
    (allocated : allocator.allocBlock = .ok (block, taken)) :
    AllocatesOwn volume group allocator block taken ↔ volume.superblockBlock = 1 := by
  unfold getBlockAllocatorForGroup at found
  split_ifs at found with locked outside
  have inside : group < volume.blockGroupCount := by omega
  obtain rfl := Option.some.inj found
  unfold BlockAllocator.allocBlock at allocated
  split at allocated
  swap
  · cases allocated
  rename_i bit search
  cases allocated
  obtain ⟨bound, stored, unset⟩ := Bitmap.find_first_unset_spec search
  have changed := Bitmap.bit_at_set_bit bound stored true
  dsimp only at bound stored unset changed
  obtain ⟨small, fits⟩ := valid.padding group inside bit (by omega) unset
  have word := valid.word
  have zeroOrOne := valid_first valid
  have number : add32 (add32 (mul32 group volume.blocksPerGroup) 1) bit =
      group * volume.blocksPerGroup + 1 + bit := by
    rw [min_block_eq valid inside, add32]
    unfold standsFor at fits
    exact Nat.mod_eq_of_lt (by omega)
  dsimp only
  rw [number]
  constructor
  · rintro ⟨⟨set, clear, others, shape⟩, -⟩
    -- only one bit was set
    have same := others bit
    dsimp only at same clear
    rw [changed, if_pos rfl, unset, Bool.false_or] at same
    have isBit : bit = set := by simpa using same.symm
    rw [← isBit, standsFor] at shape
    omega
  · intro one
    refine ⟨⟨bit, unset, fun other => ?_, ?_⟩, fun each place placeSmall stands => ?_⟩
    · dsimp only
      rw [changed]
      by_cases same : other = bit
      · rw [if_pos same, decide_eq_true same, Bool.or_true]
      · rw [if_neg same, decide_eq_false same, Bool.or_false]
    · rw [standsFor, one]
      omega
    · have own : group * volume.blocksPerGroup + 1 + bit = volume.standsFor group bit := by
        rw [standsFor, one]
        omega
      obtain ⟨rfl, rfl⟩ := stands_for_inj valid.perGroup placeSmall small (stands.trans own)
      exact unset

theorem dealloc_block_ok {allocator freed : BlockAllocator}
    (deallocated : allocator.deallocBlock block = .ok freed) :
    allocator.minBlockInclusive ≤ block ∧ block < allocator.maxBlockExclusive ∧
      allocator.bitmap.getBit (block - allocator.minBlockInclusive) = some true ∧
      freed = { allocator with
        bitmap := allocator.bitmap.setBit (block - allocator.minBlockInclusive) false } := by
  unfold BlockAllocator.deallocBlock at deallocated
  by_cases wrong : block < allocator.minBlockInclusive ∨ block ≥ allocator.maxBlockExclusive
  · rw [if_pos wrong] at deallocated
    cases deallocated
  · rw [if_neg wrong] at deallocated
    dsimp only at deallocated
    by_cases free : allocator.bitmap.getBit (block - allocator.minBlockInclusive) ≠ some true
    · rw [if_pos free] at deallocated
      cases deallocated
    · rw [if_neg free] at deallocated
      cases deallocated
      exact ⟨by omega, by omega, not_not.mp free, rfl⟩

/-- `dealloc_block` of the allocator of a group. -/
def unmark (volume : Ext2Volume) (group block : Nat) : Except Failure Ext2Volume :=
  match volume.getBlockAllocatorForGroup group with
  | none => .error (.error .driverError)
  | some allocator =>
      match allocator.deallocBlock block with
      | .error error => .error (.error error)
      | .ok allocator =>
          .ok { volume with bitmaps := Function.update volume.bitmaps group allocator.bitmap.data }

/-- The bit cleared is the one behind the first block of the group, counted from block 1. -/
theorem unmark_spec (valid : volume.Valid)
    (same : ∃ bitmaps, after = { volume with bitmaps := bitmaps })
    {final : Ext2Volume} (unmarked : unmark after group block = .ok final) :
    group * volume.blocksPerGroup + 1 ≤ block ∧
      block - (group * volume.blocksPerGroup + 1) < volume.blocksPerGroup ∧
      Bitmap.bitAt (after.bitmaps group) (block - (group * volume.blocksPerGroup + 1)) = true ∧
      (∃ bitmaps, final = { volume with bitmaps := bitmaps }) ∧
      (∀ other, other ≠ group → final.bitmaps other = after.bitmaps other) ∧
      ∀ bit, Bitmap.bitAt (final.bitmaps group) bit =
        (Bitmap.bitAt (after.bitmaps group) bit &&
          decide (bit ≠ block - (group * volume.blocksPerGroup + 1))) := by
  obtain ⟨bitmaps, rfl⟩ := same
  unfold unmark getBlockAllocatorForGroup at unmarked
  split_ifs at unmarked with locked outside
  have inside : group < volume.blockGroupCount := by simpa using outside
  have minimum := min_block_eq valid inside
  have starts := valid.groups group inside
  have word := valid.word
  dsimp only at unmarked
  split at unmarked
  · cases unmarked
  rename_i freed deallocated
  cases unmarked
  obtain ⟨low, high, free, rfl⟩ := dealloc_block_ok deallocated
  dsimp only at low high free ⊢
  rw [minimum] at low high free ⊢
  obtain ⟨bound, set⟩ := Bitmap.get_bit_true free
  have stored := Bitmap.stored_of_bit_at set
  have changed := Bitmap.bit_at_set_bit bound stored false
  have range : block < group * volume.blocksPerGroup + 1 + volume.blocksPerGroup := by
    have reduced : add32 (group * volume.blocksPerGroup + 1) volume.blocksPerGroup ≤
        group * volume.blocksPerGroup + 1 + volume.blocksPerGroup := Nat.mod_le _ _
    exact (lt_min_iff.mp high).1.trans_le reduced
  refine ⟨by omega, by omega, set, ⟨_, rfl⟩, fun other apart => Function.update_of_ne apart _ _, ?_⟩
  intro bit
  rw [Function.update_self, changed]
  by_cases here : bit = block - (group * volume.blocksPerGroup + 1)
  · rw [if_pos here, decide_eq_false (by simpa using here), Bool.and_false]
  · rw [if_neg here, decide_eq_true here, Bool.and_true]

def unmarkAll (group : Nat) : List Nat → Ext2Volume → Except Failure Ext2Volume
  | [], volume => .ok volume
  | block :: blocks, volume => unmark volume group block >>= unmarkAll group blocks

theorem unmark_all_spec (valid : volume.Valid) (blocks : List Nat) :
    ∀ {after final : Ext2Volume}, (∃ bitmaps, after = { volume with bitmaps := bitmaps }) →
      unmarkAll group blocks after = .ok final →
      (∀ block ∈ blocks, group * volume.blocksPerGroup + 1 ≤ block ∧
        block - (group * volume.blocksPerGroup + 1) < volume.blocksPerGroup ∧
        Bitmap.bitAt (after.bitmaps group) (block - (group * volume.blocksPerGroup + 1)) = true) ∧
      (∀ other, other ≠ group → final.bitmaps other = after.bitmaps other) ∧
      ∀ bit, Bitmap.bitAt (final.bitmaps group) bit =
        (Bitmap.bitAt (after.bitmaps group) bit &&
          decide (group * volume.blocksPerGroup + 1 + bit ∉ blocks)) := by
  induction blocks with
  | nil =>
      intro after final _ done
      cases done
      refine ⟨fun block impossible => absurd impossible List.not_mem_nil, fun _ _ => rfl,
        fun bit => ?_⟩
      rw [decide_eq_true List.not_mem_nil, Bool.and_true]
  | cons block blocks ih =>
      intro after final same done
      obtain ⟨middle, first, rest⟩ := bind_eq_ok.mp done
      obtain ⟨low, small, set, sameMiddle, others, bits⟩ := unmark_spec valid same first
      obtain ⟨later, othersLater, bitsLater⟩ := ih sameMiddle rest
      refine ⟨fun each member => ?_, fun other apart => ?_, fun bit => ?_⟩
      · rcases List.mem_cons.mp member with rfl | behind
        · exact ⟨low, small, set⟩
        · obtain ⟨eachLow, eachSmall, eachSet⟩ := later each behind
          rw [bits, Bool.and_eq_true] at eachSet
          exact ⟨eachLow, eachSmall, eachSet.1⟩
      · exact (othersLater other apart).trans (others other apart)
      · rw [bitsLater, bits, Bool.and_assoc, ← Bool.decide_and]
        congr 1
        rw [decide_eq_decide, List.mem_cons, not_or]
        refine and_congr_left fun _ => not_congr ?_
        omega

def ClearsOwn (volume after : Ext2Volume) (freed : List Nat) : Prop :=
  ∀ group bit, bit < volume.blocksPerGroup → Bitmap.bitAt (after.bitmaps group) bit =
    (Bitmap.bitAt (volume.bitmaps group) bit && decide (volume.standsFor group bit ∉ freed))

theorem clears_own_iff (valid : volume.Valid) {blocks : List Nat} (some_ : blocks ≠ [])
    (done : unmarkAll group blocks volume = .ok after) :
    ClearsOwn volume after blocks ↔ volume.superblockBlock = 1 := by
  obtain ⟨each, others, bits⟩ := unmark_all_spec valid blocks ⟨volume.bitmaps, rfl⟩ done
  constructor
  · intro clears
    rcases valid_first valid with zero | one
    · -- the bit cleared for the lowest block stands for the block in front of it
      have exists_ := List.exists_mem_of_ne_nil blocks some_
      set lowest := Nat.find exists_
      have member : lowest ∈ blocks := Nat.find_spec exists_
      obtain ⟨low, small, set⟩ := each lowest member
      have here := clears group (lowest - (group * volume.blocksPerGroup + 1)) small
      have cleared := bits (lowest - (group * volume.blocksPerGroup + 1))
      rw [decide_eq_false (by rw [not_not, Nat.add_sub_cancel' low]; exact member),
        Bool.and_false] at cleared
      rw [cleared, set, Bool.true_and, eq_comm, decide_eq_false_iff_not, not_not] at here
      have smaller : lowest ≤ _ := Nat.find_min' exists_ here
      rw [standsFor, zero] at smaller
      omega
    · exact one
  · intro one each_ bit small
    have number : volume.standsFor each_ bit = each_ * volume.blocksPerGroup + 1 + bit := by
      rw [standsFor, one]
      omega
    by_cases here : each_ = group
    · rw [here, bits, ← here, number]
    · have outside : volume.standsFor each_ bit ∉ blocks := by
        intro member
        obtain ⟨low, placeSmall, -⟩ := each _ member
        have own : volume.standsFor each_ bit = volume.standsFor group
            (volume.standsFor each_ bit - (group * volume.blocksPerGroup + 1)) := by
          rw [standsFor.eq_def volume group, one]
          omega
        exact here (stands_for_inj valid.perGroup small placeSmall own).1
      rw [others each_ here, decide_eq_true outside, Bool.and_true]

end Ext2Volume

open Ext2Volume

namespace Cursor

variable {cursor after : Cursor} {group : Nat}

/-- The tables that are freed with the block at the location: those that lose their first
entry. -/
def freedTables (cursor : Cursor) : List Nat :=
  let table1 := cursor.location.tables 0
  let table2 := cursor.location.tables 1
  match cursor.location.location.location with
  | .direct _ => []
  | .single idx0 => if idx0 = 0 then [table1.addr] else []
  | .double idx0 idx1 =>
      if idx1 = 0 then
        entry table1.table idx0 :: if idx0 = 0 then [table1.addr] else []
      else []
  | .triple idx0 idx1 idx2 =>
      if idx2 = 0 then
        entry table2.table idx1 ::
          if idx1 = 0 then entry table1.table idx0 :: if idx0 = 0 then [table1.addr] else [] else []
      else []

theorem dealloc_unmarks (block : Nat) :
    Yields (fun _ after => unmark cursor.volume group block = .ok after.volume ∧
        after.location = cursor.location) (fun _ => True) (dealloc group block cursor) := by
  rw [dealloc, state_bind_get]
  unfold unmark
  cases cursor.volume.getBlockAllocatorForGroup group with
  | none => exact .error trivial
  | some allocator =>
      dsimp only
      cases allocator.deallocBlock block with
      | error error => exact .error trivial
      | ok freed => exact .ok ⟨rfl, rfl⟩

theorem free_entry_unmarks (level : Fin 3) (idx : Nat) :
    Yields (fun _ after =>
        unmark cursor.volume group (entry (cursor.location.tables level).table idx) =
          .ok after.volume ∧
        (after.location.tables 0).addr = (cursor.location.tables 0).addr ∧
        ∀ other, other ≠ level → after.location.tables other = cursor.location.tables other)
      (fun _ => True) (freeEntry group level idx cursor) := by
  change Yields _ _ ((do
    dealloc group (entry (cursor.location.tables level).table idx)
    setTableEntry level idx 0 : OnCursor Unit) cursor)
  refine yields_bind (dealloc_unmarks (entry (cursor.location.tables level).table idx)) ?_
  rintro _ middle ⟨unmarked, same⟩
  refine .ok ⟨unmarked, ?_, fun other apart => ?_⟩
  · change (Function.update middle.location.tables level _ 0).addr = _
    by_cases first : (0 : Fin 3) = level
    · rw [← first, Function.update_self, same]
    · rw [Function.update_of_ne first, same]
  · change Function.update middle.location.tables level _ other = _
    rw [Function.update_of_ne apart, same]

theorem unlink_table1_unmarks (setPointer : Nat → Inode → Inode) :
    Yields (fun _ after => unmark cursor.volume group (cursor.location.tables 0).addr =
        .ok after.volume) (fun _ => True) (unlinkTable1 group setPointer cursor) :=
  yields_weaken (dealloc_unmarks (cursor.location.tables 0).addr) (fun _ _ holds => holds.1)
    fun _ _ => trivial

/-- What a part of `free_last_block` frees. -/
def Unmarks (group : Nat) (blocks : List Nat) (cursor : Cursor)
    (result : EStateM.Result Failure Cursor Unit) : Prop :=
  Yields (fun _ after => unmarkAll group blocks cursor.volume = .ok after.volume)
    (fun _ => True) result

theorem unmarks_bind {first rest : OnCursor Unit} {block : Nat} {later : List Nat}
    {kept : Cursor → Prop}
    (begins : Yields (fun _ middle => unmark cursor.volume group block = .ok middle.volume ∧
      kept middle)
      (fun _ => True) (first cursor))
    (continues : ∀ middle, kept middle → Unmarks group later middle (rest middle)) :
    Unmarks group (block :: later) cursor ((do first; rest : OnCursor Unit) cursor) := by
  refine yields_bind begins ?_
  rintro _ middle ⟨unmarked, holds⟩
  refine yields_weaken (continues middle holds) (fun _ after done => ?_) fun _ _ => trivial
  rw [unmarkAll, unmarked]
  exact done

theorem unmarks_if {zero : Prop} [Decidable zero] {blocks : List Nat}
    {onZero otherwise : OnCursor Unit}
    (yes : Unmarks group blocks cursor (onZero cursor))
    (no : Unmarks group [] cursor (otherwise cursor)) :
    Unmarks group (if zero then blocks else []) cursor
      ((if zero then onZero else otherwise : OnCursor Unit) cursor) := by
  split
  · exact yes
  · exact no

theorem unlink_unmarks {rest : OnCursor Unit} (setPointer : Nat → Inode → Inode)
    (last : ∀ any : Cursor, Unmarks group [] any (rest any)) :
    Unmarks group [(cursor.location.tables 0).addr] cursor
      ((do unlinkTable1 group setPointer; rest : OnCursor Unit) cursor) :=
  unmarks_bind (yields_weaken (unlink_table1_unmarks setPointer) (fun _ _ done => ⟨done, trivial⟩)
    fun _ _ => trivial) fun final (_ : True) => last final

theorem free_last_block_unmarks {sought : Cursor} {block : Nat}
    (nonempty : cursor.location.maxBlockExclusive ≠ 0)
    (moved : seek (sub32 (blockCount cursor.location) 1) cursor = .ok () sought)
    (points : getNextBlock sought = .ok block sought) :
    Unmarks (sub32 block 1 / cursor.volume.blocksPerGroup) (block :: sought.freedTables) sought
      (freeLastBlock cursor) := by
  generalize isGroup : sub32 block 1 / cursor.volume.blocksPerGroup = group
  change Unmarks _ _ _ ((if cursor.location.maxBlockExclusive = 0 then _ else _ : OnCursor Unit)
    cursor)
  rw [if_neg nonempty, state_bind_ok moved, state_bind_ok points]
  dsimp only
  rw [isGroup]
  refine unmarks_bind (dealloc_unmarks block) fun middle same => ?_
  have last : ∀ any : Cursor, Unmarks group [] any ((modifyLocation fun location =>
      { location with maxBlockExclusive := location.maxBlockExclusive - 1 } : OnCursor Unit) any) :=
    fun any => .ok rfl
  -- the entry of the block itself; the tables before its own one stay
  have cleared : ∀ (level : Fin 3) (idx : Nat), ∃ any : Cursor,
      setTableEntry level idx 0 middle = .ok () any ∧ any.volume = middle.volume ∧
      (any.location.tables 0).addr = (sought.location.tables 0).addr ∧
      ∀ other, other ≠ level → any.location.tables other = sought.location.tables other := by
    intro level idx
    refine ⟨_, rfl, rfl, ?_, fun other apart => ?_⟩
    · change (Function.update middle.location.tables level _ 0).addr = _
      by_cases first : (0 : Fin 3) = level
      · rw [← first, Function.update_self, same]
      · rw [Function.update_of_ne first, same]
    · change Function.update middle.location.tables level _ other = _
      rw [Function.update_of_ne apart, same]
  rw [state_bind_get, same, freedTables]
  cases sought.location.location.location with
  | direct direct => exact .ok rfl
  | single idx0 =>
      obtain ⟨any, ran, volume, addr, -⟩ := cleared 0 idx0
      dsimp only
      rw [state_bind_ok ran, Unmarks, ← volume, ← addr]
      exact unmarks_if (unlink_unmarks setSingle last) (last any)
  | double idx0 idx1 =>
      obtain ⟨any, ran, volume, addr, tables⟩ := cleared 1 idx1
      dsimp only
      rw [state_bind_ok ran, Unmarks, ← volume, ← addr, ← tables 0 (by decide)]
      refine unmarks_if (unmarks_bind (free_entry_unmarks 0 idx0) ?_) (last any)
      rintro next ⟨nextAddr, -⟩
      rw [← nextAddr]
      exact unmarks_if (unlink_unmarks setDouble last) (last next)
  | triple idx0 idx1 idx2 =>
      obtain ⟨any, ran, volume, addr, tables⟩ := cleared 2 idx2
      dsimp only
      rw [state_bind_ok ran, Unmarks, ← volume,
        ← addr, ← tables 0 (by decide), ← tables 1 (by decide)]
      refine unmarks_if (unmarks_bind (free_entry_unmarks 1 idx1) ?_) (last any)
      rintro second ⟨secondAddr, secondTables⟩
      rw [← secondAddr, ← secondTables 0 (by decide)]
      refine unmarks_if (unmarks_bind (free_entry_unmarks 0 idx0) ?_) (last second)
      rintro first ⟨firstAddr, -⟩
      rw [← firstAddr]
      exact unmarks_if (unlink_unmarks setTriple last) (last first)

/-- Both directions of the numbering are right exactly where the first data block is block 1:
an allocation returns the block that its bit stands for, and the bits cleared by freeing the
last block of a file stand for the blocks freed. -/
theorem bits_stand_for_blocks_iff (volume : Ext2Volume) (valid : volume.Valid) :
    (∀ group allocator block taken, volume.getBlockAllocatorForGroup group = some allocator →
      allocator.allocBlock = .ok (block, taken) →
      (AllocatesOwn volume group allocator block taken ↔ volume.superblockBlock = 1)) ∧
    ∀ cursor sought after : Cursor, ∀ block, cursor.volume = volume →
      cursor.location.maxBlockExclusive ≠ 0 →
      seek (sub32 (blockCount cursor.location) 1) cursor = .ok () sought →
      getNextBlock sought = .ok block sought → freeLastBlock cursor = .ok () after →
      (ClearsOwn volume after.volume (block :: sought.freedTables) ↔
        volume.superblockBlock = 1) := by
  refine ⟨fun group allocator block taken found
    allocated => allocates_own_iff valid found allocated,
    ?_⟩
  rintro cursor sought after block rfl nonempty moved points freed
  have frame := @seek_frame cursor (sub32 (blockCount cursor.location) 1)
  rw [moved] at frame
  have unmarks := free_last_block_unmarks nonempty moved points
  rw [freed] at unmarks
  cases frame with
  | ok whole =>
      obtain ⟨location, whole⟩ := whole
      have same : sought.volume.frame = cursor.volume.frame := congrArg Cursor.volume whole
      cases unmarks with
      | ok done =>
          -- moving to the last block leaves the bitmaps alone
          have bitmaps : sought.volume.bitmaps = cursor.volume.bitmaps :=
            show sought.volume.frame.bitmaps = cursor.volume.frame.bitmaps by rw [same]
          have perGroup : sought.volume.blocksPerGroup = cursor.volume.blocksPerGroup :=
            show sought.volume.frame.blocksPerGroup = cursor.volume.frame.blocksPerGroup by
              rw [same]
          have first : sought.volume.superblockBlock = cursor.volume.superblockBlock :=
            show sought.volume.frame.superblockBlock = cursor.volume.frame.superblockBlock by
              rw [same]
          have clears := clears_own_iff (valid_of_frame same valid) (List.cons_ne_nil _ _) done
          unfold ClearsOwn standsFor at clears ⊢
          rwa [bitmaps, perGroup, first] at clears

def eightBlocks (blockSize : Nat) : Ext2Volume where
  device := fun _ => List.replicate blockSize 0
  blockCache := []
  blockCacheSize := 1
  bitmaps := fun _ => 0x2F :: List.replicate (blockSize - 1) 0xFF
  readOnly := false
  fileSize64 := true
  blockSize := blockSize
  blockCount := if blockSize = 1024 then 9 else 8
  sectorsPerBlock := blockSize / 512
  blockGroupCount := 1
  blocksPerGroup := 8
  superblockBlock := if blockSize = 1024 then 1 else 0
  inodesPerGroup := 8
  inodesPerBlock := blockSize / 128
  inodeSize := 128
  inodeTables := [1]

theorem eight_blocks_valid (blockSize : Nat) : (eightBlocks blockSize).Valid := by
  have count : (eightBlocks blockSize).blockCount = (eightBlocks blockSize).superblockBlock +
      8 := by
    change (if blockSize = 1024 then 9 else 8) = (if blockSize = 1024 then 1 else 0) + 8
    split
    · rfl
    · rfl
  refine ⟨show 0 < 8 by decide, ?_, rfl, ?_, ?_⟩
  · change (if blockSize = 1024 then 9 else 8) < 2 ^ 32
    split
    · decide
    · decide
  · intro group inside
    obtain rfl := Nat.lt_one_iff.mp inside
    rw [count, standsFor]
    omega
  · intro group inside bit bound unset
    obtain rfl := Nat.lt_one_iff.mp inside
    have small : bit < 8 := by
      by_contra large
      have full : ∀ place < 8, Bitmap.bit 0xFF place = true := by decide
      have byte : (0x2F :: List.replicate (blockSize - 1) (0xFF : UInt8)).getD (bit / 8)
          0 = 0xFF := by
        have length : bit / 8 - 1 < blockSize - 1 := by
          have whole : ((eightBlocks blockSize).bitmaps 0).length = blockSize - 1 + 1 := by
            simp [eightBlocks]
          omega
        rw [List.getD_eq_getElem?_getD,
          List.getElem?_cons, if_neg (by omega), List.getElem?_replicate,
          if_pos length]
        rfl
      have set : Bitmap.bitAt ((eightBlocks blockSize).bitmaps 0) bit = true := by
        change Bitmap.bit ((0x2F :: List.replicate (blockSize - 1) (0xFF : UInt8)).getD (bit / 8) 0)
          (bit % 8) = true
        rw [byte, full _ (Nat.mod_lt _ (by decide))]
      exact absurd (set.symm.trans unset) (by decide)
    refine ⟨small, ?_⟩
    rw [count, standsFor]
    omega

def oneBlock : Cursor where
  volume := eightBlocks 1024
  location := {
    location := ⟨.direct 0, 256⟩
    inode := {
      inodeType := .file
      permissions := 0
      uid := 0
      sizeLo := 1024
      atime := 0
      ctime := 0
      mtime := 0
      dtime := 0
      gid := 0
      linksCount := 1
      sectorsCount := 2
      flags := 0
      ossv1 := 0
      directBlockPointers := fun place => if place.val = 0 then 2 else 0
      singleIndirectBlockPointer := 0
      doubleIndirectBlockPointer := 0
      tripleIndirectBlockPointer := 0
      generationNumber := 0
      extendedAttributeBlock := 0
      sizeHiOrDirAcl := 0
      fragmentBlock := 0
      ossv2 := List.replicate 12 0
      inodeI := 12 }
    maxBlockExclusive := 1
    tables := fun _ => ⟨List.replicate 1024 0, 0, false⟩
    inodeDirty := false }

def firstBlock (volume : Ext2Volume) : Nat :=
  match volume.getBlockAllocatorForGroup 0 with
  | some allocator =>
      match allocator.allocBlock with
      | .ok (block, _) => block
      | .error _ => 0
  | none => 0

theorem first_block_allocated {volume : Ext2Volume} {block : Nat}
    (number : firstBlock volume = block)
    (nonzero : block ≠ 0) :
    ∃ allocator taken, volume.getBlockAllocatorForGroup 0 = some allocator ∧
      allocator.allocBlock = .ok (block, taken) := by
  unfold firstBlock at number
  cases found : volume.getBlockAllocatorForGroup 0 with
  | none =>
      rw [found] at number
      exact absurd number.symm nonzero
  | some allocator =>
      rw [found] at number
      dsimp only at number
      cases allocated : allocator.allocBlock with
      | error error =>
          rw [allocated] at number
          exact absurd number.symm nonzero
      | ok result =>
          rw [allocated] at number
          exact ⟨allocator, result.2, rfl, by rw [allocated, ← number]⟩

/-- Where the first data block is block 1, the fifth bit gives block 5, and freeing the
block of the file clears the bit of block 2. -/
theorem small_blocks_numbered :
    (∃ allocator taken, (eightBlocks 1024).getBlockAllocatorForGroup 0 = some allocator ∧
      allocator.allocBlock = .ok (5, taken) ∧ AllocatesOwn (eightBlocks 1024) 0 allocator 5 taken) ∧
    ∃ after, freeLastBlock oneBlock = .ok () after ∧
      ClearsOwn (eightBlocks 1024) after.volume [2] := by
  obtain ⟨allocates, clears⟩ := bits_stand_for_blocks_iff (eightBlocks 1024)
    (eight_blocks_valid 1024)
  constructor
  · obtain ⟨allocator, taken, found, allocated⟩ := first_block_allocated
      (by decide +kernel : firstBlock (eightBlocks 1024) = 5) (by decide)
    exact ⟨allocator, taken, found, allocated,
      (allocates 0 allocator 5 taken found allocated).mpr rfl⟩
  · obtain ⟨sought, moved, points, tables⟩ : ∃ sought,
        seek (sub32 (blockCount oneBlock.location) 1) oneBlock = .ok () sought ∧
          getNextBlock sought = .ok 2 sought ∧ freedTables sought = [] := ⟨_, rfl, rfl, rfl⟩
    have returns : (match freeLastBlock oneBlock with
        | .ok _ _ => true
        | .error _ _ => false) = true := by
      decide +kernel
    cases freed : freeLastBlock oneBlock with
    | error failure after =>
        rw [freed] at returns
        exact absurd returns Bool.false_ne_true
    | ok _ after =>
        have cleared := (clears oneBlock sought after 2 rfl (by decide) moved points freed).mpr rfl
        rw [tables] at cleared
        exact ⟨after, rfl, cleared⟩

/-- With larger blocks the fifth bit is set and block 5 is handed out, which is in use: the
sixth bit stands for it. -/
theorem large_blocks_misnumbered :
    (eightBlocks 2048).Valid ∧ (eightBlocks 2048).standsFor 0 5 = 5 ∧
      Bitmap.bitAt ((eightBlocks 2048).bitmaps 0) 5 = true ∧
      ∃ allocator taken, (eightBlocks 2048).getBlockAllocatorForGroup 0 = some allocator ∧
        allocator.allocBlock = .ok (5, taken) ∧
        ¬AllocatesOwn (eightBlocks 2048) 0 allocator 5 taken := by
  obtain ⟨allocator, taken, found, allocated⟩ := first_block_allocated
    (by decide +kernel : firstBlock (eightBlocks 2048) = 5) (by decide)
  refine ⟨eight_blocks_valid 2048, rfl, by
    decide, allocator, taken, found, allocated, fun own => ?_⟩
  exact absurd (own.free 0 5 (by decide) rfl) (by decide)

end Cursor

end Campix.Ext2
