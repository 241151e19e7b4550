import Campix.Ext2.AlignedScans
import Campix.Ext2.InodeUpdates
import Campix.Ext2.Namespace

/-!
# Free inodes

`alloc_inode_any` looks at one group after the other. When the groups together have the
inodes of the volume, it hands out the lowest number that is not in use. The last number of
the volume is in the range of no group, so it is neither handed out nor taken back.
-/

namespace Campix.Ext2.Namespace

open Lib.Fallible Lib.Search Lib.Word

set_option autoImplicit false

/-- Every group has inodes of the volume, the groups have them all, and the bitmaps have a bit
for each. -/
structure Numbered (names : Namespace) : Prop where
  writable : names.volume.readOnly = false
  groupCount : names.volume.blockGroupCount = names.volume.inodeTables.length
  perGroup : 0 < names.volume.inodesPerGroup
  word : names.volume.inodeTables.length * names.volume.inodesPerGroup + 1 < 2 ^ 32
  reaches : ∀ group < names.volume.inodeTables.length,
    group * names.volume.inodesPerGroup < names.inodesCount
  ends : names.inodesCount ≤ names.volume.inodeTables.length * names.volume.inodesPerGroup
  stored : ∀ group < names.volume.inodeTables.length,
    names.volume.inodesPerGroup ≤ 8 * (names.inodeBitmaps group).length

def inUse (self : Namespace) (number : Nat) : Bool :=
  Bitmap.bitAt (self.inodeBitmaps (self.volume.getInodeGroup number))
    (self.volume.getInodeIndexInGroup number)

def firstOf (self : Namespace) (group : Nat) : Nat := group * self.volume.inodesPerGroup + 1

def groupSize (self : Namespace) (group : Nat) : Nat :=
  min (self.firstOf (group + 1)) self.inodesCount - self.firstOf group

def groupBitmap (self : Namespace) (group : Nat) : Bitmap :=
    ⟨self.inodeBitmaps group, self.groupSize group⟩

def withBitmap (self : Namespace) (group : Nat) (data : List UInt8) : Namespace :=
  { self with inodeBitmaps := Function.update self.inodeBitmaps group data }

def marked (self : Namespace) (number : Nat) (enabled : Bool) : Namespace :=
  self.withBitmap (self.volume.getInodeGroup number)
    ((self.groupBitmap (self.volume.getInodeGroup number)).setBit
      (self.volume.getInodeIndexInGroup number) enabled).data

def freeInode (used : Nat → Bool) (count : Nat) : Option Nat :=
  (List.range' 1 (count - 1)).find? fun number => !used number

variable {self : Namespace} {group number bit : Nat}

theorem first_of_succ (self : Namespace) (group : Nat) :
    self.firstOf (group + 1) = self.firstOf group + self.volume.inodesPerGroup := by
  rw [firstOf, firstOf, Nat.succ_mul]
  omega

theorem first_of_le (inside : group < self.volume.inodeTables.length) :
    self.firstOf (group + 1) ≤ self.volume.inodeTables.length * self.volume.inodesPerGroup + 1 :=
  Nat.succ_le_succ (Nat.mul_le_mul_right _ inside)

theorem group_size_le (self : Namespace) (group : Nat) :
    self.groupSize group ≤ self.volume.inodesPerGroup := by
  have next := first_of_succ self group
  rw [groupSize]
  omega

theorem group_of_bit (small : bit < self.volume.inodesPerGroup) :
    self.volume.getInodeGroup (self.firstOf group + bit) = group ∧
      self.volume.getInodeIndexInGroup (self.firstOf group + bit) = bit := by
  have positive : 0 < self.volume.inodesPerGroup := by omega
  have before : sub32 (self.firstOf group + bit) 1 = bit + self.volume.inodesPerGroup * group := by
    rw [sub32, if_pos (show 1 ≤ self.firstOf group + bit by rw [firstOf]; omega), firstOf,
      Nat.mul_comm]
    omega
  unfold Ext2Volume.getInodeGroup Ext2Volume.getInodeIndexInGroup
  rw [before, Nat.add_mul_div_left _ _ positive, Nat.div_eq_of_lt small, Nat.zero_add,
    Nat.add_mul_mod_self_left,
    Nat.mod_eq_of_lt small]
  exact ⟨rfl, rfl⟩

theorem number_split (numbered : self.Numbered) (first : 1 ≤ number)
    (last : number < self.inodesCount) :
    self.volume.getInodeGroup number < self.volume.inodeTables.length ∧
      number = self.firstOf (self.volume.getInodeGroup number) + self.volume.getInodeIndexInGroup
        number ∧
      self.volume.getInodeIndexInGroup number < self.groupSize
        (self.volume.getInodeGroup number) := by
  have positive := numbered.perGroup
  have ends := numbered.ends
  have before : sub32 number 1 = number - 1 := if_pos first
  have whole := Nat.div_add_mod' (number - 1) self.volume.inodesPerGroup
  have low := Nat.mod_lt (number - 1) positive
  have inside : self.volume.getInodeGroup number < self.volume.inodeTables.length := by
    rw [Ext2Volume.getInodeGroup, before, Nat.div_lt_iff_lt_mul positive]
    omega
  have split : number =
      self.firstOf (self.volume.getInodeGroup number) + self.volume.getInodeIndexInGroup
        number := by
    unfold firstOf Ext2Volume.getInodeGroup Ext2Volume.getInodeIndexInGroup
    rw [before]
    omega
  refine ⟨inside, split, ?_⟩
  have next := first_of_succ self (self.volume.getInodeGroup number)
  have index : self.volume.getInodeIndexInGroup number < self.volume.inodesPerGroup := by
    rw [Ext2Volume.getInodeIndexInGroup]
    exact Nat.mod_lt _ positive
  rw [groupSize]
  omega

theorem in_use_bit (small : bit < self.volume.inodesPerGroup) :
    self.inUse (self.firstOf group + bit) = Bitmap.bitAt (self.inodeBitmaps group) bit := by
  obtain ⟨sameGroup, index⟩ := @group_of_bit self group bit small
  rw [inUse, sameGroup, index]

theorem allocator_eq (numbered : self.Numbered) (inside : group < self.volume.inodeTables.length) :
    self.getInodeAllocatorForGroup group = some {
      minInodeInclusive := self.firstOf group
      maxInodeExclusive := min (self.firstOf (group + 1)) self.inodesCount
      bitmap := self.groupBitmap group } := by
  have word := numbered.word
  have next := first_of_le inside
  have least := numbered.reaches group inside
  have further := first_of_succ self group
  have perGroup := numbered.perGroup
  have length : self.volume.inodeTables.length ≤ self.volume.inodeTables.length *
      self.volume.inodesPerGroup :=
    Nat.le_mul_of_pos_right _ perGroup
  have firstIs : self.firstOf group = group * self.volume.inodesPerGroup + 1 := rfl
  have nextIs : self.firstOf (group + 1) = (group + 1) * self.volume.inodesPerGroup + 1 := rfl
  have start : mul32 group self.volume.inodesPerGroup = group * self.volume.inodesPerGroup :=
    Nat.mod_eq_of_lt (by omega)
  have succ : add32 group 1 = group + 1 := Nat.mod_eq_of_lt (by omega)
  have end_ : mul32 (group + 1) self.volume.inodesPerGroup = (group + 1) *
      self.volume.inodesPerGroup :=
    Nat.mod_eq_of_lt (by omega)
  have firstEq : add32 (group * self.volume.inodesPerGroup) 1 = self.firstOf group :=
    Nat.mod_eq_of_lt (by omega)
  have lastEq : add32 ((group + 1) * self.volume.inodesPerGroup) 1 = self.firstOf (group + 1) :=
    Nat.mod_eq_of_lt (by omega)
  have ordered : self.firstOf group ≤ min (self.firstOf (group + 1)) self.inodesCount := by
    rw [le_min_iff]
    omega
  rw [getInodeAllocatorForGroup, if_neg (by rw [numbered.writable]; decide), if_neg (by omega)]
  unfold getInodeRangeForGroup
  dsimp only
  rw [start, succ, end_, firstEq, lastEq, sub32, if_pos ordered]
  rfl

theorem bit_of_number_stored (numbered : self.Numbered)
    (inside : group < self.volume.inodeTables.length)
    (small : bit < self.groupSize group) : bit / 8 < (self.inodeBitmaps group).length := by
  have stored := numbered.stored group inside
  have size := group_size_le self group
  omega

theorem in_use_marked (numbered : self.Numbered) (first : 1 ≤ number)
    (last : number < self.inodesCount)
    (enabled : Bool) {other : Nat} (least : 1 ≤ other) :
    (self.marked number enabled).inUse other = if other = number then enabled else self.inUse
      other := by
  obtain ⟨inside, split, small⟩ := number_split numbered first last
  have stored := bit_of_number_stored numbered inside small
  change Bitmap.bitAt (Function.update self.inodeBitmaps _ _ (self.volume.getInodeGroup other))
    (self.volume.getInodeIndexInGroup other) = _
  by_cases group : self.volume.getInodeGroup other = self.volume.getInodeGroup number
  · rw [group, Function.update_self, Bitmap.bit_at_set_bit small stored]
    by_cases index : self.volume.getInodeIndexInGroup other =
      self.volume.getInodeIndexInGroup number
    · have same : other = number := by
        by_contra different
        rcases Ext2Volume.group_or_index least first different with apart | apart
        · exact apart group
        · exact apart index
      rw [if_pos index, if_pos same]
    · have different : other ≠ number := fun same => index (same ▸ rfl)
      rw [if_neg index, if_neg different, inUse, group]
      rfl
  · have different : other ≠ number := fun same => group (same ▸ rfl)
    rw [Function.update_of_ne group, if_neg different]
    rfl

theorem numbered_marked (numbered : self.Numbered) (enabled : Bool) :
    (self.marked number enabled).Numbered := by
  refine ⟨numbered.writable, numbered.groupCount, numbered.perGroup, numbered.word,
    numbered.reaches, numbered.ends,
    fun group inside => ?_⟩
  change _ ≤ 8 * (Function.update self.inodeBitmaps _ _ group).length
  by_cases here : group = self.volume.getInodeGroup number
  · rw [here, Function.update_self, Bitmap.set_bit_length]
    exact numbered.stored _ (here ▸ inside)
  · rw [Function.update_of_ne here]
    exact numbered.stored group inside

theorem free_inode_first (used : Nat → Bool) (count : Nat) :
    IsFirst count (fun number => 1 ≤ number ∧ used number = false) (freeInode used count) := by
  unfold freeInode
  cases found : (List.range' 1 (count - 1)).find? fun number => !used number with
  | none =>
      rintro number below ⟨least, unused⟩
      have passed := List.find?_eq_none.mp found number (List.mem_range'_1.mpr ⟨least, by omega⟩)
      rw [unused] at passed
      exact passed rfl
  | some number =>
      obtain ⟨unused, place, below, here, passed⟩ := List.find?_eq_some_iff_getElem.mp found
      rw [List.length_range'] at below
      rw [List.getElem_range'] at here
      refine ⟨by omega, ⟨by omega, by simpa using unused⟩, ?_⟩
      rintro earlier less ⟨least, free⟩
      have used := passed (earlier - 1) (by omega)
      rw [List.getElem_range', show 1 + 1 * (earlier - 1) = earlier by omega, free] at used
      exact absurd used (by decide)

def allocates (self : Namespace) : Option Nat → EStateM.Result Stop Namespace Nat
  | none => .error (.failure (.error .outOfSpace)) self
  | some number => .ok number (self.marked number true)

/-- The numbers before one of the group are in use when those of the groups before are, and the
bits before its own are set. -/
theorem used_below {limit : Nat} (low : limit ≤ self.groupSize group)
    (full : ∀ other, 1 ≤ other → other < self.firstOf group → other < self.inodesCount →
      self.inUse other = true)
    (taken : ∀ bit < limit, ¬Bitmap.bitAt (self.inodeBitmaps group) bit = false)
    (least : 1 ≤ number)
    (below : number < self.firstOf group + limit) (inVolume : number < self.inodesCount) :
    self.inUse number = true := by
  by_cases earlier : number < self.firstOf group
  · exact full number least earlier inVolume
  · have size := group_size_le self group
    have bit := @in_use_bit self group (number - self.firstOf group) (by omega)
    rw [Nat.add_sub_cancel' (Nat.le_of_not_lt earlier)] at bit
    rw [bit]
    exact Bool.not_eq_false _ ▸ taken _ (by omega)

theorem alloc_inode_from_first (numbered : self.Numbered) (groups : Nat) :
    ∀ group, group + groups = self.volume.inodeTables.length →
      (∀ number, 1 ≤ number → number < self.firstOf group → number < self.inodesCount →
        self.inUse number = true) →
      ∃ result, IsFirst self.inodesCount (fun number => 1 ≤ number ∧ self.inUse number = false)
        result ∧
        allocInodeFrom groups group self = self.allocates result := by
  induction groups with
  | zero =>
      intro group reached full
      refine ⟨none, ?_, rfl⟩
      rintro number below ⟨least, unused⟩
      have ends := numbered.ends
      have all : number < self.firstOf group := by
        rw [Nat.add_zero] at reached
        rw [firstOf, reached]
        omega
      exact Bool.noConfusion (unused.symm.trans (full number least all below))
  | succ groups ih =>
      intro group reached full
      have inside : group < self.volume.inodeTables.length := by omega
      have stored := numbered.stored group inside
      have size := group_size_le self group
      have next := first_of_succ self group
      have covered : (self.groupBitmap group).size ≤ 8 * (self.groupBitmap group).data.length :=
        Nat.le_trans size stored
      have search := Bitmap.find_first_unset_is_first covered
      rw [allocInodeFrom, state_bind_get, allocator_eq numbered inside]
      dsimp only
      cases found : (self.groupBitmap group).findFirstUnset with
      | none =>
          rw [found] at search
          rw [InodeAllocator.allocInode, found]
          refine ih (group + 1) (by omega) fun number least below inVolume => ?_
          refine used_below le_rfl full search least ?_ inVolume
          rw [groupSize]
          omega
      | some bit =>
          rw [found] at search
          obtain ⟨small, unset, before⟩ := search
          change bit < self.groupSize group at small
          have room : self.firstOf group + bit < self.inodesCount := by
            rw [groupSize] at small
            omega
          have word := numbered.word
          have ends := numbered.ends
          have number : add32 (self.firstOf group) bit = self.firstOf group + bit :=
            Nat.mod_eq_of_lt (by omega)
          obtain ⟨sameGroup, index⟩ := @group_of_bit self group bit (by omega)
          refine ⟨some (self.firstOf group + bit), ⟨room, ⟨by rw [firstOf]; omega, ?_⟩, ?_⟩, ?_⟩
          · rw [in_use_bit (by omega)]
            exact unset
          · rintro earlier less ⟨least, free⟩
            have used := used_below small.le full before least less (by omega)
            exact Bool.noConfusion (free.symm.trans used)
          · rw [InodeAllocator.allocInode, found]
            dsimp only
            rw [number, allocates, marked, sameGroup, index]
            rfl

theorem alloc_inode_any_eq (numbered : self.Numbered) :
    allocInodeAny self = self.allocates (freeInode self.inUse self.inodesCount) := by
  obtain ⟨result, first, allocated⟩ := alloc_inode_from_first numbered self.volume.blockGroupCount 0
    (by rw [numbered.groupCount, Nat.zero_add]) (fun number least below _ => by
      rw [firstOf] at below
      omega)
  rw [allocInodeAny, state_bind_get, allocated, first_unique first (free_inode_first _ _)]

theorem dealloc_inode_eq (numbered : self.Numbered) (first : 1 ≤ number)
    (last : number < self.inodesCount)
    (used : self.inUse number = true) :
    ∃ allocator freed, self.getInodeAllocatorForGroup (self.volume.getInodeGroup number) = some
      allocator ∧
      allocator.deallocInode number = .ok freed ∧
      self.withBitmap (self.volume.getInodeGroup number)
        freed.bitmap.data = self.marked number false := by
  obtain ⟨inside, split, small⟩ := number_split numbered first last
  have size := group_size_le self (self.volume.getInodeGroup number)
  have next := first_of_succ self (self.volume.getInodeGroup number)
  have least : self.firstOf (self.volume.getInodeGroup number) ≤ number := by omega
  have below : number < min (self.firstOf (self.volume.getInodeGroup number + 1))
      self.inodesCount := by omega
  have bit : number - self.firstOf (self.volume.getInodeGroup number) =
      self.volume.getInodeIndexInGroup number := by
    omega
  have set : (self.groupBitmap (self.volume.getInodeGroup number)).getBit
      (self.volume.getInodeIndexInGroup number) =
      some true := by
    rw [Bitmap.get_bit_eq small]
    exact congrArg some used
  refine ⟨_, {
    minInodeInclusive := self.firstOf (self.volume.getInodeGroup number)
    maxInodeExclusive := min (self.firstOf (self.volume.getInodeGroup number + 1)) self.inodesCount
    bitmap := (self.groupBitmap (self.volume.getInodeGroup number)).setBit
      (self.volume.getInodeIndexInGroup number) false }, allocator_eq numbered inside, ?_, rfl⟩
  have outside : ¬(number < self.firstOf (self.volume.getInodeGroup number) ∨
      number ≥ min (self.firstOf (self.volume.getInodeGroup number + 1))
        self.inodesCount) := by omega
  rw [InodeAllocator.deallocInode]
  dsimp only
  rw [if_neg outside, bit, if_neg (not_not.mpr set)]

end Campix.Ext2.Namespace
