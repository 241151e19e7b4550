import Campix.Ext2.FreeSpaceRuns

/-!
# The numbers of a group

The ranges in which the groups number their inodes, and what an allocator hands out and
takes back while it is in use. An allocation looks at the whole bitmap, a release at the
range of numbers; the bits of a bitmap behind the range decide whether the two agree.
-/

namespace Campix.Ext2

open Lib.Word Lib.Caching

set_option autoImplicit false

namespace Bitmap

variable {bitmap : Bitmap} {idx : Nat}

theorem bit_of_full_byte {place : Nat} (inside : place < 8) : bit 0xFF place = true := by
  have all : ∀ place : Fin 8, bit 0xFF place.val = true := by decide
  exact all ⟨place, inside⟩

/-- The scan stops at the first bit that is free, if there is one in reach. -/
theorem find_unset_first {size : Nat} {bytes : List UInt8} :
    ∀ {start place : Nat}, place < 8 * bytes.length → start + place < size →
      bitAt bytes place = false →
      ∃ first ≤ place, findUnset size start bytes = some (start + first) ∧
        ∀ earlier < first, bitAt bytes earlier = true := by
  induction bytes with
  | nil =>
      intro start place bound _ _
      exact absurd bound (Nat.not_lt_zero place)
  | cons byte bytes ih =>
      intro start place bound inside unset
      rw [List.length_cons] at bound
      -- a byte without a free bit is passed over
      have later : (∀ low < 8, bit byte low = true) →
          ∃ first ≤ place, findUnset size (start + 8) bytes = some (start + first) ∧
            ∀ earlier < first, bitAt (byte :: bytes) earlier = true := by
        intro full
        have behind : 8 ≤ place := by
          by_contra low
          rw [bit_at_cons (by omega), full place (by omega)] at unset
          exact absurd unset (by decide)
        obtain ⟨rest, rfl⟩ := Nat.exists_eq_add_of_le' behind
        rw [bit_at_cons_later] at unset
        obtain ⟨first, least, found, before⟩ := @ih (start + 8) rest (by omega) (by omega) unset
        refine ⟨first + 8, by omega, by rw [found, Nat.add_assoc, Nat.add_comm 8 first], ?_⟩
        intro earlier less
        by_cases low : earlier < 8
        · rw [bit_at_cons low, full earlier low]
        · obtain ⟨other, rfl⟩ := Nat.exists_eq_add_of_le' (Nat.not_lt.mp low)
          rw [bit_at_cons_later]
          exact before other (by omega)
      unfold findUnset
      by_cases free : byte ≠ 0xFF
      · rw [if_pos free]
        cases search : (List.range 8).find? fun i => decide (start + i ≥ size) || !bit byte i with
        | none =>
            dsimp only
            apply later
            intro low small
            have passed := List.find?_eq_none.mp search low (List.mem_range.mpr small)
            rw [Bool.or_eq_true, not_or] at passed
            simpa using passed.2
        | some i =>
            have small : i < 8 := List.mem_range.mp (List.mem_of_find?_eq_some search)
            obtain ⟨stops, -, before⟩ := List.find?_range_eq_some.mp search
            have earlierSet : ∀ earlier < i, bit byte earlier = true := by
              intro earlier less
              have passed := before earlier less
              simp only [Bool.not_or, Bool.not_not, Bool.and_eq_true] at passed
              exact passed.2
            -- the free bit that is known is not passed over either
            have least : i ≤ place := by
              by_contra more
              have set := earlierSet place (by omega)
              rw [bit_at_cons (by omega), set] at unset
              exact absurd unset (by decide)
            dsimp only
            rw [if_neg (by omega)]
            refine ⟨i, least, rfl, ?_⟩
            intro earlier less
            rw [bit_at_cons (by omega)]
            exact earlierSet earlier less
      · rw [if_neg free]
        apply later
        intro low small
        rw [not_not.mp free]
        exact bit_of_full_byte small

/-- A free bit is found, and the bits before the one that is found are set. -/
theorem find_first_unset_first (inside : idx < bitmap.size) (stored : idx < 8 * bitmap.data.length)
    (unset : bitAt bitmap.data idx = false) :
    ∃ first ≤ idx, bitmap.findFirstUnset = some first ∧
      ∀ earlier < first, bitAt bitmap.data earlier = true := by
  have found := @find_unset_first bitmap.size bitmap.data 0 idx stored (by omega) unset
  simp only [Nat.zero_add] at found
  exact found

end Bitmap

namespace GroupAllocator

/-- What `read_all` makes of a new allocator when the bitmap on the disk has these bytes. -/
def loaded (fresh : GroupAllocator) (data : List UInt8) : GroupAllocator :=
  { fresh with
    bitmap := { fresh.bitmap with data := data }
    dirtyBlocksBitmap := fresh.dirtyBlocksBitmap.clear }

theorem dealloc_eq {allocator : GroupAllocator} {number : Nat}
    (least : allocator.minInclusive ≤ number)
    (below : number < allocator.maxExclusive)
    (bound : number - allocator.minInclusive < allocator.bitmap.size)
    (set : Bitmap.bitAt allocator.bitmap.data (number - allocator.minInclusive) = true) :
    allocator.dealloc number = .ok (number - allocator.minInclusive,
      changed allocator (number - allocator.minInclusive) false (-1)) := by
  have marked : allocator.bitmap.getBit (number - allocator.minInclusive) = some true := by
    rw [Bitmap.get_bit_eq bound, set]
  unfold dealloc
  rw [if_neg (by omega)]
  dsimp only
  rw [if_neg (not_not.mpr marked)]
  rfl

theorem alloc_number {allocator after : GroupAllocator} {taken : Taken}
    (taking : allocator.alloc = .ok (taken, after)) : taken.number = add32 allocator.minInclusive
    taken.bit := by
  unfold alloc at taking
  split at taking
  · cases taking
    rfl
  · cases taking

theorem dealloc_range {allocator after : GroupAllocator} {number bit : Nat}
    (freed : allocator.dealloc number = .ok (bit, after)) :
    allocator.minInclusive ≤ number ∧ number < allocator.maxExclusive ∧
      bit = number - allocator.minInclusive := by
  unfold dealloc at freed
  dsimp only at freed
  split at freed
  · cases freed
  · split at freed
    · cases freed
    · cases freed
      exact ⟨by omega, by omega, rfl⟩

end GroupAllocator

variable {lru : BoundedMap Nat GroupAllocator} {self : Accounts lru} {group inode : Nat}

namespace Accounts

def getInodeGroup (self : Accounts lru) (inode : Nat) : Nat :=
    sub32 inode 1 / self.volume.inodesPerGroup

def getInodeIndexInGroup (self : Accounts lru) (inode : Nat) : Nat :=
    sub32 inode 1 % self.volume.inodesPerGroup

def inodeGroups (self : Accounts lru) : Nat :=
  divCeil self.superblock.inodesCount self.volume.inodesPerGroup

def InRange (self : Accounts lru) (group inode : Nat) : Prop :=
  (self.rangeOf .inodes group).1 ≤ inode ∧ inode < (self.rangeOf .inodes group).2

instance (group inode : Nat) : Decidable (self.InRange group inode) :=
  inferInstanceAs (Decidable (_ ∧ _))

def Accepted (self : Accounts lru) (inode : Nat) : Prop := 1 ≤ inode ∧
    inode ≤ self.superblock.inodesCount

def Serves (self : Accounts lru) (space : Space) (group : Nat) (data : List UInt8)
    (allocator : GroupAllocator) : Prop :=
  ∃ descriptor fresh, self.newAllocator space group descriptor = some fresh ∧
    data.length = fresh.bitmap.data.length ∧ allocator = fresh.loaded data

/-- The ranges of the groups are apart, have all inodes between them, and each inode is in
that of its group; what is free can be allocated and what is accepted can be freed. -/
structure InodesPartitioned (accounts : Accounts lru) : Prop where
  apart : ∀ group < accounts.inodeGroups, ∀ other < accounts.inodeGroups, group ≠ other → ∀ inode,
    ¬(accounts.InRange group inode ∧ accounts.InRange other inode)
  all : ∀ inode, (∃ group < accounts.inodeGroups, accounts.InRange group inode) ↔
    accounts.Accepted inode
  own : ∀ inode group, accounts.Accepted inode →
    (accounts.getInodeGroup inode = group ↔ accounts.InRange group inode)
  allocated : ∀ inode data allocator, accounts.Accepted inode →
    accounts.Serves .inodes (accounts.getInodeGroup inode) data allocator →
    Bitmap.bitAt data (accounts.getInodeIndexInGroup inode) = false →
      ∃ taken, allocator.alloc = .ok taken
  freed : ∀ inode data allocator, accounts.Accepted inode →
    accounts.Serves .inodes (accounts.getInodeGroup inode) data allocator →
    Bitmap.bitAt data (accounts.getInodeIndexInGroup inode) = true →
      ∃ left, allocator.dealloc inode = .ok left

theorem in_range_below (inside : self.InRange group inode) : inode < self.superblock.inodesCount :=
  Nat.lt_of_lt_of_le inside.2 (Nat.min_le_right _ _)

/-- As long as nothing wraps around, the ranges have all inodes but the last one. -/
theorem in_range_iff (perGroup : 0 < self.volume.inodesPerGroup)
    (fits : (group + 1) * self.volume.inodesPerGroup + 1 < 2 ^ 32) :
    self.InRange group inode ↔
      1 ≤ inode ∧ inode < self.superblock.inodesCount ∧
        (inode - 1) / self.volume.inodesPerGroup = group := by
  have product : (group + 1) * self.volume.inodesPerGroup =
      group * self.volume.inodesPerGroup + self.volume.inodesPerGroup := Nat.succ_mul _ _
  have small : group + 1 ≤ (group + 1) * self.volume.inodesPerGroup :=
    Nat.le_mul_of_pos_right _ perGroup
  have start : mul32 group self.volume.inodesPerGroup = group * self.volume.inodesPerGroup :=
    Nat.mod_eq_of_lt (by omega)
  have next : add32 group 1 = group + 1 := Nat.mod_eq_of_lt (by omega)
  have end_ : mul32 (group + 1) self.volume.inodesPerGroup = (group + 1) *
      self.volume.inodesPerGroup :=
    Nat.mod_eq_of_lt (by omega)
  have first : add32 (group * self.volume.inodesPerGroup)
      1 = group * self.volume.inodesPerGroup + 1 :=
    Nat.mod_eq_of_lt (by omega)
  have last : add32 ((group + 1) * self.volume.inodesPerGroup) 1 =
      (group + 1) * self.volume.inodesPerGroup + 1 := Nat.mod_eq_of_lt fits
  have quotient : (inode - 1) / self.volume.inodesPerGroup = group ↔
      group * self.volume.inodesPerGroup ≤ inode - 1 ∧
        inode - 1 < (group + 1) * self.volume.inodesPerGroup := by
    rw [Nat.div_eq_iff perGroup]
    omega
  rw [quotient]
  unfold InRange rangeOf
  dsimp only
  rw [start, next, end_, first, last]
  omega

theorem ranges_have_iff (perGroup : 0 < self.volume.inodesPerGroup)
    (fits : self.superblock.inodesCount + self.volume.inodesPerGroup < 2 ^ 32) :
    (∃ group < self.inodeGroups, self.InRange group inode) ↔
      1 ≤ inode ∧ inode < self.superblock.inodesCount := by
  have room : ∀ group < self.inodeGroups,
      (group + 1) * self.volume.inodesPerGroup + 1 < 2 ^ 32 := by
    intro group inside
    have bound : self.inodeGroups * self.volume.inodesPerGroup ≤
        self.superblock.inodesCount + self.volume.inodesPerGroup - 1 := Nat.div_mul_le_self _ _
    have below : (group + 1) * self.volume.inodesPerGroup ≤ self.inodeGroups *
        self.volume.inodesPerGroup :=
      Nat.mul_le_mul_right _ inside
    omega
  constructor
  · rintro ⟨group, inside, range⟩
    have split := (in_range_iff perGroup (room group inside)).mp range
    exact ⟨split.1, split.2.1⟩
  · rintro ⟨least, below⟩
    have inside : (inode - 1) / self.volume.inodesPerGroup < self.inodeGroups := by
      apply Nat.div_lt_of_lt_mul
      have whole := le_div_ceil self.superblock.inodesCount perGroup
      rw [Nat.mul_comm]
      exact Nat.lt_of_lt_of_le (by omega) whole
    exact ⟨_, inside, (in_range_iff perGroup (room _ inside)).mpr ⟨least, below, rfl⟩⟩

theorem last_inode_outside (inodes : 0 < self.superblock.inodesCount) :
    ¬self.InodesPartitioned := by
  intro partitioned
  obtain ⟨group, -, range⟩ := (partitioned.all self.superblock.inodesCount).mpr
    ⟨inodes, Nat.le_refl _⟩
  exact absurd (in_range_below range) (Nat.lt_irrefl _)

/-- On no volume that has inodes do the ranges of the groups partition them. -/
theorem inodes_never_partitioned (self : Accounts lru) (inodes : 0 < self.superblock.inodesCount) :
    ¬self.InodesPartitioned :=
  last_inode_outside inodes

theorem two_groups_not_partitioned : ¬twoGroups.InodesPartitioned :=
  inodes_never_partitioned twoGroups (by decide)

/-- Inode 16 of the two groups of eight is in neither range and is not freed. -/
theorem last_of_two_groups_outside :
    ¬twoGroups.InodesPartitioned ∧ twoGroups.Accepted 16 ∧ ¬twoGroups.InRange 0 16 ∧
      ¬twoGroups.InRange 1 16 ∧
      ∀ data allocator, twoGroups.Serves .inodes (twoGroups.getInodeGroup 16) data allocator →
        allocator.dealloc 16 = .error .invalidArgument := by
  refine ⟨last_inode_outside (by decide), ⟨by decide, by decide⟩, by decide, by decide, ?_⟩
  rintro data allocator ⟨descriptor, fresh, built, -, rfl⟩
  obtain rfl := Option.some.inj built
  rfl

end Accounts

/-- An allocator with the numbers that it returned and that were not freed since, and the
numbers that were freed without having been returned. -/
structure Session where
  allocator : GroupAllocator
  allocated : List Nat
  released : List Nat

inductive AllocatorCall where
  | alloc
  | dealloc (number : Nat)

open GroupAllocator

namespace Session

def begin (allocator : GroupAllocator) : Session := ⟨allocator, [], []⟩

def step (session : Session) : AllocatorCall → Session
  | .alloc =>
      match session.allocator.alloc with
      | .ok (taken, after) =>
          { session with allocator := after, allocated := taken.number :: session.allocated }
      | .error _ => session
  | .dealloc number =>
      match session.allocator.dealloc number with
      | .ok (_, after) =>
          if number ∈ session.allocated then
            { session with allocator := after, allocated := session.allocated.erase number }
          else
            { session with allocator := after, released := number :: session.released }
      | .error _ => session

def run (session : Session) (calls : List AllocatorCall) : Session := calls.foldl step session

/-- The bitmap and the difference are those of the start, changed by these allocations and
these releases and by nothing else. -/
structure Accounted (start now : GroupAllocator) (allocated released : List Nat) : Prop where
  length : now.bitmap.data.length = start.bitmap.data.length
  bits : ∀ bit < start.bitmap.size,
    ((Bitmap.bitAt now.bitmap.data bit).toNat : Int) = (Bitmap.bitAt start.bitmap.data bit).toNat +
      (allocated.count (start.minInclusive + bit) - released.count (start.minInclusive + bit))
  diff : now.diffUsage = start.diffUsage + (allocated.length - released.length)

/-- The next allocation is a free number of the group that is not in use, and each number in
use can be freed, which leaves the allocator as the other calls alone would have. -/
structure Proper (start : GroupAllocator) (session : Session) : Prop where
  allocates : ∀ taken after, session.allocator.alloc = .ok (taken, after) →
    start.minInclusive ≤ taken.number ∧ taken.number < start.maxExclusive ∧
      Bitmap.bitAt session.allocator.bitmap.data (taken.number - start.minInclusive) = false ∧
      taken.number ∉ session.allocated
  frees : ∀ number ∈ session.allocated, ∃ bit after,
    session.allocator.dealloc number = .ok (bit, after) ∧
    Accounted start after (session.allocated.erase number) session.released

/-- Every bit behind the range of numbers is set. -/
def Padded (start : GroupAllocator) : Prop :=
  ∀ bit, start.maxExclusive - start.minInclusive ≤ bit → bit < start.bitmap.size →
    Bitmap.bitAt start.bitmap.data bit = true

/-- What holds as long as only numbers of the group are handed out. -/
structure Kept (start : GroupAllocator) (session : Session) : Prop where
  minInclusive : session.allocator.minInclusive = start.minInclusive
  maxExclusive : session.allocator.maxExclusive = start.maxExclusive
  size : session.allocator.bitmap.size = start.bitmap.size
  accounted : Accounted start session.allocator session.allocated session.released
  nodup : session.allocated.Nodup
  marked : ∀ number ∈ session.allocated, start.minInclusive ≤ number ∧ number < start.maxExclusive ∧
    Bitmap.bitAt session.allocator.bitmap.data (number - start.minInclusive) = true
  padded : ∀ bit, start.maxExclusive - start.minInclusive ≤ bit → bit < start.bitmap.size →
    Bitmap.bitAt session.allocator.bitmap.data bit = true

variable {start allocator after : GroupAllocator} {session : Session}
  {allocated released : List Nat}
  {number bit : Nat} {taken : Taken}

theorem kept_begin (padded : Padded start) : Kept start (begin start) where
  minInclusive := rfl
  maxExclusive := rfl
  size := rfl
  accounted := ⟨rfl, fun _ _ => (Int.add_zero _).symm, (Int.add_zero _).symm⟩
  nodup := List.nodup_nil
  marked := fun _ impossible => absurd impossible List.not_mem_nil
  padded := padded

/-- A bitmap whose bits are those of its bytes, and a range whose numbers are words and have
a bit each. -/
structure WellSized (start : GroupAllocator) : Prop where
  bytes : start.bitmap.size ≤ 8 * start.bitmap.data.length
  numbers : start.maxExclusive - start.minInclusive ≤ start.bitmap.size
  words : start.maxExclusive ≤ 2 ^ 32

theorem bit_changed (bound : bit < allocator.bitmap.size)
    (stored : bit / 8 < allocator.bitmap.data.length)
    (enabled : Bool) (delta : Int) (other : Nat) :
    Bitmap.bitAt (changed allocator bit enabled delta).bitmap.data other =
      if other = bit then enabled else Bitmap.bitAt allocator.bitmap.data other :=
  Bitmap.bit_at_set_bit bound stored enabled other

theorem accounted_changed {allocated' released' : List Nat} {enabled : Bool} {delta : Int}
    (accounted : Accounted start allocator allocated released) (bound : bit < allocator.bitmap.size)
    (stored : bit / 8 < allocator.bitmap.data.length)
    (moves : ((Bitmap.bitAt allocator.bitmap.data bit).toNat : Int) + delta = enabled.toNat)
    (counts : ∀ number, (allocated'.count number : Int) - released'.count number =
      allocated.count number - released.count number + if number = start.minInclusive + bit then
        delta else 0)
    (lengths : (allocated'.length : Int) - released'.length = allocated.length - released.length +
      delta) :
    Accounted start (changed allocator bit enabled delta) allocated' released' := by
  refine ⟨(Bitmap.set_bit_length enabled).trans accounted.length, ?_, ?_⟩
  · intro other inside
    have before := accounted.bits other inside
    have count := counts (start.minInclusive + other)
    rw [bit_changed bound stored]
    by_cases same : other = bit
    · subst same
      rw [if_pos rfl] at count ⊢
      omega
    · have different : ¬start.minInclusive + other = start.minInclusive + bit := by omega
      rw [if_neg different] at count
      rw [if_neg same]
      omega
  · have before := accounted.diff
    change allocator.diffUsage + delta = _
    omega

theorem kept_alloc (sized : WellSized start) (kept : Kept start session)
    (taking : session.allocator.alloc = .ok (taken, after)) :
    taken.number = start.minInclusive + taken.bit ∧
      start.minInclusive + taken.bit < start.maxExclusive ∧
      taken.number ∉ session.allocated ∧
      Kept start ⟨after, taken.number :: session.allocated, session.released⟩ := by
  obtain ⟨rfl, bound, stored, unset⟩ := alloc_changed taking
  have inside : taken.bit < start.maxExclusive - start.minInclusive := by
    by_contra behind
    have set := kept.padded taken.bit (Nat.not_lt.mp behind) (kept.size ▸ bound)
    rw [unset] at set
    exact absurd set Bool.false_ne_true
  have words := sized.words
  have number : taken.number = start.minInclusive + taken.bit := by
    rw [alloc_number taking, kept.minInclusive]
    exact Nat.mod_eq_of_lt (by omega)
  have fresh : taken.number ∉ session.allocated := by
    intro used
    have set := (kept.marked _ used).2.2
    rw [number, Nat.add_sub_cancel_left, unset] at set
    exact absurd set Bool.false_ne_true
  refine ⟨number, by omega, fresh, kept.minInclusive, kept.maxExclusive,
    (Bitmap.set_bit_size true).trans kept.size, ?_, List.nodup_cons.mpr ⟨fresh, kept.nodup⟩, ?_, ?_⟩
  · apply accounted_changed kept.accounted bound stored
    · rw [unset]
      rfl
    · intro other
      dsimp only
      rw [List.count_cons, number]
      by_cases same : other = start.minInclusive + taken.bit
      · rw [if_pos same, if_pos (beq_iff_eq.mpr same.symm)]
        omega
      · rw [if_neg same, if_neg fun equal => same (beq_iff_eq.mp equal).symm]
        omega
    · dsimp only
      rw [List.length_cons]
      omega
  · intro other member
    rw [bit_changed bound stored]
    rcases List.mem_cons.mp member with rfl | before
    · rw [number, Nat.add_sub_cancel_left, if_pos rfl]
      exact ⟨by omega, by omega, rfl⟩
    · have marked := kept.marked other before
      refine ⟨marked.1, marked.2.1, ?_⟩
      split_ifs
      · rfl
      · exact marked.2.2
  · intro other behind small
    rw [bit_changed bound stored]
    split_ifs
    · rfl
    · exact kept.padded other behind small

/-- Taking a number back that is in the range and whose bit is set; `allocated'` and
`released'` count it. -/
theorem kept_changed {allocated' released' : List Nat} (sized : WellSized start)
    (kept : Kept start session)
    (least : start.minInclusive ≤ number) (below : number < start.maxExclusive)
    (set : Bitmap.bitAt session.allocator.bitmap.data (number - start.minInclusive) = true)
    (counts : ∀ other, (allocated'.count other : Int) - released'.count other =
      session.allocated.count other - session.released.count other + if other = number then -1
        else 0)
    (lengths : (allocated'.length : Int) - released'.length =
      session.allocated.length - session.released.length + -1)
    (rest : ∀ other ∈ allocated', other ∈ session.allocated ∧ other ≠ number)
    (nodup : allocated'.Nodup) :
    Kept start ⟨changed session.allocator (number - start.minInclusive) false (-1), allocated',
      released'⟩ := by
  have numbers := sized.numbers
  have bound : number - start.minInclusive < session.allocator.bitmap.size := by
    rw [kept.size]
    omega
  have stored := Bitmap.stored_of_bit_at set
  have here : start.minInclusive + (number - start.minInclusive) = number := by omega
  refine ⟨kept.minInclusive, kept.maxExclusive, (Bitmap.set_bit_size false).trans kept.size, ?_,
    nodup, ?_, ?_⟩
  · apply accounted_changed kept.accounted bound stored
    · rw [set]
      rfl
    · intro other
      rw [here]
      exact counts other
    · exact lengths
  · intro other member
    have marked := kept.marked other (rest other member).1
    have different := (rest other member).2
    have apart : ¬other - start.minInclusive = number - start.minInclusive := by omega
    rw [bit_changed bound stored, if_neg apart]
    exact marked
  · intro other behind small
    have apart : ¬other = number - start.minInclusive := by omega
    rw [bit_changed bound stored, if_neg apart]
    exact kept.padded other behind small

theorem counts_erase (used : number ∈ allocated) (other : Nat) :
    ((allocated.erase number).count other : Int) - released.count other =
      allocated.count other - released.count other + if other = number then -1 else 0 := by
  have positive : 0 < allocated.count number := List.count_pos_iff.mpr used
  by_cases same : other = number
  · subst same
    rw [if_pos rfl, List.count_erase_self]
    omega
  · rw [if_neg same, List.count_erase_of_ne same]
    omega

theorem lengths_erase (used : number ∈ allocated) :
    ((allocated.erase number).length : Int) - released.length = allocated.length - released.length +
    -1 := by
  have length := List.length_erase_add_one used
  omega

theorem kept_free_used (sized : WellSized start) (kept : Kept start session)
    (used : number ∈ session.allocated) :
    session.allocator.dealloc number = .ok (number - start.minInclusive,
        changed session.allocator (number - start.minInclusive) false (-1)) ∧
      Kept start ⟨changed session.allocator (number - start.minInclusive) false (-1),
        session.allocated.erase number, session.released⟩ := by
  have marked := kept.marked number used
  have numbers := sized.numbers
  constructor
  · have bound : number - session.allocator.minInclusive < session.allocator.bitmap.size := by
      rw [kept.size, kept.minInclusive]
      omega
    have freed := GroupAllocator.dealloc_eq (kept.minInclusive ▸ marked.1)
      (kept.maxExclusive ▸ marked.2.1)
      bound (kept.minInclusive ▸ marked.2.2)
    rwa [kept.minInclusive] at freed
  · apply kept_changed sized kept marked.1 marked.2.1 marked.2.2 (counts_erase used)
      (lengths_erase used)
    · intro other member
      refine ⟨List.mem_of_mem_erase member, ?_⟩
      rintro rfl
      exact kept.nodup.not_mem_erase member
    · exact kept.nodup.erase number

theorem kept_step (sized : WellSized start) (kept : Kept start session) (call : AllocatorCall) :
    Kept start (session.step call) := by
  cases call with
  | alloc =>
      unfold step
      dsimp only
      cases taking : session.allocator.alloc with
      | error error => exact kept
      | ok result => exact (kept_alloc sized kept taking).2.2.2
  | dealloc number =>
      unfold step
      dsimp only
      cases freeing : session.allocator.dealloc number with
      | error error => exact kept
      | ok result =>
          obtain ⟨bit, after⟩ := result
          dsimp only
          by_cases used : number ∈ session.allocated
          · rw [if_pos used]
            obtain ⟨freed, still⟩ := kept_free_used sized kept used
            rw [freed] at freeing
            cases freeing
            exact still
          · rw [if_neg used]
            obtain ⟨least, below, rfl⟩ := dealloc_range freeing
            obtain ⟨rfl, -, set⟩ := dealloc_changed freeing
            rw [kept.minInclusive] at least set ⊢
            rw [kept.maxExclusive] at below
            apply kept_changed sized kept least below set
            · intro other
              rw [List.count_cons]
              by_cases same : other = number
              · rw [if_pos same, if_pos (beq_iff_eq.mpr same.symm)]
                omega
              · rw [if_neg same, if_neg fun equal => same (beq_iff_eq.mp equal).symm]
                omega
            · rw [List.length_cons]
              omega
            · intro other member
              exact ⟨member, fun same => used (same ▸ member)⟩
            · exact kept.nodup

theorem kept_run (sized : WellSized start) {calls : List AllocatorCall}
    (kept : Kept start session) :
    Kept start (session.run calls) := by
  induction calls generalizing session with
  | nil => exact kept
  | cons call calls ih => exact ih (kept_step sized kept call)

theorem proper_of_kept (sized : WellSized start) (kept : Kept start session) :
    Proper start session := by
  constructor
  · intro taken after taking
    obtain ⟨number, below, fresh, -⟩ := kept_alloc sized kept taking
    refine ⟨by omega, by omega, ?_, fresh⟩
    rw [number, Nat.add_sub_cancel_left]
    exact (alloc_changed taking).2.2.2
  · intro number used
    obtain ⟨freed, still⟩ := kept_free_used sized kept used
    exact ⟨_, _, freed, still.accounted⟩

def freeBits (data : List UInt8) (bit : Nat) : Nat :=
  (List.range bit).countP fun earlier => Bitmap.bitAt data earlier = false

theorem free_bits_less {data changed : List UInt8} {first : Nat} (before : first < bit)
    (unset : Bitmap.bitAt data first = false)
    (changes : ∀ other, Bitmap.bitAt changed other = if other = first then true else Bitmap.bitAt
      data other) :
    freeBits changed bit < freeBits data bit := by
  unfold freeBits
  rw [List.countP_eq_length_filter, List.countP_eq_length_filter]
  have fewer : ((List.range bit).filter fun earlier => Bitmap.bitAt changed earlier = false) =
      ((List.range bit).filter fun earlier => Bitmap.bitAt data earlier = false).filter
        fun earlier => earlier ≠ first := by
    rw [List.filter_filter]
    apply List.filter_congr
    intro earlier _
    rw [changes]
    by_cases same : earlier = first
    · simp [same]
    · simp [same]
  rw [fewer]
  apply List.length_filter_lt_length_iff_exists.mpr
  refine ⟨first, List.mem_filter.mpr ⟨List.mem_range.mpr before, decide_eq_true unset⟩, ?_⟩
  simp

theorem alloc_first {first : Nat} (found : allocator.bitmap.findFirstUnset = some first) :
    allocator.alloc = .ok (⟨add32 allocator.minInclusive first, first⟩,
      changed allocator first true 1) := by
  unfold alloc
  rw [found]
  rfl

/-- If a bit behind the range is free, allocations reach it and return a number that is not
of the group, or one whose bit is set. -/
theorem stray_bit_reached (bytes : start.bitmap.size ≤ 8 * start.bitmap.data.length)
    (behind : start.maxExclusive - start.minInclusive ≤ bit) (inside : bit < start.bitmap.size)
    (size : session.allocator.bitmap.size = start.bitmap.size)
    (length : session.allocator.bitmap.data.length = start.bitmap.data.length)
    (unset : Bitmap.bitAt session.allocator.bitmap.data bit = false) :
    ∃ count, ¬Proper start (session.run (List.replicate count .alloc)) := by
  induction free : freeBits session.allocator.bitmap.data bit using Nat.strong_induction_on
    generalizing session with
  | _ free ih =>
      obtain ⟨first, least, found, before⟩ := Bitmap.find_first_unset_first (size ▸ inside)
        (by rw [length]; omega) unset
      have taking := alloc_first found
      have clear := Bitmap.find_first_unset_spec found
      by_cases own : first < start.maxExclusive - start.minInclusive
      · have changes := @bit_changed session.allocator first clear.1 clear.2.1 true 1
        have less := @free_bits_less bit _ _ _ (Nat.lt_of_lt_of_le own behind) clear.2.2 changes
        have next : session.step .alloc = ⟨changed session.allocator first true 1,
            add32 session.allocator.minInclusive first :: session.allocated, session.released⟩ := by
          simp only [step, taking]
        obtain ⟨count, improper⟩ := @ih _ (free ▸ less) (session.step .alloc)
          (by rw [next]; exact (Bitmap.set_bit_size true).trans size)
          (by rw [next]; exact (Bitmap.set_bit_length true).trans length)
          (by rw [next, changes, if_neg (by omega)]; exact unset) (by rw [next])
        exact ⟨count + 1, improper⟩
      · refine ⟨0, fun proper => ?_⟩
        obtain ⟨least, below, free, -⟩ := proper.allocates _ _ taking
        dsimp only at least below free
        have set := before (add32 session.allocator.minInclusive first - start.minInclusive)
          (by omega)
        change Bitmap.bitAt session.allocator.bitmap.data _ = false at free
        rw [free] at set
        exact absurd set Bool.false_ne_true

theorem proper_iff_padded (sized : WellSized start) :
    (∀ calls, Proper start ((begin start).run calls)) ↔ Padded start := by
  constructor
  · intro proper bit behind inside
    by_contra unset
    rw [Bool.not_eq_true] at unset
    obtain ⟨count, improper⟩ := stray_bit_reached sized.bytes behind inside
      (rfl : (begin start).allocator.bitmap.size = _) rfl unset
    exact improper (proper _)
  · intro padded calls
    exact proper_of_kept sized (kept_run sized (kept_begin padded))

end Session

namespace Accounts

open Session

theorem div_ceil_le (value : Nat) {size : Nat} (positive : 0 < size) :
    divCeil value size ≤ value := by
  unfold divCeil
  apply Nat.le_of_lt_succ
  apply Nat.div_lt_of_lt_mul
  have least : value ≤ size * value := Nat.le_mul_of_pos_left _ positive
  rw [Nat.mul_succ]
  omega

theorem added_back {left right : Nat} (leftWord : left < 2 ^ 32) (rightWord : right < 2 ^ 32) :
    sub32 (add32 left right) left = right := by
  unfold sub32 add32
  split_ifs <;> omega

theorem sized_blocks {descriptor : BlockGroupDescriptor} {fresh : GroupAllocator}
    {data : List UInt8}
    (blockSize : 0 < self.volume.blockSize) (word : descriptor.usageBitmap .blocks < 2 ^ 32)
    (built : self.newAllocator .blocks group descriptor = some fresh)
    (length : data.length = fresh.bitmap.data.length) : WellSized (fresh.loaded data) := by
  obtain rfl := Option.some.inj built
  set range := self.rangeOf .blocks group with ranged
  have below : range.2 < 2 ^ 32 :=
    Nat.lt_of_le_of_lt (Nat.min_le_left _ _) (Nat.mod_lt _ (by decide))
  have first : range.1 < 2 ^ 32 := Nat.mod_lt _ (by decide)
  have difference : sub32 range.2 range.1 < 2 ^ 32 := by
    unfold sub32
    split_ifs <;> omega
  set blocks := self.bitmapBlockCount .blocks group with counted
  have fewBlocks : blocks < 2 ^ 32 :=
    Nat.lt_of_le_of_lt (div_ceil_le _ blockSize)
      (Nat.lt_of_le_of_lt (div_ceil_le _ (by decide)) difference)
  have span : sub32 (add32 (descriptor.usageBitmap .blocks) blocks)
      (descriptor.usageBitmap .blocks) = blocks :=
    added_back word fewBlocks
  have room : sub32 range.2 range.1 ≤ blocks * self.volume.blockSize * 8 := by
    have bytes := le_div_ceil (sub32 range.2 range.1) (by decide : 0 < 8)
    have whole := le_div_ceil (divCeil (sub32 range.2 range.1) 8) blockSize
    exact Nat.le_trans bytes (Nat.mul_le_mul_right 8 whole)
  refine ⟨?_, ?_, Nat.le_of_lt below⟩
  · change _ ≤ 8 * data.length
    rw [length, Nat.mul_comm]
    change _ ≤ (List.replicate (divCeil _ 8) (0 : UInt8)).length * 8
    rw [List.length_replicate]
    exact le_div_ceil _ (by decide)
  · change range.2 - range.1 ≤
      sub32 (add32 (descriptor.usageBitmap .blocks) blocks) (descriptor.usageBitmap .blocks) *
        self.volume.blockSize * 8
    rw [span]
    apply Nat.le_trans _ room
    unfold sub32
    split_ifs <;> omega

/-- Allocations of blocks stay in their group, and each can be undone, in every run if and
only if the bits of the bitmap on the disk that stand for no block of the group are set. -/
theorem group_blocks_proper_iff (self : Accounts lru) (group : Nat)
    (descriptor : BlockGroupDescriptor)
    (fresh : GroupAllocator) (data : List UInt8) (blockSize : 0 < self.volume.blockSize)
    (word : descriptor.usageBitmap .blocks < 2 ^ 32)
    (built : self.newAllocator .blocks group descriptor = some fresh)
    (length : data.length = fresh.bitmap.data.length) :
    (∀ calls, Proper (fresh.loaded data) ((Session.begin (fresh.loaded data)).run calls)) ↔
      ∀ bit, fresh.maxExclusive - fresh.minInclusive ≤ bit → bit < fresh.bitmap.size →
        Bitmap.bitAt data bit = true :=
  proper_iff_padded (sized_blocks blockSize word built length)

def firstOfTwo (data : List UInt8) : GroupAllocator :=
  (GroupAllocator.newBlocks 1 9 3 4 1024).loaded data

theorem full_behind_first_byte {count : Nat} {bit : Nat} (behind : 8 ≤ bit)
    (inside : bit < 8 * (count + 1)) :
    Bitmap.bitAt (0 :: List.replicate count 0xFF) bit = true := by
  obtain ⟨rest, rfl⟩ := Nat.exists_eq_add_of_le' behind
  rw [Bitmap.bit_at_cons_later]
  unfold Bitmap.bitAt
  rw [List.getD_eq_getElem _ _ (by rw [List.length_replicate]; omega), List.getElem_replicate]
  exact Bitmap.bit_of_full_byte (Nat.mod_lt _ (by decide))

theorem padded_group_proper :
    (GroupAllocator.newBlocks 1 9 3 4 1024).bitmap.size = 8192 ∧
      ∀ calls, Proper (firstOfTwo (0 :: List.replicate 1023 0xFF))
        ((Session.begin (firstOfTwo (0 :: List.replicate 1023 0xFF))).run calls) := by
  have length : (0 :: List.replicate 1023 (0xFF : UInt8)).length =
      (GroupAllocator.newBlocks 1 9 3 4 1024).bitmap.data.length := by
    rw [List.length_cons, List.length_replicate]
    exact List.length_replicate.symm
  refine ⟨by decide, ?_⟩
  apply (group_blocks_proper_iff twoGroups 0 ⟨fun _ => 3, 5, fun _ => 8, 0⟩
    (.newBlocks 1 9 3 4 1024)
    (0 :: List.replicate 1023 0xFF) (by decide) (by decide) rfl length).mpr
  intro bit behind inside
  exact full_behind_first_byte behind inside

/-- With a bitmap that is clear, the ninth allocation returns block 9, which is not of the
group and cannot be freed. -/
theorem ninth_block_outside :
    ((Session.begin (firstOfTwo (List.replicate 1024 0))).run (List.replicate 9 .alloc)).allocated =
        [9, 8, 7, 6, 5, 4, 3, 2, 1] ∧
      ¬∀ calls, Proper (firstOfTwo (List.replicate 1024 0))
        ((Session.begin (firstOfTwo (List.replicate 1024 0))).run calls) := by
  have allocated : ((Session.begin (firstOfTwo (List.replicate 1024 0))).run
      (List.replicate 9 .alloc)).allocated =
      [9, 8, 7, 6, 5, 4, 3, 2, 1] := by decide +kernel
  refine ⟨allocated, fun proper => ?_⟩
  obtain ⟨bit, after, freed, -⟩ := (proper (List.replicate 9 .alloc)).frees 9
    (by rw [allocated]; exact List.mem_cons_self)
  have below := (GroupAllocator.dealloc_range freed).2.1
  have last : ((Session.begin (firstOfTwo (List.replicate 1024 0))).run
      (List.replicate 9 .alloc)).allocator.maxExclusive = 9 := by decide +kernel
  omega

end Accounts

end Campix.Ext2
