import Campix.Ext2.BitmapBlocks
import Mathlib.Algebra.BigOperators.Group.Finset.Basic
import Mathlib.Algebra.BigOperators.Ring.Finset
import Mathlib.Tactic.Ring

/-!
# Free space is accounted for

The bitmap of a group is on the disk or in an allocator, changed in part; the counters
miss what the allocators have pending. `Sound` says so against a ledger of all allocations
and deallocations. It holds whatever the caches put out, and once they are empty the disk
and the counters alone agree with the ledger.
-/

namespace Campix.Ext2

open Lib.Fallible Lib.Outcome Lib.Word Lib.Caching Ext2Volume

set_option autoImplicit false

variable {lru : BoundedMap Nat GroupAllocator}

structure Entry where
  space : Space
  group : Nat
  bit : Nat
  delta : Int

namespace Entry

def net (ledger : List Entry) (counts : Entry → Bool) : Int :=
  ((ledger.filter counts).map Entry.delta).sum

def netSpace (ledger : List Entry) (space : Space) : Int :=
  net ledger fun entry => entry.space = space

def netGroup (ledger : List Entry) (space : Space) (group : Nat) : Int :=
  net ledger fun entry => entry.space = space ∧ entry.group = group

def netBit (ledger : List Entry) (space : Space) (group bit : Nat) : Int :=
  net ledger fun entry => entry.space = space ∧ entry.group = group ∧ entry.bit = bit

theorem net_cons (entry : Entry) (ledger : List Entry) (counts : Entry → Bool) :
    net (entry :: ledger) counts = (if counts entry then entry.delta else 0) + net ledger
      counts := by
  unfold net
  cases counted : counts entry with
  | true =>
      rw [List.filter_cons_of_pos counted, List.map_cons, List.sum_cons]
      rfl
  | false =>
      rw [List.filter_cons_of_neg (by rw [counted]; decide), if_neg (by decide), Int.zero_add]

end Entry

open Entry

inductive Operation where
  | alloc (space : Space) (group : Nat)
  | allocAny (space : Space)
  | dealloc (space : Space) (group number : Nat)
  | flushGroup (space : Space) (group : Nat)
  | flush

def Operation.run : Operation → OnAccounts lru (List Entry)
  | .alloc space group => do
      let taken ← Accounts.allocIn space group
      return [⟨space, group, taken.bit, 1⟩]
  | .allocAny space => do
      let (group, taken) ← Accounts.allocAny space
      return [⟨space, group, taken.bit, 1⟩]
  | .dealloc space group number => do
      let bit ← Accounts.deallocIn space group number
      return [⟨space, group, bit, -1⟩]
  | .flushGroup space group => do
      Accounts.flushBitmapCache space group
      return []
  | .flush => do
      Accounts.flush
      return []

def runAll : List Operation → List Entry → OnAccounts lru (List Entry)
  | [], ledger => pure ledger
  | operation :: operations, ledger => do
      let entries ← operation.run
      runAll operations (entries ++ ledger)

namespace Accounts

def frame (self : Accounts lru) : Accounts lru where
  volume := self.volume.frame
  superblock := { self.superblock with unallocated := fun _ => 0 }
  blockGroupDescriptorTable :=
    self.blockGroupDescriptorTable.map fun descriptor => { descriptor with freeCount := fun _ => 0 }
  caches := fun _ => lru.empty
  dropped := []

def groups (self : Accounts lru) : Nat := self.blockGroupDescriptorTable.length

def first (self : Accounts lru) (space : Space) (group : Nat) : Nat :=
  (self.blockGroupDescriptorTable[group]?.map fun descriptor => descriptor.usageBitmap space).getD 0

def freeCount (self : Accounts lru) (space : Space) (group : Nat) : Nat :=
  (self.blockGroupDescriptorTable[group]?.map fun descriptor => descriptor.freeCount space).getD 0

def lookups (self : Accounts lru) (space : Space) : Nat → Option GroupAllocator :=
  lru.lookup (self.caches space)

def diskBitmap (self : Accounts lru) (space : Space) (group : Nat) : List UInt8 :=
  (List.range (self.bitmapBlockCount space group)).flatMap fun i =>
    self.volume.device (self.first space group + i)

def superblockCopies (self : Accounts lru) : List Nat :=
  1024 / self.volume.blockSize ::
    (self.getBackupGroups.drop 1).map fun group => group * self.volume.blocksPerGroup + 1

def descriptorCopies (self : Accounts lru) (group : Nat) : List Nat :=
  self.getBackupGroups.map fun backup => backup * self.volume.blocksPerGroup +
    group * blockGroupDescriptorSize / self.volume.blockSize + 2

def IsBitmap (self : Accounts lru) (lba : Nat) : Prop :=
  ∃ space group i, group < self.groups ∧ i < self.bitmapBlockCount space group ∧
    lba = self.first space group + i

/-- A volume before its first allocation: no bitmap is cached, and the bitmaps lie in the
volume, apart from each other and from the copies of superblock and descriptors. -/
structure Mounted (start : Accounts lru) : Prop where
  writable : start.volume.readOnly = false
  quiet : ∀ space group, start.lookups space group = none
  coherent : ∀ item ∈ start.volume.blockCache, start.IsBitmap item.1 →
    item.2 = start.volume.device item.1
  undropped : start.dropped = []
  sized : ∀ lba, (start.volume.device lba).length = start.volume.blockSize
  blockSize : ∃ log, start.volume.blockSize = 1024 <<< log
  word : start.volume.blockCount < 2 ^ 32
  counters : ∀ space, start.superblock.unallocated space < 2 ^ 32
  counts : ∀ space group, start.freeCount space group < 2 ^ 16
  inside : ∀ space group, group < start.groups →
    start.first space group + start.bitmapBlockCount space group ≤ start.volume.blockCount
  apart : ∀ space group i other otherGroup j, group < start.groups → otherGroup < start.groups →
    i < start.bitmapBlockCount space group → j < start.bitmapBlockCount other otherGroup →
    start.first space group + i = start.first other otherGroup + j →
    space = other ∧ group = otherGroup
  spared : ∀ lba, start.IsBitmap lba → lba ∉ start.superblockCopies ∧
    ∀ group < start.groups, lba ∉ start.descriptorCopies group

section Frame

variable {self after : Accounts lru}

theorem groups_of_frame (same : self.frame = after.frame) : self.groups = after.groups := by
  have length : ∀ any : Accounts lru, any.frame.blockGroupDescriptorTable.length = any.groups :=
    fun any => List.length_map _
  rw [← length self, ← length after, same]

theorem first_frame (self : Accounts lru) (space : Space) (group : Nat) :
    self.frame.first space group = self.first space group := by
  simp [first, frame, List.getElem?_map, Option.map_map, Function.comp_def]

theorem first_of_frame (same : self.frame = after.frame) (space : Space) (group : Nat) :
    self.first space group = after.first space group := by
  rw [← first_frame self, ← first_frame after, same]

theorem block_size_frame (same : self.frame = after.frame) :
    self.volume.blockSize = after.volume.blockSize :=
  show self.frame.volume.blockSize = after.frame.volume.blockSize by rw [same]

theorem block_count_frame (same : self.frame = after.frame) :
    self.volume.blockCount = after.volume.blockCount :=
  show self.frame.volume.blockCount = after.frame.volume.blockCount by rw [same]

theorem read_only_frame (same : self.frame = after.frame) :
    self.volume.readOnly = after.volume.readOnly :=
  show self.frame.volume.readOnly = after.frame.volume.readOnly by rw [same]

theorem range_frame (self : Accounts lru) (space : Space) (group : Nat) :
    self.frame.rangeOf space group = self.rangeOf space group := by
  cases space with
  | blocks => rfl
  | inodes => rfl

theorem bitmap_block_count_of_frame (same : self.frame = after.frame) (space : Space)
    (group : Nat) :
    self.bitmapBlockCount space group = after.bitmapBlockCount space group := by
  unfold bitmapBlockCount
  rw [← range_frame self, ← range_frame after, same, block_size_frame same]

theorem backup_groups_frame (self : Accounts lru) :
    self.frame.getBackupGroups = self.getBackupGroups := by
  unfold getBackupGroups
  rw [show self.frame.blockGroupDescriptorTable.length = self.blockGroupDescriptorTable.length from
    List.length_map _]
  rfl

theorem superblock_copies_of_frame (same : self.frame = after.frame) :
    self.superblockCopies = after.superblockCopies := by
  have shape : ∀ any : Accounts lru, any.frame.superblockCopies = any.superblockCopies := by
    intro any
    unfold superblockCopies
    rw [backup_groups_frame]
    rfl
  rw [← shape self, ← shape after, same]

theorem descriptor_copies_of_frame (same : self.frame = after.frame) (group : Nat) :
    self.descriptorCopies group = after.descriptorCopies group := by
  have shape : ∀ any : Accounts lru,
      any.frame.descriptorCopies group = any.descriptorCopies group := by
    intro any
    unfold descriptorCopies
    rw [backup_groups_frame]
    rfl
  rw [← shape self, ← shape after, same]

end Frame

end Accounts

/-- The bits of a bitmap are those at the start and what the ledger changed. -/
structure Agrees (start : Accounts lru) (ledger : List Entry) (space : Space) (group : Nat)
    (data : List UInt8) : Prop where
  length : data.length = start.bitmapBlockCount space group * start.volume.blockSize
  bits : ∀ bit < 8 * data.length, ((Bitmap.bitAt data bit).toNat : Int) =
    (Bitmap.bitAt (start.diskBitmap space group) bit).toNat + netBit ledger space group bit

/-- An allocator of the group, as `new` makes it. -/
structure Shaped (start : Accounts lru) (space : Space) (group : Nat) (allocator : GroupAllocator) :
    Prop where
  bs : allocator.bs = start.volume.blockSize
  begins : allocator.bitmapBeginInclusive = start.first space group
  ends : allocator.bitmapEndExclusive =
    start.first space group + start.bitmapBlockCount space group
  size : allocator.bitmap.size ≤
    8 * (start.bitmapBlockCount space group * start.volume.blockSize)
  dirtySize : allocator.dirtyBlocksBitmap.size = start.bitmapBlockCount space group
  dirtyStored : start.bitmapBlockCount space group ≤ 8 * allocator.dirtyBlocksBitmap.data.length

def Tended (start : Accounts lru) (ledger : List Entry) (volume : Ext2Volume) (space : Space)
    (group : Nat) : Option GroupAllocator → Prop
  | none => ∃ data, Agrees start ledger space group data ∧
      ∀ j < start.bitmapBlockCount space group,
        volume.HoldsAt (start.first space group + j) (part data start.volume.blockSize j)
  | some allocator => Agrees start ledger space group allocator.bitmap.data ∧
      Shaped start space group allocator ∧
      Kept volume (start.first space group) start.volume.blockSize
        (start.bitmapBlockCount space group) allocator.bitmap.data allocator.dirtyBlocksBitmap

def pending : Option GroupAllocator → Int
  | none => 0
  | some allocator => allocator.diffUsage

abbrev Held := Space → Nat → Option GroupAllocator

/-- The state of a volume whose allocators are those in `held`. -/
structure Sound (start : Accounts lru) (ledger : List Entry) (held : Held) (now : Accounts lru) :
    Prop where
  frame : now.frame = start.frame
  tended : ∀ space group, group < start.groups →
    Tended start ledger now.volume space group (held space group)
  absent : ∀ space group, start.groups ≤ group → held space group = none
  counter : ∀ space, (now.superblock.unallocated space : Int) =
    (start.superblock.unallocated space - (netSpace ledger space -
      ∑ group ∈ Finset.range start.groups, pending (held space group))) % 2 ^ 32
  count : ∀ space group, group < start.groups → (now.freeCount space group : Int) =
    (start.freeCount space group - (netGroup
      ledger space group - pending (held space group))) % 2 ^ 16
  dropped : ∀ allocator ∈ now.dropped, allocator.dirtyBlocksBitmap.findFirstSet = none

def setHeld (held : Held) (space : Space) (group : Nat) (allocator : Option GroupAllocator) :
    Held :=
  Function.update held space (Function.update (held space) group allocator)

section Steps

variable {start self : Accounts lru} {ledger : List Entry} {held : Held} {space other : Space}
  {group otherGroup : Nat} {allocator : GroupAllocator}

theorem set_held_self (held : Held) (space : Space) (group : Nat)
    (allocator : Option GroupAllocator) : setHeld held space group allocator space group =
    allocator := by
  rw [setHeld, Function.update_self, Function.update_self]

theorem set_held_other (allocator : Option GroupAllocator)
    (apart : ¬(other = space ∧ otherGroup = group)) :
    setHeld held space group allocator other otherGroup = held other otherGroup := by
  unfold setHeld
  by_cases same : other = space
  · subst same
    rw [Function.update_self, Function.update_of_ne (fun here => apart ⟨rfl, here⟩)]
  · rw [Function.update_of_ne same]

theorem sum_pending_set (inside : group < start.groups) (allocator : Option GroupAllocator) :
    ∑ each ∈ Finset.range start.groups, pending (setHeld held space group allocator space each) =
      ∑ each ∈ Finset.range start.groups, pending (held space each) -
        pending (held space group) + pending allocator := by
  have member : group ∈ Finset.range start.groups := Finset.mem_range.mpr inside
  have rest : ∑ each ∈ (Finset.range start.groups).erase group,
      pending (setHeld held space group allocator space each) =
      ∑ each ∈ (Finset.range start.groups).erase group, pending (held space each) := by
    apply Finset.sum_congr rfl
    intro each inRest
    rw [set_held_other allocator fun both => (Finset.mem_erase.mp inRest).1 both.2]
  rw [← Finset.add_sum_erase _ _ member,
    ← Finset.add_sum_erase _ (fun each => pending (held space each))
    member, rest, set_held_self]
  ring

theorem less_diff_eq (width counter : Nat) (diff : Int) :
    (Accounts.lessDiff width counter diff : Int) = ((counter : Int) - diff) % 2 ^ width :=
  Int.toNat_of_nonneg (Int.emod_nonneg _ (pow_ne_zero width (by decide)))

/-- What the bitmap blocks look like survives all writes elsewhere. -/
theorem tended_unmoved {volume after : Ext2Volume} {keep : Nat → Prop}
    {held : Option GroupAllocator}
    (tended : Tended start ledger volume space group held) (unmoved : Unmoved keep volume after)
    (kept : ∀ j < start.bitmapBlockCount space group, keep (start.first space group + j)) :
    Tended start ledger after space group held := by
  cases held with
  | none =>
      obtain ⟨data, agrees, holds⟩ := tended
      exact ⟨data, agrees, fun j bound => unmoved.holds _ _ (kept j bound) (holds j bound)⟩
  | some allocator =>
      obtain ⟨agrees, shaped, holds⟩ := tended
      exact ⟨agrees, shaped, fun j bound clean =>
        unmoved.holds _ _ (kept j bound) (holds j bound clean)⟩

theorem on_volume_yields {Value : Type} {action : OnVolume Value} {post : Value → Ext2Volume → Prop}
    (yields : Yields post (fun _ => True) (action self.volume)) :
    Yields (fun value after => ∃ volume, after = { self with volume := volume } ∧ post value volume)
      (fun _ => True) (Accounts.onVolume action self) := by
  unfold Accounts.onVolume
  cases outcome : action self.volume with
  | ok value volume =>
      rw [outcome] at yields
      cases yields with
      | ok holds => exact .ok ⟨volume, rfl, holds⟩
  | error failure volume => exact .error trivial

theorem set_superblock_yields (writable : self.volume.readOnly = false) (superblock : Superblock)
    (sameCopies : superblock.sparseDescriptorTables = self.superblock.sparseDescriptorTables) :
    Yields (fun _ after => ∃ volume,
        after = { self with superblock := superblock, volume := volume } ∧
          Unmoved (fun lba => lba ∉ self.superblockCopies) self.volume volume)
      (fun _ => True) (Accounts.setSuperblock superblock self) := by
  unfold Accounts.setSuperblock
  change Yields _ _ ((if self.volume.readOnly = true then _ else _ : OnAccounts lru Unit) self)
  rw [if_neg (by rw [writable]; decide)]
  have backups : Accounts.getBackupGroups { self with superblock := superblock } =
      self.getBackupGroups := by
    unfold Accounts.getBackupGroups
    rw [sameCopies]
  change Yields _ _ ((Accounts.onVolume _ >>= fun _ => Accounts.onVolume _ : OnAccounts lru Unit)
    { self with superblock := superblock })
  rw [backups]
  refine yields_bind (on_volume_yields (write_device_unmoved _ _ _)) ?_
  rintro _ after ⟨volume, rfl, first⟩
  refine yields_weaken (on_volume_yields (write_superblocks_unmoved _ _ _ volume)) ?_
    (fun _ _ => trivial)
  rintro _ after ⟨last, rfl, second⟩
  refine ⟨last, rfl, unmoved_trans
    (unmoved_weaken first fun lba spared same => spared ?_)
    (unmoved_weaken second fun lba spared backup member same => spared ?_)⟩
  · rw [same]
    exact List.mem_cons_self
  · rw [same]
    exact List.mem_cons_of_mem _ (List.mem_map_of_mem member)

theorem set_descriptor_yields (writable : self.volume.readOnly = false)
    (descriptor : BlockGroupDescriptor) (inside : group < self.groups) :
    Yields (fun _ after => ∃ volume,
        after = { self with
          blockGroupDescriptorTable := self.blockGroupDescriptorTable.set group descriptor
          volume := volume } ∧
          Unmoved (fun lba => lba ∉ self.descriptorCopies group) self.volume volume)
      (fun _ => True) (Accounts.setBlockGroupDescriptor group descriptor self) := by
  unfold Accounts.setBlockGroupDescriptor
  change Yields _ _ ((if self.volume.readOnly = true then _ else _ : OnAccounts lru Unit) self)
  have stored : ¬group ≥ self.blockGroupDescriptorTable.length := Nat.not_le.mpr inside
  rw [if_neg (by rw [writable]; decide), if_neg stored]
  change Yields _ _ (Accounts.onVolume _ { self with
    blockGroupDescriptorTable := self.blockGroupDescriptorTable.set group descriptor })
  refine yields_weaken (on_volume_yields (write_descriptors_unmoved _ _ _ _ _ _ self.volume)) ?_
    (fun _ _ => trivial)
  rintro _ after ⟨volume, rfl, unmoved⟩
  refine ⟨volume, rfl, unmoved_weaken unmoved fun lba spared backup member same => spared ?_⟩
  rw [same]
  exact List.mem_map_of_mem member

theorem less_unallocated_yields (writable : self.volume.readOnly = false) (diff : Int) :
    Yields (fun _ after => ∃ volume, after = { self with
          superblock := Accounts.lessSuperblock self.superblock space diff, volume := volume } ∧
          Unmoved (fun lba => lba ∉ self.superblockCopies) self.volume volume)
      (fun _ => True) (Accounts.lessUnallocated space diff self) :=
  set_superblock_yields writable _ rfl

theorem less_free_yields (writable : self.volume.readOnly = false) (diff : Int) :
    Yields (fun _ after => ∃ descriptor volume,
        self.blockGroupDescriptorTable[group]? = some descriptor ∧
        after = { self with
          blockGroupDescriptorTable := self.blockGroupDescriptorTable.set group
            (Accounts.lessDescriptor descriptor space diff)
          volume := volume } ∧
          Unmoved (fun lba => lba ∉ self.descriptorCopies group) self.volume volume)
      (fun _ => True) (Accounts.lessFree space group diff self) := by
  rw [Accounts.lessFree, state_bind_get]
  cases found : self.blockGroupDescriptorTable[group]? with
  | none => exact .error trivial
  | some descriptor =>
      have inside : group < self.groups := (List.getElem?_eq_some_iff.mp found).1
      refine yields_weaken (set_descriptor_yields writable _ inside) ?_ (fun _ _ => trivial)
      rintro _ after ⟨volume, rfl, unmoved⟩
      exact ⟨descriptor, volume, rfl, rfl, unmoved⟩

theorem free_count_set {table : List BlockGroupDescriptor} {descriptor : BlockGroupDescriptor}
    (found : table[group]? = some descriptor) (free : Space → Nat) (other : Space)
    (otherGroup : Nat) :
    ((table.set group { descriptor with freeCount := free })[otherGroup]?.map
        fun descriptor => descriptor.freeCount other).getD 0 =
      if otherGroup = group then free other
      else (table[otherGroup]?.map fun descriptor => descriptor.freeCount other).getD 0 := by
  have inside := (List.getElem?_eq_some_iff.mp found).1
  by_cases same : otherGroup = group
  · subst same
    rw [if_pos rfl, List.getElem?_set_self inside]
    rfl
  · rw [if_neg same, List.getElem?_set_ne (Ne.symm same)]

theorem frame_table_set {table : List BlockGroupDescriptor} {descriptor : BlockGroupDescriptor}
    (found : table[group]? = some descriptor) (free : Space → Nat) :
    (table.set group { descriptor with freeCount := free }).map
        (fun descriptor => { descriptor with freeCount := fun _ => 0 }) =
      table.map fun descriptor => { descriptor with freeCount := fun _ => 0 } := by
  obtain ⟨inside, rfl⟩ := List.getElem?_eq_some_iff.mp found
  apply List.ext_getElem?
  intro place
  rw [List.getElem?_map, List.getElem?_map, List.getElem?_set]
  by_cases same : group = place
  · subst same
    rw [if_pos rfl, if_pos inside, found]
    rfl
  · rw [if_neg same]

theorem frame_changed {volume : Ext2Volume} (same : volume.frame = self.volume.frame) (diff : Int) :
    Accounts.frame { self with
      superblock := Accounts.lessSuperblock self.superblock space diff, volume := volume } =
      self.frame := by
  unfold Accounts.frame
  simp only [same]
  rfl

/-- The disk and the counters after an allocator has been written out. -/
theorem released_sound {volume : Ext2Volume} {descriptor : BlockGroupDescriptor}
    {given : GroupAllocator} (mounted : start.Mounted) (sound : Sound start ledger held self)
    (inside : group < start.groups) (here : held space group = some allocator)
    (found : self.blockGroupDescriptorTable[group]? = some descriptor)
    (frame : volume.frame = self.volume.frame)
    (others : ∀ lba block, start.IsBitmap lba → (lba < start.first space group ∨
      start.first space group + start.bitmapBlockCount space group ≤ lba) →
      self.volume.HoldsAt lba block → volume.HoldsAt lba block)
    (holds : ∀ j < start.bitmapBlockCount space group, volume.HoldsAt (start.first space group + j)
      (part allocator.bitmap.data start.volume.blockSize j))
    (clean : given.dirtyBlocksBitmap.findFirstSet = none) :
    Sound start ledger (setHeld held space group none) { self with
      superblock := Accounts.lessSuperblock self.superblock space allocator.diffUsage
      blockGroupDescriptorTable := self.blockGroupDescriptorTable.set group
        (Accounts.lessDescriptor descriptor space allocator.diffUsage)
      volume := volume
      dropped := given :: self.dropped } := by
  have tended := sound.tended space group inside
  rw [here] at tended
  refine ⟨?_, ?_, ?_, ?_, ?_, ?_⟩
  · rw [← sound.frame]
    unfold Accounts.frame Accounts.lessDescriptor
    simp only [frame, frame_table_set found]
    rfl
  · intro other otherGroup bound
    by_cases same : other = space ∧ otherGroup = group
    · obtain ⟨rfl, rfl⟩ := same
      rw [set_held_self]
      exact ⟨_, tended.1, holds⟩
    · rw [set_held_other none same]
      have unmoved : Unmoved (fun lba => start.IsBitmap lba ∧ (lba < start.first space group ∨
          start.first space group + start.bitmapBlockCount space group ≤ lba)) self.volume volume :=
        ⟨frame, fun lba block kept => others lba block kept.1 kept.2⟩
      refine tended_unmoved (sound.tended other otherGroup bound) unmoved fun j small => ?_
      refine ⟨⟨other, otherGroup, j, bound, small, rfl⟩, ?_⟩
      by_contra between
      have apart := mounted.apart other otherGroup j space group
        (start.first other otherGroup + j - start.first space group) bound inside small (by omega)
        (by omega)
      exact same apart
  · intro other otherGroup beyond
    have elsewhere : otherGroup ≠ group := by omega
    rw [set_held_other none fun same => elsewhere same.2]
    exact sound.absent other otherGroup beyond
  · intro other
    by_cases same : other = space
    · subst same
      rw [sum_pending_set inside, here]
      simp only [Accounts.lessSuperblock, Function.update_self, less_diff_eq, sound.counter,
        pending]
      omega
    · have sums : ∀ each, setHeld held space group none other each = held other each := fun each =>
        set_held_other none fun both => same both.1
      simp only [sums, Accounts.lessSuperblock, Function.update_of_ne same]
      exact sound.counter other
  · intro other otherGroup bound
    have counted := sound.count other otherGroup bound
    unfold Accounts.freeCount Accounts.lessDescriptor at *
    rw [free_count_set found]
    by_cases place : otherGroup = group
    swap
    · rw [if_neg place, set_held_other none fun both => place both.2]
      exact counted
    subst place
    rw [if_pos rfl]
    rw [found] at counted
    by_cases same : other = space
    · subst same
      rw [here] at counted
      rw [set_held_self, Function.update_self, less_diff_eq]
      simp only [Option.map_some, Option.getD_some, pending] at counted ⊢
      rw [counted]
      omega
    · rw [Function.update_of_ne same, set_held_other none fun both => same both.1]
      exact counted
  · intro each member
    rcases List.mem_cons.mp member with rfl | old
    · exact clean
    · exact sound.dropped each old

/-- An allocator that is given up leaves its bitmap on the disk and its difference
in the counters. -/
theorem handle_evicted_sound (mounted : start.Mounted) (sound : Sound start ledger held self)
    (inside : group < start.groups) (here : held space group = some allocator) :
    Yields (fun _ after => Sound start ledger (setHeld held space group none) after ∧
        after.caches = self.caches)
      (fun _ => True) (Accounts.handleEvicted space group allocator self) := by
  have tended := sound.tended space group inside
  rw [here] at tended
  obtain ⟨agrees, shaped, kept⟩ := tended
  have blockSize := Accounts.block_size_frame sound.frame
  have writable : self.volume.readOnly = false :=
    (Accounts.read_only_frame sound.frame).trans mounted.writable
  have count : allocator.bitmapEndExclusive - allocator.bitmapBeginInclusive =
      start.bitmapBlockCount space group := by
    rw [shaped.begins, shaped.ends, Nat.add_sub_cancel_left]
  have fits : start.first space group + start.bitmapBlockCount space group ≤
      self.volume.blockCount := by
    rw [Accounts.block_count_frame sound.frame]
    exact mounted.inside space group inside
  -- first the changed parts of the bitmap
  have written := write_blocks_spec (agrees.length.trans (by rw [shaped.bs]))
    (start.bitmapBlockCount space group) 0 allocator.dirtyBlocksBitmap self.volume (Nat.zero_add _)
    (blockSize.trans shaped.bs.symm) fits shaped.dirtySize shaped.dirtyStored
    (fun j impossible => absurd impossible (Nat.not_lt_zero j)) (by rw [shaped.bs]; exact kept)
  have wrote : Yields (fun result after =>
      Unmoved (fun lba => lba < start.first space group ∨
        start.first space group + start.bitmapBlockCount space group ≤ lba) self.volume after ∧
      (∀ j < start.bitmapBlockCount space group, after.HoldsAt (start.first space group + j)
        (part allocator.bitmap.data start.volume.blockSize j)) ∧
      result.diffUsage = allocator.diffUsage ∧
      result.dirtyBlocksBitmap.findFirstSet = none)
      (fun _ => True) (allocator.writeDirty self.volume) := by
    unfold GroupAllocator.writeDirty GroupAllocator.bitmapBlocks
    rw [count, shaped.begins]
    refine yields_bind written fun dirty after ⟨unmoved, holds, size, clean⟩ => ?_
    rw [shaped.bs] at holds
    refine .ok ⟨unmoved, holds, rfl, Bitmap.find_first_set_none fun place bound => ?_⟩
    exact clean place (size ▸ bound)
  unfold Accounts.handleEvicted
  refine yields_bind (on_volume_yields wrote) ?_
  rintro result _ ⟨volume, rfl, moved, holds, diff, undirty⟩
  -- then the superblock and the descriptor with their copies
  have stillWritable : volume.readOnly = false :=
    (congrArg Ext2Volume.readOnly moved.frame : volume.frame.readOnly = _).trans writable
  refine yields_bind (@less_unallocated_yields _ { self with volume := volume } space stillWritable
    result.diffUsage) ?_
  rintro _ _ ⟨second, rfl, movedSuper⟩
  have yetWritable : second.readOnly = false :=
    (congrArg Ext2Volume.readOnly movedSuper.frame : second.frame.readOnly = _).trans stillWritable
  refine yields_bind (@less_free_yields _ _ space group yetWritable result.diffUsage) ?_
  rintro _ _ ⟨descriptor, third, found, rfl, movedFree⟩
  have superFrame : Accounts.frame { self with volume := volume } = start.frame := by
    rw [← sound.frame]
    unfold Accounts.frame
    simp only [moved.frame]
  have freeFrame : Accounts.frame { self with
      superblock := Accounts.lessSuperblock self.superblock space result.diffUsage
      volume := second } = start.frame :=
    (frame_changed (movedSuper.frame.trans moved.frame) _).trans sound.frame
  rw [Accounts.superblock_copies_of_frame superFrame] at movedSuper
  rw [Accounts.descriptor_copies_of_frame freeFrame] at movedFree
  have spared : ∀ lba block, start.IsBitmap lba → volume.HoldsAt lba block →
      third.HoldsAt lba block := by
    intro lba block bitmap before
    obtain ⟨fromSuper, fromFree⟩ := mounted.spared lba bitmap
    exact movedFree.holds lba block (fromFree group inside)
      (movedSuper.holds lba block fromSuper before)
  have released := released_sound mounted sound inside here found
    (movedFree.frame.trans (movedSuper.frame.trans moved.frame))
    (fun lba block bitmap outside before => spared lba block bitmap
      (moved.holds lba block outside before))
    (fun j small => spared _ _ ⟨space, group, j, inside, small, rfl⟩ (holds j small))
    (show { result with diffUsage := 0 }.dirtyBlocksBitmap.findFirstSet = none from undirty)
  rw [← diff] at released
  exact .ok ⟨released, rfl⟩

theorem div_ceil_ceil (value : Nat) {size : Nat} (positive : 0 < size) :
    divCeil value (8 * size) = divCeil (divCeil value 8) size := by
  unfold divCeil
  have joined : (value + 8 - 1) / 8 + size - 1 = (value + 8 * size - 1) / 8 := by omega
  rw [joined, Nat.div_div_eq_div_mul]

theorem le_div_ceil (value : Nat) {size : Nat} (positive : 0 < size) :
    value ≤ divCeil value size * size := by
  unfold divCeil
  have split := Nat.div_add_mod (value + size - 1) size
  have small := Nat.mod_lt (value + size - 1) positive
  rw [Nat.mul_comm] at split
  omega

theorem eight_blocks_word {size log : Nat} (power : size = 1024 <<< log)
    (nonzero : mul32 8 size ≠ 0) : mul32 8 size = 8 * size := by
  have total : 8 * size = 2 ^ (13 + log) := by
    rw [power, Nat.shiftLeft_eq, pow_add]
    omega
  unfold mul32 at nonzero ⊢
  apply Nat.mod_eq_of_lt
  rw [total] at nonzero ⊢
  by_contra large
  have wide : 32 ≤ 13 + log := by
    by_contra narrow
    exact large (Nat.pow_lt_pow_right (by decide) (by omega))
  exact nonzero (Nat.mod_eq_zero_of_dvd (pow_dvd_pow 2 wide))

theorem block_size_pos (mounted : start.Mounted) : 0 < start.volume.blockSize := by
  obtain ⟨log, power⟩ := mounted.blockSize
  rw [power, Nat.shiftLeft_eq]
  have positive := Nat.two_pow_pos log
  omega

theorem new_allocator_shaped (mounted : start.Mounted) (frame : self.frame = start.frame)
    {descriptor : BlockGroupDescriptor} (inside : group < start.groups)
    (found : self.blockGroupDescriptorTable[group]? = some descriptor)
    (made : self.newAllocator space group descriptor = some allocator) :
    Shaped start space group allocator ∧ allocator.diffUsage = 0 ∧
      allocator.bitmap.data.length =
        start.bitmapBlockCount space group * start.volume.blockSize := by
  have begins : descriptor.usageBitmap space = start.first space group := by
    rw [← Accounts.first_of_frame frame, Accounts.first, found]
    rfl
  have count := Accounts.bitmap_block_count_of_frame frame space group
  have blockSize := Accounts.block_size_frame frame
  have positive := block_size_pos mounted
  have fits := mounted.inside space group inside
  have word := mounted.word
  have ends : add32 (start.first space group) (start.bitmapBlockCount space group) =
      start.first space group + start.bitmapBlockCount space group :=
    Nat.mod_eq_of_lt (by omega)
  have width : sub32 (start.first space group + start.bitmapBlockCount space group)
      (start.first space group) = start.bitmapBlockCount space group := by
    rw [sub32, if_pos (Nat.le_add_right _ _), Nat.add_sub_cancel_left]
  have stored : start.bitmapBlockCount space group ≤
      8 * divCeil (start.bitmapBlockCount space group) 8 := by
    rw [Nat.mul_comm]
    exact le_div_ceil _ (by decide)
  unfold Accounts.newAllocator at made
  simp only [begins, count, blockSize, ends] at made
  cases space with
  | blocks =>
      obtain rfl := Option.some.inj made
      refine ⟨⟨rfl, rfl, rfl, ?_, width, ?_⟩, rfl, ?_⟩
      · change sub32 _ _ * _ * 8 ≤ _
        rw [width]
        omega
      · change _ ≤ 8 * (List.replicate (divCeil (sub32 _ _) 8) _).length
        rw [width, List.length_replicate]
        exact stored
      · change (List.replicate (divCeil (sub32 _ _ * _ * 8) 8) _).length = _
        rw [width, List.length_replicate]
        unfold divCeil
        omega
  | inodes =>
      have shape : start.bitmapBlockCount .inodes group =
          divCeil (divCeil (sub32 (self.rangeOf .inodes group).2 (self.rangeOf .inodes group).1) 8)
            start.volume.blockSize := by
        rw [← count, ← blockSize]
        rfl
      unfold GroupAllocator.newInodes at made
      simp only at made
      split_ifs at made with zero
      obtain rfl := Option.some.inj made
      obtain ⟨log, power⟩ := mounted.blockSize
      have dirty : divCeil (sub32 (self.rangeOf .inodes group).2 (self.rangeOf .inodes group).1)
          (mul32 8 start.volume.blockSize) = start.bitmapBlockCount .inodes group := by
        rw [eight_blocks_word power zero, div_ceil_ceil _ positive, shape]
      refine ⟨⟨rfl, rfl, rfl, ?_, dirty, ?_⟩, rfl, ?_⟩
      · change sub32 _ _ ≤ _
        rw [shape]
        have whole := le_div_ceil (divCeil (sub32 (self.rangeOf .inodes group).2
          (self.rangeOf .inodes group).1) 8) positive
        have bytes := le_div_ceil (sub32 (self.rangeOf .inodes group).2
          (self.rangeOf .inodes group).1) (by decide : 0 < 8)
        omega
      · change _ ≤ 8 * (List.replicate (divCeil (divCeil (sub32 _ _) _) 8) _).length
        rw [dirty, List.length_replicate]
        exact stored
      · change (List.replicate (divCeil (divCeil (sub32 _ _) 8) _ * _) _).length = _
        rw [List.length_replicate, shape]

theorem read_all_tended (sound : Sound start ledger held self)
    (inside : group < start.groups) (missing : held space group = none)
    (shaped : Shaped start space group allocator)
    (length : allocator.bitmap.data.length =
      start.bitmapBlockCount space group * start.volume.blockSize) :
    Yields (fun result after => Unmoved (fun _ => True) self.volume after ∧
        result.diffUsage = allocator.diffUsage ∧
        Tended start ledger after space group (some result))
      (fun _ => True) (allocator.readAll self.volume) := by
  have tended := sound.tended space group inside
  rw [missing] at tended
  obtain ⟨data, agrees, holds⟩ := tended
  have count : allocator.bitmapEndExclusive - allocator.bitmapBeginInclusive =
      start.bitmapBlockCount space group := by
    rw [shaped.begins, shaped.ends, Nat.add_sub_cancel_left]
  have read := read_blocks_spec agrees.length (start.bitmapBlockCount space group) 0
    allocator.bitmap.data self.volume (Nat.zero_add _) length
    (Accounts.block_size_frame sound.frame) (by rw [Nat.zero_mul, List.take_zero, List.take_zero])
    holds
  unfold GroupAllocator.readAll GroupAllocator.bitmapBlocks
  rw [count, shaped.begins, shaped.bs]
  refine yields_bind read fun result after ⟨same, unmoved⟩ => ?_
  subst same
  refine .ok ⟨unmoved, rfl, agrees, ⟨rfl, rfl, shaped.ends, shaped.size, shaped.dirtySize, ?_⟩,
    fun j small _ => unmoved.holds _ _ trivial (holds j small)⟩
  change _ ≤ 8 * (List.replicate allocator.dirtyBlocksBitmap.data.length _).length
  rw [List.length_replicate]
  exact shaped.dirtyStored

theorem sound_volume {volume : Ext2Volume} (sound : Sound start ledger held self)
    (unmoved : Unmoved (fun _ => True) self.volume volume) :
    Sound start ledger held { self with volume := volume } := by
  refine ⟨?_, fun other otherGroup bound => tended_unmoved (sound.tended other otherGroup bound)
    unmoved fun _ _ => trivial, sound.absent, sound.counter, sound.count, sound.dropped⟩
  rw [← sound.frame]
  unfold Accounts.frame
  simp only [unmoved.frame]

theorem sound_cache (sound : Sound start ledger held self) (cache : lru.Cache) :
    Sound start ledger held (self.setCache space cache) :=
  ⟨sound.frame, sound.tended, sound.absent, sound.counter, sound.count, sound.dropped⟩

theorem adopt_sound (sound : Sound start ledger held self) (inside : group < start.groups)
    (missing : held space group = none) (fresh : allocator.diffUsage = 0)
    (tended : Tended start ledger self.volume space group (some allocator)) :
    Sound start ledger (setHeld held space group (some allocator)) self := by
  have same : ∀ other otherGroup,
      pending (setHeld held space group (some allocator) other otherGroup) =
      pending (held other otherGroup) := by
    intro other otherGroup
    by_cases here : other = space ∧ otherGroup = group
    · obtain ⟨rfl, rfl⟩ := here
      rw [set_held_self, missing, pending, pending, fresh]
    · rw [set_held_other _ here]
  refine ⟨sound.frame, ?_, ?_, ?_, ?_, sound.dropped⟩
  · intro other otherGroup bound
    by_cases here : other = space ∧ otherGroup = group
    · obtain ⟨rfl, rfl⟩ := here
      rw [set_held_self]
      exact tended
    · rw [set_held_other _ here]
      exact sound.tended other otherGroup bound
  · intro other otherGroup beyond
    have elsewhere : otherGroup ≠ group := by omega
    rw [set_held_other _ fun here => elsewhere here.2]
    exact sound.absent other otherGroup beyond
  · intro other
    simp only [same]
    exact sound.counter other
  · intro other otherGroup bound
    rw [same]
    exact sound.count other otherGroup bound

theorem lookups_set_cache (self : Accounts lru) (space : Space) (cache : lru.Cache) :
    (self.setCache space cache).lookups =
      Function.update self.lookups space (lru.lookup cache) := by
  funext other
  unfold Accounts.lookups Accounts.setCache
  by_cases same : other = space
  · rw [same, Function.update_self]
    simp
  · rw [Function.update_of_ne same]
    simp [same]

/-- Noting the use of an entry changes no allocator. -/
theorem lookups_used (self : Accounts lru) (space : Space) (group : Nat) :
    (self.setCache space (lru.getMut (self.caches space) group).2).lookups = self.lookups := by
  rw [lookups_set_cache, lru.lookup_get_mut]
  exact Function.update_eq_self space self.lookups

def Balanced (start : Accounts lru) (ledger : List Entry) (self : Accounts lru) : Prop :=
  Sound start ledger self.lookups self

theorem held_inside (balanced : Balanced start ledger self)
    (here : self.lookups space group = some allocator) : group < start.groups := by
  by_contra beyond
  have none := balanced.absent space group (Nat.not_lt.mp beyond)
  exact absurd (none.symm.trans here) (by simp)

theorem handle_pushed_balanced (mounted : start.Mounted)
    {evicted : Option (Nat × GroupAllocator)} {cache : lru.Cache}
    (sound : Sound start ledger held self)
    (pushed : evicted = none ∧ Function.update self.lookups space (lru.lookup cache) = held ∨
      ∃ old allocator, evicted = some (old, allocator) ∧ old < start.groups ∧
        held space old = some allocator ∧
        Function.update self.lookups space (lru.lookup cache) = setHeld held space old none) :
    Yields (fun _ after => Balanced start ledger after ∧
        after.lookups = Function.update self.lookups space (lru.lookup cache))
      (fun _ => True) (Accounts.handlePushed space evicted (self.setCache space cache)) := by
  have lookups := lookups_set_cache self space cache
  rcases pushed with ⟨rfl, same⟩ | ⟨old, allocator, rfl, inside, here, after⟩
  · refine .ok ⟨?_, lookups⟩
    rw [Balanced, lookups, same]
    exact sound_cache sound cache
  · refine yields_weaken (handle_evicted_sound mounted (sound_cache sound cache) inside here) ?_
      (fun _ _ => trivial)
    rintro _ result ⟨released, caches⟩
    have same : result.lookups = (self.setCache space cache).lookups := by
      funext each
      unfold Accounts.lookups
      rw [caches]
    rw [Balanced, same, lookups]
    exact ⟨after ▸ released, rfl⟩

theorem load_allocator_balanced (mounted : start.Mounted) (balanced : Balanced start ledger self)
    {descriptor : BlockGroupDescriptor} (missing : self.lookups space group = none)
    (found : self.blockGroupDescriptorTable[group]? = some descriptor) :
    Yields (fun result after => Balanced start ledger after ∧
        ∀ allocator, result = some allocator → after.lookups space group = some allocator)
      (fun _ => True) (Accounts.loadAllocator space group descriptor self) := by
  have inside : group < start.groups := by
    rw [← Accounts.groups_of_frame balanced.frame]
    exact (List.getElem?_eq_some_iff.mp found).1
  rw [Accounts.loadAllocator, state_bind_get]
  cases made : self.newAllocator space group descriptor with
  | none => exact .error trivial
  | some allocator =>
  obtain ⟨shaped, fresh, length⟩ :=
    new_allocator_shaped mounted balanced.frame inside found made
  refine yields_bind (on_volume_yields (read_all_tended balanced inside missing shaped length)) ?_
  rintro result _ ⟨volume, rfl, unmoved, diff, tended⟩
  -- the new allocator is held, and so is the one that the cache gives up
  have adopted : Sound start ledger (setHeld self.lookups space group (some result))
      { self with volume := volume } :=
    adopt_sound (sound_volume balanced unmoved) inside missing (diff.trans fresh) tended
  have pushed : (lru.push (self.caches space) group result).1 = none ∧
      Function.update self.lookups space
        (lru.lookup (lru.push (self.caches space) group result).2) =
        setHeld self.lookups space group (some result) ∨
      ∃ old evicted, (lru.push (self.caches space) group result).1 = some (old, evicted) ∧
        old < start.groups ∧ setHeld self.lookups space group (some result)
          space old = some evicted ∧
        Function.update self.lookups space
          (lru.lookup (lru.push (self.caches space) group result).2) =
          setHeld (setHeld self.lookups space group (some result)) space old none := by
    cases evicted : (lru.push (self.caches space) group result).1 with
    | none =>
        refine Or.inl ⟨rfl, ?_⟩
        rw [lru.lookup_push _ _ _ missing evicted]
        rfl
    | some pair =>
        obtain ⟨old, given⟩ := pair
        obtain ⟨here, lookup⟩ := lru.lookup_push_evicted _ _ _ _ _ missing evicted
        have apart : old ≠ group := by
          rintro rfl
          exact absurd (missing.symm.trans here) (by simp)
        refine Or.inr ⟨old, given, rfl, held_inside balanced here, ?_, ?_⟩
        · rw [set_held_other _ fun both => apart both.2]
          exact here
        · rw [lookup]
          unfold setHeld
          rw [Function.update_idem, Function.update_self, Function.update_comm apart]
          rfl
  change Yields _ _ ((Accounts.handlePushed space (lru.push (self.caches space) group result).1 >>=
    fun _ => _ : OnAccounts lru (Option GroupAllocator)) (Accounts.setCache
      { self with volume := volume } space (lru.push (self.caches space) group result).2))
  refine yields_bind (handle_pushed_balanced mounted adopted pushed) ?_
  rintro _ after ⟨balancedAfter, lookups⟩
  have used := lookups_used after space group
  refine .ok ⟨?_, fun allocator same => ?_⟩
  · rw [Balanced, used]
    exact sound_cache balancedAfter _
  · rw [used]
    exact (lru.get_mut_value _ _).symm.trans same

theorem get_allocator_balanced (mounted : start.Mounted) (balanced : Balanced start ledger self) :
    Yields (fun result after => Balanced start ledger after ∧
        ∀ allocator, result = some allocator → after.lookups space group = some allocator)
      (fun _ => True) (Accounts.getAllocatorForGroup space group self) := by
  have writable : self.volume.readOnly = false :=
    (Accounts.read_only_frame balanced.frame).trans mounted.writable
  have used := lookups_used self space group
  have value : (lru.getMut (self.caches space) group).1 = self.lookups space group :=
    lru.get_mut_value _ _
  have noted : Balanced start ledger
      (self.setCache space (lru.getMut (self.caches space) group).2) := by
    rw [Balanced, used]
    exact sound_cache balanced _
  rw [Accounts.getAllocatorForGroup, state_bind_get, if_neg (by rw [writable]; decide)]
  refine yields_bind (.ok rfl : Yields (fun _ after =>
    after = self.setCache space (lru.getMut (self.caches space) group).2) (fun _ => True)
    ((set (self.setCache space (lru.getMut (self.caches space) group).2) : OnAccounts lru PUnit)
      self)) ?_
  rintro _ _ rfl
  rw [value]
  cases cached : self.lookups space group with
  | some allocator =>
      refine .ok ⟨noted, fun result same => ?_⟩
      rw [used, cached]
      exact same
  | none =>
  dsimp only
  cases found : self.blockGroupDescriptorTable[group]? with
  | none => exact .ok ⟨noted, fun result same => absurd same (by simp)⟩
  | some descriptor =>
      refine load_allocator_balanced mounted noted ?_ found
      rw [used]
      exact cached

theorem tended_cons {volume : Ext2Volume} {bit : Nat} {delta : Int} {held : Option GroupAllocator}
    (apart : ¬(other = space ∧ otherGroup = group))
    (tended : Tended start ledger volume other otherGroup held) :
    Tended start (⟨space, group, bit, delta⟩ :: ledger) volume other otherGroup held := by
  have net : ∀ place, netBit (⟨space, group, bit, delta⟩ :: ledger) other otherGroup place =
      netBit ledger other otherGroup place := by
    intro place
    rw [netBit, net_cons, if_neg, Int.zero_add]
    · rfl
    · simp only [decide_eq_true_eq]
      exact fun both => apart ⟨both.1.symm, both.2.1.symm⟩
  have agree : ∀ {data}, Agrees start ledger other otherGroup data →
      Agrees start (⟨space, group, bit, delta⟩ :: ledger) other otherGroup data := by
    intro data agrees
    refine ⟨agrees.length, fun place small => ?_⟩
    rw [net]
    exact agrees.bits place small
  cases held with
  | none =>
      obtain ⟨data, agrees, holds⟩ := tended
      exact ⟨data, agree agrees, holds⟩
  | some allocator => exact ⟨agree tended.1, tended.2⟩

def changed (allocator : GroupAllocator) (bit : Nat) (enabled : Bool) (delta : Int) :
    GroupAllocator :=
  { allocator with
    bitmap := allocator.bitmap.setBit bit enabled
    diffUsage := allocator.diffUsage + delta }.markDirty bit

theorem net_bit_cons (ledger : List Entry) (bit : Nat) (delta : Int) (other : Nat) :
    netBit (⟨space, group, bit, delta⟩ :: ledger) space group other =
      (if other = bit then delta else 0) + netBit ledger space group other := by
  rw [netBit, net_cons]
  simp [netBit, eq_comm]

theorem changed_agrees {bit : Nat} {enabled : Bool} {delta : Int}
    (agrees : Agrees start ledger space group allocator.bitmap.data)
    (inside : bit < allocator.bitmap.size) (stored : bit / 8 < allocator.bitmap.data.length)
    (moves : ((Bitmap.bitAt allocator.bitmap.data bit).toNat : Int) + delta = enabled.toNat) :
    Agrees start (⟨space, group, bit, delta⟩ :: ledger) space group
      (allocator.bitmap.setBit bit enabled).data := by
  have length : (allocator.bitmap.setBit bit enabled).data.length = allocator.bitmap.data.length :=
    Bitmap.set_bit_length enabled
  refine ⟨length.trans agrees.length, fun other bound => ?_⟩
  rw [length] at bound
  have before := agrees.bits other bound
  rw [net_bit_cons, Bitmap.bit_at_set_bit inside stored]
  by_cases same : other = bit
  · subst same
    rw [if_pos rfl, if_pos rfl]
    omega
  · rw [if_neg same, if_neg same]
    omega

theorem changed_shaped {bit : Nat} {enabled : Bool} {delta : Int}
    (shaped : Shaped start space group allocator) :
    Shaped start space group (changed allocator bit enabled delta) := by
  refine ⟨shaped.bs, shaped.begins, shaped.ends, ?_, ?_, ?_⟩
  · change (allocator.bitmap.setBit bit enabled).size ≤ _
    rw [Bitmap.set_bit_size]
    exact shaped.size
  · change (allocator.dirtyBlocksBitmap.setBit _ true).size = _
    rw [Bitmap.set_bit_size]
    exact shaped.dirtySize
  · change _ ≤ 8 * (allocator.dirtyBlocksBitmap.setBit _ true).data.length
    rw [Bitmap.set_bit_length]
    exact shaped.dirtyStored

/-- The part of the bitmap that has the bit is dirty, the others are as they were. -/
theorem changed_kept {volume : Ext2Volume} {bit : Nat} {enabled : Bool} {delta : Int}
    (positive : 0 < start.volume.blockSize) (shaped : Shaped start space group allocator)
    (inside : bit < allocator.bitmap.size)
    (kept : Kept volume (start.first space group) start.volume.blockSize
      (start.bitmapBlockCount space group) allocator.bitmap.data allocator.dirtyBlocksBitmap) :
    Kept volume (start.first space group) start.volume.blockSize
      (start.bitmapBlockCount space group) (changed allocator bit enabled delta).bitmap.data
      (changed allocator bit enabled delta).dirtyBlocksBitmap := by
  have block : bit / (8 * allocator.bs) < start.bitmapBlockCount space group := by
    rw [shaped.bs, Nat.div_lt_iff_lt_mul (by omega)]
    have size := shaped.size
    calc bit < allocator.bitmap.size := inside
      _ ≤ 8 * (start.bitmapBlockCount space group * start.volume.blockSize) := size
      _ = start.bitmapBlockCount space group * (8 * start.volume.blockSize) :=
        Nat.mul_left_comm _ _ _
  have dirtyInside : bit / (8 * allocator.bs) < allocator.dirtyBlocksBitmap.size := by
    rw [shaped.dirtySize]
    exact block
  have dirtyStored : bit / (8 * allocator.bs) / 8 < allocator.dirtyBlocksBitmap.data.length := by
    have stored := shaped.dirtyStored
    omega
  intro j small clean
  change Bitmap.bitAt (allocator.dirtyBlocksBitmap.setBit (bit / (8 * allocator.bs)) true).data j =
    false at clean
  rw [Bitmap.bit_at_set_bit dirtyInside dirtyStored] at clean
  by_cases marked : j = bit / (8 * allocator.bs)
  · rw [if_pos marked] at clean
    exact absurd clean (by decide)
  rw [if_neg marked] at clean
  rw [shaped.bs] at marked
  change volume.HoldsAt _ (part (allocator.bitmap.setBit bit enabled).data _ j)
  rw [part_set_bit positive enabled marked]
  exact kept j small clean

theorem changed_sound (mounted : start.Mounted) {bit : Nat} {enabled : Bool} {delta : Int}
    (sound : Sound start ledger held self) (inside : group < start.groups)
    (here : held space group = some allocator) (bound : bit < allocator.bitmap.size)
    (stored : bit / 8 < allocator.bitmap.data.length)
    (moves : ((Bitmap.bitAt allocator.bitmap.data bit).toNat : Int) + delta = enabled.toNat) :
    Sound start (⟨space, group, bit, delta⟩ :: ledger)
      (setHeld held space group (some (changed allocator bit enabled delta))) self := by
  have tended := sound.tended space group inside
  rw [here] at tended
  obtain ⟨agrees, shaped, kept⟩ := tended
  have usage : pending (some (changed allocator bit enabled delta)) = allocator.diffUsage + delta :=
    rfl
  refine ⟨sound.frame, ?_, ?_, ?_, ?_, sound.dropped⟩
  · intro other otherGroup small
    by_cases same : other = space ∧ otherGroup = group
    · obtain ⟨rfl, rfl⟩ := same
      rw [set_held_self]
      exact ⟨changed_agrees agrees bound stored moves, changed_shaped shaped,
        changed_kept (block_size_pos mounted) shaped bound kept⟩
    · rw [set_held_other _ same]
      exact tended_cons same (sound.tended other otherGroup small)
  · intro other otherGroup beyond
    have elsewhere : otherGroup ≠ group := by omega
    rw [set_held_other _ fun same => elsewhere same.2]
    exact sound.absent other otherGroup beyond
  · intro other
    have counted := sound.counter other
    unfold netSpace at counted ⊢
    rw [net_cons]
    by_cases same : other = space
    · subst same
      rw [sum_pending_set inside, here, usage, if_pos (by simp), counted]
      unfold pending
      congr 1
      ring
    · have sums : ∀ each, setHeld held space group (some (changed allocator bit enabled delta))
          other each = held other each := fun each => set_held_other _ fun both => same both.1
      simp only [sums]
      rw [if_neg (by simpa using Ne.symm same), Int.zero_add]
      exact counted
  · intro other otherGroup small
    have counted := sound.count other otherGroup small
    unfold netGroup at counted ⊢
    rw [net_cons]
    by_cases same : other = space ∧ otherGroup = group
    · obtain ⟨rfl, rfl⟩ := same
      rw [here] at counted
      rw [set_held_self, usage, if_pos (by simp), counted]
      unfold pending
      congr 1
      ring
    · rw [set_held_other _ same, if_neg, Int.zero_add]
      · exact counted
      · simp only [decide_eq_true_eq]
        exact fun both => same ⟨both.1.symm, both.2.symm⟩

end Steps

end Campix.Ext2
