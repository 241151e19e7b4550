import Campix.Ext2.FreeSpace
import Campix.Lib.Blocks

/-!
# Free space over whole runs

Every call keeps the balance between bitmaps, pending differences, counters and ledger.
A final flush empties the caches, so that the balance is one of the disk and the counters
with the ledger.
-/

namespace Campix.Ext2

open Lib Lib.Fallible Lib.Outcome Lib.Caching Ext2Volume Entry

set_option autoImplicit false

variable {lru : BoundedMap Nat GroupAllocator} {start self : Accounts lru} {ledger : List Entry}
  {held : Held} {space other : Space} {group otherGroup : Nat} {allocator : GroupAllocator}

theorem keep_allocator_balanced (mounted : start.Mounted) (balanced : Balanced start ledger self)
    (here : self.lookups space group = some allocator) {bit : Nat} {enabled : Bool} {delta : Int}
    (bound : bit < allocator.bitmap.size) (stored : bit / 8 < allocator.bitmap.data.length)
    (moves : ((Bitmap.bitAt allocator.bitmap.data bit).toNat : Int) + delta = enabled.toNat) :
    Yields (fun _ after => Balanced start (⟨space, group, bit, delta⟩ :: ledger) after)
      (fun _ => True)
      (Accounts.keepAllocator space group (changed allocator bit enabled delta) self) := by
  have inside := held_inside balanced here
  have sound := changed_sound mounted balanced inside here bound stored moves
  have cached : lru.lookup (self.caches space) group ≠ none := by
    change self.lookups space group ≠ none
    rw [here]
    simp
  refine .ok ?_
  rw [Balanced, lookups_set_cache, lru.lookup_assign _ _ _ cached]
  exact sound_cache sound _

theorem alloc_changed {taken : Taken} {after : GroupAllocator}
    (allocated : allocator.alloc = .ok (taken, after)) :
    after = changed allocator taken.bit true 1 ∧ taken.bit < allocator.bitmap.size ∧
      taken.bit / 8 < allocator.bitmap.data.length ∧
      Bitmap.bitAt allocator.bitmap.data taken.bit = false := by
  unfold GroupAllocator.alloc at allocated
  split at allocated
  · rename_i bit found
    cases allocated
    exact ⟨rfl, Bitmap.find_first_unset_spec found⟩
  · cases allocated

theorem dealloc_changed {number bit : Nat} {after : GroupAllocator}
    (freed : allocator.dealloc number = .ok (bit, after)) :
    after = changed allocator bit false (-1) ∧ bit < allocator.bitmap.size ∧
      Bitmap.bitAt allocator.bitmap.data bit = true := by
  unfold GroupAllocator.dealloc at freed
  by_cases outside : number < allocator.minInclusive ∨ number ≥ allocator.maxExclusive
  · rw [if_pos outside] at freed
    cases freed
  rw [if_neg outside] at freed
  dsimp only at freed
  by_cases set : allocator.bitmap.getBit (number - allocator.minInclusive) = some true
  · rw [if_neg (not_not.mpr set)] at freed
    cases freed
    exact ⟨rfl, Bitmap.get_bit_true set⟩
  · rw [if_pos set] at freed
    cases freed

theorem keep_allocated_balanced (mounted : start.Mounted) (balanced : Balanced start ledger self)
    (here : self.lookups space group = some allocator) {taken : Taken} {after : GroupAllocator}
    (allocated : allocator.alloc = .ok (taken, after)) :
    Yields (fun _ after => Balanced start (⟨space, group, taken.bit, 1⟩ :: ledger) after)
      (fun _ => True) (Accounts.keepAllocator space group after self) := by
  obtain ⟨rfl, bound, stored, unset⟩ := alloc_changed allocated
  refine keep_allocator_balanced mounted balanced here bound stored ?_
  rw [unset]
  rfl

theorem alloc_in_balanced (mounted : start.Mounted) (balanced : Balanced start ledger self) :
    Yields (fun taken after => Balanced start (⟨space, group, taken.bit, 1⟩ :: ledger) after)
      (fun _ => True) (Accounts.allocIn space group self) := by
  unfold Accounts.allocIn
  refine yields_bind (get_allocator_balanced mounted balanced) fun found middle ⟨still, here⟩ => ?_
  cases found with
  | none => exact .error trivial
  | some allocator =>
      dsimp only
      cases allocated : allocator.alloc with
      | error error => exact .error trivial
      | ok result =>
          obtain ⟨taken, after⟩ := result
          exact yields_bind (keep_allocated_balanced mounted still (here allocator rfl) allocated)
            fun _ last kept => .ok kept

theorem alloc_from_balanced (mounted : start.Mounted) (groups : Nat) :
    ∀ (group : Nat) (self : Accounts lru), Balanced start ledger self →
      Yields (fun (result : Nat × Taken) after =>
          Balanced start (⟨space, result.1, result.2.bit, 1⟩ :: ledger) after)
        (fun _ => True) (Accounts.allocFrom space groups group self) := by
  induction groups with
  | zero =>
      intro group self _
      exact .error trivial
  | succ groups ih =>
      intro group self balanced
      unfold Accounts.allocFrom
      refine yields_bind (get_allocator_balanced mounted balanced)
        fun found middle ⟨still, here⟩ => ?_
      cases found with
      | none => exact ih (group + 1) middle still
      | some allocator =>
          dsimp only
          cases allocated : allocator.alloc with
          | error error => exact ih (group + 1) middle still
          | ok result =>
              obtain ⟨taken, after⟩ := result
              exact yields_bind
                (keep_allocated_balanced mounted still (here allocator rfl) allocated)
                fun _ last kept => .ok kept

theorem dealloc_in_balanced (mounted : start.Mounted) (balanced : Balanced start ledger self)
    (number : Nat) :
    Yields (fun bit after => Balanced start (⟨space, group, bit, -1⟩ :: ledger) after)
      (fun _ => True) (Accounts.deallocIn space group number self) := by
  unfold Accounts.deallocIn
  refine yields_bind (get_allocator_balanced mounted balanced) fun found middle ⟨still, here⟩ => ?_
  cases found with
  | none => exact .error trivial
  | some allocator =>
      dsimp only
      cases freed : allocator.dealloc number with
      | error error => exact .error trivial
      | ok result =>
          obtain ⟨bit, after⟩ := result
          obtain ⟨rfl, bound, set⟩ := dealloc_changed freed
          have lookup := here allocator rfl
          have tended := still.tended space group (held_inside still lookup)
          rw [lookup] at tended
          have stored : bit / 8 < allocator.bitmap.data.length := by
            have length := tended.1.length
            have size := tended.2.1.size
            omega
          refine yields_bind (keep_allocator_balanced mounted still lookup bound stored ?_)
            fun _ last kept => .ok kept
          rw [set]
          rfl

theorem flush_bitmap_cache_balanced (mounted : start.Mounted)
    (balanced : Balanced start ledger self) :
    Yields (fun _ after => Balanced start ledger after ∧
        after.lookups = setHeld self.lookups space group none)
      (fun _ => True) (Accounts.flushBitmapCache space group self) := by
  have popped : (lru.pop (self.caches space) group).1 = self.lookups space group :=
    lru.pop_value _ _
  have lookups : (self.setCache space (lru.pop (self.caches space) group).2).lookups =
      setHeld self.lookups space group none := by
    rw [lookups_set_cache, lru.lookup_pop]
    rfl
  rw [Accounts.flushBitmapCache, state_bind_get]
  refine yields_bind (.ok rfl : Yields (fun _ after =>
    after = self.setCache space (lru.pop (self.caches space) group).2) (fun _ => True)
    ((set (self.setCache space (lru.pop (self.caches space) group).2) : OnAccounts lru PUnit)
      self)) ?_
  rintro _ _ rfl
  rw [popped]
  cases cached : self.lookups space group with
  | none =>
      have same : setHeld self.lookups space group none = self.lookups := by
        unfold setHeld
        rw [← cached, Function.update_eq_self, Function.update_eq_self]
      refine .ok ⟨?_, lookups⟩
      rw [Balanced, lookups, same]
      exact sound_cache balanced _
  | some allocator =>
      refine yields_weaken (handle_evicted_sound mounted (sound_cache balanced _)
        (held_inside balanced cached) cached) ?_ (fun _ _ => trivial)
      rintro _ after ⟨sound, caches⟩
      have same : after.lookups = setHeld self.lookups space group none := by
        rw [← lookups]
        unfold Accounts.lookups
        rw [caches]
      exact ⟨by rw [Balanced, same]; exact sound, same⟩

theorem flush_groups_balanced (mounted : start.Mounted) (groups : List Nat) :
    ∀ (self : Accounts lru), Balanced start ledger self →
      Yields (fun _ after => Balanced start ledger after ∧
          ∀ other group, after.lookups other group =
            if other = space ∧ group ∈ groups then none else self.lookups other group)
        (fun _ => True) (Accounts.flushGroups space groups self) := by
  induction groups with
  | nil =>
      intro self balanced
      exact .ok ⟨balanced, fun other group => by simp⟩
  | cons group groups ih =>
      intro self balanced
      refine yields_bind (flush_bitmap_cache_balanced mounted balanced)
        fun _ middle ⟨still, one⟩ => ?_
      refine yields_weaken (ih middle still) (fun _ after ⟨last, rest⟩ => ⟨last, ?_⟩)
        (fun _ _ => trivial)
      intro other otherGroup
      rw [rest, one]
      by_cases here : other = space ∧ otherGroup = group
      · obtain ⟨rfl, rfl⟩ := here
        rw [set_held_self, ite_self, if_pos ⟨rfl, List.mem_cons_self⟩]
      · rw [set_held_other _ here]
        have same : (other = space ∧ otherGroup ∈ groups) ↔
            (other = space ∧ otherGroup ∈ group :: groups) := by
          rw [List.mem_cons]
          tauto
        simp only [same]

theorem flush_balanced (mounted : start.Mounted) (balanced : Balanced start ledger self) :
    Yields (fun _ after => Balanced start ledger after ∧
        ∀ space group, after.lookups space group = none)
      (fun _ => True) (Accounts.flush self) := by
  have uncached : ∀ (any : Accounts lru) space group,
      group ∉ lru.keys (any.caches space) → any.lookups space group = none := by
    intro any space group missing
    rw [lru.mem_keys, not_not] at missing
    exact missing
  change Yields _ _ ((Accounts.flushGroups .blocks (lru.keys (self.caches .blocks)) >>=
    fun _ => get >>= fun middle => Accounts.flushGroups .inodes (lru.keys (middle.caches .inodes)) :
    OnAccounts lru Unit) self)
  refine yields_bind (flush_groups_balanced mounted _ self balanced)
    fun _ middle ⟨still, blocks⟩ => ?_
  change Yields _ _ (Accounts.flushGroups .inodes (lru.keys (middle.caches .inodes)) middle)
  refine yields_weaken (flush_groups_balanced mounted _ middle still)
    (fun _ after ⟨last, inodes⟩ => ⟨last, fun space group => ?_⟩) (fun _ _ => trivial)
  rw [inodes]
  cases space with
  | blocks =>
      rw [if_neg (by simp), blocks]
      by_cases key : group ∈ lru.keys (self.caches .blocks)
      · rw [if_pos ⟨rfl, key⟩]
      · rw [if_neg fun both => key both.2]
        exact uncached self .blocks group key
  | inodes =>
      by_cases key : group ∈ lru.keys (middle.caches .inodes)
      · rw [if_pos ⟨rfl, key⟩]
      · rw [if_neg fun both => key both.2]
        exact uncached middle .inodes group key

theorem operation_balanced (mounted : start.Mounted) (operation : Operation)
    (balanced : Balanced start ledger self) :
    Yields (fun entries after => Balanced start (entries ++ ledger) after)
      (fun _ => True) (operation.run self) := by
  cases operation with
  | alloc space group =>
      exact yields_bind (alloc_in_balanced mounted balanced) fun _ _ after => .ok after
  | allocAny space =>
      exact yields_bind (alloc_from_balanced mounted _ 0 self balanced) fun _ _ after => .ok after
  | dealloc space group number =>
      exact yields_bind (dealloc_in_balanced mounted balanced number) fun _ _ after => .ok after
  | flushGroup space group =>
      exact yields_bind (flush_bitmap_cache_balanced mounted balanced)
        fun _ _ after => .ok after.1
  | flush => exact yields_bind (flush_balanced mounted balanced) fun _ _ after => .ok after.1

theorem run_all_balanced (mounted : start.Mounted) (operations : List Operation) :
    ∀ (ledger : List Entry) (self : Accounts lru), Balanced start ledger self →
      Yields (fun final after => Balanced start final after)
        (fun _ => True) (runAll operations ledger self) := by
  induction operations with
  | nil =>
      intro ledger self balanced
      exact .ok balanced
  | cons operation operations ih =>
      intro ledger self balanced
      exact yields_bind (operation_balanced mounted operation balanced)
        fun entries middle still => ih (entries ++ ledger) middle still

theorem mounted_disk (mounted : start.Mounted) (inside : group < start.groups) :
    Tended start [] start.volume space group none := by
  have sized : ∀ k, (start.volume.device (start.first space group + k)).length =
      start.volume.blockSize := fun k => mounted.sized _
  refine ⟨start.diskBitmap space group, ⟨Blocks.length_concat sized, fun bit _ => ?_⟩,
    fun j small => ?_⟩
  · exact (Int.add_zero _).symm
  · have slice := Blocks.concat_slice sized small (Nat.le_of_eq (Nat.zero_add _))
    rw [Nat.add_zero, List.drop_zero, List.take_of_length_le (sized j).le] at slice
    have block : part (start.diskBitmap space group) start.volume.blockSize j =
        start.volume.device (start.first space group + j) := slice
    rw [block]
    refine ⟨rfl, fun item member key => ?_⟩
    rw [mounted.coherent item member ⟨space, group, j, inside, small, key⟩, key]

theorem mounted_balanced (mounted : start.Mounted) : Balanced start [] start := by
  have none : ∀ space group, pending (start.lookups space group) = 0 := by
    intro space group
    rw [mounted.quiet]
    rfl
  refine ⟨rfl, ?_, fun space group _ => mounted.quiet space group, ?_, ?_, ?_⟩
  · intro space group inside
    rw [mounted.quiet]
    exact mounted_disk mounted inside
  · intro space
    have word := mounted.counters space
    have net : netSpace [] space = 0 := rfl
    simp only [none, Finset.sum_const_zero, net]
    omega
  · intro space group _
    have word := mounted.counts space group
    have net : netGroup [] space group = 0 := rfl
    rw [none, net]
    omega
  · rw [mounted.undropped]
    intro allocator impossible
    exact absurd impossible List.not_mem_nil

theorem disk_agrees (frame : self.frame = start.frame)
    (tended : Tended start ledger self.volume space group none) :
    Agrees start ledger space group (self.diskBitmap space group) := by
  obtain ⟨data, agrees, holds⟩ := tended
  have same : self.diskBitmap space group = data := by
    unfold Accounts.diskBitmap
    rw [Accounts.bitmap_block_count_of_frame frame, Accounts.first_of_frame frame]
    calc (List.range (start.bitmapBlockCount space group)).flatMap
          (fun i => self.volume.device (start.first space group + i))
        = Blocks.concat (fun k => part data start.volume.blockSize k)
            (start.bitmapBlockCount space group) := by
          apply List.flatMap_congr
          intro i member
          exact (holds i (List.mem_range.mp member)).device
      _ = data.take (start.bitmapBlockCount space group * start.volume.blockSize) :=
          Blocks.concat_parts _ _ _
      _ = data := List.take_of_length_le agrees.length.le
  rw [same]
  exact agrees

theorem run_all_append (operations later : List Operation) :
    ∀ ledger : List Entry, (runAll (operations ++ later) ledger : OnAccounts lru (List Entry)) =
      runAll operations ledger >>= runAll later := by
  induction operations with
  | nil =>
      intro ledger
      rfl
  | cons operation operations ih =>
      intro ledger
      change (operation.run >>= fun entries => runAll (operations ++ later) (entries ++ ledger)) = _
      simp only [ih]
      exact (bind_assoc _ _ _).symm

theorem flush_last_balanced (mounted : start.Mounted) (balanced : Balanced start ledger self) :
    Yields (fun final after => Balanced start final after ∧
        ∀ space group, after.lookups space group = none)
      (fun _ => True) (runAll [.flush] ledger self) := by
  refine yields_bind ?_ fun entries middle holds => .ok holds
  exact yields_bind (flush_balanced mounted balanced) fun _ after holds => .ok holds

/-- Free space is exact: after any calls and a last flush, each bitmap on the disk is the
one at the start with the net changes, the counters have lost the net number of
allocations, and no allocator was dropped dirty. -/
theorem free_space_exact (mounted : start.Mounted) (operations : List Operation)
    (final : Accounts lru) (ran : runAll (operations ++ [.flush]) [] start = .ok ledger final) :
    (∀ space, ∀ group < start.groups,
      (final.diskBitmap space group).length = (start.diskBitmap space group).length ∧
      ∀ bit < 8 * (start.diskBitmap space group).length,
        ((Bitmap.bitAt (final.diskBitmap space group) bit).toNat : Int) =
          (Bitmap.bitAt (start.diskBitmap space group) bit).toNat + netBit ledger space group bit) ∧
    (∀ space, (final.superblock.unallocated space : Int) =
      (start.superblock.unallocated space - netSpace ledger space) % 2 ^ 32) ∧
    (∀ space, ∀ group < start.groups, (final.freeCount space group : Int) =
      (start.freeCount space group - netGroup ledger space group) % 2 ^ 16) ∧
    ∀ allocator ∈ final.dropped, allocator.dirtyBlocksBitmap.findFirstSet = none := by
  have run : Yields (fun final after => Balanced start final after ∧
      ∀ space group, after.lookups space group = none)
      (fun _ => True) (runAll (operations ++ [.flush]) [] start) := by
    rw [run_all_append]
    exact yields_bind (run_all_balanced mounted operations [] start (mounted_balanced mounted))
      fun middleLedger middle balanced => flush_last_balanced mounted balanced
  rw [ran] at run
  cases run with
  | ok holds =>
  obtain ⟨balanced, empty⟩ := holds
  have nothing : ∀ space group, pending (final.lookups space group) = 0 := by
    intro space group
    rw [empty]
    rfl
  refine ⟨fun space group inside => ?_, fun space => ?_, fun space group inside => ?_,
    balanced.dropped⟩
  · have tended := balanced.tended space group inside
    rw [empty] at tended
    have agrees := disk_agrees balanced.frame tended
    have length : (start.diskBitmap space group).length =
        start.bitmapBlockCount space group * start.volume.blockSize :=
      Blocks.length_concat fun k => mounted.sized _
    have same := agrees.length.trans length.symm
    exact ⟨same, fun bit bound => agrees.bits bit (by rw [same]; exact bound)⟩
  · have counted := balanced.counter space
    simp only [nothing, Finset.sum_const_zero, sub_zero] at counted
    exact counted
  · have counted := balanced.count space group inside
    rw [nothing, sub_zero] at counted
    exact counted

def twoGroups : Accounts (leastRecent Nat GroupAllocator 1 Nat.one_pos) where
  volume := {
    device := fun _ => List.replicate 1024 0
    blockCache := []
    blockCacheSize := 1
    bitmaps := fun _ => []
    readOnly := false
    fileSize64 := true
    blockSize := 1024
    blockCount := 16
    sectorsPerBlock := 2
    blockGroupCount := 2
    blocksPerGroup := 8
    superblockBlock := 1
    inodesPerGroup := 8
    inodesPerBlock := 8
    inodeSize := 128
    inodeTables := [5, 13] }
  superblock := ⟨List.replicate 12 0, fun _ => 16, List.replicate 1004 0, 16, false⟩
  blockGroupDescriptorTable := [⟨fun space => if space = .blocks then 3 else 4, 5, fun _ => 8, 0⟩,
    ⟨fun space => if space = .blocks then 11 else 12, 13, fun _ => 8, 0⟩]
  caches := fun _ => (leastRecent Nat GroupAllocator 1 Nat.one_pos).empty
  dropped := []

theorem two_groups_bitmaps (space : Space) {group : Nat} (inside : group < twoGroups.groups) :
    group < 2 ∧ twoGroups.bitmapBlockCount space group = 1 ∧
      twoGroups.first space group = (if space = .blocks then 3 else 4) + 8 * group := by
  have small : group < 2 := inside
  refine ⟨small, ?_⟩
  obtain rfl | rfl : group = 0 ∨ group = 1 := by omega
  · cases space with
    | blocks => exact ⟨rfl, rfl⟩
    | inodes => exact ⟨rfl, rfl⟩
  · cases space with
    | blocks => exact ⟨rfl, rfl⟩
    | inodes => exact ⟨rfl, rfl⟩

theorem two_groups_mounted : twoGroups.Mounted := by
  refine ⟨rfl, fun _ _ => rfl, fun item impossible => absurd impossible List.not_mem_nil, rfl,
    fun _ => List.length_replicate, ⟨0, rfl⟩, by decide,
    fun _ => (by decide : 16 < 2 ^ 32), ?_, ?_, ?_, ?_⟩
  · intro space group
    match group with
    | 0 => exact (by decide : 8 < 2 ^ 16)
    | 1 => exact (by decide : 8 < 2 ^ 16)
    | _ + 2 => exact (by decide : 0 < 2 ^ 16)
  · intro space group inside
    obtain ⟨small, count, first⟩ := two_groups_bitmaps space inside
    rw [count, first]
    change _ ≤ 16
    split_ifs
    · omega
    · omega
  · intro space group i other otherGroup j inside otherInside small otherSmall same
    obtain ⟨groupSmall, count, first⟩ := two_groups_bitmaps space inside
    obtain ⟨otherGroupSmall, otherCount, otherFirst⟩ := two_groups_bitmaps other otherInside
    rw [count] at small
    rw [otherCount] at otherSmall
    rw [first, otherFirst] at same
    cases space with
    | blocks =>
        cases other with
        | blocks => exact ⟨rfl, by simp at same; omega⟩
        | inodes => exact absurd same (by simp; omega)
    | inodes =>
        cases other with
        | blocks => exact absurd same (by simp; omega)
        | inodes => exact ⟨rfl, by simp at same; omega⟩
  · rintro lba ⟨space, group, i, inside, small, rfl⟩
    obtain ⟨groupSmall, count, first⟩ := two_groups_bitmaps space inside
    rw [count] at small
    rw [first, Nat.lt_one_iff.mp small]
    have copies : twoGroups.superblockCopies = [1, 9] := rfl
    have descriptors : ∀ other < twoGroups.groups, twoGroups.descriptorCopies other = [2, 10] := by
      intro other otherInside
      have otherSmall : other < 2 := otherInside
      obtain rfl | rfl : other = 0 ∨ other = 1 := by omega
      · rfl
      · rfl
    rw [copies]
    refine ⟨?_, fun other otherInside => ?_⟩
    · cases space with
      | blocks => simp; omega
      | inodes => simp; omega
    · rw [descriptors other otherInside]
      cases space with
      | blocks => simp; omega
      | inodes => simp; omega

/-- One block of each group; the second allocation puts the allocator of the first group
out of the cache. -/
theorem two_groups_accounted :
    ∃ ledger final, runAll ([.alloc .blocks 0, .alloc .blocks 1] ++ [.flush]) [] twoGroups =
        .ok ledger final ∧
      netSpace ledger .blocks = 2 ∧ (final.superblock.unallocated .blocks : Int) = 14 ∧
      ∀ allocator ∈ final.dropped, allocator.dirtyBlocksBitmap.findFirstSet = none := by
  have two : (match runAll ([.alloc .blocks 0, .alloc .blocks 1] ++ [.flush]) [] twoGroups with
      | .ok ledger _ => netSpace ledger .blocks
      | .error _ _ => 0) = 2 := by
    decide +kernel
  cases ran : runAll ([.alloc .blocks 0, .alloc .blocks 1] ++ [.flush]) [] twoGroups with
  | error failure final =>
      rw [ran] at two
      exact absurd (show (0 : Int) = 2 from two) (by decide)
  | ok ledger final =>
      rw [ran] at two
      obtain ⟨-, counter, -, clean⟩ := free_space_exact two_groups_mounted _ final ran
      refine ⟨ledger, final, rfl, two, ?_, clean⟩
      rw [counter, show netSpace ledger .blocks = 2 from two]
      rfl

end Campix.Ext2
