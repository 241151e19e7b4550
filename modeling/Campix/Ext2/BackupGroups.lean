import Campix.Ext2.Allocators
import Mathlib.Data.Nat.Prime.Basic
import Mathlib.Tactic.NormNum.Prime

/-!
# The groups with a backup

`block_group_contains_metadata_backup` decides whether a group holds a copy of the
superblock and of the descriptors, `get_backup_groups` lists the groups to which the copies
are written. On a volume with sparse descriptor tables both go by the powers of three, five
and seven. The list stops behind the number of groups and not at it, so it names a group
that the volume does not have when that number is such a power itself.
-/

namespace Campix.Ext2

open Lib.Caching

set_option autoImplicit false

/-- The loop of `is_pow`. The number grows with each round, so that it leaves a word of 32
bits after 32 of them. -/
def isPowFrom (a b : Nat) : Nat → Nat → Bool
  | 0, _ => false
  | rounds + 1, num =>
      if a > num then
        if num * b ≥ 2 ^ 32 then false else isPowFrom a b rounds (num * b)
      else
        num == a

def isPow (a b : Nat) : Bool := isPowFrom a b 32 b

theorem is_pow_from_iff {a b : Nat} (word : a < 2 ^ 32) (base : 1 < b) (rounds : Nat) :
    ∀ {num : Nat}, 2 ^ 32 ≤ num * b ^ rounds →
      (isPowFrom a b rounds num = true ↔ ∃ exponent, a = num * b ^ exponent) := by
  induction rounds with
  | zero =>
      intro num enough
      rw [Nat.pow_zero, Nat.mul_one] at enough
      refine ⟨fun impossible => absurd impossible Bool.false_ne_true, ?_⟩
      rintro ⟨exponent, rfl⟩
      have larger := Nat.le_mul_of_pos_right num (Nat.pow_pos (by omega : 0 < b) : 0 < b ^ exponent)
      omega
  | succ rounds ih =>
      intro num enough
      rw [pow_succ' b rounds, ← mul_assoc] at enough
      have positive : ∀ exponent, 0 < b ^ exponent := fun exponent => Nat.pow_pos (by omega)
      rw [isPowFrom]
      by_cases larger : a > num
      · rw [if_pos larger]
        -- the exponent is not zero, so a factor can be moved into the number
        have moved : (∃ exponent, a = num * b ^ exponent) ↔
            ∃ exponent, a = num * b * b ^ exponent := by
          constructor
          · rintro ⟨exponent, shape⟩
            cases exponent with
            | zero =>
                rw [Nat.pow_zero, Nat.mul_one] at shape
                omega
            | succ exponent => exact ⟨exponent, by rw [shape, pow_succ', ← mul_assoc]⟩
          · rintro ⟨exponent, shape⟩
            exact ⟨exponent + 1, by rw [shape, pow_succ' b, ← mul_assoc]⟩
        rw [moved]
        by_cases overflow : num * b ≥ 2 ^ 32
        · rw [if_pos overflow]
          refine ⟨fun impossible => absurd impossible Bool.false_ne_true, ?_⟩
          rintro ⟨exponent, rfl⟩
          have more := Nat.le_mul_of_pos_right (num * b) (positive exponent)
          omega
        · rw [if_neg overflow]
          exact ih enough
      · rw [if_neg larger, beq_iff_eq]
        constructor
        · rintro rfl
          exact ⟨0, by rw [Nat.pow_zero, Nat.mul_one]⟩
        · rintro ⟨exponent, shape⟩
          have more := Nat.le_mul_of_pos_right num (positive exponent)
          omega

theorem is_pow_iff {a b : Nat} (word : a < 2 ^ 32) (base : 1 < b) :
    isPow a b = true ↔ ∃ exponent, a = b ^ (exponent + 1) := by
  have enough : 2 ^ 32 ≤ b * b ^ 32 :=
    (Nat.pow_le_pow_left base 32).trans (Nat.le_mul_of_pos_left _ (by omega))
  rw [isPow, is_pow_from_iff word base 32 enough]
  simp only [Nat.pow_succ, Nat.mul_comm b]

namespace Accounts

variable {lru : BoundedMap Nat GroupAllocator}

def blockGroupContainsMetadataBackup (self : Accounts lru) (group : Nat) : Bool :=
  !self.superblock.sparseDescriptorTables ||
    (decide (group ≤ 1) || isPow group 3 || isPow group 5 || isPow group 7)

theorem mem_powers_iff {groupCount base : Nat} (word : groupCount < 2 ^ 32) (large : 1 < base)
    (rounds : Nat) :
    ∀ {power : Nat}, 0 < power → 2 ^ 32 ≤ power * base ^ rounds → ∀ group : Nat,
      (group ∈ powers groupCount base rounds power ↔
        group ≤ groupCount ∧ ∃ exponent, group = power * base ^ (exponent + 1)) := by
  induction rounds with
  | zero =>
      intro power positive enough group
      rw [Nat.pow_zero, Nat.mul_one] at enough
      refine ⟨fun impossible => absurd impossible List.not_mem_nil, ?_⟩
      rintro ⟨small, exponent, rfl⟩
      have more := Nat.le_mul_of_pos_right power
        (Nat.pow_pos (by omega : 0 < base) : 0 < base ^ (exponent + 1))
      omega
  | succ rounds ih =>
      intro power positive enough group
      rw [pow_succ' base rounds, ← mul_assoc] at enough
      have first : ∀ exponent, power * base ≤ power * base ^ (exponent + 1) := by
        intro exponent
        rw [pow_succ', ← mul_assoc]
        exact Nat.le_mul_of_pos_right _ (Nat.pow_pos (by omega))
      have split : (∃ exponent, group = power * base ^ (exponent + 1)) ↔
          group = power * base ∨ ∃ exponent, group = power * base * base ^ (exponent + 1) := by
        constructor
        · rintro ⟨exponent, shape⟩
          cases exponent with
          | zero => exact .inl (by rw [shape, Nat.zero_add, Nat.pow_one])
          | succ exponent => exact .inr ⟨exponent, by rw [shape, pow_succ' base, ← mul_assoc]⟩
        · rintro (shape | ⟨exponent, shape⟩)
          · exact ⟨0, by rw [shape, Nat.zero_add, Nat.pow_one]⟩
          · exact ⟨exponent + 1, by rw [shape, pow_succ' base (exponent + 1), ← mul_assoc]⟩
      rw [powers]
      by_cases past : power * base ≥ 2 ^ 32 ∨ power * base > groupCount
      · have stops : (if power * base ≥ 2 ^ 32 then []
            else if power * base > groupCount then []
            else power * base :: powers groupCount base rounds (power * base)) = [] := by
          rcases past with overflow | behind
          · rw [if_pos overflow]
          · rw [if_pos behind, ite_self]
        rw [stops]
        refine ⟨fun impossible => absurd impossible List.not_mem_nil, ?_⟩
        rintro ⟨small, exponent, rfl⟩
        have more := first exponent
        omega
      · rw [not_or] at past
        rw [if_neg past.1, if_neg past.2, List.mem_cons, ih (Nat.mul_pos positive (by omega))
          enough,
          split]
        constructor
        · rintro (same | ⟨small, found⟩)
          · exact ⟨by omega, .inl same⟩
          · exact ⟨small, .inr found⟩
        · rintro ⟨small, same | found⟩
          · exact .inl same
          · exact .inr ⟨small, found⟩

theorem powers_sorted {groupCount base : Nat} (large : 1 < base) (rounds : Nat) :
    ∀ {power : Nat}, 0 < power → (power :: powers groupCount base rounds power).Pairwise
      (· < ·) := by
  induction rounds with
  | zero =>
      intro power _
      exact List.pairwise_singleton _ _
  | succ rounds ih =>
      intro power positive
      have grows : power < power * base := by
        calc power = power * 1 := (Nat.mul_one _).symm
          _ < power * base := Nat.mul_lt_mul_of_pos_left large positive
      have rest := ih (Nat.mul_pos positive (by omega : 0 < base))
      rw [powers]
      split
      · exact List.pairwise_singleton _ _
      split
      · exact List.pairwise_singleton _ _
      refine List.pairwise_cons.mpr ⟨fun later member => ?_, rest⟩
      rcases List.mem_cons.mp member with rfl | behind
      · exact grows
      · exact grows.trans ((List.pairwise_cons.mp rest).1 later behind)

/-- The groups behind the first two that keep a backup on a volume with sparse tables. -/
def SparsePower (group : Nat) : Prop :=
    ∃ base ∈ [3, 5, 7], ∃ exponent, group = base ^ (exponent + 1)

theorem sparse_power_large {group : Nat} (power : SparsePower group) : 1 < group := by
  obtain ⟨base, member, exponent, rfl⟩ := power
  have large : 1 < base := by
    simp only [List.mem_cons, List.not_mem_nil, or_false] at member
    omega
  exact Nat.one_lt_pow (Nat.succ_ne_zero exponent) large

theorem contains_backup_iff {self : Accounts lru} {group : Nat} (word : group < 2 ^ 32)
    (sparse : self.superblock.sparseDescriptorTables = true) :
    self.blockGroupContainsMetadataBackup group = true ↔ group ≤ 1 ∨ SparsePower group := by
  simp only [blockGroupContainsMetadataBackup,
    sparse, Bool.not_true, Bool.false_or, Bool.or_eq_true,
    decide_eq_true_eq, is_pow_iff word (by decide : 1 < 3), is_pow_iff word (by decide : 1 < 5),
    is_pow_iff word (by decide : 1 < 7), SparsePower, List.mem_cons, List.not_mem_nil, or_false,
    exists_eq_or_imp, exists_eq_left, or_assoc]

theorem mem_powers_of {groupCount base : Nat} (word : groupCount < 2 ^ 32) (large : 1 < base)
    (group : Nat) :
    group ∈ powers groupCount base 32 1 ↔
      group ≤ groupCount ∧ ∃ exponent, group = base ^ (exponent + 1) := by
  have enough : 2 ^ 32 ≤ 1 * base ^ 32 := by
    rw [Nat.one_mul]
    exact Nat.pow_le_pow_left large 32
  rw [mem_powers_iff word large 32 Nat.one_pos enough]
  simp only [Nat.one_mul]

theorem mem_backup_groups {self : Accounts lru} {group : Nat}
    (word : self.volume.blockGroupCount < 2 ^ 32) (several : 1 < self.volume.blockGroupCount)
    (sparse : self.superblock.sparseDescriptorTables = true) :
    group ∈ self.getBackupGroups ↔
      group ≤ 1 ∨ group ≤ self.volume.blockGroupCount ∧ SparsePower group := by
  simp only [getBackupGroups, sparse, if_true, if_neg (not_le.mpr several), List.mem_append,
    List.mem_cons, List.not_mem_nil, or_false, mem_powers_of word (by decide : 1 < 3),
    mem_powers_of word (by decide : 1 < 5), mem_powers_of word (by decide : 1 < 7), SparsePower,
    exists_eq_or_imp, exists_eq_left, ← and_or_left, or_assoc]
  constructor
  · rintro (first | second | power)
    · exact .inl (by omega)
    · exact .inl second.le
    · exact .inr power
  · rintro (small | power)
    · omega
    · exact .inr (.inr power)

theorem powers_apart {first second groupCount : Nat} (word : groupCount < 2 ^ 32)
    (firstPrime : first.Prime) (secondPrime : second.Prime) (differ : first ≠ second) :
    (powers groupCount first 32 1).Disjoint (powers groupCount second 32 1) := by
  intro group inFirst inSecond
  obtain ⟨-, exponent, shape⟩ := (mem_powers_of word firstPrime.one_lt group).mp inFirst
  obtain ⟨-, other, otherShape⟩ := (mem_powers_of word secondPrime.one_lt group).mp inSecond
  have divides : first ∣ second ^ (other + 1) := by
    rw [← otherShape, shape]
    exact dvd_pow_self first (Nat.succ_ne_zero exponent)
  exact differ ((Nat.prime_dvd_prime_iff_eq firstPrime secondPrime).mp
    (firstPrime.dvd_of_dvd_pow divides))

theorem backup_groups_nodup {self : Accounts lru} (word : self.volume.blockGroupCount < 2 ^ 32) :
    self.getBackupGroups.Nodup := by
  have sorted : ∀ {base : Nat}, 1 < base →
      (1 :: powers self.volume.blockGroupCount base 32 1).Nodup :=
    fun large => (powers_sorted large 32 Nat.one_pos).imp fun less => less.ne
  have outside : ∀ {base : Nat}, 1 < base →
      [0, 1].Disjoint (powers self.volume.blockGroupCount base 32 1) := by
    intro base large group first later
    obtain ⟨-, exponent, rfl⟩ := (mem_powers_of word large group).mp later
    have more : 1 < base ^ (exponent + 1) := Nat.one_lt_pow (Nat.succ_ne_zero exponent) large
    simp only [List.mem_cons, List.not_mem_nil, or_false] at first
    omega
  have three : Nat.Prime 3 := by norm_num
  have five : Nat.Prime 5 := by norm_num
  have seven : Nat.Prime 7 := by norm_num
  rw [getBackupGroups]
  split
  · split
    · exact List.nodup_range
    · refine List.Nodup.append (List.Nodup.append (List.Nodup.append (by decide)
        (List.nodup_cons.mp (sorted three.one_lt)).2 (outside three.one_lt))
        (List.nodup_cons.mp (sorted five.one_lt)).2 ?_)
        (List.nodup_cons.mp (sorted seven.one_lt)).2 ?_
      · exact List.disjoint_append_left.mpr
          ⟨outside five.one_lt, powers_apart word three five (by decide)⟩
      · exact List.disjoint_append_left.mpr ⟨List.disjoint_append_left.mpr
          ⟨outside seven.one_lt, powers_apart word three seven (by decide)⟩,
          powers_apart word five seven (by decide)⟩
  · exact List.nodup_range

/-- The list and the test agree, and no group is addressed that the volume does not have. -/
structure BackupsAgree (accounts : Accounts lru) : Prop where
  nodup : accounts.getBackupGroups.Nodup
  members : ∀ group, group ∈ accounts.getBackupGroups ↔
    group < accounts.volume.blockGroupCount ∧ accounts.blockGroupContainsMetadataBackup group = true
  inside : ∀ group ∈ accounts.getBackupGroups, group < accounts.volume.blockGroupCount

/-- The table has a descriptor for each group, as mounting leaves it. -/
theorem backups_agree_iff (self : Accounts lru)
    (table : self.blockGroupDescriptorTable.length = self.volume.blockGroupCount)
    (word : self.volume.blockGroupCount < 2 ^ 32) :
    self.BackupsAgree ↔
      (self.superblock.sparseDescriptorTables = true →
        ¬SparsePower self.volume.blockGroupCount) := by
  constructor
  · intro agree sparse power
    have listed := (mem_backup_groups word (sparse_power_large power) sparse).mpr
      (.inr ⟨le_rfl, power⟩)
    exact lt_irrefl _ (agree.inside _ listed)
  · intro unpowered
    have members : ∀ group, group ∈ self.getBackupGroups ↔
        group < self.volume.blockGroupCount ∧
          self.blockGroupContainsMetadataBackup group = true := by
      intro group
      cases sparse : self.superblock.sparseDescriptorTables with
      | false =>
          rw [getBackupGroups, if_neg (by rw [sparse]; decide), List.mem_range, table,
            blockGroupContainsMetadataBackup, sparse]
          exact ⟨fun inside => ⟨inside, rfl⟩, And.left⟩
      | true =>
          by_cases single : self.volume.blockGroupCount ≤ 1
          · rw [getBackupGroups, if_pos sparse, if_pos single, List.mem_range]
            refine ⟨fun inside => ⟨inside, ?_⟩, And.left⟩
            exact (contains_backup_iff (inside.trans word) sparse).mpr (.inl (by omega))
          · rw [mem_backup_groups word (not_le.mp single) sparse]
            constructor
            · rintro (small | ⟨bounded, power⟩)
              · exact ⟨by omega, (contains_backup_iff (by omega) sparse).mpr (.inl small)⟩
              · have differ : group ≠ self.volume.blockGroupCount := by
                  rintro rfl
                  exact unpowered sparse power
                have inside := lt_of_le_of_ne bounded differ
                exact ⟨inside, (contains_backup_iff (inside.trans word) sparse).mpr (.inr power)⟩
            · rintro ⟨inside, contains⟩
              rcases (contains_backup_iff (inside.trans word) sparse).mp contains with small | power
              · exact .inl small
              · exact .inr ⟨inside.le, power⟩
    exact ⟨backup_groups_nodup word, members, fun group member => ((members group).mp member).1⟩

def sparseGroups (groupCount : Nat) : Accounts (leastRecent Nat GroupAllocator 1 Nat.one_pos) where
  volume := {
    device := fun _ => List.replicate 1024 0
    blockCache := []
    blockCacheSize := 1
    bitmaps := fun _ => []
    readOnly := false
    fileSize64 := true
    blockSize := 1024
    blockCount := 8 * groupCount
    sectorsPerBlock := 2
    blockGroupCount := groupCount
    blocksPerGroup := 8
    superblockBlock := 1
    inodesPerGroup := 8
    inodesPerBlock := 8
    inodeSize := 128
    inodeTables := List.replicate groupCount 5 }
  superblock := ⟨List.replicate 12 0, fun _ => 0, List.replicate 1004 0, 8 * groupCount, true⟩
  blockGroupDescriptorTable :=
    List.replicate groupCount ⟨fun space => if space = .blocks then 3 else 4, 5, fun _ => 0, 0⟩
  caches := fun _ => (leastRecent Nat GroupAllocator 1 Nat.one_pos).empty
  dropped := []

/-- Four groups: the first, the second and the fourth, which is number three. -/
theorem four_groups_agree :
    (sparseGroups 4).getBackupGroups = [0, 1, 3] ∧ (sparseGroups 4).BackupsAgree := by
  refine ⟨by decide +kernel, (backups_agree_iff (sparseGroups 4) rfl (by decide)).mpr ?_⟩
  rintro - ⟨base, member, exponent, shape⟩
  have odd : Odd (base ^ (exponent + 1)) := by
    refine Odd.pow ?_
    simp only [List.mem_cons, List.not_mem_nil, or_false] at member
    rcases member with rfl | rfl | rfl <;> decide
  have four : (sparseGroups 4).volume.blockGroupCount = 4 := rfl
  rw [← shape, four] at odd
  exact absurd odd (by decide)

/-- Three groups: the list ends with a fourth one. -/
theorem three_groups_disagree :
    (sparseGroups 3).getBackupGroups = [0, 1, 3] ∧ ¬(sparseGroups 3).BackupsAgree := by
  have listed : (sparseGroups 3).getBackupGroups = [0, 1, 3] := by decide +kernel
  refine ⟨listed, fun agree => ?_⟩
  have inside : 3 < 3 := agree.inside 3 (by rw [listed]; decide)
  exact absurd inside (by decide)

end Accounts

end Campix.Ext2
