import Campix.Paging.PageTable

/-!
# Page table entries

What an entry means at each level: a table one level down (`descend`) or the
physical base of a page (`leaf`), and that the words which `get_table`, `map_4kb`
and `map_2mb` write mean what they should.
-/

namespace Campix.Paging

open Lib.Word

set_option autoImplicit false

def descend (level word : Nat) : Option Nat :=
  if word &&& pagePresent = 0 ∨ 2 < level ∨ level = 2 ∧ word &&& pageHuge ≠ 0 then
    none
  else
    some (add64 (word &&& addressMask) directMappingOffset)

def leaf (level word : Nat) : Option Nat :=
  if word &&& pagePresent ≠ 0 ∧ (level = 3 ∨ level = 2 ∧ word &&& pageHuge ≠ 0) then
    some (word &&& addressMask)
  else
    none

theorem descend_leaf_exclusive (level word : Nat) (points : descend level word ≠ none) :
    leaf level word = none := by
  unfold descend at points
  unfold leaf
  grind

theorem zero_is_blank (level : Nat) : descend level 0 = none ∧ leaf level 0 = none := by
  simp [descend, leaf]

theorem absent_descend {level word : Nat} (absent : word &&& pagePresent = 0) :
    descend level word = none := by
  simp [descend, absent]

theorem absent_leaf {level word : Nat} (absent : word &&& pagePresent = 0) :
    leaf level word = none := by
  simp [leaf, absent]

theorem and_flag_cases (word bit : Nat) :
    word &&& 1 <<< bit = 0 ∨ word &&& 1 <<< bit = 1 <<< bit := by
  rw [Nat.shiftLeft_eq, Nat.one_mul, Nat.and_two_pow]
  cases word.testBit bit <;> simp

theorem has_present_iff (word : Nat) : word &&& pagePresent = pagePresent ↔
    word &&& pagePresent ≠ 0 := by
  have values := and_flag_cases word 0
  have nonzero : pagePresent ≠ 0 := by decide
  change word &&& pagePresent = 0 ∨ word &&& pagePresent = pagePresent at values
  omega

theorem has_huge_iff (word : Nat) : word &&& pageHuge = pageHuge ↔ word &&& pageHuge ≠ 0 := by
  have values := and_flag_cases word 7
  have nonzero : pageHuge ≠ 0 := by decide
  change word &&& pageHuge = 0 ∨ word &&& pageHuge = pageHuge at values
  omega

/-- `PAGE_PRESENT` and otherwise only the flags of the low 12 bits, without
`PAGE_HUGE`, and `PAGE_NO_EXECUTE`. -/
structure ValidFlags (flags : Nat) : Prop where
  present : flags &&& pagePresent = pagePresent
  allowed : flags &&& (pageNoExecute ||| 0xF7F) = flags

structure ValidBase (base : Nat) : Prop where
  aligned : pageSize ∣ base
  bound : base < 2 ^ 52

theorem base_and_mask {base : Nat} (valid : ValidBase base) : base &&& addressMask = base := by
  have mask : addressMask = (2 ^ 40 - 1) <<< 12 := by decide
  rw [mask]
  exact and_mask_of_dvd valid.aligned valid.bound

theorem base_and_flag {base flag : Nat} (valid : ValidBase base) (low : addressMask &&& flag = 0) :
    base &&& flag = 0 := by
  rw [← base_and_mask valid, Nat.and_assoc, low, Nat.and_zero]

theorem flags_and_disallowed {flags word : Nat} (valid : ValidFlags flags)
    (disjoint : (pageNoExecute ||| 0xF7F) &&& word = 0) : flags &&& word = 0 := by
  rw [← valid.allowed, Nat.and_assoc, disjoint, Nat.and_zero]

section Written

variable {base flags : Nat} (validBase : ValidBase base) (valid : ValidFlags flags)

include validBase valid

theorem written_mask : (base ||| flags) &&& addressMask = base := by
  rw [Nat.and_or_distrib_right, base_and_mask validBase,
    flags_and_disallowed valid (by decide +kernel), Nat.or_zero]

theorem written_present : (base ||| flags) &&& pagePresent ≠ 0 := by
  rw [Nat.and_or_distrib_right, base_and_flag validBase (by decide +kernel), Nat.zero_or,
    valid.present]
  decide

theorem written_not_huge : (base ||| flags) &&& pageHuge = 0 := by
  rw [Nat.and_or_distrib_right, base_and_flag validBase (by decide +kernel), Nat.zero_or,
    flags_and_disallowed valid (by decide +kernel)]

theorem written_leaf : leaf 3 (base ||| flags) = some base := by
  rw [leaf, if_pos ⟨written_present validBase valid, Or.inl rfl⟩, written_mask validBase valid]

theorem written_huge_leaf : leaf 2 (base ||| pageHuge ||| flags) = some base := by
  have mask : (base ||| pageHuge ||| flags) &&& addressMask = base := by
    rw [Nat.and_or_distrib_right, Nat.and_or_distrib_right, base_and_mask validBase,
      flags_and_disallowed valid (by decide +kernel)]
    have huge : pageHuge &&& addressMask = 0 := by decide
    rw [huge, Nat.or_zero, Nat.or_zero]
  have present : (base ||| pageHuge ||| flags) &&& pagePresent ≠ 0 := by
    rw [Nat.or_assoc, Nat.or_comm pageHuge, ← Nat.or_assoc, Nat.and_or_distrib_right]
    have huge : pageHuge &&& pagePresent = 0 := by decide
    rw [huge, Nat.or_zero]
    exact written_present validBase valid
  have huge : (base ||| pageHuge ||| flags) &&& pageHuge ≠ 0 := by
    rw [Nat.or_assoc, Nat.or_comm pageHuge, ← Nat.or_assoc, Nat.and_or_distrib_right,
      written_not_huge validBase valid, Nat.zero_or]
    decide
  rw [leaf, if_pos ⟨present, Or.inr ⟨rfl, huge⟩⟩, mask]

theorem written_table {level : Nat} (upper : level ≤ 2) :
    descend level (base ||| flags) = some (add64 base directMappingOffset) := by
  have points : ¬((base ||| flags) &&& pagePresent = 0 ∨ 2 < level ∨
      level = 2 ∧ (base ||| flags) &&& pageHuge ≠ 0) := by
    have present := written_present validBase valid
    have small := written_not_huge validBase valid
    omega
  rw [descend, if_neg points, written_mask validBase valid]

end Written

theorem sub_flags_valid (virt : Nat) : ValidFlags (subFlagsFor virt) := by
  unfold subFlagsFor
  split_ifs
  · exact ⟨by decide, by decide⟩
  · exact ⟨by decide, by decide⟩

theorem align_down_page {addr : Nat} (bound : addr < 2 ^ 64) :
    alignDown addr pageSize = addr / pageSize * pageSize :=
  and_not64_low bound (by decide : 12 ≤ 64)

theorem align_down_page2mb {addr : Nat} (bound : addr < 2 ^ 64) :
    alignDown addr pageSize2mb = addr / pageSize2mb * pageSize2mb :=
  and_not64_low bound (by decide : 21 ≤ 64)

theorem page_size_pow : pageSize = 2 ^ 12 := by decide

theorem page_size2mb_pow : pageSize2mb = 2 ^ 21 := by decide

section AlignUp

variable {addr align shift : Nat} (size : align = 2 ^ shift) (range : shift ≤ 64)

include size range

theorem align_up_of_le (fits : addr + align ≤ 2 ^ 64) :
    alignUp addr align = (addr + align - 1) / align * align := by
  have positive : 0 < align := by
    rw [size]
    exact Nat.two_pow_pos shift
  have rounded : sub64 (add64 addr align) 1 = addr + align - 1 := by
    unfold sub64 add64
    split_ifs <;> omega
  rw [alignUp, rounded, size]
  exact and_not64_low (by omega) range

/-- Above the last multiple `align_up` wraps. -/
theorem align_up_of_gt (bound : addr < 2 ^ 64) (past : 2 ^ 64 < addr + align) :
    alignUp addr align = 0 := by
  have most : align ≤ 2 ^ 64 := by
    rw [size]
    exact Nat.pow_le_pow_right (by norm_num) range
  have wrapped : sub64 (add64 addr align) 1 = addr + align - 1 - 2 ^ 64 := by
    unfold sub64 add64
    split_ifs <;> omega
  have below : (addr + align - 1 - 2 ^ 64) / align = 0 := Nat.div_eq_of_lt (by omega)
  rw [size] at wrapped below
  have small : sub64 (add64 addr (2 ^ shift)) 1 &&& not64 (2 ^ shift - 1) = _ :=
    and_not64_low (by omega) range
  rw [size, alignUp, small, wrapped, below, Nat.zero_mul]

end AlignUp

end Campix.Paging
