import Mathlib.Algebra.Order.Group.Nat
import Mathlib.Tactic.Ring

/-!
# Families of dyadic blocks

The block of order `k` and index `i` is the set of points `p` with
`p / 2^k = i`, so two blocks are nested or apart. A family without a pair of
buddies is coarse: whatever aligned run it covers lies in one of its blocks,
and a family of blocks that are apart is the only such family with its points.
-/

namespace Campix.Lib.Dyadic

set_option autoImplicit false

/-- `family order index` says that the family has that block. -/
def Coarse (family : Nat → Nat → Prop) : Prop :=
  ∀ order half, family order (2 * half) → ¬family order (2 * half + 1)

def Covered (family : Nat → Nat → Prop) (point : Nat) : Prop :=
  ∃ order, family order (point / 2 ^ order)

def Apart (family : Nat → Nat → Prop) : Prop :=
  ∀ point left right, family left (point / 2 ^ left) → family right (point / 2 ^ right) →
    left = right

theorem div_pow_le_div {order larger : Nat} (ordered : order ≤ larger) (point : Nat) :
    point / 2 ^ larger = point / 2 ^ order / 2 ^ (larger - order) := by
  rw [Nat.div_div_eq_div_mul, ← pow_add, Nat.add_sub_cancel' ordered]

/-- An aligned run covered by a coarse family lies in one block of it: the
halves lie in one block each, and two blocks no larger than the halves would
be buddies. -/
theorem run_within_block {family : Nat → Nat → Prop} (coarse : Coarse family) (order : Nat) :
    ∀ index, (∀ point, point / 2 ^ order = index → Covered family point) →
      ∃ larger, order ≤ larger ∧ family larger (index / 2 ^ (larger - order)) := by
  induction order with
  | zero =>
      intro index covered
      obtain ⟨larger, member⟩ := covered index (by simp)
      exact ⟨larger, Nat.zero_le larger, by simpa using member⟩
  | succ order ih =>
      intro index covered
      have whole : ∀ side, side / 2 = index →
          ∃ larger, order ≤ larger ∧ family larger (side / 2 ^ (larger - order)) := by
        intro side parent
        apply ih side
        intro point inside
        apply covered point
        rw [pow_succ, ← Nat.div_div_eq_div_mul, inside, parent]
      have grown : ∀ side larger, side / 2 = index → order < larger →
          family larger (side / 2 ^ (larger - order)) →
          ∃ result, order + 1 ≤ result ∧ family result (index / 2 ^ (result - (order + 1))) := by
        intro side larger parent above member
        refine ⟨larger, above, ?_⟩
        have shape : larger - order = (larger - (order + 1)) + 1 := by omega
        rw [shape, pow_succ, Nat.mul_comm, ← Nat.div_div_eq_div_mul, parent] at member
        exact member
      obtain ⟨left, leftLarge, leftMember⟩ := whole (2 * index) (by omega)
      obtain ⟨right, rightLarge, rightMember⟩ := whole (2 * index + 1) (by omega)
      by_cases leftSame : left = order
      · by_cases rightSame : right = order
        · subst leftSame
          subst rightSame
          simp only [Nat.sub_self, pow_zero, Nat.div_one] at leftMember rightMember
          exact absurd rightMember (coarse right index leftMember)
        · exact grown (2 * index + 1) right (by omega) (by omega) rightMember
      · exact grown (2 * index) left (by omega) (by omega) leftMember

/-- Two coarse families of blocks that are apart are equal as soon as they
cover the same points. -/
theorem coarse_unique {left right : Nat → Nat → Prop} (leftCoarse : Coarse left)
    (rightCoarse : Coarse right) (leftApart : Apart left)
    (same : ∀ point, Covered left point ↔ Covered right point) {order index : Nat}
    (member : left order index) : right order index := by
  have inRight : ∀ point, point / 2 ^ order = index → Covered right point := by
    intro point inside
    exact (same point).mp ⟨order, inside ▸ member⟩
  obtain ⟨larger, ordered, rightMember⟩ := run_within_block rightCoarse order index inRight
  have inLeft : ∀ point, point / 2 ^ larger = index / 2 ^ (larger - order) →
      Covered left point := by
    intro point inside
    exact (same point).mpr ⟨larger, inside ▸ rightMember⟩
  obtain ⟨largest, further, leftMember⟩ := run_within_block leftCoarse larger _ inLeft
  -- the block of `left` found around the one of `right` is the block we started from
  have positive : 0 < 2 ^ order := Nat.two_pow_pos order
  have first : index * 2 ^ order / 2 ^ order = index := Nat.mul_div_cancel _ positive
  have around : index * 2 ^ order / 2 ^ largest =
      index / 2 ^ (larger - order) / 2 ^ (largest - larger) := by
    rw [div_pow_le_div (Nat.le_trans ordered further), first, Nat.div_div_eq_div_mul, ← pow_add]
    congr 2
    omega
  have equal : order = largest := leftApart (index * 2 ^ order) order largest
    (by rw [first]; exact member) (by rw [around]; exact leftMember)
  have exact : larger = order := by omega
  subst exact
  simpa using rightMember

end Campix.Lib.Dyadic
