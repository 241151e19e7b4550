import Mathlib.Data.List.Perm.Basic
import Mathlib.Data.List.Pairwise
import Mathlib.Order.Interval.Finset.Nat
import Mathlib.Tactic.Linarith

/-!
# Tilings of an interval of naturals

A span is a half-open interval given by its start and its length. A list of
spans tiles `[lo, hi)` when no two of them share a point and together they
cover exactly those points. The order of the list carries no meaning: every
rule is stated for the head of the list and moved by permutation.
-/

namespace Campix.Lib.Tiling

set_option autoImplicit false

structure Span where
  start : Nat
  size : Nat
deriving DecidableEq, Repr

def Span.Covers (span : Span) (point : Nat) : Prop :=
  span.start ≤ point ∧ point < span.start + span.size

def Span.Apart (left right : Span) : Prop :=
  ∀ point, left.Covers point → ¬right.Covers point

theorem apart_symm {left right : Span} (apart : left.Apart right) : right.Apart left :=
  fun point onRight onLeft => apart point onLeft onRight

structure Tiles (lo hi : Nat) (spans : List Span) : Prop where
  apart : spans.Pairwise Span.Apart
  cover : ∀ point, (∃ span ∈ spans, span.Covers point) ↔ lo ≤ point ∧ point < hi

theorem tiles_perm {lo hi : Nat} {left right : List Span} (same : left.Perm right)
    (tiles : Tiles lo hi left) : Tiles lo hi right where
  apart := (same.pairwise_iff (fun apart => apart_symm apart)).mp tiles.apart
  cover point := by
    rw [← tiles.cover point]
    constructor
    · rintro ⟨span, member, covers⟩
      exact ⟨span, same.mem_iff.mpr member, covers⟩
    · rintro ⟨span, member, covers⟩
      exact ⟨span, same.mem_iff.mp member, covers⟩

theorem tiles_empty (lo : Nat) : Tiles lo lo [] where
  apart := List.Pairwise.nil
  cover point := by simp

/-- A tiling of `[lo, hi)` is extended by the span that starts where it ends. -/
theorem tiles_extend {lo hi : Nat} (size : Nat) {spans : List Span} (ordered : lo ≤ hi)
    (tiles : Tiles lo hi spans) : Tiles lo (hi + size) (⟨hi, size⟩ :: spans) where
  apart := by
    refine List.pairwise_cons.mpr ⟨?_, tiles.apart⟩
    intro span member point onNew onOld
    have inside := (tiles.cover point).mp ⟨span, member, onOld⟩
    have beyond := onNew.1
    simp only at beyond
    omega
  cover point := by
    constructor
    · rintro ⟨span, member, covers⟩
      rcases List.mem_cons.mp member with rfl | member
      · simp only [Span.Covers] at covers
        omega
      · have inside := (tiles.cover point).mp ⟨span, member, covers⟩
        omega
    · rintro ⟨lower, upper⟩
      by_cases before : point < hi
      · obtain ⟨span, member, covers⟩ := (tiles.cover point).mpr ⟨lower, before⟩
        exact ⟨span, List.mem_cons_of_mem _ member, covers⟩
      · exact ⟨⟨hi, size⟩, List.mem_cons_self, by simp only [Span.Covers]; omega⟩

/-- Splitting one span in two keeps a tiling, and so does merging two spans
that touch. -/
theorem tiles_split {lo hi start left right : Nat} {spans : List Span} :
    Tiles lo hi (⟨start, left + right⟩ :: spans) ↔
      Tiles lo hi (⟨start, left⟩ :: ⟨start + left, right⟩ :: spans) := by
  have point_split : ∀ point, Span.Covers ⟨start, left + right⟩ point ↔
      Span.Covers ⟨start, left⟩ point ∨ Span.Covers ⟨start + left, right⟩ point := by
    intro point
    simp only [Span.Covers]
    omega
  constructor
  · intro tiles
    have apart := List.pairwise_cons.mp tiles.apart
    constructor
    · refine List.pairwise_cons.mpr ⟨?_, List.pairwise_cons.mpr ⟨?_, apart.2⟩⟩
      · intro span member point onLeft onSpan
        rcases List.mem_cons.mp member with rfl | member
        · simp only [Span.Covers] at onLeft onSpan
          omega
        · exact apart.1 span member point ((point_split point).mpr (Or.inl onLeft)) onSpan
      · intro span member point onRight onSpan
        exact apart.1 span member point ((point_split point).mpr (Or.inr onRight)) onSpan
    · intro point
      rw [← tiles.cover point]
      simp only [List.mem_cons, exists_eq_or_imp, point_split point]
      tauto
  · intro tiles
    obtain ⟨leftApart, rest⟩ := List.pairwise_cons.mp tiles.apart
    obtain ⟨rightApart, rest⟩ := List.pairwise_cons.mp rest
    constructor
    · refine List.pairwise_cons.mpr ⟨?_, rest⟩
      intro span member point onBoth onSpan
      rcases (point_split point).mp onBoth with onLeft | onRight
      · exact leftApart span (List.mem_cons_of_mem _ member) point onLeft onSpan
      · exact rightApart span member point onRight onSpan
    · intro point
      rw [← tiles.cover point]
      simp only [List.mem_cons, exists_eq_or_imp, point_split point]
      tauto

theorem tiles_within {lo hi : Nat} {spans : List Span} (tiles : Tiles lo hi spans)
    {span : Span} (member : span ∈ spans) (inhabited : 0 < span.size) :
    lo ≤ span.start ∧ span.start + span.size ≤ hi := by
  have first := (tiles.cover span.start).mp
    ⟨span, member, by simp only [Span.Covers]; omega⟩
  have last := (tiles.cover (span.start + span.size - 1)).mp
    ⟨span, member, by simp only [Span.Covers]; omega⟩
  omega

theorem tiles_head_apart {lo hi : Nat} {head span : Span} {spans : List Span}
    (tiles : Tiles lo hi (head :: spans)) (member : span ∈ spans) : head.Apart span :=
  (List.pairwise_cons.mp tiles.apart).1 span member

theorem tiles_shared_point {lo hi point : Nat} {spans : List Span} (tiles : Tiles lo hi spans)
    {left right : Span} (leftMember : left ∈ spans) (rightMember : right ∈ spans)
    (onLeft : left.Covers point) (onRight : right.Covers point) : left = right := by
  have symmetric : Std.Symm Span.Apart := ⟨fun _ _ apart => apart_symm apart⟩
  by_contra different
  exact tiles.apart.forall leftMember rightMember different point onLeft onRight

private def covered (top : Nat) (spans : List Span) : Finset Nat :=
  (Finset.range top).filter fun point => ∃ span ∈ spans, span.start ≤ point ∧
    point < span.start + span.size

private theorem covered_card {top : Nat} {spans : List Span}
    (apart : spans.Pairwise Span.Apart)
    (within : ∀ span ∈ spans, span.start + span.size ≤ top) :
    (covered top spans).card = (spans.map Span.size).sum := by
  induction spans with
  | nil => simp [covered]
  | cons span spans ih =>
      obtain ⟨headApart, restApart⟩ := List.pairwise_cons.mp apart
      have bound := within span List.mem_cons_self
      have split : covered top (span :: spans) =
          Finset.Ico span.start (span.start + span.size) ∪ covered top spans := by
        ext point
        simp only [covered, Finset.mem_filter, Finset.mem_range, Finset.mem_union, Finset.mem_Ico,
          List.mem_cons, exists_eq_or_imp]
        constructor
        · rintro ⟨below, here | there⟩
          · exact Or.inl here
          · exact Or.inr ⟨below, there⟩
        · rintro (here | there)
          · exact ⟨by omega, Or.inl here⟩
          · exact ⟨there.1, Or.inr there.2⟩
      have disjoint : Disjoint (Finset.Ico span.start (span.start + span.size))
          (covered top spans) := by
        rw [Finset.disjoint_left]
        intro point onHead onRest
        obtain ⟨_, other, member, covers⟩ := Finset.mem_filter.mp onRest
        exact headApart other member point (Finset.mem_Ico.mp onHead) covers
      rw [split, Finset.card_union_of_disjoint disjoint, Nat.card_Ico,
        ih restApart (fun other member => within other (List.mem_cons_of_mem _ member))]
      simp only [List.map_cons, List.sum_cons]
      omega

theorem tiles_total {lo hi : Nat} {spans : List Span} (tiles : Tiles lo hi spans)
    (inhabited : ∀ span ∈ spans, 0 < span.size) : (spans.map Span.size).sum = hi - lo := by
  have within : ∀ span ∈ spans, span.start + span.size ≤ hi :=
    fun span member => (tiles_within tiles member (inhabited span member)).2
  rw [← covered_card tiles.apart within, ← Nat.card_Ico]
  apply congrArg Finset.card
  ext point
  have cover := tiles.cover point
  simp only [Span.Covers] at cover
  simp only [covered, Finset.mem_filter, Finset.mem_range, Finset.mem_Ico, cover]
  omega

end Campix.Lib.Tiling
