import Campix.Paging.Walk

/-!
# Page tables as address maps

The purpose of a page table is a partial map from canonical addresses to physical
ones. Every run of `map_4kb`, `map_2mb`, `unmap_4kb` and `unmap_2mb` from an empty
PML4 keeps `translate` equal to the map that the steps which returned `Some`
describe.
-/

namespace Campix.Paging

open Lib.Word Lib.Fallible Lib.TableTree

set_option autoImplicit false

variable {σ : Type} {allocator : LawfulAllocator σ} {self : PageTable} {machine : Machine σ}

def Canonical (addr : Nat) : Prop :=
  addr < 2 ^ 47 ∨ 2 ^ 64 - 2 ^ 47 ≤ addr ∧ addr < 2 ^ 64

instance (addr : Nat) : Decidable (Canonical addr) :=
  inferInstanceAs (Decidable (addr < 2 ^ 47 ∨ 2 ^ 64 - 2 ^ 47 ≤ addr ∧ addr < 2 ^ 64))

def largeEntry (addr : Nat) : List (Fin 512) := [index addr 21, index addr 30, index addr 39]
def smallEntry (addr : Nat) : List (Fin 512) := index addr 12 :: largeEntry addr

theorem index_val (addr shift : Nat) : (index addr shift).val = addr / 2 ^ shift % 512 := by
  have mask : (0x1FF : Nat) = 2 ^ 9 - 1 := by decide
  change addr >>> shift &&& 0x1FF = _
  rw [mask, Nat.and_two_pow_sub_one_eq_mod, Nat.shiftRight_eq_div_pow]

theorem large_entry_eq_iff {left right : Nat} (onLeft : Canonical left)
    (onRight : Canonical right) :
    largeEntry left = largeEntry right ↔ left / pageSize2mb = right / pageSize2mb := by
  simp only [largeEntry, List.cons.injEq, and_true, Fin.ext_iff, index_val]
  unfold Canonical at onLeft onRight
  unfold pageSize2mb
  omega

theorem small_entry_eq_iff {left right : Nat} (onLeft : Canonical left)
    (onRight : Canonical right) :
    smallEntry left = smallEntry right ↔ left / pageSize = right / pageSize := by
  simp only [smallEntry, largeEntry, List.cons.injEq, and_true, Fin.ext_iff, index_val]
  unfold Canonical at onLeft onRight
  unfold pageSize
  omega

abbrev AddressMap := Nat → Option Nat

def lookup (leaves : List (Fin 512) → Option Nat) : AddressMap := fun addr =>
  match leaves (largeEntry addr) with
  | some base => some (base + addr % pageSize2mb)
  | none => (leaves (smallEntry addr)).map (· + addr % pageSize)

/-- The map in which the page or region of `virt` goes to `target`. -/
def remap (map : AddressMap) (size virt : Nat) (target : Option Nat) : AddressMap := fun addr =>
  if addr / size = virt / size then target.map (· + addr % size) else map addr

/-- What is known of the page or region of an address, from the leaf that maps it and its size. -/
def resolve {Leaf Result : Type} (ends : List (Fin 512) → Option Leaf)
    (meaning : Nat → Leaf → Result)
    (addr : Nat) : Option Result :=
  match ends (largeEntry addr) with
  | some end_ => some (meaning pageSize2mb end_)
  | none => (ends (smallEntry addr)).map (meaning pageSize)

theorem lookup_resolve (leaves : List (Fin 512) → Option Nat) (addr : Nat) :
    lookup leaves addr = resolve leaves (fun size base => base + addr % size) addr := by
  unfold lookup resolve
  cases leaves (largeEntry addr) <;> rfl

section Resolve

variable {Leaf Result : Type} (ends : List (Fin 512) → Option Leaf) (meaning : Nat → Leaf → Result)

theorem resolve_graft_large {virt addr : Nat} (onVirt : Canonical virt) (onAddr : Canonical addr)
    (target : Option Leaf) :
    resolve (graft ends (largeEntry virt) target) meaning addr =
      if addr / pageSize2mb = virt / pageSize2mb then target.map (meaning pageSize2mb)
      else resolve ends meaning addr := by
  have region := large_entry_eq_iff onAddr onVirt
  have longer : smallEntry addr ≠ largeEntry virt := fun equal => by
    simpa [smallEntry, largeEntry] using congrArg List.length equal
  have below : largeEntry virt <:+ smallEntry addr ↔ largeEntry addr = largeEntry virt := by
    rw [smallEntry, List.suffix_cons_iff]
    constructor
    · rintro (equal | inside)
      · exact absurd equal.symm longer
      · exact (inside.eq_of_length rfl).symm
    · intro equal
      exact Or.inr (by rw [equal])
  have beside : largeEntry virt <:+ largeEntry addr → largeEntry addr = largeEntry virt :=
    fun inside => (inside.eq_of_length rfl).symm
  unfold resolve graft
  by_cases same : largeEntry addr = largeEntry virt
  · rw [if_pos same, if_pos (region.mp same), if_neg longer, if_pos (below.mpr same)]
    cases target <;> rfl
  · rw [if_neg same, if_neg (fun inside => same (beside inside)), if_neg longer,
      if_neg (fun inside => same (below.mp inside)),
        if_neg (fun inside => same (region.mpr inside))]

theorem resolve_graft_small {virt addr : Nat} (onVirt : Canonical virt) (onAddr : Canonical addr)
    (target : Option Leaf) (notLarge : ends (largeEntry virt) = none) :
    resolve (graft ends (smallEntry virt) target) meaning addr =
      if addr / pageSize = virt / pageSize then target.map (meaning pageSize)
      else resolve ends meaning addr := by
  have page := small_entry_eq_iff onAddr onVirt
  have shorter : largeEntry addr ≠ smallEntry virt := fun equal => by
    simpa [smallEntry, largeEntry] using congrArg List.length equal
  have above : ¬smallEntry virt <:+ largeEntry addr := fun inside => by
    simpa [smallEntry, largeEntry] using inside.length_le
  have beside : smallEntry virt <:+ smallEntry addr → smallEntry addr = smallEntry virt :=
    fun inside => (inside.eq_of_length rfl).symm
  unfold resolve graft
  rw [if_neg shorter, if_neg above]
  by_cases same : smallEntry addr = smallEntry virt
  · have sameLarge : largeEntry addr = largeEntry virt := (List.cons.inj same).2
    rw [if_pos same, if_pos (page.mp same), sameLarge, notLarge]
  · rw [if_neg same, if_neg (fun inside => same (beside inside)),
      if_neg (fun inside => same (page.mpr inside))]

end Resolve

theorem lookup_graft_large (leaves : List (Fin 512) → Option Nat) {virt addr : Nat}
    (onVirt : Canonical virt) (onAddr : Canonical addr) (target : Option Nat) :
    lookup (graft leaves (largeEntry virt) target) addr =
      remap (lookup leaves) pageSize2mb virt target addr := by
  rw [lookup_resolve, resolve_graft_large leaves _ onVirt onAddr target, remap, lookup_resolve]

theorem lookup_graft_small (leaves : List (Fin 512) → Option Nat) {virt addr : Nat}
    (onVirt : Canonical virt) (onAddr : Canonical addr) (target : Option Nat)
    (notLarge : leaves (largeEntry virt) = none) :
    lookup (graft leaves (smallEntry virt) target) addr =
      remap (lookup leaves) pageSize virt target addr := by
  rw [lookup_resolve, resolve_graft_small leaves _ onVirt onAddr target notLarge, remap,
    lookup_resolve]

theorem leaf_large (word : Nat) : leaf 2 word =
    if word &&& pagePresent = pagePresent ∧ word &&& pageHuge = pageHuge then
      some (word &&& addressMask) else none := by
  simp only [leaf, has_present_iff, has_huge_iff]
  simp

theorem leaf_small (word : Nat) : leaf 3 word =
    if word &&& pagePresent = pagePresent then some (word &&& addressMask) else none := by
  simp only [leaf, has_present_iff]
  simp

theorem masked_add {word addr : Nat} (small : addr < 2 ^ 63) :
    add64 (word &&& addressMask) addr = (word &&& addressMask) + addr := by
  have bound : word &&& addressMask ≤ addressMask := Nat.and_le_right
  apply add64_of_lt
  unfold addressMask at bound ⊢
  omega

theorem lookup_missing {root virt : Nat}
    (missing : tables root machine [index virt 30, index virt 39] = none) :
    lookup (leaves root machine) virt = none := by
  have noLarge : leaves root machine (largeEntry virt) = none := leaf_at_missing _ missing
  have noSmall : leaves root machine (smallEntry virt) = none :=
    leaf_at_missing _ (table_at_none_of_suffix missing (List.suffix_cons _ _))
  rw [lookup, noLarge, noSmall]
  rfl

theorem translate_in_directory (alloc : PageAllocator σ) {root virt pd : Nat}
    (foundPd : tables root machine [index virt 30, index virt 39] = some pd) :
    (if machine.mem pd (index virt 21) &&& pagePresent = pagePresent ∧
        machine.mem pd (index virt 21) &&& pageHuge = pageHuge then
      pure (add64 (machine.mem pd (index virt 21) &&& addressMask) (virt % pageSize2mb))
    else do
      let pt ← getTable false alloc pd (index virt 21) 0 pageHuge
      let ptEntry ← readEntry pt (index virt 12)
      if ptEntry &&& pagePresent = pagePresent then
        pure (add64 (ptEntry &&& addressMask) (virt % pageSize))
      else throw () : Attempt σ Nat) machine =
      answer machine (lookup (leaves root machine) virt) := by
  have large : leaves root machine (largeEntry virt) = leaf 2 (machine.mem pd (index virt 21)) :=
    leaf_at_cons foundPd
  rw [lookup, large, leaf_large]
  split_ifs with huge
  · rw [masked_add (by unfold pageSize2mb; omega)]
    rfl
  · have readPt : getTable false alloc pd (index virt 21) 0 pageHuge machine = _ :=
      get_table_reads alloc (by simp) foundPd 0
    cases foundPt : tables root machine (largeEntry virt) with
    | none =>
        have small : leaves root machine (smallEntry virt) = none := leaf_at_missing _ foundPt
        rw [largeEntry] at foundPt
        rw [foundPt] at readPt
        rw [state_bind_error readPt, small]
        rfl
    | some pt =>
        have small : leaves root machine (smallEntry virt) = leaf 3
            (machine.mem pt (index virt 12)) :=
          leaf_at_cons foundPt
        rw [largeEntry] at foundPt
        rw [foundPt] at readPt
        rw [state_bind_ok readPt, state_bind_ok (by rfl : readEntry pt (index virt 12) machine = _),
          small, leaf_small]
        split_ifs with present
        · rw [masked_add (by unfold pageSize; omega)]
          rfl
        · rfl

theorem translate_lookup (alloc : PageAllocator σ) (virt : Nat) :
    self.translate alloc virt machine =
      answer machine (lookup (leaves self.pml4 machine) virt) := by
  have rootFound : tables self.pml4 machine [] = some self.pml4 := rfl
  rw [PageTable.translate]
  dsimp only [splitVirtAddr]
  have readPdpt : getTable false alloc self.pml4 (index virt 39) 0 0 machine = _ :=
    get_table_reads alloc (by simp) rootFound 0
  cases foundPdpt : tables self.pml4 machine [index virt 39] with
  | none =>
      have missing := table_at_none_of_suffix foundPdpt (List.suffix_cons (index virt 30) _)
      rw [foundPdpt] at readPdpt
      rw [state_bind_error readPdpt, lookup_missing missing, answer]
  | some pdpt =>
      have readPd : getTable false alloc pdpt (index virt 30) 0 0 machine = _ :=
        get_table_reads alloc (by simp) foundPdpt 0
      rw [foundPdpt] at readPdpt
      rw [state_bind_ok readPdpt]
      cases foundPd : tables self.pml4 machine [index virt 30, index virt 39] with
      | none =>
          rw [foundPd] at readPd
          rw [state_bind_error readPd, lookup_missing foundPd, answer]
      | some pd =>
          rw [foundPd] at readPd
          rw [state_bind_ok readPd,
            state_bind_ok (by rfl : readEntry pd (index virt 21) machine = _)]
          exact translate_in_directory alloc foundPd

end Campix.Paging
