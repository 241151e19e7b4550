import Campix.Paging.Iter
import Campix.Paging.Ownership

/-!
# What iterating over a range yields

The rounds of `PageTableIter::next` read off the tree. A round moves on to the
next page or to the end of the region that an absent table leaves empty, except
at three places, where a carry is lost: below an odd PML4 entry whose last PDPT
entry is absent, and in the last 2 MiB of the address space when they are one
large page or not mapped through a page table. There the position goes back, and
the iteration never ends. Apart from those places, and from a range that begins
inside a large page, what is yielded is exactly what is mapped.
-/

namespace Campix.Paging

open Lib.Word Lib.TableTree

set_option autoImplicit false

variable {σ : Type} {self : PageTable} {machine : Machine σ} {root : Nat}

def canonicalOf (low : Nat) : Nat := if low < 2 ^ 47 then low else low + (2 ^ 64 - 2 ^ 48)

theorem sign_extend_eq {low : Nat} (bound : low < 2 ^ 48) :
    (if low &&& 1 <<< 47 ≠ 0 then low ||| 0xFFFF_0000_0000_0000 else low) = canonicalOf low := by
  have bit : low &&& 1 <<< 47 ≠ 0 ↔ 2 ^ 47 ≤ low := by
    have half : low / 2 ^ 47 % 2 = 1 ↔ 2 ^ 47 ≤ low := by omega
    rw [Nat.shiftLeft_eq, Nat.one_mul, Nat.and_two_pow, Nat.testBit_eq_decide_div_mod_eq, ← half]
    by_cases set : low / 2 ^ 47 % 2 = 1
    · rw [decide_eq_true set]
      exact iff_of_true (by decide) set
    · rw [decide_eq_false set]
      exact iff_of_false (by decide) set
  have extended : low ||| 0xFFFF_0000_0000_0000 = low + (2 ^ 64 - 2 ^ 48) := by
    have sum := Nat.two_pow_add_eq_or_of_lt bound (2 ^ 16 - 1)
    have mask : 2 ^ 48 * (2 ^ 16 - 1) = 0xFFFF_0000_0000_0000 := by decide
    rw [mask] at sum
    rw [Nat.or_comm, ← sum]
    omega
  rw [canonicalOf]
  by_cases upper : 2 ^ 47 ≤ low
  · rw [if_pos (bit.mpr upper), extended, if_neg (by omega)]
  · rw [if_neg (fun set => upper (bit.mp set)), if_pos (by omega)]

theorem join_virt_addr_eq {pml4 pdpt pd : Nat} (pml4Bound : pml4 < 512) (pdptBound : pdpt < 512)
    (pdBound : pd < 512) :
    joinVirtAddr pml4 pdpt pd 0 0 = canonicalOf (pml4 * 2 ^ 39 + pdpt * 2 ^ 30 + pd * 2 ^ 21) := by
  have inner := Nat.shiftLeft_add_eq_or_of_lt (by omega : pd <<< 21 < 2 ^ 30) pdpt
  have outer := Nat.shiftLeft_add_eq_or_of_lt
    (by omega : pdpt <<< 30 + pd <<< 21 < 2 ^ 39) pml4
  have sum : pml4 <<< 39 ||| pdpt <<< 30 ||| pd <<< 21 ||| 0 <<< 12 ||| 0 &&& 0xFFF =
      pml4 * 2 ^ 39 + pdpt * 2 ^ 30 + pd * 2 ^ 21 := by
    rw [Nat.zero_shiftLeft, Nat.zero_and, Nat.or_zero, Nat.or_zero, Nat.or_assoc, ← inner, ← outer]
    simp only [Nat.shiftLeft_eq]
    omega
  rw [joinVirtAddr, sum]
  exact sign_extend_eq (by omega)

theorem or_one_eq (word : Nat) : word ||| 1 = if word % 2 = 0 then word + 1 else word := by
  have even := Nat.two_pow_add_eq_or_of_lt (by decide : 1 < 2 ^ 1) (word / 2)
  split_ifs with parity
  · have shape : word = 2 ^ 1 * (word / 2) := by omega
    rw [← shape] at even
    exact even.symm
  · have shape : word = 2 ^ 1 * (word / 2) + 1 := by omega
    rw [← shape] at even
    rw [even, Nat.or_assoc, Nat.or_self]

/-- The bit of a PDPT index that is out of range falls on the PML4 index. -/
theorem join_virt_addr_carry {pml4 : Nat} (bound : pml4 < 512) :
    joinVirtAddr pml4 512 0 0 0 =
      canonicalOf (if pml4 % 2 = 0 then (pml4 + 1) * 2 ^ 39 else pml4 * 2 ^ 39) := by
  have sum : pml4 <<< 39 ||| 512 <<< 30 ||| 0 <<< 21 ||| 0 <<< 12 ||| 0 &&& 0xFFF =
      if pml4 % 2 = 0 then (pml4 + 1) * 2 ^ 39 else pml4 * 2 ^ 39 := by
    have carried : (512 : Nat) <<< 30 = 1 <<< 39 := by decide
    rw [Nat.zero_shiftLeft, Nat.zero_shiftLeft, Nat.zero_and, Nat.or_zero, Nat.or_zero, Nat.or_zero,
      carried, ← Nat.shiftLeft_or_distrib, Nat.shiftLeft_eq]
    rw [or_one_eq]
    split_ifs
    · rfl
    · rfl
  rw [joinVirtAddr, sum]
  apply sign_extend_eq
  split_ifs
  · omega
  · omega

theorem region_index {addr position shift higher : Nat} (above : shift ≤ higher)
    (same : addr / 2 ^ shift = position / 2 ^ shift) : index addr higher = index position
    higher := by
  have up : ∀ word, word / 2 ^ higher = word / 2 ^ shift / 2 ^ (higher - shift) := by
    intro word
    rw [Nat.div_div_eq_div_mul, ← pow_add, Nat.add_sub_cancel' above]
  apply Fin.ext
  rw [index_val, index_val, up addr, up position, same]

/-- The start of the next region of `2^shift` bytes, over the hole between the
halves of the address space. -/
theorem next_region {position next shift : Nat} (canonical : Canonical position)
    (level : shift = 21 ∨ shift = 30 ∨ shift = 39)
    (inside : position % 2 ^ 48 / 2 ^ shift * 2 ^ shift + 2 ^ shift < 2 ^ 48)
    (here : next = canonicalOf (position % 2 ^ 48 / 2 ^ shift * 2 ^ shift + 2 ^ shift)) :
    position < next ∧ next < 2 ^ 64 ∧ pageSize2mb ∣ next ∧
      ∀ addr, Canonical addr → position ≤ addr → addr < next →
        addr / 2 ^ shift = position / 2 ^ shift := by
  unfold canonicalOf at here
  unfold Canonical at canonical ⊢
  unfold pageSize2mb
  rcases level with rfl | rfl | rfl
  · split_ifs at here with lower
    · refine ⟨by omega, by omega, by omega, fun addr other above below => by omega⟩
    · refine ⟨by omega, by omega, by omega, fun addr other above below => by omega⟩
  · split_ifs at here with lower
    · refine ⟨by omega, by omega, by omega, fun addr other above below => by omega⟩
    · refine ⟨by omega, by omega, by omega, fun addr other above below => by omega⟩
  · split_ifs at here with lower
    · refine ⟨by omega, by omega, by omega, fun addr other above below => by omega⟩
    · refine ⟨by omega, by omega, by omega, fun addr other above below => by omega⟩

theorem table_below_eq {alloc : PageAllocator σ} {path : List (Fin 512)} {table : Nat}
    {idx : Fin 512}
    {disallowedFlags : Nat} (found : tables root machine path = some table)
    (upper : path.length ≤ 2) (level : disallowedAt path.length = disallowedFlags) :
    machine.tableBelow alloc table idx disallowedFlags = tables root machine (idx :: path) := by
  subst level
  have reads : getTable false alloc table idx 0 _ machine = _ := get_table_reads alloc upper found 0
  rw [Machine.tableBelow, reads]
  cases tables root machine (idx :: path) with
  | none => rfl
  | some next => rfl

theorem directory_leaf (word : Nat) :
    leaf 2 word = if word &&& pagePresent = pagePresent ∧ word &&& pageHuge = pageHuge then
      some (word &&& addressMask) else none := by
  have present := has_present_iff word
  have huge := has_huge_iff word
  rw [leaf]
  by_cases both : word &&& pagePresent = pagePresent ∧ word &&& pageHuge = pageHuge
  · rw [if_pos both, if_pos ⟨present.mp both.1, Or.inr ⟨rfl, huge.mp both.2⟩⟩]
  · rw [if_neg both, if_neg]
    rintro ⟨isPresent, impossible | ⟨-, isHuge⟩⟩
    · exact absurd impossible (by decide)
    · exact both ⟨present.mpr isPresent, huge.mpr isHuge⟩

theorem page_leaf (word : Nat) :
    leaf 3 word = if word &&& pagePresent = pagePresent then some (word &&& addressMask)
      else none := by
  have present := has_present_iff word
  rw [leaf]
  by_cases set : word &&& pagePresent = pagePresent
  · rw [if_pos set, if_pos ⟨present.mp set, Or.inl rfl⟩]
  · rw [if_neg set, if_neg (fun both => set (present.mpr both.1))]

/-- Where the round goes when no page table covers the position. -/
def afterDirectoryEntry (position : Nat) : Nat :=
  let (nextPdptIdx, nextPdIdx) :=
    if (index position 21).val + 1 ≥ 512 then ((index position 30).val + 1, 0)
    else ((index position 30).val, (index position 21).val + 1)
  let (nextPml4Idx, nextPdptIdx) :=
    if nextPdptIdx ≥ 512 then ((index position 39).val + 1, 0)
    else ((index position 39).val, nextPdptIdx)
  joinVirtAddr nextPml4Idx nextPdptIdx nextPdIdx 0 0

theorem iter_round_canonical (alloc : PageAllocator σ) {position : Nat}
    (canonical : Canonical position) :
    self.iterRound alloc machine position =
      match tables self.pml4 machine [index position 39] with
      | none =>
          if (index position 39).val + 1 ≥ 512 then .stop
          else .skip (joinVirtAddr ((index position 39).val + 1) 0 0 0 0)
      | some _ =>
      match tables self.pml4 machine [index position 30, index position 39] with
      | none => .skip (joinVirtAddr (index position 39).val ((index position 30).val + 1) 0 0 0)
      | some _ =>
      match leaves self.pml4 machine (largeEntry position) with
      | some phys => .found ⟨position, phys, .mb2⟩ (add64 position pageSize2mb)
      | none =>
      match tables self.pml4 machine (largeEntry position) with
      | none => .skip (afterDirectoryEntry position)
      | some _ =>
      match leaves self.pml4 machine (smallEntry position) with
      | some phys => .found ⟨position, phys, .kb4⟩ (add64 position pageSize)
      | none => .skip (add64 position pageSize) := by
  have outside : ¬(position ≥ 0x0000_8000_0000_0000 ∧ position < 0xFFFF_8000_0000_0000) := by
    unfold Canonical at canonical
    omega
  have foundRoot : tables self.pml4 machine [] = some self.pml4 := rfl
  rw [PageTable.iterRound, if_neg outside]
  dsimp only [splitVirtAddr]
  have readPdpt : machine.tableBelow alloc self.pml4 (index position 39) 0 = _ :=
    table_below_eq foundRoot (Nat.zero_le 2) rfl
  rw [readPdpt]
  cases foundPdpt : tables self.pml4 machine [index position 39] with
  | none => rfl
  | some pdpt =>
  have readPd : machine.tableBelow alloc pdpt (index position 30) 0 = _ :=
    table_below_eq foundPdpt (Nat.le_succ 1) rfl
  dsimp only
  rw [readPd]
  cases foundPd : tables self.pml4 machine [index position 30, index position 39] with
  | none =>
      have small : ¬(index position 30).val ≥ 512 := by
        have bound := (index position 30).isLt
        omega
      dsimp only
      rw [if_neg small]
  | some pd =>
  have large : leaves self.pml4 machine (largeEntry position) =
      leaf 2 (machine.mem pd (index position 21)) := leaf_at_cons foundPd
  have readPt : machine.tableBelow alloc pd (index position 21) pageHuge =
      tables self.pml4 machine (largeEntry position) :=
    table_below_eq foundPd (Nat.le_refl 2) rfl
  dsimp only
  rw [readPt, large, directory_leaf]
  by_cases huge : machine.mem pd (index position 21) &&& pagePresent = pagePresent ∧
      machine.mem pd (index position 21) &&& pageHuge = pageHuge
  · rw [if_pos huge, if_pos huge]
  rw [if_neg huge, if_neg huge]
  cases foundPt : tables self.pml4 machine (largeEntry position) with
  | none => rfl
  | some pt =>
  have small : leaves self.pml4 machine (smallEntry position) =
      leaf 3 (machine.mem pt (index position 12)) := leaf_at_cons foundPt
  dsimp only
  rw [small, page_leaf]
  by_cases present : machine.mem pt (index position 12) &&& pagePresent = pagePresent
  · rw [if_pos present, if_pos present]
  · rw [if_neg present, if_neg present]

def LeafMapping (root : Nat) (machine : Machine σ) (entry : PageTableEntry) : Prop :=
  Canonical entry.virt ∧
    match entry.pageSize with
    | .kb4 => pageSize ∣ entry.virt ∧
        leaves root machine (smallEntry entry.virt) = some entry.phys
    | .mb2 => pageSize2mb ∣ entry.virt ∧
        leaves root machine (largeEntry entry.virt) = some entry.phys
    | .gb1 => False

/-- The places from which the position goes back. -/
def Trap (root : Nat) (machine : Machine σ) (addr : Nat) : Prop :=
  Canonical addr ∧
    ((index addr 39).val % 2 = 1 ∧ (index addr 30).val = 511 ∧
        tables root machine [index addr 39] ≠ none ∧
        tables root machine [index addr 30, index addr 39] = none ∨
      (index addr 39).val = 511 ∧ (index addr 30).val = 511 ∧ (index addr 21).val = 511 ∧
        tables root machine [index addr 30, index addr 39] ≠ none ∧
        tables root machine (largeEntry addr) = none)

def InsideLarge (root : Nat) (machine : Machine σ) (addr : Nat) : Prop :=
  Canonical addr ∧ ¬pageSize2mb ∣ addr ∧ leaves root machine (largeEntry addr) ≠ none

structure OnGrid (root : Nat) (machine : Machine σ) (position : Nat) : Prop where
  word : position < 2 ^ 64
  aligned : pageSize ∣ position
  outside : ¬InsideLarge root machine position

/-- Nothing starts between the two positions, and none of them is a trap. -/
def Bare (root : Nat) (machine : Machine σ) (position next : Nat) : Prop :=
  ∀ addr, position ≤ addr → addr < next →
    (∀ entry, LeafMapping root machine entry → entry.virt ≠ addr) ∧ ¬Trap root machine addr

inductive Moves (root : Nat) (machine : Machine σ) (position : Nat) : Round → Prop
  | stop (bare : Bare root machine position (2 ^ 64)) : Moves root machine position .stop
  | skip {next : Nat} (forward : position < next) (grid : OnGrid root machine next)
      (bare : Bare root machine position next) : Moves root machine position (.skip next)
  | found {entry : PageTableEntry} {next : Nat} (forward : position < next)
      (grid : OnGrid root machine next) (here : entry.virt = position)
      (mapped : LeafMapping root machine entry)
      (only : ∀ other, LeafMapping root machine other → position ≤ other.virt →
        other.virt < next → other = entry)
      (free : ∀ addr, position ≤ addr → addr < next → ¬Trap root machine addr) :
      Moves root machine position (.found entry next)
  | back {round : Round} {next : Nat} (trap : Trap root machine position)
      (moves : round = .skip next ∨ ∃ entry, round = .found entry next) (backward : next ≤ position)
      (grid : OnGrid root machine next) : Moves root machine position round

section Rounds

variable {position next : Nat}

theorem on_grid_of_large (word : next < 2 ^ 64) (aligned : pageSize2mb ∣ next) :
    OnGrid root machine next :=
  ⟨word, Nat.dvd_trans (by decide) aligned, fun inside => inside.2.1 aligned⟩

theorem leaf_mapping_directory {entry : PageTableEntry} (mapped : LeafMapping root machine entry) :
    tables root machine [index entry.virt 30, index entry.virt 39] ≠ none := by
  intro missing
  obtain ⟨virt, phys, size⟩ := entry
  cases size with
  | kb4 =>
      have gone : tables root machine (largeEntry virt) = none :=
        table_at_none_of_suffix missing ⟨[index virt 21], rfl⟩
      have none : leaves root machine (smallEntry virt) = none := leaf_at_missing _ gone
      exact absurd (none.symm.trans mapped.2.2) (by simp)
  | mb2 =>
      have none : leaves root machine (largeEntry virt) = none := leaf_at_missing _ missing
      exact absurd (none.symm.trans mapped.2.2) (by simp)
  | gb1 => exact mapped.2

/-- No PD for the region: nothing is mapped in it. -/
theorem bare_without_directory {shift : Nat} (upper : shift ≤ 30)
    (region : ∀ addr, Canonical addr → position ≤ addr → addr < next →
      addr / 2 ^ shift = position / 2 ^ shift)
    (missing : tables root machine [index position 30, index position 39] = none)
    (free : ¬Trap root machine position) (canonical : Canonical position) :
    Bare root machine position next := by
  intro addr above below
  constructor
  · rintro entry mapped rfl
    have same := region entry.virt mapped.1 above below
    apply leaf_mapping_directory mapped
    rw [region_index upper same, region_index (upper.trans (by decide)) same]
    exact missing
  · rintro ⟨onAddr, trap⟩
    have same := region addr onAddr above below
    have pdpt := region_index upper same
    have pml4 := region_index (upper.trans (by decide) : shift ≤ 39) same
    rw [pdpt, pml4] at trap
    rcases trap with first | ⟨_, _, _, present, _⟩
    · exact free ⟨canonical, Or.inl first⟩
    · exact present missing

theorem no_pdpt_moves (canonical : Canonical position)
    (missing : tables root machine [index position 39] = none) :
    Moves root machine position
      (if (index position 39).val + 1 ≥ 512 then .stop
        else .skip (joinVirtAddr ((index position 39).val + 1) 0 0 0 0)) := by
  have bound := (index position 39).isLt
  have value := index_val position 39
  have bareRegion : ∀ next, (∀ addr, Canonical addr → position ≤ addr → addr < next →
      addr / 2 ^ 39 = position / 2 ^ 39) → Bare root machine position next := by
    intro next region addr above below
    constructor
    · rintro entry mapped rfl
      have same := region_index (Nat.le_refl 39) (region entry.virt mapped.1 above below)
      apply leaf_mapping_directory mapped
      rw [same]
      exact table_at_none_of_suffix missing ⟨[index entry.virt 30], rfl⟩
    · rintro ⟨onAddr, trap⟩
      have same := region_index (Nat.le_refl 39) (region addr onAddr above below)
      rw [same] at trap
      rcases trap with ⟨_, _, present, _⟩ | ⟨_, _, _, present, _⟩
      · exact present missing
      · exact present (table_at_none_of_suffix missing ⟨[index addr 30], rfl⟩)
  split_ifs with last
  · apply Moves.stop
    apply bareRegion
    intro addr onAddr above below
    unfold Canonical at canonical onAddr
    omega
  · rw [join_virt_addr_eq (by omega) (by decide) (by decide)]
    have shape : ((index position 39).val + 1) * 2 ^ 39 + 0 * 2 ^ 30 + 0 * 2 ^ 21 =
        position % 2 ^ 48 / 2 ^ 39 * 2 ^ 39 + 2 ^ 39 := by
      omega
    rw [shape]
    obtain ⟨forward, word, aligned, region⟩ := next_region canonical (Or.inr (Or.inr rfl))
      (by omega) rfl
    exact .skip forward (on_grid_of_large word aligned) (bareRegion _ region)

theorem no_pd_moves (canonical : Canonical position)
    (present : tables root machine [index position 39] ≠ none)
    (missing : tables root machine [index position 30, index position 39] = none) :
    Moves root machine position
      (.skip (joinVirtAddr (index position 39).val ((index position 30).val + 1) 0 0 0)) := by
  have pml4Bound := (index position 39).isLt
  have pdptBound := (index position 30).isLt
  have pml4Value := index_val position 39
  have pdptValue := index_val position 30
  have onward : (position % 2 ^ 48 / 2 ^ 30 * 2 ^ 30 + 2 ^ 30 < 2 ^ 48) →
      ¬Trap root machine position → Moves root machine position
        (.skip (canonicalOf (position % 2 ^ 48 / 2 ^ 30 * 2 ^ 30 + 2 ^ 30))) := by
    intro inside free
    obtain ⟨forward, word, aligned, region⟩ := next_region canonical (Or.inr (Or.inl rfl))
      inside rfl
    exact .skip forward (on_grid_of_large word aligned)
      (bare_without_directory (Nat.le_refl 30) region missing free canonical)
  by_cases last : (index position 30).val = 511
  · rw [last, join_virt_addr_carry pml4Bound]
    by_cases even : (index position 39).val % 2 = 0
    · rw [if_pos even]
      have shape : ((index position 39).val + 1) * 2 ^ 39 =
          position % 2 ^ 48 / 2 ^ 30 * 2 ^ 30 + 2 ^ 30 := by
        omega
      rw [shape]
      apply onward (by omega)
      rintro ⟨-, ⟨odd, _⟩ | ⟨_, _, _, found, _⟩⟩
      · omega
      · exact found missing
    · rw [if_neg even]
      have trap : Trap root machine position :=
        ⟨canonical, Or.inl ⟨by omega, last, present, missing⟩⟩
      refine .back trap (Or.inl rfl) ?_ (on_grid_of_large ?_ ?_)
      · unfold canonicalOf
        unfold Canonical at canonical
        split_ifs
        · omega
        · omega
      · unfold canonicalOf
        split_ifs
        · omega
        · omega
      · unfold canonicalOf pageSize2mb
        split_ifs
        · omega
        · omega
  · rw [join_virt_addr_eq pml4Bound (by omega) (by decide)]
    have shape : (index position 39).val * 2 ^ 39 + ((index position 30).val + 1) * 2 ^ 30 +
        0 * 2 ^ 21 = position % 2 ^ 48 / 2 ^ 30 * 2 ^ 30 + 2 ^ 30 := by
      omega
    rw [shape]
    apply onward (by omega)
    rintro ⟨-, ⟨_, carried, _⟩ | ⟨_, carried, _⟩⟩
    · exact last carried
    · exact last carried

theorem region_entry {addr : Nat} (same : addr / 2 ^ 21 = position / 2 ^ 21) :
    largeEntry addr = largeEntry position := by
  rw [largeEntry, largeEntry, region_index (Nat.le_refl 21) same,
    region_index (by decide : 21 ≤ 30) same, region_index (by decide : 21 ≤ 39) same]

theorem region_directory {addr : Nat} (same : addr / 2 ^ 21 = position / 2 ^ 21) :
    [index addr 30, index addr 39] = [index position 30, index position 39] := by
  rw [region_index (by decide : 21 ≤ 30) same, region_index (by decide : 21 ≤ 39) same]

/-- A trap below a PD lies in the last directory entry of the address space,
and no page table covers it. -/
theorem trap_in_directory {addr : Nat} (trap : Trap root machine addr)
    (same : addr / 2 ^ 21 = position / 2 ^ 21)
    (found : tables root machine [index position 30, index position 39] ≠ none) :
    (index position 39).val = 511 ∧ (index position 30).val = 511 ∧
      (index position 21).val = 511 ∧ tables root machine (largeEntry position) = none := by
  rw [← region_directory same] at found
  rcases trap.2 with ⟨_, _, _, missing⟩ | ⟨pml4, pdpt, pd, _, missing⟩
  · exact absurd missing found
  · rw [region_entry same] at missing
    rw [region_index (by decide : 21 ≤ 39) same] at pml4
    rw [region_index (by decide : 21 ≤ 30) same] at pdpt
    rw [region_index (Nat.le_refl 21) same] at pd
    exact ⟨pml4, pdpt, pd, missing⟩

theorem mapped_without_page_table {entry : PageTableEntry}
    (mapped : LeafMapping root machine entry)
    (same : entry.virt / 2 ^ 21 = position / 2 ^ 21)
    (missing : tables root machine (largeEntry position) = none) :
    entry.pageSize = .mb2 ∧ pageSize2mb ∣ entry.virt ∧
      leaves root machine (largeEntry position) = some entry.phys := by
  rw [← region_entry same] at missing ⊢
  obtain ⟨virt, phys, size⟩ := entry
  cases size with
  | kb4 =>
      have none : leaves root machine (smallEntry virt) = none := leaf_at_missing _ missing
      exact absurd (none.symm.trans mapped.2.2) (by simp)
  | mb2 => exact ⟨rfl, mapped.2.1, mapped.2.2⟩
  | gb1 => exact absurd mapped.2 id

theorem large_page_moves (canonical : Canonical position) (grid : OnGrid root machine position)
    (present : tables root machine [index position 30, index position 39] ≠ none) {phys : Nat}
    (mapped : leaves root machine (largeEntry position) = some phys) :
    Moves root machine position
      (.found ⟨position, phys, .mb2⟩ (add64 position pageSize2mb)) := by
  have aligned : pageSize2mb ∣ position := by
    by_contra inside
    exact grid.outside ⟨canonical, inside, by rw [mapped]; simp⟩
  have missing : tables root machine (largeEntry position) = none := by
    cases found : tables root machine (largeEntry position) with
    | none => rfl
    | some table =>
        have none : leaves root machine (largeEntry position) = none :=
          leaf_at_of_table descend_leaf_exclusive found
        exact absurd (none.symm.trans mapped) (by simp)
  have word := grid.word
  unfold pageSize2mb at aligned
  by_cases last : (index position 39).val = 511 ∧ (index position 30).val = 511 ∧
      (index position 21).val = 511
  · have trap : Trap root machine position :=
      ⟨canonical, Or.inr ⟨last.1, last.2.1, last.2.2, present, missing⟩⟩
    have wrapped : add64 position pageSize2mb = 0 := by
      have pml4 := index_val position 39
      have pdpt := index_val position 30
      have pd := index_val position 21
      unfold Canonical at canonical
      unfold add64 pageSize2mb
      omega
    rw [wrapped]
    exact .back trap (Or.inr ⟨_, rfl⟩) (Nat.zero_le _)
      (on_grid_of_large (by decide) (Nat.dvd_zero _))
  · have room : position + 2 ^ 21 < 2 ^ 64 := by
      have pml4 := index_val position 39
      have pdpt := index_val position 30
      have pd := index_val position 21
      unfold Canonical at canonical
      omega
    have straight : add64 position pageSize2mb = position + 2 ^ 21 := add64_of_lt room
    have region : ∀ addr, position ≤ addr → addr < position + 2 ^ 21 →
        addr / 2 ^ 21 = position / 2 ^ 21 := by
      intro addr above below
      omega
    rw [straight]
    refine .found (by omega) (on_grid_of_large (by omega) ?_) rfl ⟨canonical, ?_, mapped⟩ ?_ ?_
    · unfold pageSize2mb
      omega
    · unfold pageSize2mb
      exact aligned
    · rintro ⟨virt, otherPhys, size⟩ other above below
      obtain ⟨rfl, start, samePhys⟩ :=
        mapped_without_page_table other (region virt above below) missing
      have place : virt = position := by
        unfold pageSize2mb at start
        simp only at start above below
        omega
      have physical := Option.some.inj (samePhys.symm.trans mapped)
      simp only at physical
      rw [place, physical]
    · intro addr above below trap
      obtain ⟨pml4, pdpt, pd, -⟩ := trap_in_directory trap (region addr above below) present
      exact last ⟨pml4, pdpt, pd⟩

theorem after_directory_entry_eq
    (inside : ¬((index position 39).val = 511 ∧ (index position 30).val = 511 ∧
      (index position 21).val = 511)) :
    position % 2 ^ 48 / 2 ^ 21 * 2 ^ 21 + 2 ^ 21 < 2 ^ 48 ∧
      afterDirectoryEntry position =
        canonicalOf (position % 2 ^ 48 / 2 ^ 21 * 2 ^ 21 + 2 ^ 21) := by
  have pml4Bound := (index position 39).isLt
  have pdptBound := (index position 30).isLt
  have pdBound := (index position 21).isLt
  have pml4 := index_val position 39
  have pdpt := index_val position 30
  have pd := index_val position 21
  refine ⟨by omega, ?_⟩
  unfold afterDirectoryEntry
  by_cases lastPd : (index position 21).val + 1 ≥ 512
  · rw [if_pos lastPd]
    dsimp only
    by_cases lastPdpt : (index position 30).val + 1 ≥ 512
    · rw [if_pos lastPdpt]
      dsimp only
      rw [join_virt_addr_eq (by omega) (by decide) (by decide)]
      exact congrArg canonicalOf (by omega)
    · rw [if_neg lastPdpt]
      dsimp only
      rw [join_virt_addr_eq (by omega) (by omega) (by decide)]
      exact congrArg canonicalOf (by omega)
  · rw [if_neg lastPd]
    dsimp only
    rw [if_neg (by omega)]
    dsimp only
    rw [join_virt_addr_eq (by omega) (by omega) (by omega)]
    exact congrArg canonicalOf (by omega)

theorem no_pt_moves (canonical : Canonical position) (grid : OnGrid root machine position)
    (present : tables root machine [index position 30, index position 39] ≠ none)
    (unmapped : leaves root machine (largeEntry position) = none)
    (missing : tables root machine (largeEntry position) = none) :
    Moves root machine position (.skip (afterDirectoryEntry position)) := by
  by_cases last : (index position 39).val = 511 ∧ (index position 30).val = 511 ∧
      (index position 21).val = 511
  · have trap : Trap root machine position :=
      ⟨canonical, Or.inr ⟨last.1, last.2.1, last.2.2, present, missing⟩⟩
    have past : afterDirectoryEntry position = 2 ^ 48 := by
      unfold afterDirectoryEntry
      rw [last.1, last.2.1, last.2.2]
      decide
    have pml4 := index_val position 39
    have word := grid.word
    rw [past]
    refine .back trap (Or.inl rfl) ?_ ⟨by decide, by decide, fun inside => ?_⟩
    · unfold Canonical at canonical
      omega
    · exact absurd inside.1 (by unfold Canonical; omega)
  · obtain ⟨inside, here⟩ := after_directory_entry_eq last
    obtain ⟨forward, word, aligned, region⟩ := next_region canonical (Or.inl rfl) inside here
    refine .skip forward (on_grid_of_large word aligned) fun addr above below => ⟨?_, ?_⟩
    · rintro entry mapped rfl
      obtain ⟨-, -, large⟩ := mapped_without_page_table mapped
        (region entry.virt mapped.1 above below) missing
      exact absurd (unmapped.symm.trans large) (by simp)
    · intro trap
      obtain ⟨pml4, pdpt, pd, -⟩ :=
        trap_in_directory trap (region addr trap.1 above below) present
      exact last ⟨pml4, pdpt, pd⟩

theorem page_steps (grid : OnGrid root machine position) (below : position + pageSize < 2 ^ 64)
    (found : tables root machine (largeEntry position) ≠ none) :
    OnGrid root machine (position + pageSize) ∧
      (∀ addr, position ≤ addr → addr < position + pageSize → ¬Trap root machine addr) ∧
      ∀ other, LeafMapping root machine other → position ≤ other.virt →
        other.virt < position + pageSize → other.virt = position ∧ other.pageSize = .kb4 ∧
          leaves root machine (smallEntry position) = some other.phys := by
  obtain ⟨table, covered⟩ := Option.ne_none_iff_exists'.mp found
  have unmapped : leaves root machine (largeEntry position) = none :=
    leaf_at_of_table descend_leaf_exclusive covered
  have present : tables root machine [index position 30, index position 39] ≠ none := by
    obtain ⟨upper, directory⟩ := table_at_suffix covered ⟨[index position 21], rfl⟩
    rw [tables, directory]
    simp
  have aligned := grid.aligned
  unfold pageSize at aligned below ⊢
  have region : ∀ addr, position ≤ addr → addr < position + 4096 →
      addr / 2 ^ 21 = position / 2 ^ 21 := by
    intro addr above under
    omega
  refine ⟨⟨below, by unfold pageSize; omega, ?_⟩, ?_, ?_⟩
  · rintro ⟨canonical, inside, mapped⟩
    have same : (position + 4096) / 2 ^ 21 = position / 2 ^ 21 := by
      unfold pageSize2mb at inside
      omega
    rw [region_entry same] at mapped
    exact mapped unmapped
  · intro addr above under trap
    obtain ⟨-, -, -, missing⟩ := trap_in_directory trap (region addr above under) present
    exact found missing
  · rintro ⟨virt, phys, size⟩ mapped above under
    simp only at above under
    cases size with
    | kb4 =>
        have start : pageSize ∣ virt := mapped.2.1
        have place : virt = position := by
          unfold pageSize at start
          omega
        subst place
        exact ⟨rfl, rfl, mapped.2.2⟩
    | mb2 =>
        have large : leaves root machine (largeEntry virt) = some phys := mapped.2.2
        rw [region_entry (region virt above under), unmapped] at large
        exact absurd large (by simp)
    | gb1 => exact absurd mapped.2 id

theorem round_moves (alloc : PageAllocator σ) (grid : OnGrid self.pml4 machine position)
    (below : position + pageSize < 2 ^ 64) :
    Moves self.pml4 machine position (self.iterRound alloc machine position) := by
  by_cases hole : position ≥ 0x0000_8000_0000_0000 ∧ position < 0xFFFF_8000_0000_0000
  · rw [PageTable.iterRound, if_pos hole]
    refine .skip hole.2 (on_grid_of_large (by decide) (by decide)) fun addr above under => ?_
    have outside : ¬Canonical addr := by
      unfold Canonical
      omega
    exact ⟨fun entry mapped here => outside (here ▸ mapped.1), fun trap => outside trap.1⟩
  have canonical : Canonical position := by
    have word := grid.word
    unfold Canonical
    omega
  rw [iter_round_canonical alloc canonical]
  cases foundPdpt : tables self.pml4 machine [index position 39] with
  | none => exact no_pdpt_moves canonical foundPdpt
  | some pdpt =>
  cases foundPd : tables self.pml4 machine [index position 30, index position 39] with
  | none => exact no_pd_moves canonical (by rw [foundPdpt]; simp) foundPd
  | some pd =>
  have present : tables self.pml4 machine [index position 30, index position 39] ≠ none := by
    rw [foundPd]
    simp
  cases large : leaves self.pml4 machine (largeEntry position) with
  | some phys => exact large_page_moves canonical grid present large
  | none =>
  cases foundPt : tables self.pml4 machine (largeEntry position) with
  | none => exact no_pt_moves canonical grid present large foundPt
  | some pt =>
  obtain ⟨gridNext, free, only⟩ := page_steps grid below (by rw [foundPt]; simp)
  have straight : add64 position pageSize = position + pageSize := add64_of_lt below
  have positive : 0 < pageSize := by decide
  cases small : leaves self.pml4 machine (smallEntry position) with
  | some phys =>
      dsimp only
      rw [straight]
      refine .found (by omega) gridNext rfl ⟨canonical, grid.aligned, small⟩ ?_ free
      rintro ⟨virt, otherPhys, size⟩ mapped above under
      obtain ⟨place, kind, sameLeaf⟩ := only _ mapped above under
      have physical := Option.some.inj (sameLeaf.symm.trans small)
      simp only at place kind physical
      rw [place, kind, physical]
  | none =>
      dsimp only
      rw [straight]
      refine .skip (by omega) gridNext fun addr above under => ⟨?_, free addr above under⟩
      rintro entry mapped rfl
      obtain ⟨-, -, sameLeaf⟩ := only entry mapped above under
      exact absurd (small.symm.trans sameLeaf) (by simp)

end Rounds

/-- The values of successive calls of `next`, up to the first `None`. Every call
returns. -/
inductive Iterates (self : PageTable) (alloc : PageAllocator σ) (machine : Machine σ) :
    PageTableIter → List PageTableEntry → Prop
  | ends {iter after : PageTableIter} (rounds : Nat)
      (returned : self.next alloc machine rounds iter = some (none, after)) :
      Iterates self alloc machine iter []
  | yields {iter after : PageTableIter} {entry : PageTableEntry} {entries : List PageTableEntry}
      (rounds : Nat) (returned : self.next alloc machine rounds iter = some (some entry, after))
      (rest : Iterates self alloc machine after entries) :
      Iterates self alloc machine iter (entry :: entries)

def PageSize.bytes : PageSize → Nat
  | .kb4 => pageSize
  | .mb2 => pageSize2mb
  | .gb1 => 1024 * 1024 * 1024

def Intersects (entry : PageTableEntry) (begin_ end_ : Nat) : Prop :=
  ∃ addr, begin_ ≤ addr ∧ addr < end_ ∧ entry.virt ≤ addr ∧
    addr < entry.virt + entry.pageSize.bytes

/-- In increasing order and once each, the mapped pages that the range meets,
with the physical addresses that `translate` gives. -/
structure ExactlyMapped (self : PageTable) (alloc : PageAllocator σ) (machine : Machine σ)
    (begin_ end_ : Nat) (entries : List PageTableEntry) : Prop where
  ordered : entries.Pairwise fun left right => left.virt < right.virt
  mapped : ∀ entry, entry ∈ entries ↔
    LeafMapping self.pml4 machine entry ∧ Intersects entry begin_ end_
  agrees : ∀ entry ∈ entries, self.translate alloc entry.virt machine = .ok entry.phys machine

section Calls

variable {alloc : PageAllocator σ} {position next end_ rounds : Nat}

theorem next_stop (inside : position < end_)
    (round : self.iterRound alloc machine position = .stop) :
    self.next alloc machine (rounds + 1) ⟨position, end_⟩ = some (none, ⟨position, end_⟩) := by
  rw [PageTable.next, if_pos inside, round]

theorem next_skip (inside : position < end_)
    (round : self.iterRound alloc machine position = .skip next) :
    self.next alloc machine (rounds + 1) ⟨position, end_⟩ =
      self.next alloc machine rounds ⟨next, end_⟩ := by
  rw [PageTable.next, if_pos inside, round]

theorem next_found {entry : PageTableEntry} (inside : position < end_)
    (round : self.iterRound alloc machine position = .found entry next) :
    self.next alloc machine (rounds + 1) ⟨position, end_⟩ = some (some entry, ⟨next, end_⟩) := by
  rw [PageTable.next, if_pos inside, round]

theorem next_past (outside : ¬position < end_) :
    self.next alloc machine (rounds + 1) ⟨position, end_⟩ = some (none, ⟨position, end_⟩) := by
  rw [PageTable.next, if_neg outside]

theorem iterates_skip {entries : List PageTableEntry} (inside : position < end_)
    (round : self.iterRound alloc machine position = .skip next)
    (rest : Iterates self alloc machine ⟨next, end_⟩ entries) :
    Iterates self alloc machine ⟨position, end_⟩ entries := by
  cases rest with
  | ends rounds returned => exact .ends (rounds + 1) ((next_skip inside round).trans returned)
  | yields rounds returned rest =>
      exact .yields (rounds + 1) ((next_skip inside round).trans returned) rest

/-- Without a trap ahead the iteration ends, and yields what starts in the rest
of the range. The induction is on the length of that rest. -/
theorem iterates_ahead (alloc : PageAllocator σ) (endAligned : pageSize ∣ end_)
    (endWord : end_ < 2 ^ 64) (length : Nat) :
    ∀ position, end_ - position ≤ length → OnGrid self.pml4 machine position →
      (∀ addr, position ≤ addr → addr < end_ → ¬Trap self.pml4 machine addr) →
      ∃ entries, Iterates self alloc machine ⟨position, end_⟩ entries ∧
        entries.Pairwise (fun left right => left.virt < right.virt) ∧
        ∀ entry, entry ∈ entries ↔
          LeafMapping self.pml4 machine entry ∧ position ≤ entry.virt ∧ entry.virt < end_ := by
  induction length with
  | zero =>
      intro position short grid _
      have outside : ¬position < end_ := by omega
      refine ⟨[], .ends 1 (next_past outside), List.Pairwise.nil, fun entry => ?_⟩
      constructor
      · exact fun member => absurd member (by simp)
      · rintro ⟨-, above, below⟩
        omega
  | succ length ih =>
      intro position short grid free
      by_cases inside : position < end_
      swap
      · exact ih position (by omega) grid free
      have room : position + pageSize < 2 ^ 64 := by
        have aligned := grid.aligned
        unfold pageSize at aligned endAligned ⊢
        omega
      generalize round : self.iterRound alloc machine position = result
      have moves := round_moves alloc grid room
      rw [round] at moves
      cases moves with
      | stop bare =>
          refine ⟨[], .ends 1 (next_stop inside round), List.Pairwise.nil, fun entry => ?_⟩
          constructor
          · exact fun member => absurd member (by simp)
          · rintro ⟨mapped, above, below⟩
            exact absurd rfl ((bare entry.virt above (by omega)).1 entry mapped)
      | skip forward gridNext bare =>
          obtain ⟨entries, iterates, ordered, members⟩ := ih _ (by omega) gridNext
            (fun addr above below => free addr (by omega) below)
          refine ⟨entries, iterates_skip inside round iterates, ordered, fun entry => ?_⟩
          rw [members entry]
          constructor
          · rintro ⟨mapped, above, below⟩
            exact ⟨mapped, by omega, below⟩
          · rintro ⟨mapped, above, below⟩
            refine ⟨mapped, ?_, below⟩
            by_contra before
            exact (bare entry.virt above (by omega)).1 entry mapped rfl
      | @found first next forward gridNext here mapped only _ =>
          obtain ⟨entries, iterates, ordered, members⟩ := ih _ (by omega) gridNext
            (fun addr above below => free addr (by omega) below)
          refine ⟨_ :: entries, .yields 1 (next_found inside round) iterates,
            List.pairwise_cons.mpr ⟨?_, ordered⟩, fun entry => ?_⟩
          · intro later member
            have above := ((members later).mp member).2.1
            omega
          · rw [List.mem_cons, members entry]
            constructor
            · rintro (rfl | ⟨later, above, below⟩)
              · exact ⟨mapped, by omega, by omega⟩
              · exact ⟨later, by omega, below⟩
            · rintro ⟨other, above, below⟩
              by_cases before : entry.virt < next
              · exact Or.inl (only entry other above before)
              · exact Or.inr ⟨other, by omega, below⟩
      | back trap _ _ _ => exact absurd trap (free position (Nat.le_refl _) inside)

/-- With a trap ahead a call of `next` yields or does not return, and leaves a
trap ahead. -/
theorem next_trapped (alloc : PageAllocator σ) (endAligned : pageSize ∣ end_)
    (endWord : end_ < 2 ^ 64) (rounds : Nat) :
    ∀ position trap, OnGrid self.pml4 machine position → position ≤ trap → trap < end_ →
      Trap self.pml4 machine trap → ∀ result,
      self.next alloc machine rounds ⟨position, end_⟩ = some result →
      ∃ entry next trap, result = (some entry, ⟨next, end_⟩) ∧ OnGrid self.pml4 machine next ∧
        next ≤ trap ∧ trap < end_ ∧ Trap self.pml4 machine trap := by
  induction rounds with
  | zero =>
      intro position trap _ _ _ _ result returned
      exact absurd returned (by simp [PageTable.next])
  | succ rounds ih =>
      intro position trap grid ahead below trapped result returned
      have inside : position < end_ := by omega
      have room : position + pageSize < 2 ^ 64 := by
        have aligned := grid.aligned
        unfold pageSize at aligned endAligned ⊢
        omega
      generalize round : self.iterRound alloc machine position = outcome
      have moves := round_moves alloc grid room
      rw [round] at moves
      cases moves with
      | stop bare => exact absurd trapped (bare trap ahead (by omega)).2
      | @skip next forward gridNext bare =>
          rw [next_skip inside round] at returned
          have later : next ≤ trap := by
            by_contra before
            exact (bare trap ahead (by omega)).2 trapped
          exact ih _ trap gridNext later below trapped result returned
      | @found entry next forward gridNext here mapped only free =>
          rw [next_found inside round] at returned
          have later : next ≤ trap := by
            by_contra before
            exact free trap ahead (by omega) trapped
          exact ⟨_, _, trap, (Option.some.inj returned).symm, gridNext, later, below, trapped⟩
      | back trapHere moves backward gridNext =>
          rcases moves with rfl | ⟨entry, rfl⟩
          · rw [next_skip inside round] at returned
            exact ih _ position gridNext backward inside trapHere result returned
          · rw [next_found inside round] at returned
            exact ⟨_, _, position, (Option.some.inj returned).symm, gridNext, backward, inside,
              trapHere⟩

theorem trapped_never_ends {trap : Nat} {entries : List PageTableEntry}
    (endAligned : pageSize ∣ end_) (endWord : end_ < 2 ^ 64)
    (grid : OnGrid self.pml4 machine position) (ahead : position ≤ trap) (below : trap < end_)
    (trapped : Trap self.pml4 machine trap) :
    ¬Iterates self alloc machine ⟨position, end_⟩ entries := by
  intro iterates
  generalize start : (⟨position, end_⟩ : PageTableIter) = iter at iterates
  induction iterates generalizing position trap with
  | ends rounds returned =>
      subst start
      obtain ⟨_, _, _, impossible, _⟩ :=
        next_trapped alloc endAligned endWord rounds position trap grid ahead below trapped _
          returned
      exact absurd (Prod.ext_iff.mp impossible).1 (by simp)
  | yields rounds returned _ ih =>
      subst start
      obtain ⟨_, next, later, shape, gridNext, ahead, below, trapped⟩ :=
        next_trapped alloc endAligned endWord rounds position trap grid ahead below trapped _
          returned
      exact ih gridNext ahead below trapped (Prod.ext_iff.mp shape).2.symm

end Calls

section Range

variable {alloc : PageAllocator σ} {begin_ end_ : Nat} {entry : PageTableEntry}

theorem small_leaf_uncovered {virt phys : Nat}
    (mapped : leaves root machine (smallEntry virt) = some phys) :
    leaves root machine (largeEntry virt) = none := by
  cases found : tables root machine (largeEntry virt) with
  | none =>
      have none : leaves root machine (smallEntry virt) = none := leaf_at_missing _ found
      exact absurd (none.symm.trans mapped) (by simp)
  | some table => exact leaf_at_of_table descend_leaf_exclusive found

theorem leaf_mapping_translates (alloc : PageAllocator σ)
    (mapped : LeafMapping self.pml4 machine entry) :
    self.translate alloc entry.virt machine = .ok entry.phys machine := by
  rw [translate_lookup, lookup]
  obtain ⟨virt, phys, size⟩ := entry
  cases size with
  | kb4 =>
      have start : virt % pageSize = 0 := Nat.mod_eq_zero_of_dvd mapped.2.1
      have small : leaves self.pml4 machine (smallEntry virt) = some phys := mapped.2.2
      rw [small_leaf_uncovered small, small, start]
      rfl
  | mb2 =>
      have start : virt % pageSize2mb = 0 := Nat.mod_eq_zero_of_dvd mapped.2.1
      have large : leaves self.pml4 machine (largeEntry virt) = some phys := mapped.2.2
      rw [large, start]
      rfl
  | gb1 => exact absurd mapped.2 id

/-- A page that meets a range starts in it, unless the range begins inside a
large page. -/
theorem intersects_iff_starts (beginAligned : pageSize ∣ begin_)
    (outside : begin_ < end_ → ¬InsideLarge root machine begin_)
    (mapped : LeafMapping root machine entry) :
    Intersects entry begin_ end_ ↔ begin_ ≤ entry.virt ∧ entry.virt < end_ := by
  obtain ⟨virt, phys, size⟩ := entry
  have canonical : Canonical virt := mapped.1
  constructor
  · rintro ⟨addr, above, below, after, before⟩
    refine ⟨?_, by omega⟩
    by_contra early
    simp only at early after before
    cases size with
    | kb4 =>
        have start : pageSize ∣ virt := mapped.2.1
        simp only [PageSize.bytes] at before
        unfold pageSize at start before beginAligned
        omega
    | mb2 =>
        have start : pageSize2mb ∣ virt := mapped.2.1
        have large : leaves root machine (largeEntry virt) = some phys := mapped.2.2
        simp only [PageSize.bytes] at before
        unfold pageSize2mb at start before
        have same : begin_ / 2 ^ 21 = virt / 2 ^ 21 := by omega
        refine outside (by omega) ⟨?_, ?_, ?_⟩
        · unfold Canonical at canonical ⊢
          omega
        · unfold pageSize2mb
          omega
        · rw [region_entry same, large]
          simp
    | gb1 => exact mapped.2
  · rintro ⟨above, below⟩
    refine ⟨virt, above, below, Nat.le_refl _, ?_⟩
    have positive : 0 < size.bytes := by
      cases size with
      | kb4 => decide
      | mb2 => decide
      | gb1 => decide
    simp only
    omega

theorem round_at_large (alloc : PageAllocator σ) {position phys : Nat}
    (canonical : Canonical position)
    (large : leaves self.pml4 machine (largeEntry position) = some phys) :
    self.iterRound alloc machine position = .found ⟨position, phys, .mb2⟩
      (add64 position pageSize2mb) := by
  have directory : tables self.pml4 machine [index position 30, index position 39] ≠ none := by
    intro missing
    have none : leaves self.pml4 machine (largeEntry position) = none := leaf_at_missing _ missing
    exact absurd (none.symm.trans large) (by simp)
  obtain ⟨pd, foundPd⟩ := Option.ne_none_iff_exists'.mp directory
  obtain ⟨pdpt, foundPdpt⟩ : ∃ pdpt, tables self.pml4 machine [index position 39] = some pdpt :=
    table_at_suffix foundPd ⟨[index position 30], rfl⟩
  rw [iter_round_canonical alloc canonical, foundPdpt, foundPd, large]

theorem round_at_small (alloc : PageAllocator σ) {position phys : Nat}
    (canonical : Canonical position)
    (small : leaves self.pml4 machine (smallEntry position) = some phys) :
    self.iterRound alloc machine position = .found ⟨position, phys, .kb4⟩
      (add64 position pageSize) := by
  have covered : tables self.pml4 machine (largeEntry position) ≠ none := by
    intro missing
    have none : leaves self.pml4 machine (smallEntry position) = none := leaf_at_missing _ missing
    exact absurd (none.symm.trans small) (by simp)
  obtain ⟨pt, foundPt⟩ := Option.ne_none_iff_exists'.mp covered
  obtain ⟨pd, foundPd⟩ : ∃ pd, tables self.pml4 machine [index position 30, index position 39] =
      some pd :=
    table_at_suffix foundPt ⟨[index position 21], rfl⟩
  obtain ⟨pdpt, foundPdpt⟩ : ∃ pdpt, tables self.pml4 machine [index position 39] = some pdpt :=
    table_at_suffix foundPd ⟨[index position 30], rfl⟩
  rw [iter_round_canonical alloc canonical, foundPdpt, foundPd, small_leaf_uncovered small,
    foundPt, small]

theorem inside_large_yields {entries : List PageTableEntry} (inside : begin_ < end_)
    (large : InsideLarge self.pml4 machine begin_)
    (iterates : Iterates self alloc machine ⟨begin_, end_⟩ entries) :
    ∃ phys, ⟨begin_, phys, .mb2⟩ ∈ entries := by
  obtain ⟨canonical, -, covered⟩ := large
  obtain ⟨phys, found⟩ := Option.ne_none_iff_exists'.mp covered
  have round := round_at_large alloc canonical found
  refine ⟨phys, ?_⟩
  cases iterates with
  | ends rounds returned =>
      cases rounds with
      | zero => exact absurd returned (by simp [PageTable.next])
      | succ rounds =>
          rw [next_found inside round] at returned
          exact absurd (Prod.ext_iff.mp (Option.some.inj returned)).1 (by simp)
  | yields rounds returned rest =>
      cases rounds with
      | zero => exact absurd returned (by simp [PageTable.next])
      | succ rounds =>
          rw [next_found inside round] at returned
          have first := (Prod.ext_iff.mp (Option.some.inj returned)).1
          simp only [Option.some.injEq] at first
          rw [← first]
          exact List.mem_cons_self

/-- Iterating over a range ends and is exact if and only if no trap lies in the
range and the range does not begin inside a large page. -/
theorem iteration_exact_iff (alloc : PageAllocator σ) (self : PageTable) (machine : Machine σ)
    (begin_ end_ : Nat) (beginAligned : pageSize ∣ begin_) (endAligned : pageSize ∣ end_)
    (ordered : begin_ ≤ end_) (endWord : end_ < 2 ^ 64) :
    (∃ entries, Iterates self alloc machine (self.iterRange begin_ end_) entries ∧
        ExactlyMapped self alloc machine begin_ end_ entries) ↔
      (∀ addr, begin_ ≤ addr → addr < end_ → ¬Trap self.pml4 machine addr) ∧
        (begin_ < end_ → ¬InsideLarge self.pml4 machine begin_) := by
  constructor
  · rintro ⟨entries, iterates, -, members, -⟩
    have outside : begin_ < end_ → ¬InsideLarge self.pml4 machine begin_ := by
      intro inside large
      obtain ⟨phys, member⟩ := inside_large_yields inside large iterates
      exact large.2.1 ((members _).mp member).1.2.1
    refine ⟨fun addr above below trap => ?_, outside⟩
    have grid : OnGrid self.pml4 machine begin_ :=
      ⟨by omega, beginAligned, outside (by omega)⟩
    exact trapped_never_ends endAligned endWord grid above below trap iterates
  · rintro ⟨free, outside⟩
    by_cases inside : begin_ < end_
    · have grid : OnGrid self.pml4 machine begin_ := ⟨by omega, beginAligned, outside inside⟩
      obtain ⟨entries, iterates, increasing, members⟩ :=
        iterates_ahead alloc endAligned endWord (end_ - begin_) begin_ (Nat.le_refl _) grid free
      refine ⟨entries, iterates, increasing, fun entry => ?_, fun entry member => ?_⟩
      · rw [members entry]
        exact and_congr_right fun mapped =>
          (intersects_iff_starts beginAligned outside mapped).symm
      · exact leaf_mapping_translates alloc ((members entry).mp member).1
    · refine ⟨[], .ends 1 (next_past inside), List.Pairwise.nil, fun entry => ?_, ?_⟩
      · constructor
        · exact fun member => absurd member (by simp)
        · rintro ⟨-, addr, above, below, -⟩
          omega
      · exact fun entry member => absurd member (by simp)

def onePage (virt : Nat) : Machine FreeList :=
  ([Op.map4kb virt 0x7000 (pagePresent ||| pageRw)].foldl
    (Session.step firstPage FreeList.lawful.toPageAllocator) ⟨threePages, fun _ => none⟩).machine

/-- One page below an even PML4 entry is found. -/
theorem first_page_iterates :
    ∃ entries, Iterates firstPage FreeList.lawful.toPageAllocator (onePage 0x1000)
        (firstPage.iterRange 0 0x2000) entries ∧
      ExactlyMapped firstPage FreeList.lawful.toPageAllocator (onePage 0x1000)
        0 0x2000 entries := by
  refine (iteration_exact_iff _ firstPage _ 0 0x2000 (by decide) (by decide) (by decide)
    (by decide)).mpr ⟨fun addr _ below trap => ?_, fun _ large => large.2.1 (by decide)⟩
  have pdpt := index_val addr 30
  rcases trap.2 with ⟨_, last, _⟩ | ⟨_, last, _⟩
  · omega
  · omega

/-- One page below PML4 entry 1, whose last PDPT entry stays absent. -/
theorem odd_slot_never_ends :
    ¬∃ entries, Iterates firstPage FreeList.lawful.toPageAllocator (onePage (2 ^ 39))
        (firstPage.iterRange (2 ^ 39) (2 ^ 40)) entries ∧
      ExactlyMapped firstPage FreeList.lawful.toPageAllocator (onePage (2 ^ 39)) (2 ^ 39) (2 ^ 40)
        entries := by
  rintro ⟨entries, iterates, -⟩
  have trapped : Trap firstPage.pml4 (onePage (2 ^ 39)) (2 ^ 39 + 511 * 2 ^ 30) := by
    refine ⟨Or.inl (by decide), Or.inl ⟨by decide, by decide, ?_, ?_⟩⟩
    · decide +kernel
    · decide +kernel
  exact trapped_never_ends (by decide) (by decide) (on_grid_of_large (by decide) (by decide))
    (by decide) (by decide) trapped iterates

end Range

end Campix.Paging
