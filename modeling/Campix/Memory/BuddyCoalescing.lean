import Campix.Memory.BuddyRuns
import Campix.Lib.Dyadic

/-!
# The buddy allocator coalesces fully

In pages counted from the base of the region the blocks of the free lists are
dyadic blocks. The invariant of the sessions says that they hold no pair of
buddies; so every aligned run of free pages lies in one free block, which is
what `alloc` looks for, and a region with nothing live has only one way to be
divided: the one `new` started from.
-/

namespace Campix.Memory.BuddyCoalescing

open Lib.Word Lib.Tiling Lib.Chain Lib.Run Lib.Dyadic
open Memory.BuddyAlloc Memory.BuddyInvariant Memory.BuddyRuns

set_option autoImplicit false

def FreeLists (alloc : BuddyPageAllocator) (lists : Nat → List Nat) : Prop :=
  ∀ order ≤ maxOrder, Links FreeBlock.next alloc.mem (alloc.freeLists order) (lists order)

/-- The `2^order` pages from page `start` on lie in the region, and no live
block holds one of them. -/
def FreeRun (baseAddr pageCount : Nat) (session : Session) (start order : Nat) : Prop :=
  start + 2 ^ order ≤ pageCount ∧
    ∀ page, start ≤ page → page < start + 2 ^ order → ¬Holds session (baseAddr + pageSize * page)

def family (baseAddr : Nat) (lists : Nat → List Nat) (order index : Nat) : Prop :=
  order ≤ maxOrder ∧ baseAddr + blockSize order * index ∈ lists order

section Family

variable {alloc : BuddyPageAllocator} {lists : Nat → List Nat} {live : List (Nat × Nat)}

theorem family_coarse {baseAddr : Nat} (coalesced : Coalesced baseAddr lists) :
    Coarse (family baseAddr lists) := by
  rintro order half ⟨bound, lower⟩ ⟨_, upper⟩
  have whole : blockSize (order + 1) * half = blockSize order * (2 * half) := by
    rw [block_size_succ]
    ring
  apply coalesced order bound _ lower
  · rw [Nat.add_sub_cancel_left, ← whole]
    exact Nat.dvd_mul_right _ half
  · rw [Nat.add_assoc, ← Nat.mul_succ]
    exact upper

theorem page_in_block {page order index : Nat} :
    (blockSize order * index ≤ pageSize * page ∧
      pageSize * page < blockSize order * index + blockSize order) ↔ page / 2 ^ order = index := by
  have positive : 0 < 2 ^ order := Nat.two_pow_pos order
  have left : blockSize order * index = pageSize * (2 ^ order * index) := by
    rw [blockSize, Nat.mul_assoc]
  have right : blockSize order * index + blockSize order = pageSize *
      (2 ^ order * (index + 1)) := by
    rw [left, Nat.mul_succ (2 ^ order), Nat.mul_add, blockSize]
  rw [right, left, Nat.mul_le_mul_left_iff (by decide), Nat.mul_lt_mul_left (by decide),
    Nat.div_eq_iff positive, Nat.mul_comm (2 ^ order), Nat.mul_comm (2 ^ order), Nat.succ_mul]
  omega

/-- A free block is the block of the family that its pages fall in. -/
theorem listed_index (holding : Holding alloc lists live) {addr order : Nat}
    (bound : order ≤ maxOrder) (listed : addr ∈ lists order) :
    ∃ index, addr = alloc.baseAddr + blockSize order * index ∧
      family alloc.baseAddr lists order index := by
  obtain ⟨above, _⟩ := listed_within holding bound listed
  obtain ⟨index, offset⟩ := (holding.aligned _ (listed_block lists live bound listed)).2
  simp only at offset
  have place : addr = alloc.baseAddr + blockSize order * index := by omega
  exact ⟨index, place, bound, place ▸ listed⟩

theorem family_covers (baseAddr page order : Nat) :
    (blockSpan (baseAddr + blockSize order * (page / 2 ^ order), order)).Covers
      (baseAddr + pageSize * page) := by
  obtain ⟨lower, upper⟩ := page_in_block.mpr (rfl : page / 2 ^ order = page / 2 ^ order)
  simp only [Span.Covers, blockSpan]
  omega

theorem family_apart (holding : Holding alloc lists live) :
    Apart (family alloc.baseAddr lists) := by
  intro page left right onLeft onRight
  have leftMember := listed_block lists live onLeft.1 onLeft.2
  have rightMember := listed_block lists live onRight.1 onRight.2
  have same := tiles_shared_point holding.tiles (List.mem_map_of_mem leftMember)
    (List.mem_map_of_mem rightMember) (family_covers alloc.baseAddr page left)
    (family_covers alloc.baseAddr page right)
  have sizes : pageSize * 2 ^ left = pageSize * 2 ^ right := congrArg Span.size same
  exact Nat.pow_right_injective (Nat.le_refl 2) (Nat.eq_of_mul_eq_mul_left (by decide) sizes)

theorem family_covered {session : Session} (holding : Holding session.alloc lists session.live)
    (page : Nat) :
    Covered (family session.alloc.baseAddr lists) page ↔
      page < session.alloc.pageCount ∧
        ¬Holds session (session.alloc.baseAddr + pageSize * page) := by
  constructor
  · rintro ⟨order, member⟩
    have covers := family_covers session.alloc.baseAddr page order
    have listed := listed_block lists session.live member.1 member.2
    have inside := (holding.tiles.cover _).mp ⟨_, List.mem_map_of_mem listed, covers⟩
    refine ⟨by simp only [pageSize] at inside; omega, ?_⟩
    rintro ⟨block, held, around⟩
    exact free_apart_held holding member.1 member.2 held _ covers around
  · rintro ⟨inside, notHeld⟩
    have region : session.alloc.baseAddr + pageSize * page <
        session.alloc.baseAddr + pageSize * session.alloc.pageCount := by
      simp only [pageSize]
      omega
    obtain ⟨span, spanMember, covers⟩ :=
      (holding.tiles.cover (session.alloc.baseAddr + pageSize * page)).mpr
        ⟨Nat.le_add_right _ _, region⟩
    obtain ⟨⟨addr, order⟩, blockMember, rfl⟩ := List.mem_map.mp spanMember
    rcases List.mem_append.mp blockMember with free | held
    · obtain ⟨bound, listed⟩ := mem_free_blocks.mp free
      simp only at bound listed
      obtain ⟨index, place, member⟩ := listed_index holding bound listed
      simp only [Span.Covers, blockSpan] at covers
      have within : page / 2 ^ order = index := page_in_block.mp (by omega)
      exact ⟨order, within ▸ member⟩
    · exact absurd ⟨_, held, covers⟩ notHeld

/-- The block that `free` would merge with is not free. -/
theorem buddy_not_listed (holding : Holding alloc lists live)
    (coalesced : Coalesced alloc.baseAddr lists) {addr order : Nat} (bound : order ≤ maxOrder)
    (listed : addr ∈ lists order) :
    add64 (findBuddy (sub64 addr alloc.baseAddr) order) alloc.baseAddr ∉ lists order := by
  intro buddyListed
  obtain ⟨above, below⟩ := listed_within holding bound listed
  have positive := block_size_pos order
  obtain ⟨index, place, _⟩ := listed_index holding bound listed
  rw [sub64_of_le above] at buddyListed
  have straight := buddy_in_region holding bound (by omega : addr - alloc.baseAddr < _)
    (listed_within holding bound buddyListed).1
  rw [straight] at buddyListed
  have even : ∀ half, blockSize (order + 1) ∣ blockSize order * (2 * half) := by
    intro half
    rw [block_size_succ]
    exact ⟨half, by ring⟩
  rcases Nat.even_or_odd' index with ⟨half, rfl | rfl⟩
  · have offset : addr - alloc.baseAddr = blockSize order * (2 * half) := by omega
    rw [offset, find_buddy_lower (even half), ← Nat.add_assoc, ← place] at buddyListed
    exact coalesced order bound addr listed (offset ▸ even half) buddyListed
  · have offset : addr - alloc.baseAddr = blockSize order * (2 * half) + blockSize order := by
      rw [Nat.mul_succ] at place
      omega
    rw [offset, find_buddy_upper (even half)] at buddyListed
    apply coalesced order bound _ buddyListed
    · rw [Nat.add_sub_cancel_left]
      exact even half
    · have upper : alloc.baseAddr + blockSize order * (2 * half) + blockSize order = addr := by
        omega
      rw [upper]
      exact listed

end Family

section Sessions

variable {baseAddr pageCount : Nat} {session : Session} {lists : Nat → List Nat}

theorem free_run_listed (holding : Holding session.alloc lists session.live)
    (coalesced : Coalesced session.alloc.baseAddr lists) {index order : Nat}
    (free : FreeRun session.alloc.baseAddr session.alloc.pageCount session (index * 2 ^ order)
      order) :
    ∃ list, order ≤ list ∧ list ≤ maxOrder ∧ lists list ≠ [] := by
  obtain ⟨inside, unheld⟩ := free
  have covered : ∀ page, page / 2 ^ order = index →
      Covered (family session.alloc.baseAddr lists) page := by
    intro page within
    have bounds := (Nat.div_eq_iff (Nat.two_pow_pos order)).mp within
    have lower : index * 2 ^ order ≤ page := bounds.1
    have upper : page < index * 2 ^ order + 2 ^ order := by
      have positive := Nat.two_pow_pos order
      omega
    exact (family_covered holding page).mpr ⟨by omega, unheld page lower upper⟩
  obtain ⟨list, larger, member⟩ :=
    run_within_block (family_coarse coalesced) order index covered
  exact ⟨list, larger, member.1, List.ne_nil_of_mem member.2⟩

/-- What `alloc` cannot serve is not there. -/
theorem alloc_none_no_free_run (holding : Holding session.alloc lists session.live)
    (coalesced : Coalesced session.alloc.baseAddr lists) {numPages order : Nat}
    (positive : 0 < numPages) (required : requiredOrder numPages = .ok order) :
    ∃ block after, allocPages session.alloc numPages = .ok (block, after) ∧
      (block = none → ∀ index,
        ¬FreeRun session.alloc.baseAddr session.alloc.pageCount session (index * 2 ^ order)
          order) := by
  rcases alloc_pages_holding holding numPages with ⟨_, large⟩ | ⟨returned, empty⟩ |
    ⟨after, taken, _, top, _, returned, _⟩
  · have never := required_order_loop_never_returns large 65 0 (by decide)
    rw [pow_zero] at never
    exact absurd (required.symm.trans never) (by simp)
  · refine ⟨none, session.alloc, returned, fun _ index free => ?_⟩
    obtain ⟨list, larger, bound, nonEmpty⟩ := free_run_listed holding coalesced free
    exact nonEmpty (empty positive order required list larger bound)
  · exact ⟨some (top, taken), after, returned, fun nothing => absurd nothing (by simp)⟩

/-- Two ways to divide the same region, both coalesced and with nothing live,
list the same blocks. -/
theorem idle_lists_perm {other : Session} {otherLists : Nat → List Nat}
    (holding : Holding session.alloc lists session.live)
    (coalesced : Coalesced session.alloc.baseAddr lists)
    (otherHolding : Holding other.alloc otherLists other.live)
    (otherCoalesced : Coalesced other.alloc.baseAddr otherLists)
    (sameBase : session.alloc.baseAddr = other.alloc.baseAddr)
    (sameCount : session.alloc.pageCount = other.alloc.pageCount)
    (idle : session.live = []) (otherIdle : other.live = []) {order : Nat}
    (bound : order ≤ maxOrder) : (lists order).Perm (otherLists order) := by
  have nothing : ∀ page, ¬Holds session page := by
    rintro page ⟨block, held, _⟩
    rw [idle] at held
    exact absurd held (by simp)
  have otherNothing : ∀ page, ¬Holds other page := by
    rintro page ⟨block, held, _⟩
    rw [otherIdle] at held
    exact absurd held (by simp)
  have samePages : ∀ page, Covered (family session.alloc.baseAddr lists) page ↔
      Covered (family other.alloc.baseAddr otherLists) page := by
    intro page
    rw [family_covered holding, family_covered otherHolding, sameCount]
    simp only [nothing, otherNothing]
  rw [List.perm_ext_iff_of_nodup (list_nodup holding bound) (list_nodup otherHolding bound)]
  intro addr
  constructor
  · intro listed
    obtain ⟨index, place, member⟩ := listed_index holding bound listed
    have there := coarse_unique (family_coarse coalesced) (family_coarse otherCoalesced)
      (family_apart holding) samePages member
    rw [place, sameBase]
    exact there.2
  · intro listed
    obtain ⟨index, place, member⟩ := listed_index otherHolding bound listed
    have there := coarse_unique (family_coarse otherCoalesced) (family_coarse coalesced)
      (family_apart otherHolding) (fun page => (samePages page).symm) member
    rw [place, ← sameBase]
    exact there.2

end Sessions

/-- For every region that `new` may be given: in every state that a run of
`alloc`, `free` of held blocks and stores to held pages reaches, no free list
holds a block and its buddy, `alloc` gives nothing only when no aligned run of
the required order is free, and once nothing is live every free list holds the
blocks it held right after `new`. -/
theorem buddies_coalesce (mem : Nat → FreeBlock) (baseAddr pageCount : Nat)
    (aligned : baseAddr % pageSize = 0) (nonNull : 0 < baseAddr) (nonEmpty : 0 < pageCount)
    (small : pageCount < 2 ^ 29) (fits : baseAddr + pageSize * pageCount ≤ 2 ^ 64) :
    ∃ alloc initial, new mem baseAddr pageCount = .ok alloc ∧ FreeLists alloc initial ∧
      ∀ calls session, run perform ⟨alloc, []⟩ calls = .ok session →
        ∃ lists, FreeLists session.alloc lists ∧
          (∀ order ≤ maxOrder, ∀ addr ∈ lists order,
            add64 (findBuddy (sub64 addr baseAddr) order) baseAddr ∉ lists order) ∧
          (∀ numPages order, 0 < numPages → requiredOrder numPages = .ok order →
            order ≤ maxOrder →
            ∃ block after, allocPages session.alloc numPages = .ok (block, after) ∧
              (block = none → ∀ index,
                ¬FreeRun baseAddr pageCount session (index * 2 ^ order) order)) ∧
          (session.live = [] → ∀ order ≤ maxOrder, (lists order).Perm (initial order)) := by
  obtain ⟨alloc, created, sound⟩ := new_sound mem aligned nonNull nonEmpty small fits
  obtain ⟨initial, initialHolding, initialCoalesced⟩ := sound.holding
  refine ⟨alloc, initial, created, initialHolding.links, fun calls session ran => ?_⟩
  obtain ⟨⟨lists, holding, coalesced⟩, base, count, _⟩ := run_sound sound ran
  have sameBase : session.alloc.baseAddr = alloc.baseAddr := base.trans sound.base.symm
  have sameCount : session.alloc.pageCount = alloc.pageCount := count.trans sound.count.symm
  rw [← base] at coalesced
  rw [← sound.base] at initialCoalesced
  refine ⟨lists, holding.links, ?_, ?_, ?_⟩
  · intro order bound addr listed
    rw [← base]
    exact buddy_not_listed holding coalesced bound listed
  · intro numPages order positive required _
    rw [← base, ← count]
    exact alloc_none_no_free_run holding coalesced positive required
  · intro idle order bound
    exact idle_lists_perm holding coalesced initialHolding initialCoalesced sameBase sameCount idle
      rfl bound

/-- Three pages at `0x1000`, where the lower block of two pages has a buddy of
which only half exists. -/
theorem three_page_region_coalesces :
    ∃ alloc initial, new (fun _ => ⟨none, 0⟩) 4096 3 = .ok alloc ∧ FreeLists alloc initial ∧
      ∀ calls session, run perform ⟨alloc, []⟩ calls = .ok session →
        ∃ lists, FreeLists session.alloc lists ∧
          (∀ order ≤ maxOrder, ∀ addr ∈ lists order,
            add64 (findBuddy (sub64 addr 4096) order) 4096 ∉ lists order) ∧
          (∀ numPages order, 0 < numPages → requiredOrder numPages = .ok order →
            order ≤ maxOrder →
            ∃ block after, allocPages session.alloc numPages = .ok (block, after) ∧
              (block = none → ∀ index, ¬FreeRun 4096 3 session (index * 2 ^ order) order)) ∧
          (session.live = [] → ∀ order ≤ maxOrder, (lists order).Perm (initial order)) :=
  buddies_coalesce (fun _ => ⟨none, 0⟩) 4096 3 (by decide) (by decide) (by decide) (by decide)
    (by decide)

end Campix.Memory.BuddyCoalescing
