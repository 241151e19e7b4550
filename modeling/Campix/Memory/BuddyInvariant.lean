import Campix.Memory.BuddyAlloc
import Campix.Lib.Tiling
import Campix.Lib.Chain
import Campix.Lib.Fallible
import Mathlib.Algebra.Order.BigOperators.Group.List

/-!
# The blocks of the buddy allocator tile its region

`Holding alloc lists rest` is the representation invariant: the free lists are
the chains `lists`, their headers carry the right order, and the free blocks
together with the blocks `rest` (live, or in the hands of the allocator in the
middle of a call) are aligned and tile the managed region. Every primitive of
the allocator moves blocks between `lists` and `rest`, splits one or merges
two; `alloc` and `free` are assembled from those rules.
-/

namespace Campix.Memory.BuddyInvariant

open Lib.Word Lib.Tiling Lib.Chain
open Lib.Fallible
open Memory.BuddyAlloc

set_option autoImplicit false

def blockSpan (block : Nat × Nat) : Span := ⟨block.1, blockSize block.2⟩

def freeBlocks (lists : Nat → List Nat) : List (Nat × Nat) :=
  (List.range (maxOrder + 1)).flatMap fun order => (lists order).map fun addr => (addr, order)

structure Holding (alloc : BuddyPageAllocator) (lists : Nat → List Nat)
    (rest : List (Nat × Nat)) : Prop where
  nonNull : 0 < alloc.baseAddr
  fits : alloc.baseAddr + pageSize * alloc.pageCount ≤ 2 ^ 64
  small : alloc.pageCount < 2 ^ 29
  links : ∀ order ≤ maxOrder,
    Links FreeBlock.next alloc.mem (alloc.freeLists order) (lists order)
  headers : ∀ order ≤ maxOrder, ∀ addr ∈ lists order, (alloc.mem addr).order = order
  tiles : Tiles alloc.baseAddr (alloc.baseAddr + pageSize * alloc.pageCount)
    ((freeBlocks lists ++ rest).map blockSpan)
  aligned : ∀ block ∈ freeBlocks lists ++ rest,
    block.2 ≤ maxOrder ∧ blockSize block.2 ∣ block.1 - alloc.baseAddr

/-- The headers inside the blocks `rest` are as before. -/
def Framed (rest : List (Nat × Nat)) (alloc after : BuddyPageAllocator) : Prop :=
  ∀ block ∈ rest, ∀ addr, (blockSpan block).Covers addr → after.mem addr = alloc.mem addr

/-- No free list holds both halves of a block of the next order. -/
def Coalesced (baseAddr : Nat) (lists : Nat → List Nat) : Prop :=
  ∀ order ≤ maxOrder, ∀ addr ∈ lists order, blockSize (order + 1) ∣ addr - baseAddr →
    addr + blockSize order ∉ lists order

/-- The free lists once the block `top` of the order `current`, whose list was
`top :: tail`, is split down to `order` and its lowest part is taken. -/
def carved (lists : Nat → List Nat) (order current top : Nat) (tail : List Nat) :
    Nat → List Nat :=
  fun list =>
    if list = current then tail
    else if order ≤ list ∧ list < current then [top + blockSize list]
    else lists list

theorem block_size_pos (order : Nat) : 0 < blockSize order := by
  simp [blockSize, pageSize]

theorem block_size_succ (order : Nat) :
    blockSize (order + 1) = blockSize order + blockSize order := by
  simp only [blockSize, pow_succ]
  ring

theorem page_size_le_block_size (order : Nat) : pageSize ≤ blockSize order :=
  Nat.le_mul_of_pos_right _ (by positivity)

theorem block_size_le_max {order : Nat} (bound : order ≤ maxOrder) :
    blockSize order ≤ 2 ^ 40 := by
  have power : 2 ^ order ≤ 2 ^ 28 := Nat.pow_le_pow_right (by norm_num) bound
  simp only [blockSize, pageSize]
  omega

/-- On a multiple of the block size the exclusive or of `find_buddy` moves one
block up from an even position and one block down from an odd one. -/
theorem find_buddy_cases (index order : Nat) :
    findBuddy (index * blockSize order) order =
      if index % 2 = 0 then index * blockSize order + blockSize order
      else index * blockSize order - blockSize order := by
  have shape : blockSize order = 2 ^ (12 + order) := by
    simp only [blockSize, pageSize, pow_add]
    norm_num
  have shifted : findBuddy (index * blockSize order) order =
      (index ^^^ 1) * blockSize order := by
    have left : index * 2 ^ (12 + order) = index <<< (12 + order) :=
      (Nat.shiftLeft_eq index (12 + order)).symm
    have right : 2 ^ (12 + order) = 1 <<< (12 + order) := by
      rw [Nat.shiftLeft_eq, Nat.one_mul]
    rw [findBuddy, shape, left]
    conv_lhs => rw [right]
    rw [← Nat.shiftLeft_xor_distrib, Nat.shiftLeft_eq]
  rw [shifted]
  split_ifs with even
  · rw [Nat.xor_one_of_even (Nat.even_iff.mpr even), Nat.add_mul, Nat.one_mul]
  · have odd : Odd index := Nat.odd_iff.mpr (by omega)
    rw [Nat.xor_one_of_odd odd, Nat.sub_mul, Nat.one_mul]

theorem find_buddy_lower {offset order : Nat} (even : blockSize (order + 1) ∣ offset) :
    findBuddy offset order = offset + blockSize order := by
  obtain ⟨half, rfl⟩ := even
  have shape : blockSize (order + 1) * half = 2 * half * blockSize order := by
    rw [block_size_succ]
    ring
  rw [shape, find_buddy_cases, if_pos (by omega)]

theorem find_buddy_upper {offset order : Nat} (even : blockSize (order + 1) ∣ offset) :
    findBuddy (offset + blockSize order) order = offset := by
  obtain ⟨half, rfl⟩ := even
  have shape : blockSize (order + 1) * half + blockSize order =
      (2 * half + 1) * blockSize order := by
    rw [block_size_succ]
    ring
  rw [shape, find_buddy_cases, if_neg (by omega), block_size_succ]
  have lower : (2 * half + 1) * blockSize order - blockSize order = 2 * half * blockSize order := by
    rw [Nat.add_mul, Nat.one_mul, Nat.add_sub_cancel]
  rw [lower]
  ring

theorem mem_free_blocks {lists : Nat → List Nat} {block : Nat × Nat} :
    block ∈ freeBlocks lists ↔ block.2 ≤ maxOrder ∧ block.1 ∈ lists block.2 := by
  obtain ⟨addr, order⟩ := block
  simp only [freeBlocks, List.mem_flatMap, List.mem_range, List.mem_map, Prod.mk.injEq]
  constructor
  · rintro ⟨_, bound, _, member, rfl, rfl⟩
    exact ⟨by omega, member⟩
  · rintro ⟨bound, member⟩
    exact ⟨order, by omega, addr, member, rfl, rfl⟩

private theorem flat_map_update_perm {lists : Nat → List Nat} {order addr : Nat}
    {grown orders : List Nat} (distinct : orders.Nodup) (member : order ∈ orders)
    (perm : grown.Perm (addr :: lists order)) :
    (orders.flatMap fun o => (Function.update lists order grown o).map fun a => (a, o)).Perm
      ((addr, order) :: orders.flatMap fun o => (lists o).map fun a => (a, o)) := by
  induction orders with
  | nil => exact absurd member (by simp)
  | cons first orders ih =>
      obtain ⟨fresh, distinct⟩ := List.nodup_cons.mp distinct
      simp only [List.flatMap_cons]
      by_cases same : first = order
      · subst same
        have others : (orders.flatMap fun o =>
            (Function.update lists first grown o).map fun a => (a, o)) =
            orders.flatMap fun o => (lists o).map fun a => (a, o) := by
          apply List.flatMap_congr
          intro o inside
          have different : o ≠ first := fun equal => fresh (equal ▸ inside)
          rw [Function.update_of_ne different]
        rw [others, Function.update_self]
        exact (perm.map fun a => (a, first)).append_right _
      · have inside : order ∈ orders := by
          rcases List.mem_cons.mp member with equal | inside
          · exact absurd equal.symm same
          · exact inside
        rw [Function.update_of_ne same]
        exact ((ih distinct inside).append_left _).trans List.perm_middle

theorem free_blocks_insert {lists : Nat → List Nat} {order addr : Nat} {grown : List Nat}
    (bound : order ≤ maxOrder) (perm : grown.Perm (addr :: lists order)) :
    (freeBlocks (Function.update lists order grown)).Perm ((addr, order) :: freeBlocks lists) :=
  flat_map_update_perm List.nodup_range (List.mem_range.mpr (by omega)) perm

theorem free_blocks_delete {lists : Nat → List Nat} {order addr : Nat} {shrunk : List Nat}
    (bound : order ≤ maxOrder) (perm : (lists order).Perm (addr :: shrunk)) :
    (freeBlocks lists).Perm ((addr, order) :: freeBlocks (Function.update lists order shrunk)) := by
  have grown : (lists order).Perm (addr :: Function.update lists order shrunk order) := by
    rw [Function.update_self]
    exact perm
  have back := free_blocks_insert bound grown
  rwa [Function.update_idem, Function.update_eq_self] at back

section Consequences

variable {alloc : BuddyPageAllocator} {lists : Nat → List Nat} {rest : List (Nat × Nat)}

theorem block_within (holding : Holding alloc lists rest) {block : Nat × Nat}
    (member : block ∈ freeBlocks lists ++ rest) :
    alloc.baseAddr ≤ block.1 ∧
      block.1 + blockSize block.2 ≤ alloc.baseAddr + pageSize * alloc.pageCount :=
  tiles_within holding.tiles (List.mem_map_of_mem member) (block_size_pos block.2)

theorem listed_block (lists : Nat → List Nat) (rest : List (Nat × Nat)) {addr order : Nat}
    (bound : order ≤ maxOrder) (listed : addr ∈ lists order) :
    (addr, order) ∈ freeBlocks lists ++ rest :=
  List.mem_append_left _ (mem_free_blocks.mpr ⟨bound, listed⟩)

theorem listed_within (holding : Holding alloc lists rest) {addr order : Nat}
    (bound : order ≤ maxOrder) (listed : addr ∈ lists order) :
    alloc.baseAddr ≤ addr ∧
      addr + blockSize order ≤ alloc.baseAddr + pageSize * alloc.pageCount :=
  block_within holding (listed_block lists rest bound listed)

theorem free_apart_held (holding : Holding alloc lists rest) {addr order : Nat}
    (bound : order ≤ maxOrder) (listed : addr ∈ lists order) {block : Nat × Nat}
    (member : block ∈ rest) : (blockSpan (addr, order)).Apart (blockSpan block) := by
  have apart := holding.tiles.apart
  rw [List.map_append] at apart
  have free : (addr, order) ∈ freeBlocks lists := mem_free_blocks.mpr ⟨bound, listed⟩
  exact (List.pairwise_append.mp apart).2.2 _ (List.mem_map_of_mem free) _
    (List.mem_map_of_mem member)

theorem starts_inside (addr order : Nat) : (blockSpan (addr, order)).Covers addr := by
  have positive := block_size_pos order
  simp only [Span.Covers, blockSpan]
  omega

/-- The blocks in the tiling other than its head start elsewhere. -/
theorem held_address_fresh {block other : Nat × Nat}
    (holding : Holding alloc lists (block :: rest))
    (member : other ∈ freeBlocks lists ++ rest) : other.1 ≠ block.1 := by
  intro same
  have tiles := tiles_perm (List.Perm.map blockSpan List.perm_middle) holding.tiles
  have apart := tiles_head_apart tiles (List.mem_map_of_mem member)
  apply apart block.1
  · have positive := block_size_pos block.2
    simp only [Span.Covers, blockSpan]
    omega
  · have positive := block_size_pos other.2
    simp only [Span.Covers, blockSpan]
    omega

theorem address_not_listed {addr order : Nat}
    (holding : Holding alloc lists ((addr, order) :: rest)) {list : Nat}
    (bound : list ≤ maxOrder) : addr ∉ lists list := by
  intro listed
  exact held_address_fresh holding (listed_block lists rest bound listed) rfl

theorem pages_total (holding : Holding alloc lists rest) :
    ((freeBlocks lists ++ rest).map fun block => blockSize block.2).sum =
      pageSize * alloc.pageCount := by
  have inhabited : ∀ span ∈ (freeBlocks lists ++ rest).map blockSpan, 0 < span.size := by
    intro span member
    obtain ⟨block, _, rfl⟩ := List.mem_map.mp member
    exact block_size_pos block.2
  have total := tiles_total holding.tiles inhabited
  rw [List.map_map, Nat.add_sub_cancel_left] at total
  exact total

theorem list_sublist (lists : Nat → List Nat) {order : Nat} (bound : order ≤ maxOrder) :
    ((lists order).map fun addr => (addr, order)).Sublist (freeBlocks lists) := by
  apply List.sublist_flatten_of_mem
  apply List.mem_map.mpr
  exact ⟨order, List.mem_range.mpr (by omega), rfl⟩

theorem list_nodup (holding : Holding alloc lists rest) {order : Nat} (bound : order ≤ maxOrder) :
    (lists order).Nodup := by
  have sublist := ((list_sublist lists bound).trans
    (List.sublist_append_left _ rest)).map blockSpan
  have apart := holding.tiles.apart.sublist sublist
  rw [List.pairwise_map, List.pairwise_map] at apart
  apply apart.imp
  intro left right apart same
  have positive := block_size_pos order
  apply apart left
  · simp only [Span.Covers, blockSpan]
    omega
  · simp only [Span.Covers, blockSpan]
    omega

theorem listed_once (holding : Holding alloc lists rest) {addr left right : Nat}
    (leftBound : left ≤ maxOrder) (rightBound : right ≤ maxOrder)
    (onLeft : addr ∈ lists left) (onRight : addr ∈ lists right) : left = right := by
  have listed : ∀ order ≤ maxOrder, addr ∈ lists order →
      blockSpan (addr, order) ∈ (freeBlocks lists ++ rest).map blockSpan :=
    fun order bound member => List.mem_map_of_mem (listed_block lists rest bound member)
  have same := tiles_shared_point holding.tiles (listed left leftBound onLeft)
    (listed right rightBound onRight) (starts_inside addr left) (starts_inside addr right)
  have sizes : pageSize * 2 ^ left = pageSize * 2 ^ right := congrArg Span.size same
  exact Nat.pow_right_injective (Nat.le_refl 2) (Nat.eq_of_mul_eq_mul_left (by decide) sizes)

theorem list_length_le (holding : Holding alloc lists rest) {order : Nat}
    (bound : order ≤ maxOrder) : (lists order).length ≤ alloc.pageCount := by
  have total := pages_total holding
  have shorter := (list_sublist lists bound).length_le
  have pages : (freeBlocks lists).length * pageSize ≤
      ((freeBlocks lists).map fun block => blockSize block.2).sum := by
    rw [← List.length_map (f := fun block : Nat × Nat => blockSize block.2)]
    apply List.card_nsmul_le_sum _ pageSize
    intro size member
    obtain ⟨block, _, rfl⟩ := List.mem_map.mp member
    exact page_size_le_block_size block.2
  rw [List.map_append, List.sum_append] at total
  rw [List.length_map] at shorter
  simp only [pageSize] at pages total
  omega

theorem holding_perm (holding : Holding alloc lists rest) {other : List (Nat × Nat)}
    (perm : rest.Perm other) : Holding alloc lists other :=
  { holding with
    tiles := tiles_perm ((perm.append_left _).map blockSpan) holding.tiles
    aligned := fun block member =>
      holding.aligned block ((perm.append_left _).mem_iff.mpr member) }

/-- The invariant reads the memory at the free blocks only. -/
theorem holding_mem (holding : Holding alloc lists rest) {mem : Nat → FreeBlock}
    (same : ∀ order ≤ maxOrder, ∀ addr ∈ lists order, mem addr = alloc.mem addr) :
    Holding { alloc with mem } lists rest := by
  refine ⟨holding.nonNull, holding.fits, holding.small, ?_, ?_, holding.tiles, holding.aligned⟩
  · intro order bound
    apply links_frame _ (holding.links order bound)
    intro addr listed
    simp only [same order bound addr listed]
  · intro order bound addr listed
    simp only [same order bound addr listed]
    exact holding.headers order bound addr listed

theorem head_within {block : Nat × Nat} (holding : Holding alloc lists (block :: rest)) :
    alloc.baseAddr ≤ block.1 ∧
      block.1 + blockSize block.2 ≤ alloc.baseAddr + pageSize * alloc.pageCount :=
  block_within holding (List.mem_append_right _ List.mem_cons_self)

theorem head_aligned {block : Nat × Nat} (holding : Holding alloc lists (block :: rest)) :
    block.2 ≤ maxOrder ∧ blockSize block.2 ∣ block.1 - alloc.baseAddr :=
  holding.aligned block (List.mem_append_right _ List.mem_cons_self)

private theorem head_perm {Item : Type} (left : List Item) (item : Item) (right : List Item) :
    (left ++ item :: right).Perm (item :: (left ++ right)) :=
  List.perm_middle

private theorem two_heads_perm {Item : Type} (left : List Item) (first second : Item)
    (right : List Item) :
    (left ++ first :: second :: right).Perm (first :: second :: (left ++ right)) :=
  (List.perm_middle).trans (List.Perm.cons first List.perm_middle)

theorem holding_split {addr order : Nat}
    (holding : Holding alloc lists ((addr, order + 1) :: rest)) :
    Holding alloc lists ((addr, order) :: (addr + blockSize order, order) :: rest) := by
  obtain ⟨bound, whole⟩ := head_aligned holding
  obtain ⟨above, _⟩ := head_within holding
  have half : blockSize order ∣ addr - alloc.baseAddr := by
    refine Nat.dvd_trans ?_ whole
    rw [block_size_succ]
    exact ⟨2, by ring⟩
  refine { holding with tiles := ?_, aligned := ?_ }
  · have tiles := tiles_perm ((head_perm _ _ _).map blockSpan) holding.tiles
    simp only [List.map_cons, blockSpan, block_size_succ] at tiles
    exact tiles_perm ((two_heads_perm _ _ _ _).map blockSpan).symm (tiles_split.mp tiles)
  · intro block member
    rcases List.mem_cons.mp ((two_heads_perm _ _ _ _).mem_iff.mp member) with rfl | member
    · exact ⟨by simp only at bound ⊢; omega, half⟩
    · rcases List.mem_cons.mp member with rfl | member
      · refine ⟨by simp only at bound ⊢; omega, ?_⟩
        have shape : addr + blockSize order - alloc.baseAddr =
            (addr - alloc.baseAddr) + blockSize order := by
          simp only at above
          omega
        simp only [shape]
        exact Nat.dvd_add half (Nat.dvd_refl _)
      · exact holding.aligned block
          ((head_perm _ _ _).mem_iff.mpr (List.mem_cons_of_mem _ member))

theorem holding_merge {addr order : Nat}
    (holding : Holding alloc lists ((addr, order) :: (addr + blockSize order, order) :: rest))
    (bound : order + 1 ≤ maxOrder) (whole : blockSize (order + 1) ∣ addr - alloc.baseAddr) :
    Holding alloc lists ((addr, order + 1) :: rest) := by
  refine { holding with tiles := ?_, aligned := ?_ }
  · have tiles := tiles_perm ((two_heads_perm _ _ _ _).map blockSpan) holding.tiles
    simp only [List.map_cons, blockSpan] at tiles
    apply tiles_perm ((head_perm _ _ _).map blockSpan).symm
    simp only [List.map_cons, blockSpan, block_size_succ]
    exact tiles_split.mpr tiles
  · intro block member
    rcases List.mem_cons.mp ((head_perm _ _ _).mem_iff.mp member) with rfl | member
    · exact ⟨bound, whole⟩
    · exact holding.aligned block ((two_heads_perm _ _ _ _).mem_iff.mpr
        (List.mem_cons_of_mem _ (List.mem_cons_of_mem _ member)))

def SameRegion (alloc after : BuddyPageAllocator) : Prop :=
  after.baseAddr = alloc.baseAddr ∧ after.pageCount = alloc.pageCount ∧
    after.allocatedPages = alloc.allocatedPages

theorem same_region_trans {first second third : BuddyPageAllocator}
    (left : SameRegion first second) (right : SameRegion second third) :
    SameRegion first third :=
  ⟨right.1.trans left.1, right.2.1.trans left.2.1, right.2.2.trans left.2.2⟩

theorem framed_refl (rest : List (Nat × Nat)) (alloc : BuddyPageAllocator) :
    Framed rest alloc alloc :=
  fun _ _ _ _ => rfl

theorem framed_trans {first second third : BuddyPageAllocator} (left : Framed rest first second)
    (right : Framed rest second third) : Framed rest first third :=
  fun block member addr inside =>
    (right block member addr inside).trans (left block member addr inside)

theorem framed_tail {block : Nat × Nat} {after : BuddyPageAllocator}
    (framed : Framed (block :: rest) alloc after) : Framed rest alloc after :=
  fun other member => framed other (List.mem_cons_of_mem _ member)

/-- `consume` takes the first block of a non-empty list in hand. -/
theorem consume_head (holding : Holding alloc lists rest) {order addr : Nat} {tail : List Nat}
    (bound : order ≤ maxOrder) (listed : lists order = addr :: tail) :
    ∃ after, consume alloc order = .ok (some addr, after) ∧ SameRegion alloc after ∧
      after.mem = alloc.mem ∧
      Holding after (Function.update lists order tail) ((addr, order) :: rest) := by
  have links := holding.links order bound
  rw [listed] at links
  obtain ⟨head, links⟩ := links
  have header : (alloc.mem addr).order = order :=
    holding.headers order bound addr (by rw [listed]; exact List.mem_cons_self)
  have returned : consume alloc order = .ok (some addr, { alloc with
      freeLists := Function.update alloc.freeLists order (alloc.mem addr).next }) := by
    rw [consume, if_neg (by omega), head]
    simp only [header, ne_eq, not_true_eq_false, if_false]
  have moved : (freeBlocks lists ++ rest).Perm
      (freeBlocks (Function.update lists order tail) ++ (addr, order) :: rest) := by
    have popped : (lists order).Perm (addr :: tail) := by rw [listed]
    have deleted := free_blocks_delete bound popped
    exact (deleted.append_right rest).trans (head_perm _ _ _).symm
  refine ⟨_, returned, ⟨rfl, rfl, rfl⟩, rfl, holding.nonNull, holding.fits, holding.small, ?_, ?_,
    tiles_perm (moved.map blockSpan) holding.tiles,
    fun block member => holding.aligned block (moved.mem_iff.mpr member)⟩
  · intro list listBound
    by_cases same : list = order
    · subst same
      simpa only [Function.update_self] using links
    · simpa only [Function.update_of_ne same] using holding.links list listBound
  · intro list listBound other member
    by_cases same : list = order
    · subst same
      rw [Function.update_self] at member
      exact holding.headers list listBound other
        (by rw [listed]; exact List.mem_cons_of_mem _ member)
    · rw [Function.update_of_ne same] at member
      exact holding.headers list listBound other member

/-- `add_free_block` puts a block in hand at the head of its list; its
alignment assertion holds because the block is aligned. -/
theorem add_free_block_holding {addr order : Nat}
    (holding : Holding alloc lists ((addr, order) :: rest)) :
    ∃ after, addFreeBlock alloc addr order = .ok after ∧ SameRegion alloc after ∧
      Framed rest alloc after ∧
      Holding after (Function.update lists order (addr :: lists order)) rest := by
  obtain ⟨bound, divides⟩ := head_aligned holding
  obtain ⟨above, below⟩ := head_within holding
  have positive := block_size_pos order
  have fits := holding.fits
  have nonNull := holding.nonNull
  simp only at bound divides above below
  have offset : sub64 addr alloc.baseAddr = addr - alloc.baseAddr :=
    sub64_of_le above
  have returned : addFreeBlock alloc addr order = .ok { alloc with
      mem := Function.update alloc.mem addr { next := alloc.freeLists order, order := order }
      freeLists := Function.update alloc.freeLists order (BuddyAlloc.nonNull addr) } := by
    rw [addFreeBlock, offset, if_neg (by simpa using Nat.mod_eq_zero_of_dvd divides),
      if_neg (by omega)]
  have moved : (freeBlocks lists ++ (addr, order) :: rest).Perm
      (freeBlocks (Function.update lists order (addr :: lists order)) ++ rest) := by
    have inserted := free_blocks_insert bound (List.Perm.refl (addr :: lists order))
    exact (head_perm _ _ _).trans (inserted.append_right rest).symm
  have elsewhere : ∀ list ≤ maxOrder, ∀ other ∈ lists list, other ≠ addr := by
    intro list listBound other listed same
    exact address_not_listed holding listBound (same ▸ listed)
  have framed : Framed rest alloc { alloc with
      mem := Function.update alloc.mem addr { next := alloc.freeLists order, order := order }
      freeLists := Function.update alloc.freeLists order (BuddyAlloc.nonNull addr) } := by
    intro block member other inside
    have tiles := tiles_perm (List.Perm.map blockSpan List.perm_middle) holding.tiles
    have apart := tiles_head_apart tiles
      (List.mem_map_of_mem (List.mem_append_right (freeBlocks lists) member))
    have different : other ≠ addr := by
      rintro rfl
      exact apart other (starts_inside other order) inside
    simp only [Function.update_of_ne different]
  refine ⟨_, returned, ⟨rfl, rfl, rfl⟩, framed, nonNull, fits, holding.small, ?_, ?_,
    tiles_perm (moved.map blockSpan) holding.tiles,
    fun block member => holding.aligned block (moved.mem_iff.mpr member)⟩
  · intro list listBound
    have framed : Links FreeBlock.next
        (Function.update alloc.mem addr { next := alloc.freeLists order, order := order })
        (alloc.freeLists list) (lists list) :=
      links_frame
        (fun other listed => by
          rw [Function.update_of_ne (elsewhere list listBound other listed)])
        (holding.links list listBound)
    by_cases same : list = order
    · subst same
      have address : addr ≠ 0 := by omega
      simp only [Function.update_self, BuddyAlloc.nonNull, if_neg address]
      exact ⟨rfl, by simpa only [Function.update_self] using framed⟩
    · simpa only [Function.update_of_ne same] using framed
  · intro list listBound other member
    by_cases own : other = addr
    · subst own
      have same : list = order := by
        by_contra different
        rw [Function.update_of_ne different] at member
        exact elsewhere list listBound other member rfl
      simp only [Function.update_self, same]
    · simp only [Function.update_of_ne own]
      apply holding.headers list listBound other
      by_cases same : list = order
      · subst same
        rw [Function.update_self] at member
        rcases List.mem_cons.mp member with equal | member
        · exact absurd equal own
        · exact member
      · rwa [Function.update_of_ne same] at member

def Slot.Avoids (slot : Slot) (nodes : List Nat) : Prop :=
  ∀ block, slot = .nextOf block → block ∉ nodes

/-- What one run of the unlinking loop may change: the slot it started from
and the headers of the nodes it walked over, and those only in their link. -/
structure Unlinked (order : Nat) (slot : Slot) (nodes : List Nat)
    (alloc after : BuddyPageAllocator) : Prop where
  region : SameRegion alloc after
  orders : ∀ block, (after.mem block).order = (alloc.mem block).order
  framed : ∀ block, slot ≠ .nextOf block → block ∉ nodes → after.mem block = alloc.mem block
  otherLists : ∀ list, list ≠ order → after.freeLists list = alloc.freeLists list
  sameHead : slot ≠ .head → after.freeLists order = alloc.freeLists order

theorem remove_here (order : Nat) {addr : Nat} {slot : Slot} {tail : List Nat}
    (distinct : (addr :: tail).Nodup) (avoids : Slot.Avoids slot (addr :: tail))
    (links : Links FreeBlock.next alloc.mem (alloc.mem addr).next tail) :
    let after := writeSlot (writeSlot alloc order (.nextOf addr) none) order slot
      (alloc.mem addr).next
    Unlinked order slot (addr :: tail) alloc after ∧
      Links FreeBlock.next after.mem (readSlot after order slot) tail := by
  have outside : addr ∉ tail := (List.nodup_cons.mp distinct).1
  cases slot with
  | head =>
      refine ⟨⟨⟨rfl, rfl, rfl⟩, ?_, ?_, ?_, ?_⟩, ?_⟩
      · intro block
        by_cases same : block = addr
        · subst same
          simp [writeSlot]
        · simp [writeSlot, same]
      · intro block _ fresh
        have different : block ≠ addr := fun same => fresh (same ▸ List.mem_cons_self)
        simp [writeSlot, different]
      · intro list different
        simp [writeSlot, different]
      · intro different
        exact absurd rfl different
      · simp only [readSlot, writeSlot, Function.update_self]
        apply links_frame _ links
        intro node member
        have different : node ≠ addr := fun same => outside (same ▸ member)
        rw [Function.update_of_ne different]
  | nextOf previous =>
      have fresh : previous ∉ addr :: tail := avoids previous rfl
      have apart : previous ≠ addr := fun same => fresh (same ▸ List.mem_cons_self)
      refine ⟨⟨⟨rfl, rfl, rfl⟩, ?_, ?_, ?_, ?_⟩, ?_⟩
      · intro block
        by_cases first : block = previous
        · subst first
          simp [writeSlot, apart]
        · by_cases second : block = addr
          · subst second
            simp [writeSlot, first]
          · simp [writeSlot, first, second]
      · intro block notSlot notNode
        have first : block ≠ previous := fun same => notSlot (by rw [same])
        have second : block ≠ addr := fun same => notNode (same ▸ List.mem_cons_self)
        simp [writeSlot, first, second]
      · intro list _
        rfl
      · intro _
        rfl
      · simp only [readSlot, writeSlot, Function.update_self]
        apply links_frame _ links
        intro node member
        have first : node ≠ previous :=
          fun same => fresh (same ▸ List.mem_cons_of_mem _ member)
        have second : node ≠ addr := fun same => outside (same ▸ member)
        rw [Function.update_of_ne first, Function.update_of_ne second]

/-- Along a chain the loop stops at the block it looks for and unlinks it, or
runs off the end. The induction is on the nodes still ahead. -/
theorem remove_loop_spec (addr order : Nat) (alloc : BuddyPageAllocator) (nodes : List Nat) :
    ∀ (fuel : Nat) (slot : Slot), nodes.length < fuel → nodes.Nodup → Slot.Avoids slot nodes →
      Links FreeBlock.next alloc.mem (readSlot alloc order slot) nodes →
      (addr ∉ nodes ∧ removeLoop addr order fuel slot alloc = .ok (false, alloc)) ∨
      (addr ∈ nodes ∧ ∃ after, removeLoop addr order fuel slot alloc = .ok (true, after) ∧
        Unlinked order slot nodes alloc after ∧
        Links FreeBlock.next after.mem (readSlot after order slot) (nodes.erase addr)) := by
  induction nodes with
  | nil =>
      intro fuel slot enough _ _ links
      obtain ⟨fuel, rfl⟩ : ∃ more, fuel = more + 1 := ⟨fuel - 1, by simp at enough; omega⟩
      have ended : readSlot alloc order slot = none := links
      exact Or.inl ⟨by simp, by rw [removeLoop, ended]⟩
  | cons node nodes ih =>
      intro fuel slot enough distinct avoids links
      obtain ⟨fuel, rfl⟩ : ∃ more, fuel = more + 1 := ⟨fuel - 1, by simp at enough; omega⟩
      obtain ⟨head, links⟩ := links
      by_cases found : node = addr
      · subst found
        right
        obtain ⟨unlinked, relinked⟩ := remove_here order distinct avoids links
        refine ⟨List.mem_cons_self, _, ?_, unlinked, ?_⟩
        · simp only [removeLoop, head, if_true]
        · rw [List.erase_cons_head]
          exact relinked
      · have step : removeLoop addr order (fuel + 1) slot alloc =
            removeLoop addr order fuel (.nextOf node) alloc := by
          simp only [removeLoop, head, if_neg found]
        have outside : node ∉ nodes := (List.nodup_cons.mp distinct).1
        have later := ih fuel (.nextOf node) (by simp at enough; omega)
          (List.nodup_cons.mp distinct).2
          (fun block same => by
            have equal : node = block := Slot.nextOf.inj same
            exact equal ▸ outside) links
        rw [step]
        rcases later with ⟨absent, returned⟩ | ⟨present, after, returned, unlinked, relinked⟩
        · exact Or.inl ⟨by simp [absent, Ne.symm found], returned⟩
        · right
          have sameSlot : readSlot after order slot = some node := by
            rw [← head]
            cases slot with
            | head => exact unlinked.sameHead (by simp)
            | nextOf previous =>
                have fresh : previous ∉ node :: nodes := avoids previous rfl
                have kept := unlinked.framed previous
                  (fun same => fresh (by rw [Slot.nextOf.inj same]; exact List.mem_cons_self))
                  (fun member => fresh (List.mem_cons_of_mem _ member))
                simp only [readSlot, kept]
          refine ⟨List.mem_cons_of_mem _ present, after, returned, ?_, ?_⟩
          · refine ⟨unlinked.region, unlinked.orders, ?_, unlinked.otherLists, ?_⟩
            · intro block _ fresh
              apply unlinked.framed block
              · intro same
                exact fresh (by rw [Slot.nextOf.inj same]; exact List.mem_cons_self)
              · exact fun member => fresh (List.mem_cons_of_mem _ member)
            · intro _
              exact unlinked.sameHead (by simp)
          · rw [List.erase_cons_tail (by simpa using found)]
            exact ⟨sameSlot, relinked⟩

/-- `remove_free_block` always returns. When it finds the block, the block is
in hand afterwards. -/
theorem remove_free_block_holding (holding : Holding alloc lists rest) (addr : Nat) {order : Nat}
    (bound : order ≤ maxOrder) :
    (addr ∉ lists order ∧ removeFreeBlock alloc addr order = .ok (false, alloc)) ∨
      (addr ∈ lists order ∧ ∃ after, removeFreeBlock alloc addr order = .ok (true, after) ∧
        SameRegion alloc after ∧ Framed rest alloc after ∧
        Holding after (Function.update lists order ((lists order).erase addr))
          ((addr, order) :: rest)) := by
  have enough : (lists order).length < alloc.pageCount + 1 := by
    have short := list_length_le holding bound
    omega
  have start := remove_loop_spec addr order alloc (lists order) (alloc.pageCount + 1) .head enough
    (list_nodup holding bound) (fun block same => by cases same) (holding.links order bound)
  rw [removeFreeBlock, if_neg (by omega)]
  rcases start with missing | ⟨present, after, returned, unlinked, relinked⟩
  · exact Or.inl missing
  · right
    have framed : Framed rest alloc after := by
      intro block member other inside
      apply unlinked.framed other (by simp)
      intro listed
      exact free_apart_held holding bound listed member other (starts_inside other order) inside
    have moved : (freeBlocks lists ++ rest).Perm
        (freeBlocks (Function.update lists order ((lists order).erase addr)) ++
          (addr, order) :: rest) := by
      have deleted := free_blocks_delete bound (List.perm_cons_erase present)
      exact (deleted.append_right rest).trans (head_perm _ _ _).symm
    obtain ⟨sameBase, sameCount, samePages⟩ := unlinked.region
    refine ⟨present, after, returned, unlinked.region, framed, ?_, ?_, ?_, ?_, ?_, ?_, ?_⟩
    · rw [sameBase]
      exact holding.nonNull
    · rw [sameBase, sameCount]
      exact holding.fits
    · rw [sameCount]
      exact holding.small
    · intro list listBound
      by_cases same : list = order
      · subst same
        rw [Function.update_self]
        exact relinked
      · rw [Function.update_of_ne same, unlinked.otherLists list same]
        apply links_frame _ (holding.links list listBound)
        intro node member
        have elsewhere : node ∉ lists order :=
          fun inside => same (listed_once holding listBound bound member inside)
        rw [unlinked.framed node (by simp) elsewhere]
    · intro list listBound other member
      rw [unlinked.orders other]
      apply holding.headers list listBound other
      by_cases same : list = order
      · subst same
        rw [Function.update_self] at member
        exact List.mem_of_mem_erase member
      · rwa [Function.update_of_ne same] at member
    · rw [sameBase, sameCount]
      exact tiles_perm (moved.map blockSpan) holding.tiles
    · intro block member
      rw [sameBase]
      exact holding.aligned block (moved.mem_iff.mpr member)

theorem carved_top (lists : Nat → List Nat) (order top : Nat) (tail : List Nat) :
    carved lists order order top tail order = tail := by
  simp only [carved, if_true]

theorem carved_succ (lists : Nat → List Nat) (order levels top : Nat) (tail : List Nat)
    (halves : Nat → List Nat) (taken : halves (order + levels + 1) = tail)
    (others : ∀ list, list ≠ order + levels + 1 → list ≠ order + levels →
      halves list = lists list) :
    carved halves order (order + levels) top [top + blockSize (order + levels)] =
      carved lists order (order + levels + 1) top tail := by
  funext list
  by_cases above : list = order + levels + 1
  · subst above
    simp only [carved, if_true]
    rw [if_neg (by omega), if_neg (by omega), taken]
  by_cases half : list = order + levels
  · subst half
    simp only [carved, if_true]
    rw [if_neg above, if_pos (by omega)]
  simp only [carved, if_neg above, if_neg half]
  by_cases between : order ≤ list ∧ list < order + levels
  · rw [if_pos between, if_pos (by omega)]
  · rw [if_neg between, if_neg (by omega), others list above half]

/-- Splitting the first block of the lowest non-empty list leaves, at every
order passed, the upper half, and the lowest part at the head of its list. -/
theorem split_loop_holding (order levels : Nat) :
    ∀ {alloc : BuddyPageAllocator} {lists : Nat → List Nat} {rest : List (Nat × Nat)}
      {top : Nat} {tail : List Nat}, Holding alloc lists rest → order + levels ≤ maxOrder →
      lists (order + levels) = top :: tail →
      (∀ list, order ≤ list → list < order + levels → lists list = []) →
      ∃ after, splitLoop order levels alloc = .ok after ∧ SameRegion alloc after ∧
        Framed rest alloc after ∧
        Holding after (Function.update (carved lists order (order + levels) top tail) order
          (top :: carved lists order (order + levels) top tail order)) rest := by
  induction levels with
  | zero =>
      intro alloc lists rest top tail holding _ listed _
      refine ⟨alloc, rfl, ⟨rfl, rfl, rfl⟩, framed_refl rest alloc, ?_⟩
      have same : Function.update (carved lists order (order + 0) top tail) order
          (top :: carved lists order (order + 0) top tail order) = lists := by
        funext list
        by_cases own : list = order
        · subst own
          rw [Function.update_self, Nat.add_zero, carved_top]
          exact listed.symm
        · rw [Function.update_of_ne own]
          simp only [carved, Nat.add_zero, if_neg own]
          rw [if_neg (by omega)]
      rw [same]
      exact holding
  | succ levels ih =>
      intro alloc lists rest top tail holding bound listed between
      have shape : order + (levels + 1) = order + levels + 1 := by omega
      rw [shape] at bound listed between ⊢
      obtain ⟨taken, consumed, takenRegion, takenMem, inHand⟩ :=
        consume_head holding bound listed
      have halves := holding_perm (holding_split inHand) (List.Perm.swap _ _ _)
      obtain ⟨first, firstAdded, firstRegion, firstFramed, firstHolding⟩ :=
        add_free_block_holding halves
      obtain ⟨second, secondAdded, secondRegion, secondFramed, secondHolding⟩ :=
        add_free_block_holding firstHolding
      have inRange : add64 top (blockSize (order + levels)) = top + blockSize (order + levels) := by
        apply add64_of_lt
        have within := head_within halves
        have positive := block_size_pos (order + levels)
        have fits := halves.fits
        simp only at within
        omega
      have lower : order + levels + 1 - 1 = order + levels := by omega
      have emptied : lists (order + levels) = [] := between (order + levels) (by omega) (by omega)
      have different : order + levels ≠ order + levels + 1 := by omega
      simp only [Function.update_self, Function.update_idem, Function.update_of_ne different,
        emptied] at secondHolding
      obtain ⟨after, returned, region, framed, kept⟩ := ih secondHolding (by omega)
        (Function.update_self _ _ _)
        (fun list lowest below => by
          rw [Function.update_of_ne (by omega), Function.update_of_ne (by omega)]
          exact between list lowest (by omega))
      rw [carved_succ lists order levels top tail _
        (by
          rw [Function.update_of_ne (by omega)]
          exact Function.update_self _ _ _)
        (fun list above half => by
          rw [Function.update_of_ne half, Function.update_of_ne (by omega)])] at kept
      refine ⟨after, ?_, ?_, ?_, kept⟩
      · rw [splitLoop, consumed, ok_bind]
        dsimp only
        rw [lower, inRange, firstAdded, ok_bind, secondAdded, ok_bind]
        exact returned
      · exact same_region_trans takenRegion (same_region_trans firstRegion
          (same_region_trans secondRegion region))
      · have untouched : Framed rest alloc taken := fun _ _ addr _ => congrFun takenMem addr
        exact framed_trans untouched (framed_trans (framed_tail firstFramed)
          (framed_trans secondFramed framed))

/-- A buddy found in the region was reached without wrapping. -/
theorem buddy_in_region (holding : Holding alloc lists rest) {offset order : Nat}
    (bound : order ≤ maxOrder) (inside : offset < pageSize * alloc.pageCount)
    (above : alloc.baseAddr ≤ add64 (findBuddy offset order) alloc.baseAddr) :
    add64 (findBuddy offset order) alloc.baseAddr = alloc.baseAddr + findBuddy offset order := by
  have size := block_size_le_max bound
  have small := holding.small
  have offsetBound : offset < 2 ^ 41 := by
    simp only [pageSize] at inside
    omega
  have reach : findBuddy offset order < 2 ^ 41 :=
    Nat.xor_lt_two_pow offsetBound (by omega)
  have fits := holding.fits
  unfold add64 at above ⊢
  omega

/-- A region below `2^29` pages holds no pair of buddies of the largest order,
so the merge of `free` never runs past `MAX_ORDER` with a block in hand. -/
theorem pair_below_max {addr order : Nat}
    (holding : Holding alloc lists ((addr, order) :: (addr + blockSize order, order) :: rest)) :
    order + 1 ≤ maxOrder := by
  have first := head_within holding
  have second := head_within (holding_perm holding (List.Perm.swap _ _ _))
  have bound := (head_aligned holding).1
  have small := holding.small
  simp only at first second bound
  by_contra large
  have top : order = 28 := by
    simp only [maxOrder] at bound large
    omega
  subst top
  simp only [blockSize, pageSize] at first second
  omega

/-- Two free buddies in hand merge into the block of the next order that
starts at the lower of the two. -/
theorem buddies_merge {addr order : Nat}
    (holding : Holding alloc lists
      ((alloc.baseAddr + findBuddy (addr - alloc.baseAddr) order, order) ::
        (addr, order) :: rest)) :
    order + 1 ≤ maxOrder ∧
      Holding alloc lists
        ((min addr (alloc.baseAddr + findBuddy (addr - alloc.baseAddr) order), order + 1) ::
          rest) := by
  have swapped := holding_perm holding (List.Perm.swap _ _ _)
  obtain ⟨above, _⟩ := head_within swapped
  obtain ⟨_, index, offset⟩ := head_aligned swapped
  simp only at above offset
  rw [Nat.mul_comm] at offset
  have whole : ∀ half, blockSize (order + 1) ∣ 2 * half * blockSize order := by
    intro half
    rw [block_size_succ]
    exact ⟨half, by ring⟩
  rw [offset, find_buddy_cases] at swapped holding ⊢
  split_ifs at swapped holding ⊢ with even
  · have buddy : alloc.baseAddr + (index * blockSize order + blockSize order) =
        addr + blockSize order := by omega
    rw [buddy] at swapped ⊢
    have bound := pair_below_max swapped
    rw [Nat.min_eq_left (Nat.le_add_right _ _)]
    refine ⟨bound, holding_merge swapped bound ?_⟩
    rw [offset, show index = 2 * (index / 2) by omega]
    exact whole _
  · have positive : blockSize order ≤ index * blockSize order :=
      Nat.le_mul_of_pos_left _ (by omega)
    have lower : addr =
        alloc.baseAddr + (index * blockSize order - blockSize order) + blockSize order := by
      omega
    rw [lower] at holding
    have bound := pair_below_max holding
    rw [Nat.min_eq_right (by omega)]
    refine ⟨bound, holding_merge holding bound ?_⟩
    have shape : alloc.baseAddr + (index * blockSize order - blockSize order) - alloc.baseAddr =
        2 * (index / 2) * blockSize order := by
      have split : index * blockSize order =
          2 * (index / 2) * blockSize order + blockSize order := by
        conv_lhs => rw [show index = 2 * (index / 2) + 1 by omega]
        ring
      omega
    rw [shape]
    exact whole _

/-- Lists that only lose blocks stay without pairs. -/
theorem coalesced_subset {baseAddr : Nat} {newLists : Nat → List Nat}
    (coalesced : Coalesced baseAddr lists) (subset : ∀ order, newLists order ⊆ lists order) :
    Coalesced baseAddr newLists := by
  intro order bound addr listed even upper
  exact coalesced order bound addr (subset order listed) even (subset order upper)

theorem coalesced_insert {addr order : Nat}
    (holding : Holding alloc lists ((addr, order) :: rest))
    (coalesced : Coalesced alloc.baseAddr lists)
    (alone : add64 (findBuddy (addr - alloc.baseAddr) order) alloc.baseAddr ∉ lists order) :
    Coalesced alloc.baseAddr (Function.update lists order (addr :: lists order)) := by
  intro list bound lower lowerListed even upperListed
  by_cases other : list = order
  swap
  · rw [Function.update_of_ne other] at lowerListed upperListed
    exact coalesced list bound lower lowerListed even upperListed
  subst other
  rw [Function.update_self] at lowerListed upperListed
  have fits := holding.fits
  have positive := block_size_pos list
  obtain ⟨above, below⟩ := head_within holding
  simp only at above below
  have within : ∀ listed ∈ lists list, alloc.baseAddr ≤ listed ∧
      listed + blockSize list ≤ alloc.baseAddr + pageSize * alloc.pageCount := by
    intro listed member
    exact listed_within holding bound member
  rcases List.mem_cons.mp lowerListed with rfl | lowerListed
  · rcases List.mem_cons.mp upperListed with same | upperListed
    · omega
    · apply alone
      obtain ⟨_, upperBelow⟩ := within _ upperListed
      have unwrapped : add64 (lower - alloc.baseAddr + blockSize list) alloc.baseAddr =
          lower + blockSize list := by
        rw [add64_of_lt (by omega)]
        omega
      rw [find_buddy_lower even, unwrapped]
      exact upperListed
  · rcases List.mem_cons.mp upperListed with same | upperListed
    · apply alone
      obtain ⟨lowerAbove, _⟩ := within _ lowerListed
      have offset : addr - alloc.baseAddr = lower - alloc.baseAddr + blockSize list := by omega
      have unwrapped : add64 (lower - alloc.baseAddr) alloc.baseAddr = lower := by
        rw [add64_of_lt (by omega)]
        omega
      rw [offset, find_buddy_upper even, unwrapped]
      exact lowerListed
    · exact coalesced list bound lower lowerListed even upperListed

/-- Carving a block leaves at most its upper half at each order passed. -/
theorem coalesced_carved {baseAddr order current top : Nat} {tail : List Nat}
    (coalesced : Coalesced baseAddr lists) (listed : lists current = top :: tail) :
    Coalesced baseAddr (carved lists order current top tail) := by
  intro list bound addr lower even upper
  have positive := block_size_pos list
  simp only [carved] at lower upper
  split_ifs at lower upper with own between
  · subst own
    have whole : ∀ other ∈ tail, other ∈ lists list := by
      intro other member
      rw [listed]
      exact List.mem_cons_of_mem _ member
    exact coalesced list bound addr (whole addr lower) even (whole _ upper)
  · rw [List.mem_singleton] at lower upper
    omega
  · exact coalesced list bound addr lower even upper

theorem free_loop_holding (remaining : Nat) :
    ∀ {alloc : BuddyPageAllocator} {lists : Nat → List Nat} {rest : List (Nat × Nat)}
      {addr order : Nat}, remaining + order = maxOrder + 1 →
      Holding alloc lists ((addr, order) :: rest) →
      ∃ after newLists, freeLoop remaining addr order alloc = .ok after ∧
        SameRegion alloc after ∧ Framed rest alloc after ∧ Holding after newLists rest ∧
        (Coalesced alloc.baseAddr lists → Coalesced alloc.baseAddr newLists) := by
  induction remaining with
  | zero =>
      intro alloc lists rest addr order left holding
      have bound := (head_aligned holding).1
      simp only at bound
      omega
  | succ remaining ih =>
      intro alloc lists rest addr order left holding
      obtain ⟨bound, _⟩ := head_aligned holding
      obtain ⟨above, below⟩ := head_within holding
      have fits := holding.fits
      have positive := block_size_pos order
      simp only at bound above below
      have offset : sub64 addr alloc.baseAddr = addr - alloc.baseAddr :=
        sub64_of_le above
      rw [freeLoop]
      dsimp only
      rw [offset]
      rcases remove_free_block_holding holding
          (add64 (findBuddy (addr - alloc.baseAddr) order) alloc.baseAddr) bound with
        ⟨alone, missing⟩ | ⟨listed, removed, found, removedRegion, removedFramed, inHand⟩
      · obtain ⟨after, added, region, framed, kept⟩ := add_free_block_holding holding
        refine ⟨after, _, ?_, region, framed, kept,
          fun coalesced => coalesced_insert holding coalesced alone⟩
        rw [missing, ok_bind]
        exact added
      · have inRegion := listed_within holding bound listed
        have inside : addr - alloc.baseAddr < pageSize * alloc.pageCount := by omega
        have straight := buddy_in_region holding bound inside inRegion.1
        rw [straight] at inHand found ⊢
        rw [← removedRegion.1] at inHand
        obtain ⟨nextBound, merged⟩ := buddies_merge inHand
        obtain ⟨after, newLists, returned, region, framed, kept, stays⟩ := ih (by omega) merged
        rw [removedRegion.1] at returned stays
        refine ⟨after, newLists, ?_, same_region_trans removedRegion region,
          framed_trans (framed_tail removedFramed) framed, kept, fun coalesced => ?_⟩
        · rw [found, ok_bind]
          exact returned
        · apply stays
          apply coalesced_subset coalesced
          intro list other listedThere
          by_cases own : list = order
          · subst own
            rw [Function.update_self] at listedThere
            exact List.mem_of_mem_erase listedThere
          · rwa [Function.update_of_ne own] at listedThere

end Consequences

section Init

variable {alloc : BuddyPageAllocator} {lists : Nat → List Nat} {placed order : Nat}

/-- One round of `init` that has room for a block of its order places it at
the end of the pages already tiled. The allocator with `page_count` cut to
the pages placed so far is the invariant of the loop. -/
theorem init_round_places (holding : Holding { alloc with pageCount := placed } lists [])
    (bound : order ≤ maxOrder) (unused : lists order = []) (divides : 2 ^ order ∣ placed)
    (fits : alloc.baseAddr + pageSize * alloc.pageCount ≤ 2 ^ 64)
    (small : alloc.pageCount < 2 ^ 29) (room : placed + 2 ^ order ≤ alloc.pageCount) :
    ∃ after, initRound (alloc, placed) order = (after, placed + 2 ^ order) ∧
      SameRegion alloc after ∧
      Holding { after with pageCount := placed + 2 ^ order }
        (Function.update lists order [alloc.baseAddr + pageSize * placed]) [] := by
  have nonNull : 0 < alloc.baseAddr := holding.nonNull
  have power : 0 < 2 ^ order := by positivity
  have left : sub64 alloc.pageCount placed = alloc.pageCount - placed := sub64_of_le (by omega)
  have inBytes : pageSize * placed + pageSize * 2 ^ order ≤ pageSize * alloc.pageCount := by
    rw [← Nat.mul_add]
    exact Nat.mul_le_mul_left _ room
  have bytes : mul64 placed pageSize = pageSize * placed := by
    rw [Nat.mul_comm pageSize placed]
    apply mul64_of_lt
    simp only [pageSize]
    omega
  have start : add64 alloc.baseAddr (pageSize * placed) = alloc.baseAddr + pageSize * placed := by
    apply add64_of_lt
    simp only [pageSize] at inBytes fits ⊢
    omega
  have count : add64 placed (2 ^ order) = placed + 2 ^ order := add64_of_lt (by omega)
  have returned : initRound (alloc, placed) order = ({ alloc with
      mem := Function.update alloc.mem (alloc.baseAddr + pageSize * placed)
        { next := none, order := order }
      freeLists := Function.update alloc.freeLists order
        (BuddyAlloc.nonNull (alloc.baseAddr + pageSize * placed)) }, placed + 2 ^ order) := by
    rw [initRound]
    dsimp only
    rw [left, if_neg (by omega), bytes, start, count]
  have elsewhere : ∀ list ≤ maxOrder, ∀ addr ∈ lists list,
      addr ≠ alloc.baseAddr + pageSize * placed := by
    intro list listBound addr listed same
    have within := listed_within holding listBound listed
    have positive := block_size_pos list
    simp only at within
    omega
  have inserted : (freeBlocks (Function.update lists order
      [alloc.baseAddr + pageSize * placed]) ++ []).Perm
      ((alloc.baseAddr + pageSize * placed, order) :: (freeBlocks lists ++ [])) := by
    simp only [List.append_nil]
    exact free_blocks_insert bound (by rw [unused])
  refine ⟨_, returned, ⟨rfl, rfl, rfl⟩, nonNull, ?_, ?_, ?_, ?_, ?_, ?_⟩
  · simp only [Nat.mul_add]
    omega
  · simp only
    omega
  · intro list listBound
    by_cases same : list = order
    · subst same
      simp only [Function.update_self, BuddyAlloc.nonNull,
        if_neg (show alloc.baseAddr + pageSize * placed ≠ 0 by omega)]
      exact ⟨rfl, by rw [Function.update_self]; rfl⟩
    · simp only [Function.update_of_ne same]
      apply links_frame _ (holding.links list listBound)
      intro addr listed
      rw [Function.update_of_ne (elsewhere list listBound addr listed)]
  · intro list listBound addr member
    by_cases same : list = order
    · subst same
      rw [Function.update_self, List.mem_singleton] at member
      simp only [member, Function.update_self]
    · rw [Function.update_of_ne same] at member
      simp only [Function.update_of_ne (elsewhere list listBound addr member)]
      exact holding.headers list listBound addr member
  · apply tiles_perm (inserted.map blockSpan).symm
    have extended := tiles_extend (blockSize order) (Nat.le_add_right _ _) holding.tiles
    simp only [Nat.mul_add, List.map_cons, blockSpan, ← Nat.add_assoc] at extended ⊢
    exact extended
  · intro block member
    rcases List.mem_cons.mp (inserted.mem_iff.mp member) with rfl | member
    · refine ⟨bound, ?_⟩
      simp only [Nat.add_sub_cancel_left]
      exact Nat.mul_dvd_mul_left pageSize divides
    · exact holding.aligned block member

/-- After the rounds of the orders below `count` the pages left, fewer than
`2^count`, are all placed. -/
theorem init_rounds_tile (count : Nat) :
    ∀ (alloc : BuddyPageAllocator) {lists : Nat → List Nat} {placed : Nat},
      Holding { alloc with pageCount := placed } lists [] →
      alloc.baseAddr + pageSize * alloc.pageCount ≤ 2 ^ 64 → alloc.pageCount < 2 ^ 29 →
      count ≤ maxOrder + 1 → (∀ order < count, lists order = []) → 2 ^ count ∣ placed →
      placed ≤ alloc.pageCount → alloc.pageCount < placed + 2 ^ count →
      (∀ order, (lists order).length ≤ 1) →
      ∃ newLists, Holding ((List.range count).reverse.foldl initRound (alloc, placed)).1
        newLists [] ∧
        (∀ order, (newLists order).length ≤ 1) ∧
        SameRegion alloc ((List.range count).reverse.foldl initRound (alloc, placed)).1 := by
  induction count with
  | zero =>
      intro alloc lists placed holding _ _ _ _ _ lower upper single
      have all : placed = alloc.pageCount := by omega
      subst all
      exact ⟨lists, holding, single, rfl, rfl, rfl⟩
  | succ count ih =>
      intro alloc lists placed holding fits small bound unused divides lower upper single
      have divided : 2 ^ count ∣ placed := (pow_dvd_pow 2 (Nat.le_succ count)).trans divides
      rw [pow_succ] at upper
      rw [List.range_succ, List.reverse_append, List.reverse_singleton, List.singleton_append,
        List.foldl_cons]
      by_cases room : placed + 2 ^ count ≤ alloc.pageCount
      · obtain ⟨after, round, region, grown⟩ := init_round_places holding (by omega)
          (unused count (Nat.lt_succ_self count)) divided fits small room
        have sameBase := region.1
        have sameCount := region.2.1
        rw [round]
        obtain ⟨newLists, kept, singles, later⟩ :=
          ih after grown (by rw [sameBase, sameCount]; exact fits)
          (by rw [sameCount]; exact small) (by omega)
          (fun list below => by
            rw [Function.update_of_ne (by omega)]
            exact unused list (by omega))
          (Nat.dvd_add divided (Nat.dvd_refl _)) (by rw [sameCount]; exact room)
          (by rw [sameCount]; omega)
          (fun list => by
            by_cases own : list = count
            · rw [own, Function.update_self]
              exact Nat.le_refl 1
            · rw [Function.update_of_ne own]
              exact single list)
        exact ⟨newLists, kept, singles, same_region_trans region later⟩
      · have skipped : initRound (alloc, placed) count = (alloc, placed) := by
          rw [initRound, sub64_of_le lower, if_pos (by omega)]
        rw [skipped]
        exact ih alloc holding fits small (by omega) (fun list below => unused list (by omega))
          divided
          lower (by omega) single

end Init

theorem new_holding (mem : Nat → FreeBlock) {baseAddr pageCount : Nat}
    (aligned : baseAddr % pageSize = 0) (nonNull : 0 < baseAddr) (nonEmpty : 0 < pageCount)
    (small : pageCount < 2 ^ 29) (fits : baseAddr + pageSize * pageCount ≤ 2 ^ 64) :
    ∃ alloc lists, new mem baseAddr pageCount = .ok alloc ∧ Holding alloc lists [] ∧
      Coalesced baseAddr lists ∧ alloc.baseAddr = baseAddr ∧ alloc.pageCount = pageCount ∧
      alloc.allocatedPages = 0 := by
  have nothing : freeBlocks (fun _ => []) = [] := by decide
  have start : Holding ⟨baseAddr, 0, fun _ => none, 0, mem⟩ (fun _ => []) [] := by
    refine ⟨nonNull, ?_, by simp, ?_, ?_, ?_, ?_⟩
    · simp only [Nat.mul_zero]
      omega
    · intro _ _
      rfl
    · intro _ _ _ member
      exact absurd member (by simp)
    · simp only [nothing, List.append_nil, List.map_nil, Nat.mul_zero, Nat.add_zero]
      exact tiles_empty baseAddr
    · intro block member
      rw [nothing] at member
      exact absurd member (by simp)
  obtain ⟨lists, holding, single, sameBase, sameCount, samePages⟩ := init_rounds_tile (maxOrder + 1)
    ⟨baseAddr, pageCount, fun _ => none, 0, mem⟩ start fits small (Nat.le_refl _)
    (fun _ _ => rfl) (Nat.dvd_zero _) (Nat.zero_le _) (by simp only [maxOrder]; omega)
    (fun _ => Nat.zero_le 1)
  have coalesced : Coalesced baseAddr lists := by
    intro order _ addr lower _ upper
    have positive := block_size_pos order
    have short := single order
    rcases shape : lists order with _ | ⟨only, _ | ⟨_, _⟩⟩
    · rw [shape] at lower
      exact absurd lower (by simp)
    · rw [shape, List.mem_singleton] at lower upper
      omega
    · rw [shape] at short
      simp at short
  refine ⟨_, lists, ?_, holding, coalesced, sameBase, sameCount, samePages⟩
  rw [new, if_pos ⟨aligned, nonEmpty⟩, init]

end Campix.Memory.BuddyInvariant
