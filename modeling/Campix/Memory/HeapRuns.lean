import Campix.Memory.ExtendedBuddy
import Campix.Memory.BuddyRuns

/-!
# The kernel heap keeps its order table

The table block is one more block in hand of the inner allocator, after those
of the clients. The allocator writes headers into free blocks only and the
clients write into their own blocks only, so the table changes by `mark_used`
and `mark_free` alone: entry `i` is the order of the block that starts at page
`i`, and `0xFF` where none does. That is what decides whether a `free` is
honoured, so a `free` of anything else is ignored.
-/

namespace Campix.Memory.HeapRuns

open Lib.Word Lib.Bytes Lib.Tiling Lib.Chain Lib.Run
open Lib.Fallible
open Memory.BuddyAlloc (BuddyPageAllocator FreeBlock Halt allocPages blockSize maxOrder
  pageSize requiredOrder)
open Memory.BuddyInvariant Memory.BuddyRuns Memory.ExtendedBuddy

set_option autoImplicit false

theorem header_at_frame {bytes after : Nat → UInt8} {addr : Nat}
    (same : ∀ offset < headerSize, after (addr + offset) = bytes (addr + offset)) :
    headerAt after addr = headerAt bytes addr := by
  have next := read_word_frame 8 (fun place bound =>
    same place (by simp only [headerSize]; omega))
  have order : readWord after 8 (addr + 8) = readWord bytes 8 (addr + 8) := by
    apply read_word_frame
    intro place bound
    rw [Nat.add_assoc]
    exact same (8 + place) (by simp only [headerSize]; omega)
  rw [headerAt, headerAt, next, order]

theorem header_at_written {bytes : Nat → UInt8} {addr : Nat} {block : FreeBlock}
    (link : ∀ target, block.next = some target → 0 < target ∧ target < 2 ^ 64)
    (order : block.order < 2 ^ 64)
    (written : ∀ offset < headerSize, bytes (addr + offset) = headerByte block offset) :
    headerAt bytes addr = block := by
  have nextBound : block.next.getD 0 < 256 ^ 8 := by
    cases next : block.next with
    | none => decide
    | some target => exact (link target next).2
  have next : readWord bytes 8 addr = block.next.getD 0 := by
    apply read_word_digits 8 nextBound
    intro place bound
    rw [written place (by simp only [headerSize]; omega), headerByte, if_pos bound]
  have orderWord : readWord bytes 8 (addr + 8) = block.order := by
    apply read_word_digits 8 order
    intro place bound
    rw [Nat.add_assoc, written (8 + place) (by simp only [headerSize]; omega), headerByte,
      if_neg (by omega), Nat.add_sub_cancel_left]
  have pointer : BuddyAlloc.nonNull (block.next.getD 0) = block.next := by
    cases next : block.next with
    | none => rfl
    | some target =>
        have positive := (link target next).1
        rw [Option.getD_some, BuddyAlloc.nonNull, if_neg (by omega)]
  rw [headerAt, next, orderWord, pointer]

section Headers

variable {heap : ExtendedBuddyPageAllocator} {after alloc : BuddyPageAllocator}
variable {lists : Nat → List Nat} {rest : List (Nat × Nat)}

theorem block_page_aligned (holding : Holding alloc lists rest)
    (aligned : alloc.baseAddr % pageSize = 0) {block : Nat × Nat}
    (member : block ∈ freeBlocks lists ++ rest) : block.1 % pageSize = 0 := by
  obtain ⟨above, _⟩ := block_within holding member
  obtain ⟨index, offset⟩ := (holding.aligned block member).2
  have whole : pageSize ∣ blockSize block.2 * index :=
    Nat.dvd_trans (Dvd.intro _ rfl) (Nat.dvd_mul_right (blockSize block.2) index)
  have place : block.1 = alloc.baseAddr + blockSize block.2 * index := by omega
  rw [place, Nat.add_mod, aligned, Nat.mod_eq_zero_of_dvd whole]
  rfl

/-- Writing inside the blocks in hand leaves the invariant alone. -/
theorem stores_holding (holding : Holding heap.allocator lists rest)
    (headers : heap.allocator.mem = headerAt heap.bytes) (stored : Nat → UInt8)
    (inside : ∀ addr, stored addr ≠ heap.bytes addr →
      ∃ block ∈ rest, (blockSpan block).Covers addr) :
    Holding (withBytes heap stored).allocator lists rest := by
  apply holding_mem holding
  intro order bound addr listed
  rw [headers]
  apply header_at_frame
  intro offset small
  by_contra changed
  obtain ⟨block, member, covers⟩ := inside _ changed
  apply free_apart_held holding bound listed member (addr + offset) _ covers
  have page := page_size_le_block_size order
  simp only [Span.Covers, blockSpan, pageSize, headerSize] at page small ⊢
  omega

theorem with_allocator_holding (holding : Holding after lists rest)
    (headers : heap.allocator.mem = headerAt heap.bytes)
    (aligned : after.baseAddr % pageSize = 0) :
    Holding (withAllocator heap after).allocator lists rest := by
  apply holding_mem holding
  intro order bound addr listed
  have page := block_page_aligned holding aligned (listed_block lists rest bound listed)
  simp only at page
  have place : ∀ offset < headerSize, (addr + offset) % pageSize = offset := by
    intro offset small
    simp only [pageSize, headerSize] at page small ⊢
    omega
  have written : ∀ offset < headerSize,
      writeHeaders heap.bytes heap.allocator.mem after.mem (addr + offset) =
        if after.mem addr ≠ heap.allocator.mem addr then headerByte (after.mem addr) offset
        else heap.bytes (addr + offset) := by
    intro offset small
    simp only [writeHeaders, place offset small, Nat.add_sub_cancel, small, true_and]
  by_cases changed : after.mem addr ≠ heap.allocator.mem addr
  · apply header_at_written
    · intro target linked
      have member := links_inside (holding.links order bound) listed linked
      have within := listed_within holding bound member
      have nonNull := holding.nonNull
      have fits := holding.fits
      have positive := block_size_pos order
      omega
    · rw [holding.headers order bound addr listed]
      have small : order ≤ 28 := bound
      omega
    · intro offset small
      rw [written offset small, if_pos changed]
  · have framed : headerAt (writeHeaders heap.bytes heap.allocator.mem after.mem) addr =
        headerAt heap.bytes addr := by
      apply header_at_frame
      intro offset small
      rw [written offset small, if_neg changed]
    have same : after.mem addr = heap.allocator.mem addr := not_not.mp changed
    exact framed.trans (by rw [same, headers])

theorem with_allocator_frame (framed : Framed rest heap.allocator after) {block : Nat × Nat}
    (member : block ∈ rest) (aligned : block.1 % pageSize = 0) {addr : Nat}
    (inside : (blockSpan block).Covers addr) :
    (withAllocator heap after).bytes addr = heap.bytes addr := by
  have page : (blockSpan block).Covers (addr - addr % pageSize) := by
    simp only [Span.Covers, blockSpan, pageSize] at inside aligned ⊢
    omega
  have same := framed block member _ page
  simp only [withAllocator, withBytes, writeHeaders, same, ne_eq, not_true_eq_false, and_false,
    if_false]

theorem with_allocator_self (headers : heap.allocator.mem = headerAt heap.bytes) :
    withAllocator heap heap.allocator = heap := by
  have bytes : writeHeaders heap.bytes heap.allocator.mem heap.allocator.mem = heap.bytes := by
    funext addr
    simp only [writeHeaders, ne_eq, not_true_eq_false, and_false, if_false]
  rw [withAllocator, bytes, withBytes, ← headers]

end Headers

def entryFor (baseAddr : Nat) (blocks : List (Nat × Nat)) (index : Nat) : UInt8 :=
  match blocks.find? fun block => block.1 = baseAddr + pageSize * index with
  | some block => UInt8.ofNat block.2
  | none => 0xFF

theorem entry_for_cons (baseAddr addr order : Nat) (blocks : List (Nat × Nat)) (index : Nat) :
    entryFor baseAddr ((addr, order) :: blocks) index =
      if addr = baseAddr + pageSize * index then UInt8.ofNat order
      else entryFor baseAddr blocks index := by
  by_cases here : addr = baseAddr + pageSize * index
  · simp [entryFor, here]
  · simp [entryFor, here]

theorem entry_for_absent {baseAddr index : Nat} {blocks : List (Nat × Nat)}
    (absent : ∀ block ∈ blocks, block.1 ≠ baseAddr + pageSize * index) :
    entryFor baseAddr blocks index = 0xFF := by
  have missing : blocks.find? (fun block => block.1 = baseAddr + pageSize * index) = none := by
    rw [List.find?_eq_none]
    intro block member
    simpa using absent block member
  rw [entryFor, missing]

theorem entry_for_remove (baseAddr addr : Nat) (blocks : List (Nat × Nat)) (index : Nat) :
    entryFor baseAddr (blocks.filter fun block => block.1 ≠ addr) index =
      if addr = baseAddr + pageSize * index then 0xFF else entryFor baseAddr blocks index := by
  by_cases here : addr = baseAddr + pageSize * index
  · rw [if_pos here]
    apply entry_for_absent
    intro block member
    rw [← here]
    simpa using (List.mem_filter.mp member).2
  · rw [if_neg here]
    induction blocks with
    | nil => rfl
    | cons block blocks ih =>
        by_cases removed : block.1 = addr
        · rw [List.filter_cons_of_neg (by simpa using removed), ih, entry_for_cons, removed,
            if_neg here]
        · rw [List.filter_cons_of_pos (by simpa using removed), entry_for_cons, entry_for_cons, ih]

/-- The representation invariant of the heap. `table` is the order of the
table's block. -/
structure Kept (heap : ExtendedBuddyPageAllocator) (table : Nat) (live : List (Nat × Nat)) :
    Prop where
  holding : ∃ lists, Holding heap.allocator lists (live ++ [(heap.orders, table)])
  headers : heap.allocator.mem = headerAt heap.bytes
  aligned : heap.allocator.baseAddr % pageSize = 0
  room : heap.allocator.pageCount ≤ blockSize table
  entries : ∀ index < heap.allocator.pageCount, heap.bytes (heap.orders + index) =
    entryFor heap.allocator.baseAddr (live ++ [(heap.orders, table)]) index

def SameHeap (heap after : ExtendedBuddyPageAllocator) : Prop :=
  after.orders = heap.orders ∧ after.allocator.baseAddr = heap.allocator.baseAddr ∧
    after.allocator.pageCount = heap.allocator.pageCount

section Table

variable {heap : ExtendedBuddyPageAllocator} {table : Nat} {live : List (Nat × Nat)}
variable {alloc : BuddyPageAllocator} {lists : Nat → List Nat} {rest : List (Nat × Nat)}

theorem held_start_unique (holding : Holding alloc lists rest) {left right : Nat × Nat}
    (leftMember : left ∈ rest) (rightMember : right ∈ rest) (same : left.1 = right.1) :
    left = right := by
  have inTiling : ∀ block ∈ rest, blockSpan block ∈ (freeBlocks lists ++ rest).map blockSpan :=
    fun block member => List.mem_map_of_mem (List.mem_append_right _ member)
  have spans := tiles_shared_point holding.tiles (inTiling left leftMember)
    (inTiling right rightMember) (starts_inside left.1 left.2)
    (by rw [same]; exact starts_inside right.1 right.2)
  have sizes : pageSize * 2 ^ left.2 = pageSize * 2 ^ right.2 := congrArg Span.size spans
  have orders := Nat.pow_right_injective (Nat.le_refl 2)
    (Nat.eq_of_mul_eq_mul_left (by decide) sizes)
  exact Prod.ext same orders

theorem held_pairwise_apart (holding : Holding alloc lists rest) :
    rest.Pairwise fun left right => (blockSpan left).Apart (blockSpan right) := by
  have apart := holding.tiles.apart
  rw [List.map_append] at apart
  exact List.pairwise_map.mp (List.pairwise_append.mp apart).2.1

theorem held_take (holding : Holding alloc lists rest) {addr order : Nat}
    (member : (addr, order) ∈ rest) :
    rest.Perm ((addr, order) :: rest.filter fun block => block.1 ≠ addr) := by
  have distinct : rest.Nodup := by
    apply (held_pairwise_apart holding).imp
    rintro left _ apart rfl
    exact apart left.1 (starts_inside left.1 left.2) (starts_inside left.1 left.2)
  have erased : rest.erase (addr, order) = rest.filter fun block => block.1 ≠ addr := by
    rw [distinct.erase_eq_filter]
    apply List.filter_congr
    intro block inside
    have same : block = (addr, order) ↔ block.1 = addr :=
      ⟨fun equal => by rw [equal], fun equal => held_start_unique holding inside member equal⟩
    simp only [ne_eq, ← same, bne]
    rw [Bool.eq_iff_iff]
    simp
  rw [← erased]
  exact List.perm_cons_erase member

theorem entry_index_place (aligned : heap.allocator.baseAddr % pageSize = 0) {addr : Nat}
    (page : addr % pageSize = 0) (above : heap.allocator.baseAddr ≤ addr) :
    addr = heap.allocator.baseAddr + pageSize * entryIndex heap addr := by
  rw [entryIndex, sub64_of_le above]
  simp only [pageSize] at aligned page ⊢
  omega

theorem entry_inside (room : heap.allocator.pageCount ≤ blockSize table) {index : Nat}
    (bound : index < heap.allocator.pageCount) :
    (blockSpan (heap.orders, table)).Covers (heap.orders + index) := by
  simp only [Span.Covers, blockSpan]
  omega

theorem written_entry (aligned : heap.allocator.baseAddr % pageSize = 0) {addr : Nat}
    (page : addr % pageSize = 0) (above : heap.allocator.baseAddr ≤ addr) (value : UInt8)
    (index : Nat) :
    Function.update heap.bytes (heap.orders + entryIndex heap addr) value (heap.orders + index) =
      if addr = heap.allocator.baseAddr + pageSize * index then value
      else heap.bytes (heap.orders + index) := by
  have place := entry_index_place aligned page above
  by_cases here : index = entryIndex heap addr
  · rw [here, Function.update_self, if_pos place]
  · have elsewhere : addr ≠ heap.allocator.baseAddr + pageSize * index := by
      simp only [pageSize] at place ⊢
      omega
    rw [Function.update_of_ne (by omega), if_neg elsewhere]

theorem mark_kept (holding : Holding heap.allocator lists (live ++ [(heap.orders, table)]))
    (headers : heap.allocator.mem = headerAt heap.bytes)
    (aligned : heap.allocator.baseAddr % pageSize = 0)
    (room : heap.allocator.pageCount ≤ blockSize table) {addr : Nat} (value : UInt8)
    (page : addr % pageSize = 0) (above : heap.allocator.baseAddr ≤ addr)
    (below : addr < heap.allocator.baseAddr + pageSize * heap.allocator.pageCount)
    (marked : ∀ index < heap.allocator.pageCount,
      (if addr = heap.allocator.baseAddr + pageSize * index then value
        else heap.bytes (heap.orders + index)) =
      entryFor heap.allocator.baseAddr (live ++ [(heap.orders, table)]) index) :
    Kept (withBytes heap (Function.update heap.bytes (heap.orders + entryIndex heap addr) value))
      table live := by
  have bound : entryIndex heap addr < heap.allocator.pageCount := by
    have place := entry_index_place aligned page above
    simp only [pageSize] at place below
    omega
  have stored := stores_holding holding headers
    (Function.update heap.bytes (heap.orders + entryIndex heap addr) value)
    (fun other changed => by
      have same : other = heap.orders + entryIndex heap addr := by
        by_contra different
        exact changed (Function.update_of_ne different _ _)
      exact ⟨_, List.mem_append_right _ List.mem_cons_self, same ▸ entry_inside room bound⟩)
  exact ⟨⟨lists, stored⟩, rfl, aligned, room, fun index inside =>
    (written_entry aligned page above value index).trans (marked index inside)⟩

/-- The table after a call of the inner allocator that left it alone, and the
marking of one entry. -/
theorem mark_after_call {after : BuddyPageAllocator}
    (inHand : Holding after lists (live ++ [(heap.orders, table)]))
    (headers : heap.allocator.mem = headerAt heap.bytes)
    (framed : Framed [(heap.orders, table)] heap.allocator after)
    (aligned : heap.allocator.baseAddr % pageSize = 0)
    (room : heap.allocator.pageCount ≤ blockSize table)
    (base : after.baseAddr = heap.allocator.baseAddr)
    (count : after.pageCount = heap.allocator.pageCount) {addr : Nat} (value : UInt8)
    (page : addr % pageSize = 0) (above : heap.allocator.baseAddr ≤ addr)
    (below : addr < heap.allocator.baseAddr + pageSize * heap.allocator.pageCount)
    (marked : ∀ index < heap.allocator.pageCount,
      (if addr = heap.allocator.baseAddr + pageSize * index then value
        else heap.bytes (heap.orders + index)) =
      entryFor heap.allocator.baseAddr (live ++ [(heap.orders, table)]) index) :
    Kept (withBytes (withAllocator heap after)
      (Function.update (withAllocator heap after).bytes
        (heap.orders + entryIndex (withAllocator heap after) addr) value)) table live := by
  rw [← base] at aligned above below
  rw [← count] at room below
  have tablePage := block_page_aligned inHand aligned
    (List.mem_append_right _ (List.mem_append_right _ List.mem_cons_self))
  apply mark_kept (with_allocator_holding inHand headers aligned) rfl aligned room value page above
    below
  intro index bound
  change index < after.pageCount at bound
  have untouched := with_allocator_frame framed List.mem_cons_self tablePage
    (entry_inside (by rw [← count]; exact room) (by rw [← count]; exact bound))
  change (if addr = after.baseAddr + pageSize * index then value
      else (withAllocator heap after).bytes (heap.orders + index)) =
    entryFor after.baseAddr (live ++ [(heap.orders, table)]) index
  rw [untouched, base]
  exact marked index (by rw [← count]; exact bound)

/-- What the clients write into their blocks does not reach the table. -/
theorem stores_kept (kept : Kept heap table live) {stored : Nat → UInt8}
    (inside : ∀ addr, stored addr ≠ heap.bytes addr →
      ∃ block ∈ live, (blockSpan block).Covers addr) :
    Kept (withBytes heap stored) table live := by
  obtain ⟨⟨lists, holding⟩, headers, aligned, room, entries⟩ := kept
  have stores := stores_holding holding headers stored (fun addr changed => by
    obtain ⟨block, member, covers⟩ := inside addr changed
    exact ⟨block, List.mem_append_left _ member, covers⟩)
  refine ⟨⟨lists, stores⟩, rfl, aligned, room, fun index bound => ?_⟩
  have same : stored (heap.orders + index) = heap.bytes (heap.orders + index) := by
    by_contra changed
    obtain ⟨block, member, covers⟩ := inside _ changed
    have apart := (List.pairwise_append.mp (held_pairwise_apart holding)).2.2 block member _
      List.mem_cons_self
    exact apart _ covers (entry_inside room bound)
  exact same.trans (entries index bound)

end Table

section Calls

variable {heap : ExtendedBuddyPageAllocator} {table : Nat} {live : List (Nat × Nat)}

theorem div_ceil_covers (size : Nat) : size ≤ pageSize * divCeil size pageSize := by
  rw [divCeil]
  by_cases whole : size % pageSize = 0
  · rw [if_pos whole]
    simp only [pageSize] at whole ⊢
    omega
  · rw [if_neg whole]
    simp only [pageSize] at whole ⊢
    omega

theorem div_ceil_le (size : Nat) : divCeil size pageSize ≤ size / pageSize + 1 := by
  rw [divCeil]
  split_ifs
  · exact Nat.le_succ _
  · exact Nat.le_refl _

/-- `alloc` gives nothing and changes nothing, or gives a block of at least
the size asked for and enters it in the table. -/
theorem alloc_block_kept (kept : Kept heap table live) {size : Nat} (word : size < 2 ^ 64) :
    allocBlock heap size = .ok (none, heap) ∨
    ∃ addr order after, allocBlock heap size = .ok (some (addr, order), after) ∧
      size ≤ blockSize order ∧ SameHeap heap after ∧ Kept after table ((addr, order) :: live) := by
  obtain ⟨⟨lists, holding⟩, headers, aligned, room, entries⟩ := kept
  have pages : divCeil size pageSize ≤ 2 ^ 63 := by
    have bound := div_ceil_le size
    simp only [pageSize] at bound ⊢
    omega
  rcases alloc_pages_holding holding (divCeil size pageSize) with ⟨_, large⟩ | ⟨returned, _⟩ |
    ⟨after, order, current, addr, tail, returned, required, base, count, _, _, framed, inHand⟩
  · omega
  · left
    rw [allocBlock, returned, ok_bind]
    dsimp only
    rw [with_allocator_self headers]
    rfl
  · right
    have enough : size ≤ blockSize order := by
      have covers := div_ceil_covers size
      have fits := Nat.mul_le_mul_left pageSize (required_order_fits pages required)
      exact Nat.le_trans covers fits
    refine ⟨addr, order, markUsed (withAllocator heap after) addr order, ?_, enough,
      ⟨rfl, base, count⟩, ?_⟩
    · rw [allocBlock, returned, ok_bind]
      rfl
    · obtain ⟨above, below⟩ := head_within inHand
      have positive := block_size_pos order
      have page := block_page_aligned inHand (by rw [base]; exact aligned)
        (List.mem_append_right _ List.mem_cons_self)
      simp only [base, count] at above below
      apply mark_after_call inHand headers _ aligned room base count _ page above (by omega)
      · intro index bound
        change _ = entryFor _ ((addr, order) :: (live ++ [(heap.orders, table)])) index
        rw [entry_for_cons, entries index bound]
      · intro block member
        exact framed block (List.mem_append_right _ member)

theorem calloc_block_kept (kept : Kept heap table live) {size : Nat} (word : size < 2 ^ 64) :
    callocBlock heap size = .ok (none, heap) ∨
    ∃ addr order after, callocBlock heap size = .ok (some (addr, order), after) ∧
      SameHeap heap after ∧ Kept after table ((addr, order) :: live) := by
  rcases alloc_block_kept kept word with nothing |
    ⟨addr, order, middle, returned, enough, same, kept⟩
  · left
    rw [callocBlock, nothing, ok_bind]
    rfl
  · right
    refine ⟨addr, order, withBytes middle (writeBytes middle.bytes addr 0 size), ?_, same, ?_⟩
    · rw [callocBlock, returned, ok_bind]
      rfl
    · apply stores_kept kept
      intro place changed
      refine ⟨(addr, order), List.mem_cons_self, ?_⟩
      have inside : addr ≤ place ∧ place < addr + size := by
        by_contra outside
        exact changed (if_neg outside)
      simp only [Span.Covers, blockSpan]
      omega

theorem entry_of_block {alloc : BuddyPageAllocator} {lists : Nat → List Nat}
    {rest : List (Nat × Nat)} (holding : Holding alloc lists rest) {block : Nat × Nat} {index : Nat}
    (member : block ∈ rest) (place : block.1 = alloc.baseAddr + pageSize * index) :
    entryFor alloc.baseAddr rest index = UInt8.ofNat block.2 ∧ block.2 ≤ maxOrder := by
  refine ⟨?_, (holding.aligned block (List.mem_append_right _ member)).1⟩
  cases found : rest.find? fun other => other.1 = alloc.baseAddr + pageSize * index with
  | none =>
      rw [List.find?_eq_none] at found
      exact absurd place (by simpa using found block member)
  | some other =>
      have starts : other.1 = alloc.baseAddr + pageSize * index := by
        simpa using List.find?_some found
      have same := held_start_unique holding (List.mem_of_find?_eq_some found) member
        (starts.trans place.symm)
      rw [entryFor, found, same]

theorem order_entry {order : Nat} (bound : order ≤ maxOrder) :
    (UInt8.ofNat order).toNat = order ∧ UInt8.ofNat order ≠ 0xFF := by
  have small : order ≤ 28 := bound
  have value : (UInt8.ofNat order).toNat = order := by
    rw [UInt8.toNat_ofNat']
    omega
  refine ⟨value, fun equal => ?_⟩
  have same : (UInt8.ofNat order).toNat = 255 := by
    rw [equal]
    rfl
  omega

/-- An address that passes `is_in_range` lies in the region, since the range
ends before the words wrap. -/
theorem in_range_above (kept : Kept heap table live) {addr : Nat}
    (inRange : entryIndex heap addr < heap.allocator.pageCount) :
    heap.allocator.baseAddr ≤ addr := by
  obtain ⟨lists, holding⟩ := kept.holding
  have fits := holding.fits
  by_contra below
  rw [entryIndex, sub64, if_neg below] at inRange
  simp only [pageSize] at inRange fits
  omega

/-- A `free` of a page where no live block starts changes nothing. -/
theorem free_ignored (kept : Kept heap table live) {addr : Nat} (page : addr % pageSize = 0)
    (notTable : addr ≠ heap.orders) (notLive : ∀ block ∈ live, block.1 ≠ addr) :
    free heap addr = .ok heap := by
  by_cases inRange : entryIndex heap addr < heap.allocator.pageCount
  · have place := entry_index_place kept.aligned page (in_range_above kept inRange)
    have unused : entryFor heap.allocator.baseAddr (live ++ [(heap.orders, table)])
        (entryIndex heap addr) = 0xFF := by
      apply entry_for_absent
      intro block member
      rw [← place]
      rcases List.mem_append.mp member with inLive | inTable
      · exact notLive block inLive
      · rw [List.mem_singleton.mp inTable]
        exact fun same => notTable same.symm
    have order : getOrder heap addr = none := by
      rw [getOrder, kept.entries _ inRange, unused]
      rfl
    rw [free, if_neg (by simpa [isInRange] using inRange), order]
  · rw [free, if_pos (by simpa [isInRange] using inRange)]

/-- A `free` of a live block gives it back and clears its entry. -/
theorem free_honoured (kept : Kept heap table live) {addr order : Nat}
    (member : (addr, order) ∈ live) :
    ∃ after, free heap addr = .ok after ∧ SameHeap heap after ∧
      Kept after table (live.filter fun block => block.1 ≠ addr) := by
  obtain ⟨⟨lists, holding⟩, headers, aligned, room, entries⟩ := kept
  have inRest : (addr, order) ∈ live ++ [(heap.orders, table)] := List.mem_append_left _ member
  have page := block_page_aligned holding aligned (List.mem_append_right _ inRest)
  obtain ⟨above, below⟩ := block_within holding (List.mem_append_right _ inRest)
  have positive := block_size_pos order
  simp only at page above below
  have place := entry_index_place aligned page above
  have inRange : entryIndex heap addr < heap.allocator.pageCount := by
    simp only [pageSize] at place below
    omega
  obtain ⟨entry, bound⟩ := entry_of_block holding inRest place
  obtain ⟨value, used⟩ := order_entry bound
  have known : getOrder heap addr = some order := by
    rw [getOrder, entries _ inRange, entry]
    dsimp only
    rw [if_neg used, value]
  have tableElsewhere : heap.orders ≠ addr := by
    intro same
    have apart := (List.pairwise_append.mp (held_pairwise_apart holding)).2.2 _ member _
      List.mem_cons_self
    apply apart addr (starts_inside addr order)
    rw [← same]
    exact starts_inside heap.orders table
  have remaining : (live ++ [(heap.orders, table)]).filter (fun block => block.1 ≠ addr) =
      live.filter (fun block => block.1 ≠ addr) ++ [(heap.orders, table)] := by
    rw [List.filter_append, List.filter_cons_of_pos (by simpa using tableElsewhere),
      List.filter_nil]
  have taken := holding_perm holding (held_take holding inRest)
  rw [remaining] at taken
  obtain ⟨after, newLists, freed, base, count, _, framed, inHand, _⟩ := free_holding taken
  refine ⟨markFree (withAllocator heap after) addr, ?_, ⟨rfl, base, count⟩, ?_⟩
  · rw [ExtendedBuddy.free, if_neg (by simpa [isInRange] using inRange), known]
    dsimp only
    rw [freed, ok_bind]
    rfl
  · apply mark_after_call inHand headers _ aligned room base count _ page above (by omega)
    · intro index bound
      rw [← remaining, entry_for_remove, entries index bound]
    · intro block member
      exact framed block (List.mem_append_right _ member)

end Calls

/-- `new` takes the table's block from an allocator with nothing live, and
starts with the table's own entry. -/
theorem new_kept {memory : Nat → UInt8} {allocator : BuddyPageAllocator} {lists : Nat → List Nat}
    {heap : ExtendedBuddyPageAllocator} (holding : Holding allocator lists [])
    (headers : allocator.mem = headerAt memory) (aligned : allocator.baseAddr % pageSize = 0)
    (built : new memory allocator = .ok (some heap)) :
    heap.allocator.baseAddr = allocator.baseAddr ∧
      heap.allocator.pageCount = allocator.pageCount ∧ ∃ table, Kept heap table [] := by
  have small := holding.small
  have pages : divCeil allocator.pageCount pageSize ≤ 2 ^ 63 := by
    have bound := div_ceil_le allocator.pageCount
    simp only [pageSize] at bound ⊢
    omega
  rcases alloc_pages_holding holding (divCeil allocator.pageCount pageSize) with ⟨_, large⟩ |
    ⟨returned, _⟩ |
    ⟨after, table, current, orders, tail, returned, required, base, count, _, _, _, inHand⟩
  · omega
  · rw [new, returned, ok_bind] at built
    exact absurd (Except.ok.inj built) (by simp)
  rw [new, returned, ok_bind] at built
  cases Option.some.inj (Except.ok.inj built)
  refine ⟨base, count, table, ?_⟩
  rw [← base] at aligned
  have room : after.pageCount ≤ blockSize table := by
    rw [count]
    exact Nat.le_trans (div_ceil_covers _)
      (Nat.mul_le_mul_left pageSize (required_order_fits pages required))
  let written : ExtendedBuddyPageAllocator := withAllocator ⟨allocator, orders, memory⟩ after
  have taken : Holding written.allocator (carved lists table current orders tail)
      [(orders, table)] := with_allocator_holding inHand headers aligned
  have filled := stores_holding taken rfl (writeBytes written.bytes orders 0xFF after.pageCount)
    (fun addr changed => by
      refine ⟨(orders, table), List.mem_cons_self, ?_⟩
      have inside : orders ≤ addr ∧ addr < orders + after.pageCount := by
        by_contra outside
        exact changed (if_neg outside)
      simp only [Span.Covers, blockSpan]
      omega)
  have page := block_page_aligned inHand aligned (List.mem_append_right _ List.mem_cons_self)
  obtain ⟨above, below⟩ := head_within inHand
  have positive := block_size_pos table
  simp only at page above below
  apply mark_kept filled rfl aligned room (UInt8.ofNat table) page above
  · change orders < after.baseAddr + pageSize * after.pageCount
    omega
  · intro index bound
    change index < after.pageCount at bound
    have cleared : writeBytes written.bytes orders 0xFF after.pageCount (orders + index) = 0xFF :=
      if_pos (by omega)
    change (if orders = after.baseAddr + pageSize * index then UInt8.ofNat table
        else writeBytes written.bytes orders 0xFF after.pageCount (orders + index)) =
      entryFor after.baseAddr [(orders, table)] index
    rw [entry_for_cons, cleared]
    rfl

theorem build_kept {bytes : Nat → UInt8} {baseAddr pageCount : Nat}
    {heap : ExtendedBuddyPageAllocator} (nonNull : 0 < baseAddr) (small : pageCount < 2 ^ 29)
    (fits : baseAddr + pageSize * pageCount ≤ 2 ^ 64)
    (built : build bytes baseAddr pageCount = .ok (some heap)) :
    heap.allocator.baseAddr = baseAddr ∧ heap.allocator.pageCount = pageCount ∧
      ∃ table, Kept heap table [] := by
  by_cases region : baseAddr % pageSize = 0 ∧ 0 < pageCount
  · obtain ⟨aligned, nonEmpty⟩ := region
    obtain ⟨fresh, lists, created, holding, _, base, count, _⟩ :=
      new_holding (headerAt bytes) aligned nonNull nonEmpty small fits
    let before : ExtendedBuddyPageAllocator := ⟨{ fresh with mem := headerAt bytes }, 0, bytes⟩
    have written : Holding (withAllocator before fresh).allocator lists [] :=
      with_allocator_holding holding rfl (by rw [base]; exact aligned)
    rw [← base] at aligned
    rw [build, created, ok_bind] at built
    obtain ⟨sameBase, sameCount, kept⟩ := new_kept written rfl aligned built
    exact ⟨sameBase.trans base, sameCount.trans count, kept⟩
  · have refused : BuddyAlloc.new (headerAt bytes) baseAddr pageCount = .error .badRegion := by
      rw [BuddyAlloc.new, if_neg region]
    rw [build, refused] at built
    exact absurd built (by simp [bind, Except.bind])

section Runs

variable {session next : Session} {table : Nat}

theorem received_kept {result : Except Halt (Option (Nat × Nat) × ExtendedBuddyPageAllocator)}
    (kept : Kept session.heap table session.live)
    (returned : result = .ok (none, session.heap) ∨
      ∃ addr order after, result = .ok (some (addr, order), after) ∧
        SameHeap session.heap after ∧ Kept after table ((addr, order) :: session.live)) :
    ∃ next, received session result = .ok next ∧ SameHeap session.heap next.heap ∧
      Kept next.heap table next.live := by
  rcases returned with rfl | ⟨addr, order, after, rfl, same, grown⟩
  · exact ⟨session, rfl, ⟨rfl, rfl, rfl⟩, kept⟩
  · exact ⟨⟨after, (addr, order) :: session.live⟩, rfl, same, grown⟩

/-- Every call that the client may make returns, and keeps the heap. -/
theorem perform_kept (kept : Kept session.heap table session.live) (call : Call) :
    perform session call = .error .notAllowed ∨
      ∃ next, perform session call = .ok next ∧ SameHeap session.heap next.heap ∧
        Kept next.heap table next.live := by
  cases call with
  | alloc size =>
      right
      apply received_kept kept
      rcases alloc_block_kept kept size.toNat_lt with nothing | ⟨addr, order, after, grown⟩
      · exact Or.inl nothing
      · exact Or.inr ⟨addr, order, after, grown.1, grown.2.2⟩
  | calloc size =>
      right
      exact received_kept kept (calloc_block_kept kept size.toNat_lt)
  | free addr =>
      by_cases allowed : addr % pageSize = 0 ∧ addr ≠ session.heap.orders
      swap
      · left
        rw [perform, if_neg allowed]
      right
      by_cases live : ∃ block ∈ session.live, block.1 = addr
      · obtain ⟨⟨start, order⟩, member, rfl⟩ := live
        obtain ⟨after, freed, same, kept⟩ := free_honoured kept member
        exact ⟨⟨after, _⟩, by rw [perform, if_pos allowed, freed], same, kept⟩
      · have notLive : ∀ block ∈ session.live, block.1 ≠ addr :=
          fun block member equal => live ⟨block, member, equal⟩
        have ignored := free_ignored kept allowed.1 allowed.2 notLive
        have unchanged : session.live.filter (fun block => block.1 ≠ addr) = session.live := by
          rw [List.filter_eq_self]
          intro block member
          simpa using notLive block member
        refine ⟨session, ?_, ⟨rfl, rfl, rfl⟩, kept⟩
        rw [perform, if_pos allowed, ignored]
        dsimp only
        rw [unchanged]
  | store addr value =>
      by_cases held : Holds session addr
      swap
      · left
        rw [perform, if_neg held]
      right
      refine ⟨⟨withBytes session.heap (Function.update session.heap.bytes addr value),
        session.live⟩,
        by rw [perform, if_pos held], ⟨rfl, rfl, rfl⟩, ?_⟩
      apply stores_kept kept
      intro place changed
      have same : place = addr := by
        by_contra different
        exact changed (Function.update_of_ne different _ _)
      obtain ⟨block, member, inside⟩ := held
      exact ⟨block, member, same ▸ inside⟩

theorem run_kept {calls : List Call} {heap : ExtendedBuddyPageAllocator} (kept : Kept heap table [])
    (ran : run perform ⟨heap, []⟩ calls = .ok session) :
    SameHeap heap session.heap ∧ Kept session.heap table session.live := by
  apply run_invariant
    (fun session => SameHeap heap session.heap ∧ Kept session.heap table session.live) _
    ⟨⟨rfl, rfl, rfl⟩, kept⟩ ran
  rintro state call next ⟨same, before⟩ stepped
  rcases perform_kept before call with refused | ⟨other, returned, further, after⟩
  · exact absurd (stepped.symm.trans refused) (by simp)
  · rw [stepped] at returned
    cases Except.ok.inj returned
    exact ⟨⟨further.1.trans same.1, further.2.1.trans same.2.1, further.2.2.trans same.2.2⟩, after⟩

end Runs

def entry (heap : ExtendedBuddyPageAllocator) (index : Nat) : UInt8 :=
  heap.bytes (heap.orders + index)

/-- For every heap that `new` builds over fewer than `2^29` pages and every
run of `alloc`, `calloc`, `free` of any page but the table's and stores of the
clients to their blocks: an entry differs from `0xFF` exactly when a live block
or the table itself starts at its page, and is that block's order; a `free` of
a page where no live block starts changes nothing; the live blocks are apart
from each other and from the block of the table; and no call fails to return. -/
theorem heap_survives_bad_frees (bytes : Nat → UInt8) (baseAddr pageCount : Nat)
    (heap : ExtendedBuddyPageAllocator) (nonNull : 0 < baseAddr) (small : pageCount < 2 ^ 29)
    (fits : baseAddr + pageSize * pageCount ≤ 2 ^ 64)
    (built : build bytes baseAddr pageCount = .ok (some heap)) :
    ∃ table, pageCount ≤ blockSize table ∧
      ∀ calls session, run perform ⟨heap, []⟩ calls = .ok session →
        session.heap.orders = heap.orders ∧
        (∀ index < pageCount, entry session.heap index ≠ 0xFF ↔
          ∃ block ∈ session.live ++ [(heap.orders, table)],
            block.1 = baseAddr + pageSize * index) ∧
        (∀ index < pageCount, ∀ block ∈ session.live ++ [(heap.orders, table)],
          block.1 = baseAddr + pageSize * index → (entry session.heap index).toNat = block.2) ∧
        (∀ addr, addr % pageSize = 0 → addr ≠ heap.orders →
          (∀ block ∈ session.live, block.1 ≠ addr) → free session.heap addr = .ok session.heap) ∧
        session.live.Pairwise (fun left right => (blockSpan left).Apart (blockSpan right)) ∧
        (∀ block ∈ session.live, (blockSpan block).Apart (blockSpan (heap.orders, table))) ∧
        ∀ call reason, perform session call ≠ .error (.halted reason) := by
  obtain ⟨base, count, table, kept⟩ := build_kept nonNull small fits built
  refine ⟨table, count ▸ kept.room, fun calls session ran => ?_⟩
  obtain ⟨⟨orders, sameBase, sameCount⟩, reached⟩ := run_kept kept ran
  obtain ⟨lists, holding⟩ := reached.holding
  have entries := reached.entries
  rw [orders] at holding entries
  have blockEntry : ∀ index < pageCount, ∀ block ∈ session.live ++ [(heap.orders, table)],
      block.1 = baseAddr + pageSize * index →
        entry session.heap index = UInt8.ofNat block.2 ∧ block.2 ≤ maxOrder := by
    intro index bound block member place
    rw [← base, ← sameBase] at place
    obtain ⟨value, order⟩ := entry_of_block holding member place
    refine ⟨?_, order⟩
    rw [entry, orders, entries index (by omega), value]
  have apart := List.pairwise_append.mp (held_pairwise_apart holding)
  refine ⟨orders, ?_, ?_, ?_, apart.1, ?_, ?_⟩
  · intro index bound
    constructor
    · intro used
      by_contra absent
      apply used
      rw [entry, orders, entries index (by omega), entry_for_absent]
      intro block member place
      exact absent ⟨block, member, by rw [← base, ← sameBase]; exact place⟩
    · rintro ⟨block, member, place⟩
      obtain ⟨value, order⟩ := blockEntry index bound block member place
      rw [value]
      exact (order_entry order).2
  · intro index bound block member place
    obtain ⟨value, order⟩ := blockEntry index bound block member place
    rw [value]
    exact (order_entry order).1
  · intro addr page notTable notLive
    rw [← orders] at notTable
    exact free_ignored reached page notTable notLive
  · intro block member
    exact apart.2.2 block member _ List.mem_cons_self
  · intro call reason failed
    rcases perform_kept reached call with refused | ⟨next, returned, _⟩
    · exact absurd (failed.symm.trans refused) (by simp)
    · exact absurd (failed.symm.trans returned) (by simp)

theorem three_page_heap_built : ∃ heap, build (fun _ => 0) 4096 3 = .ok (some heap) := by
  have returned : ((build (fun _ => 0) 4096 3).toOption.bind id).isSome = true := by
    decide +kernel
  cases result : build (fun _ => 0) 4096 3 with
  | error reason =>
      rw [result] at returned
      exact absurd returned (by simp [Except.toOption])
  | ok heap =>
      rw [result] at returned
      obtain ⟨heap, rfl⟩ := Option.isSome_iff_exists.mp returned
      exact ⟨heap, rfl⟩

theorem three_page_heap_survives :
    ∃ heap, build (fun _ => 0) 4096 3 = .ok (some heap) ∧
      ∃ table, 3 ≤ blockSize table ∧
        ∀ calls session, run perform ⟨heap, []⟩ calls = .ok session →
          ∀ addr, addr % pageSize = 0 → addr ≠ heap.orders →
            (∀ block ∈ session.live, block.1 ≠ addr) →
            free session.heap addr = .ok session.heap := by
  obtain ⟨heap, built⟩ := three_page_heap_built
  obtain ⟨table, room, runs⟩ := heap_survives_bad_frees (fun _ => 0) 4096 3 heap (by decide)
    (by decide) (by decide) built
  exact ⟨heap, built, table, room, fun calls session ran => (runs calls session ran).2.2.2.1⟩

/-- The table has an entry of its own: whatever blocks are called live, right
after `new` it is not the case both that an entry differs from `0xFF` exactly
where one of them starts and that they are all apart from the table's pages. -/
theorem table_has_an_entry :
    ∃ heap, build (fun _ => 0) 4096 3 = .ok (some heap) ∧
      run perform ⟨heap, []⟩ [] = .ok ⟨heap, []⟩ ∧
      ∀ live : List (Nat × Nat), ¬((∀ index < 3, entry heap index ≠ 0xFF ↔
          ∃ block ∈ live, block.1 = 4096 + pageSize * index) ∧
        ∀ block ∈ live, (blockSpan block).Apart ⟨heap.orders, pageSize * divCeil 3 pageSize⟩) := by
  obtain ⟨heap, built⟩ := three_page_heap_built
  refine ⟨heap, built, rfl, ?_⟩
  rintro live ⟨exact, apart⟩
  obtain ⟨base, count, table, kept⟩ := build_kept (by decide) (by decide) (by decide) built
  obtain ⟨lists, holding⟩ := kept.holding
  have member : (heap.orders, table) ∈ ([] : List (Nat × Nat)) ++ [(heap.orders, table)] :=
    List.mem_cons_self
  have page := block_page_aligned holding kept.aligned (List.mem_append_right _ member)
  obtain ⟨above, below⟩ := block_within holding (List.mem_append_right _ member)
  have positive := block_size_pos table
  simp only at page above below
  have place := entry_index_place kept.aligned page above
  have bound : entryIndex heap heap.orders < 3 := by
    rw [count] at below
    simp only [pageSize] at place below
    omega
  obtain ⟨value, order⟩ := entry_of_block holding member place
  have used : entry heap (entryIndex heap heap.orders) ≠ 0xFF := by
    rw [entry, kept.entries _ (by omega), value]
    exact (order_entry order).2
  obtain ⟨block, inLive, starts⟩ := (exact _ bound).mp used
  rw [base] at place
  have same : block.1 = heap.orders := starts.trans place.symm
  apply apart block inLive heap.orders
  · rw [← same]
    exact starts_inside block.1 block.2
  · have pages : 0 < pageSize * divCeil 3 pageSize := by decide
    exact ⟨Nat.le_refl _, Nat.lt_add_of_pos_right pages⟩

end Campix.Memory.HeapRuns
