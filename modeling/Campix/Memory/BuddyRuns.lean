import Campix.Memory.BuddyInvariant
import Mathlib.Algebra.BigOperators.Ring.List

/-!
# Client runs of the buddy allocator

A client allocates, frees what it holds and overwrites the pages it holds, in
any order. Along every such run the free blocks and the live blocks tile the
region, the page count is exact, and the only call that does not return is an
`alloc` whose page count `required_order` cannot reach.
-/

namespace Campix.Memory.BuddyRuns

open Lib.Word Lib.Tiling Lib.Chain Lib.Run Lib.Fallible
open Memory.BuddyAlloc Memory.BuddyInvariant

set_option autoImplicit false

/-- The state a client can rely on. `lists` are the blocks found by following
the free lists through the managed memory. -/
def RegionTiled (baseAddr pageCount : Nat) (session : Session) : Prop :=
  ∃ lists : Nat → List Nat,
    (∀ order ≤ maxOrder, Links FreeBlock.next session.alloc.mem
      (session.alloc.freeLists order) (lists order)) ∧
    Tiles baseAddr (baseAddr + pageSize * pageCount)
      ((freeBlocks lists ++ session.live).map blockSpan) ∧
    (∀ order ≤ maxOrder, ∀ addr ∈ lists order,
      baseAddr ≤ addr ∧ blockSize order ∣ addr - baseAddr) ∧
    session.alloc.allocatedPages = (session.live.map fun block => 2 ^ block.2).sum

structure Sound (baseAddr pageCount : Nat) (session : Session) : Prop where
  holding : ∃ lists, Holding session.alloc lists session.live ∧ Coalesced baseAddr lists
  base : session.alloc.baseAddr = baseAddr
  count : session.alloc.pageCount = pageCount
  counted : session.alloc.allocatedPages = (session.live.map fun block => 2 ^ block.2).sum

theorem sound_region_tiled {baseAddr pageCount : Nat} {session : Session}
    (sound : Sound baseAddr pageCount session) : RegionTiled baseAddr pageCount session := by
  obtain ⟨⟨lists, holding, _⟩, rfl, rfl, counted⟩ := sound
  refine ⟨lists, holding.links, holding.tiles, ?_, counted⟩
  intro order bound addr listed
  have member := listed_block lists session.live bound listed
  exact ⟨(block_within holding member).1, (holding.aligned _ member).2⟩

theorem required_order_loop_returns {numPages : Nat} (reachable : numPages ≤ 2 ^ 63) (fuel : Nat) :
    ∀ order, order + fuel = 65 → order ≤ 63 →
      ∃ result, requiredOrderLoop numPages fuel (2 ^ order) order = .ok result ∧
        numPages ≤ 2 ^ result := by
  induction fuel with
  | zero =>
      intro order total bound
      omega
  | succ fuel ih =>
      intro order total bound
      rw [requiredOrderLoop]
      split_ifs with larger
      · have below : order < 63 := by
          by_contra large
          have top : order = 63 := by omega
          subst top
          omega
        have power : 2 ^ (order + 1) ≤ 2 ^ 63 := Nat.pow_le_pow_right (by norm_num) (by omega)
        have doubled : mul64 (2 ^ order) 2 = 2 ^ (order + 1) := by
          rw [pow_succ] at power ⊢
          exact mul64_of_lt (by omega)
        rw [doubled]
        exact ih (order + 1) (by omega) (by omega)
      · exact ⟨order, rfl, Nat.le_of_not_lt larger⟩

theorem required_order_fits {numPages order : Nat} (reachable : numPages ≤ 2 ^ 63)
    (required : requiredOrder numPages = .ok order) : numPages ≤ 2 ^ order := by
  obtain ⟨result, returned, enough⟩ :=
    required_order_loop_returns reachable 65 0 rfl (by norm_num)
  rw [pow_zero] at returned
  rw [requiredOrder, returned] at required
  exact Except.ok.inj required ▸ enough

theorem required_order_loop_error {numPages : Nat} {reason : Halt} (fuel : Nat) :
    ∀ total order, requiredOrderLoop numPages fuel total order = .error reason →
      reason = .diverges := by
  induction fuel with
  | zero =>
      intro total order failed
      exact (Except.error.inj failed).symm
  | succ fuel ih =>
      intro total order failed
      rw [requiredOrderLoop] at failed
      split_ifs at failed
      exact ih _ _ failed

theorem required_order_error {numPages : Nat} {reason : Halt}
    (failed : requiredOrder numPages = .error reason) :
    reason = .diverges ∧ 2 ^ 63 < numPages := by
  refine ⟨required_order_loop_error 65 1 0 failed, ?_⟩
  by_contra reachable
  obtain ⟨result, returned, _⟩ :=
    required_order_loop_returns (Nat.le_of_not_lt reachable) 65 0 rfl (by norm_num)
  rw [pow_zero] at returned
  rw [requiredOrder, returned] at failed
  exact absurd failed (by simp)

theorem required_order_loop_stuck {numPages : Nat} (positive : 0 < numPages) (fuel : Nat) :
    ∀ order, requiredOrderLoop numPages fuel 0 order = .error .diverges := by
  induction fuel with
  | zero => exact fun _ => rfl
  | succ fuel ih =>
      intro order
      rw [requiredOrderLoop, if_pos positive]
      exact ih (order + 1)

/-- Past `2^63` pages the doubled size wraps to zero and stays there: no
number of rounds ends the loop, so `Halt.diverges` is not a matter of fuel. -/
theorem required_order_loop_never_returns {numPages : Nat} (large : 2 ^ 63 < numPages)
    (fuel : Nat) : ∀ order ≤ 63,
      requiredOrderLoop numPages fuel (2 ^ order) order = .error .diverges := by
  induction fuel with
  | zero => exact fun _ _ => rfl
  | succ fuel ih =>
      intro order bound
      have power : 2 ^ order ≤ 2 ^ 63 := Nat.pow_le_pow_right (by norm_num) bound
      rw [requiredOrderLoop, if_pos (by omega)]
      by_cases top : order = 63
      · have wrapped : mul64 (2 ^ order) 2 = 0 := by
          rw [top]
          rfl
        rw [wrapped]
        exact required_order_loop_stuck (by omega) fuel (order + 1)
      · have next : 2 ^ (order + 1) ≤ 2 ^ 63 := Nat.pow_le_pow_right (by norm_num) (by omega)
        have doubled : mul64 (2 ^ order) 2 = 2 ^ (order + 1) := by
          rw [pow_succ] at next ⊢
          exact mul64_of_lt (by omega)
        rw [doubled]
        exact ih (order + 1) (by omega)

section Calls

variable {alloc : BuddyPageAllocator} {lists : Nat → List Nat} {live : List (Nat × Nat)}

/-- The search of `alloc` ends at the first order with a free block, or past
the largest order when the orders searched have none. -/
theorem search_order_spec (holding : Holding alloc lists live) (remaining : Nat) :
    ∀ order, order + remaining = maxOrder + 1 →
      order ≤ searchOrder alloc.freeLists remaining order ∧
      (∀ list, order ≤ list → list < searchOrder alloc.freeLists remaining order →
        lists list = []) ∧
      (searchOrder alloc.freeLists remaining order = maxOrder + 1 ∨
        searchOrder alloc.freeLists remaining order ≤ maxOrder ∧
        ∃ top tail, lists (searchOrder alloc.freeLists remaining order) = top :: tail) := by
  induction remaining with
  | zero =>
      intro order total
      rw [searchOrder]
      exact ⟨Nat.le_refl order, fun list lower upper => absurd upper (by omega), Or.inl total⟩
  | succ remaining ih =>
      intro order total
      have links := holding.links order (by omega)
      rw [searchOrder]
      cases listed : lists order with
      | nil =>
          rw [listed] at links
          have head : alloc.freeLists order = none := links
          rw [head, if_pos Option.isNone_none]
          obtain ⟨lower, empty, ended⟩ := ih (order + 1) (by omega)
          refine ⟨by omega, ?_, ended⟩
          intro list lowest below
          by_cases first : list = order
          · rw [first]
            exact listed
          · exact empty list (by omega) below
      | cons top tail =>
          rw [listed] at links
          have head : alloc.freeLists order = some top := links.1
          rw [head, if_neg (by simp)]
          exact ⟨Nat.le_refl order, fun list lower upper => absurd upper (by omega),
            Or.inr ⟨by omega, top, tail, listed⟩⟩

/-- What `alloc` does once the order is known. -/
theorem alloc_pages_required {numPages order : Nat} (nonzero : ¬numPages = 0)
    (required : requiredOrder numPages = .ok order) :
    allocPages alloc numPages = (if maxOrder < order then .ok (none, alloc)
      else if maxOrder < searchOrder alloc.freeLists (maxOrder + 1 - order) order then
        .ok (none, alloc)
      else splitLoop order
        (searchOrder alloc.freeLists (maxOrder + 1 - order) order - order) alloc >>= fun split =>
        consume split order >>= fun taken => match taken.1 with
          | none => .ok (none, taken.2)
          | some addr => .ok (some (addr, order), { taken.2 with
              allocatedPages := add64 taken.2.allocatedPages (2 ^ order) })) := by
  rw [allocPages, if_neg nonzero, required]
  rfl

/-- `alloc` returns, unless `required_order` does not. It gives nothing, and
changes nothing, when the request is empty, too large, or no order from the
required one up has a free block; otherwise it carves the first block of the
lowest such order. -/
theorem alloc_pages_holding (holding : Holding alloc lists live) (numPages : Nat) :
    (allocPages alloc numPages = .error .diverges ∧ 2 ^ 63 < numPages) ∨
    (allocPages alloc numPages = .ok (none, alloc) ∧
      (0 < numPages → ∀ order, requiredOrder numPages = .ok order → ∀ list, order ≤ list →
        list ≤ maxOrder → lists list = [])) ∨
    ∃ after order current top tail, allocPages alloc numPages = .ok (some (top, order), after) ∧
      requiredOrder numPages = .ok order ∧
      after.baseAddr = alloc.baseAddr ∧ after.pageCount = alloc.pageCount ∧
      after.allocatedPages = add64 alloc.allocatedPages (2 ^ order) ∧
      lists current = top :: tail ∧ Framed live alloc after ∧
      Holding after (carved lists order current top tail) ((top, order) :: live) := by
  by_cases zero : numPages = 0
  · right
    left
    exact ⟨by rw [allocPages, if_pos zero]; rfl, fun positive => absurd zero (by omega)⟩
  cases required : requiredOrder numPages with
  | error reason =>
      left
      obtain ⟨rfl, large⟩ := required_order_error required
      refine ⟨?_, large⟩
      rw [allocPages, if_neg zero, required]
      rfl
  | ok order =>
      rw [alloc_pages_required zero required]
      right
      by_cases large : maxOrder < order
      · left
        refine ⟨by rw [if_pos large], ?_⟩
        rintro _ _ ⟨⟩ list lower upper
        omega
      obtain ⟨found, empty, ended⟩ := search_order_spec holding (maxOrder + 1 - order) order
        (by omega)
      generalize searchOrder alloc.freeLists (maxOrder + 1 - order) order = current at *
      rw [if_neg large]
      rcases ended with exhausted | ⟨bound, top, tail, listed⟩
      · left
        refine ⟨by rw [if_pos (by omega)], ?_⟩
        rintro _ _ ⟨⟩ list lower upper
        exact empty list lower (by omega)
      · right
        obtain ⟨levels, rfl⟩ := Nat.exists_eq_add_of_le found
        obtain ⟨split, returned, region, framed, kept⟩ :=
          split_loop_holding order levels holding bound listed empty
        obtain ⟨taken, consumed, takenRegion, takenMem, inHand⟩ :=
          consume_head kept (by omega) (Function.update_self _ _ _)
        rw [Function.update_idem, Function.update_eq_self] at inHand
        obtain ⟨sameBase, sameCount, samePages⟩ := same_region_trans region takenRegion
        refine ⟨{ taken with allocatedPages := add64 taken.allocatedPages (2 ^ order) }, order,
          order + levels, top, tail, ?_, rfl, sameBase, sameCount, ?_, listed, ?_, ?_⟩
        · rw [if_neg (by omega), Nat.add_sub_cancel_left, returned, ok_bind, consumed, ok_bind]
        · rw [← samePages]
        · intro block member addr inside
          exact (congrFun takenMem addr).trans (framed block member addr inside)
        · exact ⟨inHand.nonNull, inHand.fits, inHand.small, inHand.links, inHand.headers,
            inHand.tiles, inHand.aligned⟩

theorem free_holding {addr order : Nat} (holding : Holding alloc lists ((addr, order) :: live)) :
    ∃ after newLists, free alloc addr order = .ok after ∧
      after.baseAddr = alloc.baseAddr ∧ after.pageCount = alloc.pageCount ∧
      after.allocatedPages = sub64 alloc.allocatedPages (2 ^ order) ∧
      Framed live alloc after ∧ Holding after newLists live ∧
      (Coalesced alloc.baseAddr lists → Coalesced alloc.baseAddr newLists) := by
  have bound := (head_aligned holding).1
  simp only at bound
  have counted : Holding { alloc with allocatedPages := sub64 alloc.allocatedPages (2 ^ order) }
      lists ((addr, order) :: live) :=
    ⟨holding.nonNull, holding.fits, holding.small, holding.links, holding.headers,
      holding.tiles, holding.aligned⟩
  obtain ⟨after, newLists, returned, ⟨sameBase, sameCount, samePages⟩, framed, kept, stays⟩ :=
    free_loop_holding (maxOrder + 1 - order) (by omega) counted
  refine ⟨after, newLists, ?_, sameBase, sameCount, samePages, framed, kept, stays⟩
  rw [free, if_neg (by omega)]
  exact returned

theorem store_holding (holding : Holding alloc lists live) {page : Nat} {block : Nat × Nat}
    (member : block ∈ live) (inside : block.1 ≤ page ∧ page < block.1 + blockSize block.2)
    (bytes : FreeBlock) :
    Holding { alloc with mem := Function.update alloc.mem page bytes } lists live := by
  have elsewhere : ∀ order ≤ maxOrder, ∀ addr ∈ lists order, addr ≠ page := by
    rintro order bound addr listed rfl
    exact free_apart_held holding bound listed member addr (starts_inside addr order) inside
  apply holding_mem holding
  intro order bound addr listed
  exact Function.update_of_ne (elsewhere order bound addr listed) _ _

/-- The live blocks never count more pages than the region has. -/
theorem live_pages_le (holding : Holding alloc lists live) :
    (live.map fun block => 2 ^ block.2).sum ≤ alloc.pageCount := by
  have total := pages_total holding
  have scaled : (live.map fun block => blockSize block.2).sum =
      pageSize * (live.map fun block => 2 ^ block.2).sum := by
    rw [← List.sum_map_mul_left]
    rfl
  rw [List.map_append, List.sum_append, scaled] at total
  simp only [pageSize] at total
  omega

end Calls

theorem new_sound (mem : Nat → FreeBlock) {baseAddr pageCount : Nat}
    (aligned : baseAddr % pageSize = 0) (nonNull : 0 < baseAddr) (nonEmpty : 0 < pageCount)
    (small : pageCount < 2 ^ 29) (fits : baseAddr + pageSize * pageCount ≤ 2 ^ 64) :
    ∃ alloc, new mem baseAddr pageCount = .ok alloc ∧ Sound baseAddr pageCount ⟨alloc, []⟩ := by
  obtain ⟨alloc, lists, created, holding, coalesced, base, count, pages⟩ :=
    new_holding mem aligned nonNull nonEmpty small fits
  exact ⟨alloc, created, ⟨lists, holding, coalesced⟩, base, count, by simpa using pages⟩

/-- One call of a client keeps the invariant, or is the `alloc` that
`required_order` never returns from. -/
theorem perform_sound {baseAddr pageCount : Nat} {session : Session}
    (sound : Sound baseAddr pageCount session) (call : Call) :
    (∃ next, perform session call = .ok next ∧ Sound baseAddr pageCount next) ∨
      perform session call = .error .notHeld ∨
      ∃ numPages, call = .alloc numPages ∧ 2 ^ 63 < numPages ∧
        perform session call = .error (.halted .diverges) := by
  obtain ⟨⟨lists, holding, coalesced⟩, base, count, counted⟩ := sound
  cases call with
  | alloc numPages =>
      rcases alloc_pages_holding holding numPages with ⟨failed, large⟩ |
        ⟨returned, _⟩ |
        ⟨after, order, current, top, tail, returned, _, sameBase, sameCount, pages, listed, _, kept⟩
      · right
        right
        exact ⟨numPages, rfl, large, by rw [perform, failed]⟩
      · left
        exact ⟨session, by rw [perform, returned], ⟨lists, holding, coalesced⟩, base, count, counted⟩
      · left
        have room := live_pages_le kept
        have small := kept.small
        simp only [List.map_cons, List.sum_cons] at room
        have exact : add64 session.alloc.allocatedPages (2 ^ order) =
            2 ^ order + (session.live.map fun block => 2 ^ block.2).sum := by
          rw [counted, Nat.add_comm]
          exact add64_of_lt (by omega)
        refine ⟨⟨after, (top, order) :: session.live⟩, by rw [perform, returned],
          ⟨_, kept, coalesced_carved coalesced listed⟩, sameBase.trans base,
            sameCount.trans count, ?_⟩
        rw [List.map_cons, List.sum_cons]
        exact pages.trans exact
  | free addr order =>
      by_cases held : (addr, order) ∈ session.live
      · left
        obtain ⟨after, newLists, returned, sameBase, sameCount, pages, _, kept, stays⟩ :=
          free_holding (holding_perm holding (List.perm_cons_erase held))
        have split := ((List.perm_cons_erase held).map fun block => 2 ^ block.2).sum_eq
        simp only [List.map_cons, List.sum_cons] at split
        rw [base] at stays
        refine ⟨⟨after, session.live.erase (addr, order)⟩, ?_, ⟨newLists, kept, stays coalesced⟩,
          sameBase.trans base, sameCount.trans count, ?_⟩
        · rw [perform, if_pos held, returned]
        · simp only [pages, counted]
          rw [sub64_of_le (by omega)]
          omega
      · right
        left
        rw [perform, if_neg held]
  | store page bytes =>
      by_cases held : Holds session page
      · left
        have stored : perform session (.store page bytes) = .ok { session with alloc :=
            { session.alloc with mem := Function.update session.alloc.mem page bytes } } := by
          rw [perform, if_pos held]
        obtain ⟨block, member, inside⟩ := held
        exact ⟨_, stored, ⟨lists, store_holding holding member inside bytes, coalesced⟩,
          base, count,
          counted⟩
      · right
        left
        rw [perform, if_neg held]

theorem run_sound {baseAddr pageCount : Nat} {session final : Session} {calls : List Call}
    (sound : Sound baseAddr pageCount session) (ran : run perform session calls = .ok final) :
    Sound baseAddr pageCount final := by
  apply run_invariant (Sound baseAddr pageCount) _ sound ran
  intro state call next before stepped
  rcases perform_sound before call with ⟨other, returned, after⟩ | failed | ⟨_, _, _, failed⟩
  · rw [stepped] at returned
    exact Except.ok.inj returned ▸ after
  · exact absurd (stepped.symm.trans failed) (by simp)
  · exact absurd (stepped.symm.trans failed) (by simp)

/-- For every page-aligned region with a non-null base, fewer than `2^29`
pages and an end that does not pass `2^64`: `new` returns, and in every state
that a run of `alloc`, `free` of held blocks and stores to held pages reaches,
the region is tiled as `RegionTiled` says, and the next call of the client
trips no assertion. -/
theorem client_runs_tile_region (mem : Nat → FreeBlock) (baseAddr pageCount : Nat)
    (aligned : baseAddr % pageSize = 0) (nonNull : 0 < baseAddr) (nonEmpty : 0 < pageCount)
    (small : pageCount < 2 ^ 29) (fits : baseAddr + pageSize * pageCount ≤ 2 ^ 64) :
    ∃ alloc, new mem baseAddr pageCount = .ok alloc ∧
      ∀ calls session, run perform ⟨alloc, []⟩ calls = .ok session →
        RegionTiled baseAddr pageCount session ∧
        ∀ call reason, perform session call = .error (.halted reason) →
          reason = .diverges ∧ ∃ numPages, call = .alloc numPages ∧ 2 ^ 63 < numPages := by
  obtain ⟨alloc, created, sound⟩ := new_sound mem aligned nonNull nonEmpty small fits
  refine ⟨alloc, created, fun calls session ran => ?_⟩
  have reached := run_sound sound ran
  refine ⟨sound_region_tiled reached, fun call reason failed => ?_⟩
  rcases perform_sound reached call with ⟨next, returned, _⟩ | refused |
    ⟨numPages, rfl, large, halted⟩
  · exact absurd (failed.symm.trans returned) (by simp)
  · exact absurd (failed.symm.trans refused) (by simp)
  · have same := Except.error.inj (failed.symm.trans halted)
    exact ⟨Stop.halted.inj same, numPages, rfl, large⟩

/-- Three pages at `0x1000`: the binary decomposition leaves a block of two
pages and a tail of one. -/
theorem three_page_region_tiled :
    ∃ alloc, new (fun _ => ⟨none, 0⟩) 4096 3 = .ok alloc ∧
      ∀ calls session, run perform ⟨alloc, []⟩ calls = .ok session →
        RegionTiled 4096 3 session ∧
        ∀ call reason, perform session call = .error (.halted reason) →
          reason = .diverges ∧ ∃ numPages, call = .alloc numPages ∧ 2 ^ 63 < numPages :=
  client_runs_tile_region (fun _ => ⟨none, 0⟩) 4096 3 (by decide) (by decide) (by decide)
    (by decide) (by decide)

/-- Address zero is not a `NonNull`: a region that starts there loses its
first block, and the free list of its order stays empty. -/
theorem null_base_not_tiled :
    ∃ alloc, new (fun _ => ⟨none, 0⟩) 0 1 = .ok alloc ∧
      run perform ⟨alloc, []⟩ [] = .ok ⟨alloc, []⟩ ∧ ¬RegionTiled 0 1 ⟨alloc, []⟩ := by
  obtain ⟨alloc, created, empty⟩ : ∃ alloc, new (fun _ => ⟨none, 0⟩) 0 1 = .ok alloc ∧
      ∀ order < 29, alloc.freeLists order = none :=
    ⟨init ⟨0, 1, fun _ => none, 0, fun _ => ⟨none, 0⟩⟩, by rw [new, if_pos (by decide)],
      by decide +kernel⟩
  refine ⟨alloc, created, rfl, ?_⟩
  rintro ⟨lists, links, tiles, -, -⟩
  have noLists : ∀ order ≤ maxOrder, lists order = [] := by
    intro order bound
    have chained := links order bound
    rw [empty order (Nat.lt_succ_of_le bound)] at chained
    exact links_none_iff.mp chained
  obtain ⟨span, member, _⟩ := (tiles.cover 0).mpr ⟨Nat.le_refl 0, by decide⟩
  obtain ⟨block, listed, _⟩ := List.mem_map.mp member
  rw [List.append_nil, mem_free_blocks] at listed
  rw [noLists block.2 listed.1] at listed
  exact absurd listed.2 (by simp)

end Campix.Memory.BuddyRuns
