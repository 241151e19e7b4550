import Campix.Paging.Iteration
import Campix.Syscall.CStrings

/-!
# Buffers of a process

Which buffers `verify_fully_mapped` accepts. It sees the pages only as the iterator yields
them: an accepted buffer is mapped, up to the page in which its end lies, but the check asks
for that page also where the buffer ends before it, and expects the next page 4 KiB behind
the last one also where that was a larger one.
-/

namespace Campix.Syscall

open Lib.Word Paging Process

set_option autoImplicit false

variable {σ : Type} {space : UserSpace σ} {position next rounds beginPage endPage buffer size : Nat}
  {entry : PageTableEntry} {last : Option Nat}

def UserSpace.inLarge (space : UserSpace σ) (addr : Nat) : Prop :=
  leaves space.table.pml4 space.machine (largeEntry addr) ≠ none

theorem round_found_mapped (word : position < 2 ^ 64)
    (round : space.table.iterRound space.alloc space.machine position = .found entry next) :
    entry.virt = position ∧ space.mapped position = true := by
  by_cases hole : position ≥ 0x0000_8000_0000_0000 ∧ position < 0xFFFF_8000_0000_0000
  · rw [PageTable.iterRound, if_pos hole] at round
    exact absurd round (by simp)
  have canonical : Canonical position := by
    unfold Canonical
    omega
  rw [iter_round_canonical space.alloc canonical] at round
  split at round
  · split_ifs at round
  · split at round
    · exact absurd round (by simp)
    · split at round
      · rename_i large
        obtain ⟨rfl, -⟩ := Round.found.inj round
        refine ⟨rfl, ?_⟩
        rw [mapped_eq_lookup, lookup, large]
        rfl
      · rename_i large
        split at round
        · exact absurd round (by simp)
        · split at round
          · rename_i small
            obtain ⟨rfl, -⟩ := Round.found.inj round
            refine ⟨rfl, ?_⟩
            rw [mapped_eq_lookup, lookup, large, small]
            rfl
          · exact absurd round (by simp)

theorem next_yields_mapped {end_ : Nat} (word : end_ ≤ 2 ^ 64) {iter : PageTableIter}
    (rounds : Nat) :
    ∀ position, space.table.next space.alloc space.machine rounds ⟨position, end_⟩ = some
      (some entry, iter) →
      space.mapped entry.virt = true ∧ iter.endExclusive = end_ := by
  induction rounds with
  | zero =>
      intro position returned
      exact absurd returned (by simp [PageTable.next])
  | succ rounds ih =>
      intro position returned
      by_cases inside : position < end_
      · generalize round : space.table.iterRound space.alloc space.machine position = outcome
        cases outcome with
        | stop =>
            rw [next_stop inside round] at returned
            exact absurd (Prod.mk.inj (Option.some.inj returned)).1 (by simp)
        | skip next =>
            rw [next_skip inside round] at returned
            exact ih next returned
        | found found next =>
            rw [next_found inside round] at returned
            obtain ⟨same, rfl⟩ := Prod.mk.inj (Option.some.inj returned)
            obtain rfl := Option.some.inj same
            obtain ⟨here, mapped⟩ := round_found_mapped (by omega) round
            rw [here]
            exact ⟨mapped, rfl⟩
      · rw [next_past inside] at returned
        exact absurd (Prod.mk.inj (Option.some.inj returned)).1 (by simp)

/-- The loop goes on with this page only. -/
def Expected (beginPage : Nat) (last : Option Nat) (virt : Nat) : Prop :=
  match last with
  | none => virt = beginPage
  | some lastAddr => virt = add64 lastAddr pageSize

theorem verify_round {iter after : PageTableIter}
    (returned : space.table.next space.alloc space.machine (rounds + 1)
      iter = some (some entry, after))
    (expected : Expected beginPage last entry.virt) :
    verifyPages space beginPage endPage (rounds + 1) iter last =
      verifyPages space beginPage endPage rounds after (some entry.virt) := by
  rw [verifyPages, returned]
  cases last with
  | none =>
      have here : entry.virt = beginPage := expected
      dsimp only
      rw [if_neg (not_not.mpr here)]
  | some lastAddr =>
      have here : entry.virt = add64 lastAddr pageSize := expected
      dsimp only
      rw [if_neg (not_not.mpr here)]

theorem verify_round_accepted {iter after : PageTableIter}
    (returned : space.table.next space.alloc space.machine (rounds + 1)
      iter = some (some entry, after))
    (accepted : verifyPages space beginPage endPage (rounds + 1) iter last = some true) :
    Expected beginPage last entry.virt := by
  rw [verifyPages, returned] at accepted
  cases last with
  | none =>
      dsimp only at accepted
      split_ifs at accepted with different
      · exact absurd accepted (by simp)
      · exact not_not.mp different
  | some lastAddr =>
      dsimp only at accepted
      split_ifs at accepted with different
      · exact absurd accepted (by simp)
      · exact not_not.mp different

/-- The pages that were seen follow one another without a gap, the last one being that of
the end. -/
theorem verify_pages_mapped {end_ : Nat} (word : end_ ≤ 2 ^ 64) (rounds : Nat) :
    ∀ iter seen, iter.endExclusive = end_ →
      (∀ page ≤ seen, space.mapped ((beginPage + page * pageSize) % 2 ^ 64) = true) →
      verifyPages space beginPage endPage rounds iter
        (some ((beginPage + seen * pageSize) % 2 ^ 64)) = some true →
      ∃ pages, (∀ page ≤ pages, space.mapped ((beginPage + page * pageSize) % 2 ^ 64) = true) ∧
        (beginPage + pages * pageSize) % 2 ^ 64 = endPage := by
  induction rounds with
  | zero =>
      intro iter seen _ _ accepted
      exact absurd accepted (by simp [verifyPages])
  | succ rounds ih =>
      intro iter seen range mapped accepted
      obtain ⟨position, end'⟩ := iter
      obtain rfl : end' = end_ := range
      cases returned : space.table.next space.alloc space.machine (rounds + 1) ⟨position, end'⟩ with
      | none =>
          rw [verifyPages, returned] at accepted
          exact absurd accepted (by simp)
      | some result =>
          obtain ⟨found, after⟩ := result
          cases found with
          | none =>
              rw [verifyPages, returned] at accepted
              exact ⟨seen, mapped, Option.some.inj (of_decide_eq_true (Option.some.inj accepted))⟩
          | some entry =>
              have expected := verify_round_accepted returned accepted
              have here := next_yields_mapped word _ _ returned
              have place : entry.virt = (beginPage + (seen + 1) * pageSize) % 2 ^ 64 := by
                have added : entry.virt = add64 ((beginPage + seen * pageSize) % 2 ^ 64) pageSize :=
                  expected
                rw [added, add64, Nat.mod_add_mod, Nat.succ_mul, Nat.add_assoc]
              rw [verify_round returned expected, place] at accepted
              apply ih after (seen + 1) here.2 ?_ accepted
              intro page among
              by_cases before : page ≤ seen
              · exact mapped page before
              · obtain rfl : page = seen + 1 := by omega
                rw [← place]
                exact here.1

theorem accepted_pages_mapped (accepted : verifyFullyMapped space rounds buffer size = some true) :
    ∀ addr, buffer / pageSize * pageSize ≤ addr →
      addr < (buffer + size) / pageSize * pageSize + pageSize →
      space.mapped addr = true := by
  have fits : buffer + size < 2 ^ 64 := by
    by_contra overflow
    rw [verifyFullyMapped, if_pos (by omega)] at accepted
    exact absurd accepted (by simp)
  unfold verifyFullyMapped at accepted
  rw [if_neg (by omega)] at accepted
  dsimp only at accepted
  rw [align_down_page fits, align_down_page (by omega : buffer < 2 ^ 64)] at accepted
  by_cases halves : sameHalf (getAddressSpace buffer) (getAddressSpace (buffer + size)) = true
  swap
  · rw [if_pos halves] at accepted
    exact absurd accepted (by simp)
  rw [if_neg (not_not.mpr halves)] at accepted
  have word : add64 ((buffer + size) / pageSize * pageSize) pageSize ≤ 2 ^ 64 := (add64_lt _ _).le
  generalize begins : buffer / pageSize * pageSize = beginPage at *
  generalize ends : (buffer + size) / pageSize * pageSize = endPage at *
  have first : ∃ pages, (∀ page ≤ pages,
      space.mapped ((beginPage + page * pageSize) % 2 ^ 64) = true) ∧
      (beginPage + pages * pageSize) % 2 ^ 64 = endPage := by
    cases rounds with
    | zero => exact absurd accepted (by simp [verifyPages])
    | succ rounds =>
        cases returned : space.table.next space.alloc space.machine (rounds + 1)
            ⟨beginPage, add64 endPage pageSize⟩ with
        | none =>
            rw [verifyPages, returned] at accepted
            exact absurd accepted (by simp)
        | some result =>
            obtain ⟨found, after⟩ := result
            cases found with
            | none =>
                rw [verifyPages, returned] at accepted
                exact absurd accepted (by simp)
            | some entry =>
                have expected := verify_round_accepted returned accepted
                have here := next_yields_mapped word _ _ returned
                have place : entry.virt = (beginPage + 0 * pageSize) % 2 ^ 64 := by
                  have start : entry.virt = beginPage := expected
                  have small : beginPage < 2 ^ 64 := by
                    unfold pageSize at begins
                    omega
                  rw [start, Nat.zero_mul, Nat.add_zero, Nat.mod_eq_of_lt small]
                rw [verify_round returned expected, place] at accepted
                apply verify_pages_mapped word rounds after 0 here.2 ?_ accepted
                intro page among
                obtain rfl : page = 0 := by omega
                rw [← place]
                exact here.1
  obtain ⟨pages, mapped, reached⟩ := first
  intro addr above below
  unfold pageSize at *
  have among : (addr - beginPage) / 4096 ≤ pages := by omega
  have page := mapped _ among
  rw [Nat.mod_eq_of_lt (by omega)] at page
  rw [← page]
  apply mapped_of_page
  unfold pageSize
  omega

/-- Whatever the page table, an accepted buffer is mapped as a whole. -/
theorem accepted_buffer_mapped (space : UserSpace σ) (rounds buffer size : Nat)
    (accepted : verifyFullyMapped space rounds buffer size = some true) :
    ∀ addr, buffer ≤ addr → addr < buffer + size →
      ∃ phys, space.table.translate space.alloc addr space.machine = .ok phys space.machine := by
  intro addr above below
  have mapped := accepted_pages_mapped accepted addr (by unfold pageSize; omega)
    (by unfold pageSize; omega)
  rw [mapped_eq_lookup] at mapped
  obtain ⟨phys, found⟩ := Option.isSome_iff_exists.mp mapped
  refine ⟨phys, ?_⟩
  rw [translate_lookup, found]
  rfl

def userPage : UserSpace FreeList where
  table := firstPage
  alloc := FreeList.lawful.toPageAllocator
  machine := onePage 0x1000
  bytes := fun _ => 0

theorem user_page_accepted : verifyFullyMapped userPage 2 0x1000 16 = some true := by decide +kernel

theorem user_page_buffer_mapped :
    verifyFullyMapped userPage 2 0x1000 16 = some true ∧
      ∀ addr, 0x1000 ≤ addr → addr < 0x1000 + 16 →
        ∃ phys, userPage.table.translate userPage.alloc addr userPage.machine = .ok phys
          userPage.machine :=
  ⟨user_page_accepted, accepted_buffer_mapped userPage 2 0x1000 16 user_page_accepted⟩

/-- From a mapped position the iterator yields at once; it goes on behind the page, or 2 MiB
further where a large page is mapped. -/
theorem next_mapped {end_ : Nat} (inside : position < end_) (lower : end_ ≤ lowerHalfEnd)
    (mapped : space.mapped position = true) :
    ∃ entry next, entry.virt = position ∧
      space.table.next space.alloc space.machine (rounds + 1)
        ⟨position, end_⟩ = some (some entry, ⟨next, end_⟩) ∧
      (space.inLarge position → next = position + pageSize2mb) ∧
      (¬space.inLarge position → next = position + pageSize) := by
  have canonical : Canonical position := by
    unfold Canonical lowerHalfEnd at *
    omega
  have onward : ∀ step, step ≤ pageSize2mb → add64 position step = position + step := by
    intro step small
    apply add64_of_lt
    unfold lowerHalfEnd pageSize2mb at *
    omega
  rw [mapped_eq_lookup] at mapped
  unfold lookup at mapped
  unfold UserSpace.inLarge
  cases large : leaves space.table.pml4 space.machine (largeEntry position) with
  | some phys =>
      have round := round_at_large space.alloc canonical large
      rw [onward _ (Nat.le_refl _)] at round
      refine ⟨_, _, rfl, next_found inside round, fun _ => rfl, fun covered => ?_⟩
      exact absurd (by simp) covered
  | none =>
      rw [large, Option.isSome_map] at mapped
      obtain ⟨phys, small⟩ := Option.isSome_iff_exists.mp mapped
      have round := round_at_small space.alloc canonical small
      rw [onward _ (by decide)] at round
      refine ⟨_, _, rfl, next_found inside round, fun covered => ?_, fun _ => rfl⟩
      exact absurd rfl covered

theorem verify_past {end_ : Nat} (outside : ¬position < end_) :
    verifyPages space beginPage endPage (rounds + 1) ⟨position, end_⟩
      last = some (decide (last = some endPage)) := by
  rw [verifyPages, next_past outside]

theorem large_not_accepted {pages : Nat} (reached : position + pages * pageSize = endPage)
    (lower : endPage + pageSize ≤ lowerHalfEnd) (before : 0 < pages)
    (mapped : ∀ page ≤ pages, space.mapped (position + page * pageSize) = true) :
    verifyPages space beginPage endPage rounds ⟨position + pageSize2mb, endPage + pageSize⟩
      (some position) ≠
      some true := by
  intro accepted
  have words : lowerHalfEnd < 2 ^ 64 := by decide
  cases rounds with
  | zero => exact absurd accepted (by simp [verifyPages])
  | succ rounds =>
      unfold pageSize2mb at accepted
      by_cases inside : position + 2 * 1024 * 1024 < endPage + pageSize
      · have page := mapped 512 (by unfold pageSize at *; omega)
        obtain ⟨entry, next, here, yields, -⟩ :=
          @next_mapped σ space (position + 2 * 1024 * 1024) rounds _ inside lower page
        have expected : entry.virt = add64 position pageSize :=
          verify_round_accepted yields accepted
        rw [here, add64_of_lt (by unfold pageSize at *; omega)] at expected
        unfold pageSize at expected
        omega
      · rw [verify_past inside] at accepted
        have last := Option.some.inj (of_decide_eq_true (Option.some.inj accepted))
        unfold pageSize at reached
        omega

/-- The rest of the loop from the next page on: the page of the end is reached if none of the
pages before it is large. -/
theorem rest_accepted_iff (pages : Nat) :
    ∀ position last, position + pages * pageSize = endPage → endPage + pageSize ≤ lowerHalfEnd →
      (∀ page ≤ pages, space.mapped (position + page * pageSize) = true) →
        Expected beginPage last position →
      ((∃ rounds, verifyPages space beginPage endPage rounds ⟨position, endPage + pageSize⟩
        last = some true) ↔
        ∀ page < pages, ¬space.inLarge (position + page * pageSize)) := by
  have words : lowerHalfEnd < 2 ^ 64 := by decide
  have positive : 0 < pageSize := by decide
  induction pages with
  | zero =>
      intro position last reached lower mapped expected
      have here := mapped 0 (Nat.le_refl _)
      rw [Nat.zero_mul, Nat.add_zero] at reached here
      subst reached
      constructor
      · intro _ page impossible
        exact absurd impossible (Nat.not_lt_zero _)
      · intro _
        obtain ⟨entry, next, virt, yields, large, small⟩ :=
          @next_mapped σ space position 1 _ (by omega) lower here
        have past : ¬next < position + pageSize := by
          by_cases covered : space.inLarge position
          · rw [large covered]
            unfold pageSize pageSize2mb
            omega
          · rw [small covered]
            omega
        refine ⟨2, ?_⟩
        rw [verify_round yields (virt ▸ expected), verify_past past, virt, decide_eq_true rfl]
  | succ pages ih =>
      intro position last reached lower mapped expected
      have here := mapped 0 (Nat.zero_le _)
      rw [Nat.zero_mul, Nat.add_zero] at here
      have step : position + pageSize + pages * pageSize = endPage := by
        rw [← reached, Nat.succ_mul]
        omega
      have shifted : ∀ page, position + pageSize + page * pageSize = position + (page + 1) *
          pageSize := by
        intro page
        rw [Nat.succ_mul]
        omega
      have later : ∀ page ≤ pages, space.mapped (position + pageSize + page * pageSize) = true := by
        intro page among
        rw [shifted]
        exact mapped (page + 1) (by omega)
      have onward : Expected beginPage (some position) (position + pageSize) :=
        (add64_of_lt (by omega)).symm
      have rest := ih (position + pageSize) (some position) step lower later onward
      constructor
      · rintro ⟨rounds, accepted⟩
        cases rounds with
        | zero => exact absurd accepted (by simp [verifyPages])
        | succ rounds =>
            obtain ⟨entry, next, virt, yields, large, small⟩ :=
              @next_mapped σ space position rounds _ (by omega) lower here
            rw [verify_round yields (virt ▸ expected), virt] at accepted
            have fits : ¬space.inLarge position := by
              intro covered
              rw [large covered] at accepted
              exact large_not_accepted reached lower (Nat.succ_pos _) mapped accepted
            rw [small fits] at accepted
            have others := rest.mp ⟨rounds, accepted⟩
            intro page among
            cases page with
            | zero =>
                rw [Nat.zero_mul, Nat.add_zero]
                exact fits
            | succ page =>
                rw [← shifted]
                exact others page (by omega)
      · intro fits
        have first := fits 0 (Nat.succ_pos _)
        rw [Nat.zero_mul, Nat.add_zero] at first
        obtain ⟨rounds, accepted⟩ := rest.mpr fun page among => by
          rw [shifted]
          exact fits (page + 1) (by omega)
        obtain ⟨entry, next, virt, yields, -, small⟩ :=
          @next_mapped σ space position rounds _ (by omega) lower here
        refine ⟨rounds + 1, ?_⟩
        rw [verify_round yields (virt ▸ expected), virt, small first]
        exact accepted

theorem pages_mapped (sized : 1 ≤ size)
    (mapped : ∀ addr, buffer ≤ addr → addr < buffer + size → space.mapped addr = true)
    (endMapped : space.mapped (buffer + size) = true) {addr : Nat}
    (above : buffer / pageSize * pageSize ≤ addr)
    (below : addr < (buffer + size) / pageSize * pageSize + pageSize) : space.mapped addr =
    true := by
  have other : ∃ byte, byte / pageSize = addr / pageSize ∧ buffer ≤ byte ∧
      byte ≤ buffer + size := by
    by_cases early : addr < buffer
    · exact ⟨buffer, by unfold pageSize at *; omega, by omega, by omega⟩
    · by_cases late : buffer + size < addr
      · exact ⟨buffer + size, by unfold pageSize at *; omega, by omega, by omega⟩
      · exact ⟨addr, rfl, by omega, by omega⟩
  obtain ⟨byte, page, least, most⟩ := other
  rw [← mapped_of_page page]
  by_cases inside : byte < buffer + size
  · exact mapped byte least inside
  · obtain rfl : byte = buffer + size := by omega
    exact endMapped

theorem large_of_page {left right : Nat} (page : left / pageSize = right / pageSize) :
    space.inLarge left ↔ space.inLarge right := by
  unfold UserSpace.inLarge largeEntry
  rw [index_of_page page (by decide),
    index_of_page page (by decide), index_of_page page (by decide)]

theorem verify_lower_half (lower : buffer + size < lowerHalfEnd) :
    verifyFullyMapped space rounds buffer size =
      verifyPages space (buffer / pageSize * pageSize)
        ((buffer + size) / pageSize * pageSize) rounds
        ⟨buffer / pageSize * pageSize, (buffer + size) / pageSize * pageSize + pageSize⟩ none := by
  have words : lowerHalfEnd + pageSize < 2 ^ 64 := by decide
  have least := Nat.div_mul_le_self (buffer + size) pageSize
  have halves : sameHalf (getAddressSpace buffer) (getAddressSpace (buffer + size)) = true :=
    (same_half_iff _ _).mpr (.inr ⟨by omega, lower⟩)
  unfold verifyFullyMapped
  rw [if_neg (by omega)]
  dsimp only
  rw [if_neg (not_not.mpr halves), align_down_page (by omega), align_down_page (by omega),
    add64_of_lt (by omega)]

theorem verify_end_outside (outside : buffer + size = lowerHalfEnd) :
    verifyFullyMapped space rounds buffer size = some false := by
  have words : lowerHalfEnd < 2 ^ 64 := by decide
  have order : lowerHalfEnd < higherHalfBegin := by decide
  have halves : ¬sameHalf (getAddressSpace buffer) (getAddressSpace (buffer + size)) = true := by
    rw [same_half_iff]
    omega
  unfold verifyFullyMapped
  rw [if_neg (by omega)]
  dsimp only
  rw [if_pos halves]

/-- A buffer of the lower half whose bytes are all mapped is accepted if and only if its end
is an address of the lower half that is mapped as well, and no page before that of the end is
part of a large one. -/
theorem mapped_buffer_accepted_iff (space : UserSpace σ) (buffer size : Nat) (sized : 1 ≤ size)
    (lower : buffer + size ≤ lowerHalfEnd)
    (mapped : ∀ addr, buffer ≤ addr → addr < buffer + size → space.mapped addr = true) :
    (∃ rounds, verifyFullyMapped space rounds buffer size = some true) ↔
      buffer + size < lowerHalfEnd ∧ space.mapped (buffer + size) = true ∧
        ∀ addr, buffer / pageSize * pageSize ≤ addr → addr < (buffer + size) / pageSize * pageSize →
          ¬space.inLarge addr := by
  by_cases below : buffer + size < lowerHalfEnd
  swap
  · have outside : buffer + size = lowerHalfEnd := by omega
    constructor
    · rintro ⟨rounds, accepted⟩
      rw [verify_end_outside outside] at accepted
      exact absurd accepted (by simp)
    · rintro ⟨inside, -⟩
      exact absurd inside below
  obtain ⟨pages, between⟩ := Nat.exists_eq_add_of_le
    (Nat.div_le_div_right (Nat.le_add_right buffer size) :
    buffer / pageSize ≤ (buffer + size) / pageSize)
  have reached : buffer / pageSize * pageSize + pages * pageSize = (buffer + size) / pageSize *
      pageSize := by
    rw [between, Nat.add_mul]
  have room : (buffer + size) / pageSize * pageSize + pageSize ≤ lowerHalfEnd := by
    unfold pageSize lowerHalfEnd at *
    omega
  have positive : 0 < pageSize := by decide
  have rest := fun pagesMapped => @rest_accepted_iff σ space (buffer / pageSize * pageSize) _ pages
    (buffer / pageSize * pageSize) none reached room pagesMapped rfl
  have large : (∀ page < pages, ¬space.inLarge (buffer / pageSize * pageSize + page * pageSize)) ↔
      ∀ addr, buffer / pageSize * pageSize ≤ addr → addr < (buffer + size) / pageSize * pageSize →
        ¬space.inLarge addr := by
    constructor
    · intro fits addr above inside covered
      apply fits ((addr - buffer / pageSize * pageSize) / pageSize)
      · unfold pageSize at *
        omega
      · apply (large_of_page _).mp covered
        unfold pageSize at *
        omega
    · intro fits page among
      apply fits
      · exact Nat.le_add_right _ _
      · rw [← reached]
        exact Nat.add_lt_add_left (Nat.mul_lt_mul_of_pos_right among positive) _
  have pageInside : ∀ page ≤ pages, buffer / pageSize * pageSize + page * pageSize <
      (buffer + size) / pageSize * pageSize + pageSize := by
    intro page among
    have most := Nat.mul_le_mul_right pageSize among
    omega
  constructor
  · rintro ⟨rounds, accepted⟩
    have all := accepted_pages_mapped accepted
    have endMapped : space.mapped (buffer + size) = true := by
      apply all
      · unfold pageSize
        omega
      · unfold pageSize
        omega
    refine ⟨below, endMapped, large.mp ?_⟩
    rw [verify_lower_half below] at accepted
    exact (rest fun page among => all _ (Nat.le_add_right _ _) (pageInside page among)).mp
      ⟨rounds, accepted⟩
  · rintro ⟨-, endMapped, fits⟩
    obtain ⟨rounds, accepted⟩ := (rest fun page among =>
      pages_mapped sized mapped endMapped (Nat.le_add_right _ _) (pageInside page among)).mpr
        (large.mpr fits)
    exact ⟨rounds, by rw [verify_lower_half below]; exact accepted⟩

theorem user_page_mapped {addr : Nat} (above : 0x1000 ≤ addr) (below : addr < 0x2000) :
    userPage.mapped addr = true :=
  accepted_pages_mapped user_page_accepted addr above below

theorem user_page_buffer_accepted :
    (∃ rounds, verifyFullyMapped userPage rounds 0x1000 16 = some true) ↔
      0x1000 + 16 < lowerHalfEnd ∧ userPage.mapped (0x1000 + 16) = true ∧
        ∀ addr, 0x1000 / pageSize * pageSize ≤ addr → addr < (0x1000 + 16) / pageSize * pageSize →
          ¬userPage.inLarge addr :=
  mapped_buffer_accepted_iff userPage 0x1000 16 (by decide) (by decide)
    fun _ above below => user_page_mapped above (below.trans (by decide))

/-- The whole page is mapped, but a buffer that ends with it is refused. -/
theorem whole_page_refused :
    (∀ addr, 0x1000 ≤ addr → addr < 0x1000 + 4096 → userPage.mapped addr = true) ∧
      verifyFullyMapped userPage 3 0x1000 4096 = some false ∧
      ¬∃ rounds, verifyFullyMapped userPage rounds 0x1000 4096 = some true := by
  refine ⟨fun _ above below => user_page_mapped above below, by decide +kernel, ?_⟩
  rintro ⟨rounds, accepted⟩
  have unmapped : userPage.mapped 0x2000 = false := by decide +kernel
  have behind := accepted_pages_mapped accepted 0x2000 (by decide) (by decide)
  rw [unmapped] at behind
  exact absurd behind Bool.false_ne_true

end Campix.Syscall
