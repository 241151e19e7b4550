import Campix.Lib.Chain
import Campix.Paging.PageTable
import Mathlib.Data.Finset.Card

/-!
# The boot page allocator

A transcription of `SimplePageAllocator` of `paging.rs` and of what `init_paging` sets it up
with. The free pages are a linked list of runs; the header of a run is in its first page, and
when that page is handed out a new header goes into the next one. Between two calls the holders
of pages may write what they like into them, and anything outside the pages of the allocator may
change.
-/

namespace Campix.Paging.SimplePages

open Lib.Word Lib.Chain

set_option autoImplicit false

structure FreePage where
  next : Nat
  thisSizeInPages : Nat

structure SimplePageAllocator where
  minAddr : Nat
  maxAddr : Nat
  freeHead : Nat

abbrev Boot := Machine SimplePageAllocator

def headerAt (mem : Memory) (page : Nat) : FreePage := ⟨mem page 0, mem page 1⟩

def writeHeader (mem : Memory) (page : Nat) (header : FreePage) : Memory :=
  Function.update mem page
    (Function.update (Function.update (mem page) 0 header.next) 1 header.thisSizeInPages)

def withHead (machine : Boot) (head : Nat) : Boot :=
  { machine with alloc := { machine.alloc with freeHead := head } }

def withHeader (machine : Boot) (page : Nat) (header : FreePage) : Boot :=
  { machine with mem := writeHeader machine.mem page header }

def allocPage : Attempt SimplePageAllocator Nat := fun machine =>
  let freePage := machine.alloc.freeHead
  if freePage = 0 then
    .error () machine
  else
    let header := headerAt machine.mem freePage
    if header.thisSizeInPages = 1 then
      .ok freePage (withHead machine header.next)
    else
      let nextPage := freePage + 4096
      if nextPage < machine.alloc.maxAddr then
        .ok freePage (withHead
          (withHeader machine nextPage ⟨header.next, sub64 header.thisSizeInPages 1⟩) nextPage)
      else
        .ok freePage (withHead machine header.next)

def freePage (page : Nat) (machine : Boot) : Boot :=
  if page &&& 0xFFF ≠ 0 then
    machine
  else
    withHead (withHeader machine page ⟨machine.alloc.freeHead, 1⟩) page

def simplePageAllocator : PageAllocator SimplePageAllocator := ⟨allocPage, freePage⟩

def physicalToVirtual (phys : Nat) : Nat := add64 phys directMappingOffset

/-- The part of `init_paging` that sets up `ALLOCATOR`; `error` is its panic. -/
def initAllocator (pml4PtrPhys pageAllocCurr pageAllocEnd : Nat) :
    Attempt SimplePageAllocator Unit := fun machine =>
  let freePageCount := sub64 pageAllocEnd pageAllocCurr / 4096
  if freePageCount = 0 then
    .error () machine
  else
    let alloc : SimplePageAllocator := {
      minAddr := physicalToVirtual pml4PtrPhys
      maxAddr := physicalToVirtual pageAllocEnd
      freeHead := physicalToVirtual pageAllocCurr }
    .ok () (withHeader { machine with alloc := alloc } alloc.freeHead ⟨0, freePageCount⟩)

theorem header_at_self (mem : Memory) (page : Nat) (header : FreePage) :
    headerAt (writeHeader mem page header) page = header := by
  simp [headerAt, writeHeader]

theorem write_header_other {mem : Memory} {page other : Nat} (header : FreePage)
    (apart : other ≠ page) : writeHeader mem page header other = mem other :=
  Function.update_of_ne apart _ _

def nonNull (ptr : Nat) : Option Nat := if ptr = 0 then none else some ptr

def nextRun (table : Table) : Option Nat := nonNull (table 0)

def runPages (start size : Nat) : List Nat := (List.range size).map fun index =>
    start + 4096 * index

def pagesOf (mem : Memory) (heads : List Nat) : List Nat :=
  heads.flatMap fun head => runPages head (headerAt mem head).thisSizeInPages

/-- Following the list from the head visits the runs whose pages are `pages`, and ends. -/
def FreeList (machine : Boot) (pages : List Nat) : Prop :=
  ∃ heads, Links nextRun machine.mem (nonNull machine.alloc.freeHead) heads ∧
    pages = pagesOf machine.mem heads ∧
    ∀ head ∈ heads, 0 < (headerAt machine.mem head).thisSizeInPages

theorem run_pages_succ (start size : Nat) :
    runPages start (size + 1) = start :: runPages (start + 4096) size := by
  rw [runPages, List.range_succ_eq_map, List.map_cons, List.map_map]
  congr 1
  apply List.map_congr_left
  intro index _
  simp only [Function.comp_apply]
  omega

theorem pages_of_cons (mem : Memory) (head : Nat) (heads : List Nat) :
    pagesOf mem (head :: heads) =
      runPages head (headerAt mem head).thisSizeInPages ++ pagesOf mem heads := rfl

theorem head_listed {mem : Memory} {heads : List Nat} {head : Nat} (member : head ∈ heads)
    (filled : 0 < (headerAt mem head).thisSizeInPages) : head ∈ pagesOf mem heads := by
  apply List.mem_flatMap_of_mem member
  obtain ⟨rest, size⟩ := Nat.exists_eq_succ_of_ne_zero (by omega :
    (headerAt mem head).thisSizeInPages ≠ 0)
  rw [size, run_pages_succ]
  exact List.mem_cons_self

theorem free_list_unique {machine : Boot} {left right : List Nat} (one : FreeList machine left)
    (other : FreeList machine right) : left = right := by
  obtain ⟨heads, links, rfl, -⟩ := one
  obtain ⟨others, otherLinks, rfl, -⟩ := other
  rw [links_unique links otherLinks]

/-- A list is read in the pages it denotes only. -/
theorem free_list_frame {machine after : Boot} {pages : List Nat} (list : FreeList machine pages)
    (head : after.alloc.freeHead = machine.alloc.freeHead)
    (same : ∀ page ∈ pages, after.mem page = machine.mem page) : FreeList after pages := by
  obtain ⟨heads, links, rfl, filled⟩ := list
  have kept : ∀ page ∈ heads, after.mem page = machine.mem page := fun page member =>
    same page (head_listed member (filled page member))
  have headers : ∀ page ∈ heads, headerAt after.mem page = headerAt machine.mem page := by
    intro page member
    rw [headerAt, headerAt, kept page member]
  refine ⟨heads, ?_, ?_, ?_⟩
  · rw [head]
    exact links_frame (fun page member => by rw [kept page member]) links
  · apply List.flatMap_congr
    intro page member
    rw [headers page member]
  · intro page member
    rw [headers page member]
    exact filled page member

theorem pages_of_frame {mem after : Memory} {heads : List Nat}
    (same : ∀ head ∈ heads, after head = mem head) : pagesOf after heads = pagesOf mem heads := by
  apply List.flatMap_congr
  intro head member
  rw [headerAt, headerAt, same head member]

section Calls

variable {machine : Boot} {pages : List Nat}

theorem alloc_page_empty (list : FreeList machine []) :
    allocPage machine = .error () machine := by
  obtain ⟨heads, links, none, filled⟩ := list
  cases heads with
  | nil =>
      have null : machine.alloc.freeHead = 0 := by
        by_contra some
        rw [Links, nonNull, if_neg some] at links
        exact absurd links (by simp)
      rw [allocPage, if_pos null]
  | cons head heads =>
      have listed : head ∈ pagesOf machine.mem (head :: heads) :=
        head_listed List.mem_cons_self (filled head List.mem_cons_self)
      rw [← none] at listed
      exact absurd listed List.not_mem_nil

theorem free_list_push {page link size : Nat} {heads : List Nat}
    (links : Links nextRun machine.mem (nonNull link) heads)
    (filled : ∀ head ∈ heads, 0 < (headerAt machine.mem head).thisSizeInPages)
    (outside : page ∉ pagesOf machine.mem heads) (pointer : page ≠ 0) (positive : 0 < size) :
    FreeList (withHead (withHeader machine page ⟨link, size⟩) page)
      (runPages page size ++ pagesOf machine.mem heads) := by
  let after := withHead (withHeader machine page ⟨link, size⟩) page
  have own : headerAt after.mem page = ⟨link, size⟩ := header_at_self _ _ _
  have kept : ∀ head ∈ heads, after.mem head = machine.mem head := by
    intro head member
    apply write_header_other
    rintro rfl
    exact outside (head_listed member (filled head member))
  refine ⟨page :: heads, ⟨?_, ?_⟩, ?_, ?_⟩
  · exact if_neg pointer
  · have next : nextRun (after.mem page) = nonNull link :=
      congrArg (fun header : FreePage => nonNull header.next) own
    rw [next]
    exact links_frame (fun head member => by rw [kept head member]) links
  · rw [pages_of_cons, own, pages_of_frame kept]
  · intro head member
    rcases List.mem_cons.mp member with rfl | member
    · rw [own]
      exact positive
    · have same : headerAt after.mem head = headerAt machine.mem head := by
        rw [headerAt, headerAt, kept head member]
      rw [same]
      exact filled head member

/-- A call hands out the first page; what is left of its run gets a header of its own. -/
theorem alloc_page_first {page : Nat} (list : FreeList machine (page :: pages))
    (distinct : (page :: pages).Nodup) (below : ∀ other ∈ pages, other < machine.alloc.maxAddr) :
    ∃ after, allocPage machine = .ok page after ∧ FreeList after pages ∧
      after.alloc.maxAddr = machine.alloc.maxAddr ∧
      ∀ other ∉ pages, after.mem other = machine.mem other := by
  obtain ⟨heads, links, denoted, filled⟩ := list
  cases heads with
  | nil => exact absurd denoted (by simp [pagesOf])
  | cons head heads =>
      obtain ⟨first, links⟩ := links
      have pointer : machine.alloc.freeHead ≠ 0 := by
        intro null
        rw [nonNull, if_pos null] at first
        exact absurd first (by simp)
      obtain rfl : machine.alloc.freeHead = head := by
        rw [nonNull, if_neg pointer] at first
        exact Option.some.inj first
      have later : ∀ head ∈ heads, 0 < (headerAt machine.mem head).thisSizeInPages :=
        fun head member => filled head (List.mem_cons_of_mem _ member)
      have positive := filled machine.alloc.freeHead List.mem_cons_self
      obtain ⟨left, size⟩ := Nat.exists_eq_succ_of_ne_zero
        (by omega : (headerAt machine.mem machine.alloc.freeHead).thisSizeInPages ≠ 0)
      rw [pages_of_cons, size, run_pages_succ, List.cons_append, List.cons.injEq] at denoted
      obtain ⟨rfl, rest⟩ := denoted
      cases left with
      | zero =>
          rw [runPages, List.range_zero, List.map_nil, List.nil_append] at rest
          let after := withHead machine (headerAt machine.mem machine.alloc.freeHead).next
          have answer : allocPage machine = .ok machine.alloc.freeHead after := by
            rw [allocPage, if_neg pointer, if_pos size]
          exact ⟨after, answer, ⟨heads, links, rest, later⟩, rfl, fun _ _ => rfl⟩
      | succ left =>
          have front : machine.alloc.freeHead + 4096 ∈ pages := by
            rw [rest, run_pages_succ]
            exact List.mem_cons_self
          have outside : machine.alloc.freeHead + 4096 ∉ pagesOf machine.mem heads := by
            have tail := (List.nodup_cons.mp distinct).2
            rw [rest, run_pages_succ, List.cons_append] at tail
            exact fun member => (List.nodup_cons.mp tail).1 (List.mem_append_right _ member)
          have shorter : sub64 (headerAt machine.mem machine.alloc.freeHead).thisSizeInPages 1 =
              left + 1 := by
            rw [size, sub64_of_le (by omega)]
            rfl
          let header : FreePage :=
            ⟨(headerAt machine.mem machine.alloc.freeHead).next, left + 1⟩
          let after := withHead (withHeader machine (machine.alloc.freeHead + 4096) header)
            (machine.alloc.freeHead + 4096)
          have answer : allocPage machine = .ok machine.alloc.freeHead after := by
            rw [allocPage, if_neg pointer, if_neg (by omega), if_pos (below _ front), shorter]
          have pushed : FreeList after pages := by
            rw [rest]
            exact free_list_push links later outside (by omega) (by omega)
          refine ⟨after, answer, pushed, rfl, ?_⟩
          intro other beyond
          apply write_header_other
          rintro rfl
          exact beyond front

theorem free_page_first {page : Nat} (list : FreeList machine pages) (outside : page ∉ pages)
    (pointer : page ≠ 0) (aligned : pageSize ∣ page) :
    FreeList (freePage page machine) (page :: pages) ∧
      (freePage page machine).alloc.maxAddr = machine.alloc.maxAddr ∧
      ∀ other, other ≠ page → (freePage page machine).mem other = machine.mem other := by
  have low : ¬page &&& 0xFFF ≠ 0 := by
    have masked : page &&& 2 ^ 12 - 1 = 0 := by
      rw [Nat.and_two_pow_sub_one_eq_mod]
      exact Nat.mod_eq_zero_of_dvd aligned
    exact not_not.mpr masked
  have freed : freePage page machine =
      withHead (withHeader machine page ⟨machine.alloc.freeHead, 1⟩) page := by
    rw [freePage, if_neg low]
  obtain ⟨heads, links, rfl, filled⟩ := list
  rw [freed]
  refine ⟨?_, rfl, fun other apart => write_header_other _ apart⟩
  exact free_list_push links filled outside pointer (by omega)

end Calls

/-- The machines that calls of the allocator lead to, with the pages that are live in them. -/
inductive Serves (pool : List Nat) (start : Boot) : Boot → Finset Nat → Prop
  | start : Serves pool start start ∅
  | allocPage {machine after : Boot} {live : Finset Nat} {page : Nat}
      (served : Serves pool start machine live) (given : allocPage machine = .ok page after) :
      Serves pool start after (insert page live)
  | noPage {machine after : Boot} {live : Finset Nat} (served : Serves pool start machine live)
      (refused : allocPage machine = .error () after) : Serves pool start after live
  | freePage {machine : Boot} {live : Finset Nat} {page : Nat}
      (served : Serves pool start machine live) (member : page ∈ live) (aligned : pageSize ∣ page) :
      Serves pool start (freePage page machine) (live.erase page)
  | store {machine after : Boot} {live : Finset Nat} (served : Serves pool start machine live)
      (alloc : after.alloc = machine.alloc)
      (same : ∀ page ∈ pool, page ∉ live → after.mem page = machine.mem page) :
      Serves pool start after live

structure Balanced (pool pages : List Nat) (machine : Boot) (live : Finset Nat) : Prop where
  list : FreeList machine pages
  distinct : pages.Nodup
  apart : ∀ page ∈ pages, page ∉ live
  total : ∀ page, page ∈ pool ↔ page ∈ pages ∨ page ∈ live
  below : ∀ page ∈ pool, page < machine.alloc.maxAddr

section Runs

variable {pool pages : List Nat} {start machine after : Boot} {live : Finset Nat} {page : Nat}

theorem balanced_alloc (balanced : Balanced pool (page :: pages) machine live) :
    ∃ after, allocPage machine = .ok page after ∧ Balanced pool pages after (insert page live) := by
  obtain ⟨absent, distinct⟩ := List.nodup_cons.mp balanced.distinct
  have below : ∀ other ∈ pages, other < machine.alloc.maxAddr := fun other member =>
    balanced.below other ((balanced.total other).mpr (.inl (List.mem_cons_of_mem _ member)))
  obtain ⟨after, given, list, top, -⟩ := alloc_page_first balanced.list balanced.distinct below
  refine ⟨after, given, list, distinct, ?_, ?_, ?_⟩
  · intro other member inside
    rcases Finset.mem_insert.mp inside with rfl | inside
    · exact absent member
    · exact balanced.apart other (List.mem_cons_of_mem _ member) inside
  · intro other
    rw [balanced.total, List.mem_cons, Finset.mem_insert]
    exact ⟨by tauto, by tauto⟩
  · rw [top]
    exact balanced.below

theorem balanced_free (balanced : Balanced pool pages machine live) (nonNull : 0 ∉ pool)
    (member : page ∈ live) (aligned : pageSize ∣ page) :
    Balanced pool (page :: pages) (freePage page machine) (live.erase page) := by
  have outside : page ∉ pages := fun inside => balanced.apart page inside member
  have pointer : page ≠ 0 := by
    rintro rfl
    exact nonNull ((balanced.total 0).mpr (.inr member))
  obtain ⟨list, top, -⟩ := free_page_first balanced.list outside pointer aligned
  refine ⟨list, List.nodup_cons.mpr ⟨outside, balanced.distinct⟩, ?_, ?_, ?_⟩
  · intro other listed inside
    obtain ⟨different, inside⟩ := Finset.mem_erase.mp inside
    exact balanced.apart other ((List.mem_cons.mp listed).resolve_left different) inside
  · intro other
    rw [balanced.total, List.mem_cons, Finset.mem_erase]
    by_cases same : other = page
    · subst same
      simp [member]
    · simp [same]
  · rw [top]
    exact balanced.below

theorem balanced_store (balanced : Balanced pool pages machine live)
    (alloc : after.alloc = machine.alloc)
    (same : ∀ page ∈ pool, page ∉ live → after.mem page = machine.mem page) :
    Balanced pool pages after live := by
  refine ⟨?_, balanced.distinct, balanced.apart, balanced.total, ?_⟩
  · apply free_list_frame balanced.list (by rw [alloc])
    intro other member
    exact same other ((balanced.total other).mpr (.inl member)) (balanced.apart other member)
  · rw [alloc]
    exact balanced.below

theorem serves_balanced (nonNull : 0 ∉ pool) (init : Balanced pool pool start ∅)
    (served : Serves pool start machine live) : ∃ pages, Balanced pool pages machine live := by
  induction served with
  | start => exact ⟨pool, init⟩
  | allocPage served given ih =>
      obtain ⟨pages, balanced⟩ := ih
      cases pages with
      | nil =>
          rw [alloc_page_empty balanced.list] at given
          exact absurd given (by simp)
      | cons first pages =>
          obtain ⟨after, answer, balanced⟩ := balanced_alloc balanced
          rw [answer] at given
          simp only [EStateM.Result.ok.injEq] at given
          obtain ⟨rfl, rfl⟩ := given
          exact ⟨pages, balanced⟩
  | noPage served refused ih =>
      obtain ⟨pages, balanced⟩ := ih
      cases pages with
      | nil =>
          rw [alloc_page_empty balanced.list] at refused
          simp only [EStateM.Result.error.injEq] at refused
          obtain ⟨-, rfl⟩ := refused
          exact ⟨[], balanced⟩
      | cons first pages =>
          obtain ⟨after, answer, -⟩ := balanced_alloc balanced
          rw [answer] at refused
          exact absurd refused (by simp)
  | freePage served member aligned ih =>
      obtain ⟨pages, balanced⟩ := ih
      exact ⟨_, balanced_free balanced nonNull member aligned⟩
  | store served alloc same ih =>
      obtain ⟨pages, balanced⟩ := ih
      exact ⟨pages, balanced_store balanced alloc same⟩

theorem balanced_card (balanced : Balanced pool pages machine live) (distinct : pool.Nodup) :
    pages.length + live.card = pool.length := by
  have union : pool.toFinset = pages.toFinset ∪ live := by
    ext page
    rw [List.mem_toFinset, balanced.total, Finset.mem_union, List.mem_toFinset]
  have apart : Disjoint pages.toFinset live := by
    rw [Finset.disjoint_left]
    intro page member
    exact balanced.apart page (List.mem_toFinset.mp member)
  rw [← List.toFinset_card_of_nodup distinct, union, Finset.card_union_of_disjoint apart,
    List.toFinset_card_of_nodup balanced.distinct]

end Runs

def bootPages (pageAllocCurr pageAllocEnd : Nat) : List Nat :=
  runPages (physicalToVirtual pageAllocCurr) ((pageAllocEnd - pageAllocCurr) / 4096)

section Init

variable {pml4PtrPhys pageAllocCurr pageAllocEnd : Nat} {machine started : Boot}

theorem run_pages_nodup (start size : Nat) : (runPages start size).Nodup := by
  apply List.nodup_range.map
  intro left right same
  simp only at same
  omega

theorem length_boot_pages (pageAllocCurr pageAllocEnd : Nat) :
    (bootPages pageAllocCurr pageAllocEnd).length = (pageAllocEnd - pageAllocCurr) / 4096 := by
  rw [bootPages, runPages, List.length_map, List.length_range]

theorem physical_to_virtual_eq {phys : Nat} (fits : directMappingOffset + phys < 2 ^ 64) :
    physicalToVirtual phys = phys + directMappingOffset :=
  add64_of_lt (by omega)

theorem boot_page_bounds (ordered : pageAllocCurr ≤ pageAllocEnd)
    (fits : directMappingOffset + pageAllocEnd < 2 ^ 64) {page : Nat}
    (member : page ∈ bootPages pageAllocCurr pageAllocEnd) :
    directMappingOffset ≤ page ∧ page < physicalToVirtual pageAllocEnd := by
  obtain ⟨index, inside, rfl⟩ := List.mem_map.mp member
  have bound := List.mem_range.mp inside
  rw [physical_to_virtual_eq fits, physical_to_virtual_eq (by omega)]
  omega

theorem init_free_list {count : Nat} (pointer : machine.alloc.freeHead ≠ 0) (positive : 0 < count) :
    FreeList (withHeader machine machine.alloc.freeHead ⟨0, count⟩)
      (runPages machine.alloc.freeHead count) := by
  have ends : Links nextRun machine.mem (nonNull 0) [] := rfl
  have pushed := free_list_push ends (fun _ member => absurd member List.not_mem_nil)
    List.not_mem_nil pointer positive
  rw [pagesOf, List.flatMap_nil, List.append_nil] at pushed
  exact pushed

theorem init_allocator_balanced (ordered : pageAllocCurr ≤ pageAllocEnd)
    (fits : directMappingOffset + pageAllocEnd < 2 ^ 64)
    (init : initAllocator pml4PtrPhys pageAllocCurr pageAllocEnd machine = .ok () started) :
    Balanced (bootPages pageAllocCurr pageAllocEnd) (bootPages pageAllocCurr pageAllocEnd)
      started ∅ := by
  rw [initAllocator, sub64_of_le ordered] at init
  by_cases none : (pageAllocEnd - pageAllocCurr) / 4096 = 0
  · simp only [if_pos none, reduceCtorEq] at init
  · simp only [if_neg none, EStateM.Result.ok.injEq, true_and] at init
    subst init
    have pointer : physicalToVirtual pageAllocCurr ≠ 0 := by
      rw [physical_to_virtual_eq (by omega), directMappingOffset]
      omega
    refine ⟨init_free_list pointer (Nat.pos_of_ne_zero none), run_pages_nodup _ _, ?_, ?_, ?_⟩
    · exact fun _ _ inside => absurd inside (Finset.notMem_empty _)
    · exact fun page => ⟨.inl, fun either => either.resolve_right (Finset.notMem_empty _)⟩
    · exact fun page member => (boot_page_bounds ordered fits member).2

end Init

theorem boot_pages_never_twice_live (pml4PtrPhys pageAllocCurr pageAllocEnd : Nat)
    (machine started after : Boot) (live : Finset Nat) (ordered : pageAllocCurr ≤ pageAllocEnd)
    (fits : directMappingOffset + pageAllocEnd < 2 ^ 64)
    (init : initAllocator pml4PtrPhys pageAllocCurr pageAllocEnd machine = .ok () started)
    (served : Serves (bootPages pageAllocCurr pageAllocEnd) started after live) :
    ∃ pages, FreeList after pages ∧ (∀ other, FreeList after other → other = pages) ∧
      pages.Nodup ∧ (∀ page ∈ pages, page ∉ live) ∧
      (∀ page next, allocPage after = .ok page next →
        page ∈ pages ∧ FreeList next (pages.erase page)) ∧
      (∀ page ∈ live, pageSize ∣ page → FreeList (freePage page after) (page :: pages)) ∧
      ((∃ next, allocPage after = .error () next) ↔
        live.card = (pageAllocEnd - pageAllocCurr) / 4096) := by
  have nonNull : 0 ∉ bootPages pageAllocCurr pageAllocEnd := by
    intro member
    have positive := (boot_page_bounds ordered fits member).1
    rw [directMappingOffset] at positive
    omega
  obtain ⟨pages, balanced⟩ :=
    serves_balanced nonNull (init_allocator_balanced ordered fits init) served
  have count := balanced_card balanced (run_pages_nodup _ _)
  rw [length_boot_pages] at count
  refine ⟨pages, balanced.list, fun other list => free_list_unique list balanced.list,
    balanced.distinct, balanced.apart, ?_, ?_, ?_⟩
  · intro page next given
    cases pages with
    | nil =>
        rw [alloc_page_empty balanced.list] at given
        exact absurd given (by simp)
    | cons first pages =>
        obtain ⟨after, answer, kept⟩ := balanced_alloc balanced
        rw [answer] at given
        simp only [EStateM.Result.ok.injEq] at given
        obtain ⟨rfl, rfl⟩ := given
        rw [List.erase_cons_head]
        exact ⟨List.mem_cons_self, kept.list⟩
  · exact fun page member aligned => (balanced_free balanced nonNull member aligned).list
  · cases pages with
    | nil =>
        rw [List.length_nil, Nat.zero_add] at count
        exact ⟨fun _ => count, fun _ => ⟨after, alloc_page_empty balanced.list⟩⟩
    | cons first pages =>
        obtain ⟨next, answer, -⟩ := balanced_alloc balanced
        rw [List.length_cons] at count
        constructor
        · rintro ⟨failed, refused⟩
          rw [answer] at refused
          exact absurd refused (by simp)
        · intro full
          omega

/-- Of two pages one is handed out, comes back, and is handed out again. -/
theorem boot_page_served_again :
    ∃ (after : Boot) (pages : List Nat), FreeList after pages ∧ pages.Nodup ∧
      directMappingOffset ∉ pages := by
  let blank : Boot := ⟨fun _ _ => 0, ⟨0, 0, 0⟩⟩
  obtain ⟨started, init⟩ : ∃ started, initAllocator 0 0 8192 blank = .ok () started := ⟨_, rfl⟩
  have two : bootPages 0 8192 = [directMappingOffset, directMappingOffset + 4096] := by decide
  have balanced := init_allocator_balanced (by decide) (by decide) init
  rw [two] at balanced
  obtain ⟨first, given, balanced⟩ := balanced_alloc balanced
  have held : directMappingOffset ∈ insert directMappingOffset (∅ : Finset Nat) :=
    Finset.mem_insert_self _ _
  have aligned : pageSize ∣ directMappingOffset := by decide
  obtain ⟨again, givenAgain, -⟩ := balanced_alloc (balanced_free balanced (by decide) held aligned)
  have served : Serves (bootPages 0 8192) started again _ :=
    .allocPage (.freePage (.allocPage .start given) held aligned) givenAgain
  obtain ⟨pages, list, -, distinct, apart, -⟩ :=
    boot_pages_never_twice_live 0 0 8192 blank started again _ (by decide) (by decide) init served
  exact ⟨again, pages, list, distinct, fun member => apart _ member (Finset.mem_insert_self _ _)⟩

end Campix.Paging.SimplePages
