import Campix.Paging.AddressMap
import Mathlib.Data.List.Nodup

/-!
# Runs of map and unmap operations

Each operation grafts one value at one entry of the tree or fails without changing
a leaf; a whole run therefore keeps `translate` equal to the abstract map.
-/

namespace Campix.Paging

open Lib.Fallible Lib.Outcome Lib.TableTree

set_option autoImplicit false

variable {σ : Type} {allocator : LawfulAllocator σ} {self : PageTable} {machine : Machine σ}
variable {root : Nat} {path : List (Fin 512)} {table : Nat} {idx : Fin 512}

/-- The operation wrote `value` at `entry`, which no larger page covers, or failed
and changed no leaf. -/
inductive Grafted (allocator : LawfulAllocator σ) (root : Nat) (before : Machine σ)
    (entry : List (Fin 512)) (value : Option Nat) :
    EStateM.Result Unit (Machine σ) Unit → Prop
  | wrote {after : Machine σ} (intact : Intact allocator root after)
      (uncovered : leaves root before entry.tail = none)
      (grafted : leaves root after = graft (leaves root before) entry value) :
      Grafted allocator root before entry value (.ok () after)
  | failed {after : Machine σ} (kept : Kept allocator root before after) :
      Grafted allocator root before entry value (.error () after)

variable {before : Machine σ} {entry : List (Fin 512)} {value : Option Nat}

theorem walked_bind {subFlags disallowedFlags : Nat} {rest : Nat → Attempt σ Unit}
    (kept : Kept allocator root before machine) (found : tables root machine path = some table)
    (upper : path.length ≤ 2) (level : disallowedAt path.length = disallowedFlags)
    (flags : ValidFlags subFlags)
    (reached : ∀ next after, Kept allocator root before after →
      tables root after (idx :: path) = some next →
      Grafted allocator root before entry value (rest next after)) :
    Grafted allocator root before entry value
      ((getTable true allocator.toPageAllocator table idx subFlags disallowedFlags >>= rest)
        machine) := by
  subst level
  have walked : Walked allocator root machine (idx :: path) _ :=
    get_table_adds upper kept.intact found flags
  cases outcome : getTable true allocator.toPageAllocator table idx subFlags
      (disallowedAt path.length) machine with
  | error nothing after =>
      rw [outcome] at walked
      rw [state_bind_error outcome]
      exact .failed (kept_trans kept walked)
  | ok next after =>
      rw [outcome] at walked
      rw [state_bind_ok outcome]
      exact reached next after (kept_trans kept walked.1) walked.2

theorem read_bind {subFlags disallowedFlags : Nat} {rest : Nat → Attempt σ Unit}
    (intact : Intact allocator root machine) (found : tables root machine path = some table)
    (upper : path.length ≤ 2) (level : disallowedAt path.length = disallowedFlags)
    (reached : ∀ next, tables root machine (idx :: path) = some next →
      Grafted allocator root machine entry value (rest next machine)) :
    Grafted allocator root machine entry value
      ((getTable false allocator.toPageAllocator table idx subFlags disallowedFlags >>= rest)
        machine) := by
  subst level
  have reads : getTable false allocator.toPageAllocator table idx subFlags _ machine = _ :=
    get_table_reads allocator.toPageAllocator upper found subFlags
  cases below : tables root machine (idx :: path) with
  | none =>
      rw [below] at reads
      rw [state_bind_error reads]
      exact .failed ⟨intact, rfl⟩
  | some next =>
      rw [below] at reads
      rw [state_bind_ok reads]
      exact reached next below

theorem readonly_grafted (intact : Intact allocator root machine) :
    Grafted allocator root machine entry value ((throw () : Attempt σ Unit) machine) :=
  .failed ⟨intact, rfl⟩

theorem write_grafted {after : Machine σ} {place : Fin 512} {word : Nat}
    (kept : Kept allocator root machine after)
    (found : tables root after (idx :: path) = some table)
    (ends : descend (path.length + 1) word = none) :
    Grafted allocator root machine (place :: idx :: path) (leaf (path.length + 1) word)
      (writeEntry table place word after) := by
  obtain ⟨intact, grafted⟩ : Intact allocator root (after.setEntry table place word) ∧ _ :=
    write_grafts kept.intact found ends
  refine .wrote intact ?_ ?_
  · rw [← kept.leaves]
    exact leaf_at_of_table descend_leaf_exclusive found
  · rw [grafted, kept.leaves]
    rfl

theorem leaf_ends {level word base : Nat} (mapped : leaf level word = some base) :
    descend level word = none := by
  by_contra points
  have void := descend_leaf_exclusive level word points
  rw [mapped] at void
  exact absurd void (by simp)

/-- Whatever word is written, it ends its path. -/
theorem map4kb_grafts (virt phys flags : Nat) (intact : Intact allocator self.pml4 machine) :
    Grafted allocator self.pml4 machine (smallEntry virt)
      (leaf 3 (alignDown phys pageSize ||| flags))
      (self.map4kb allocator.toPageAllocator virt phys flags machine) := by
  have subFlags := sub_flags_valid virt
  have foundRoot : tables self.pml4 machine [] = some self.pml4 := rfl
  rw [PageTable.map4kb]
  split_ifs with readonly
  · exact readonly_grafted intact
  · dsimp only [splitVirtAddr]
    apply walked_bind ⟨intact, rfl⟩ foundRoot (Nat.zero_le 2) rfl subFlags
    intro pdpt first keptFirst foundPdpt
    apply walked_bind keptFirst foundPdpt (Nat.le_succ 1) rfl subFlags
    intro pd second keptSecond foundPd
    apply walked_bind keptSecond foundPd (Nat.le_refl 2) rfl subFlags
    intro pt third keptThird foundPt
    exact write_grafted keptThird foundPt (by simp [descend])

theorem map4kb_grafted {virt phys flags : Nat} (intact : Intact allocator self.pml4 machine)
    (base : ValidBase phys) (valid : ValidFlags flags) :
    Grafted allocator self.pml4 machine (smallEntry virt) (some phys)
      (self.map4kb allocator.toPageAllocator virt phys flags machine) := by
  have bound : phys < 2 ^ 64 := base.bound.trans (by decide)
  have rounded : alignDown phys pageSize = phys := by
    rw [align_down_page bound, Nat.div_mul_cancel base.aligned]
  have grafts := map4kb_grafts virt phys flags intact
  rwa [rounded, written_leaf base valid] at grafts

theorem map2mb_grafted {virt phys flags : Nat} (intact : Intact allocator self.pml4 machine)
    (base : ValidBase phys) (aligned : pageSize2mb ∣ phys) (valid : ValidFlags flags) :
    Grafted allocator self.pml4 machine (largeEntry virt) (some phys)
      (self.map2mb allocator.toPageAllocator virt phys flags machine) := by
  have bound : phys < 2 ^ 64 := base.bound.trans (by decide)
  have rounded : alignDown phys pageSize2mb = phys := by
    rw [align_down_page2mb bound, Nat.div_mul_cancel aligned]
  have written := written_huge_leaf base valid
  have subFlags := sub_flags_valid virt
  have foundRoot : tables self.pml4 machine [] = some self.pml4 := rfl
  rw [PageTable.map2mb]
  split_ifs with readonly
  · exact readonly_grafted intact
  · dsimp only [splitVirtAddr]
    apply walked_bind ⟨intact, rfl⟩ foundRoot (Nat.zero_le 2) rfl subFlags
    intro pdpt first keptFirst foundPdpt
    apply walked_bind keptFirst foundPdpt (Nat.le_succ 1) rfl subFlags
    intro pd second keptSecond foundPd
    rw [rounded, ← written]
    exact write_grafted keptSecond foundPd (leaf_ends written)

/-- What follows a write without changing a leaf. -/
theorem grafted_then_kept {middle after : Machine σ}
    (grafted : Grafted allocator root before entry value (.ok () middle))
    (kept : Kept allocator root middle after) :
    Grafted allocator root before entry value (.ok () after) := by
  cases grafted with
  | wrote intact uncovered grafted =>
      exact .wrote kept.intact uncovered (kept.leaves.trans grafted)

theorem grafted_intact {after : Machine σ}
    (grafted : Grafted allocator root before entry value (.ok () after)) :
    Intact allocator root after := by
  cases grafted with
  | wrote intact _ _ => exact intact

theorem unmap2mb_grafted (virt : Nat) (intact : Intact allocator self.pml4 machine) :
    Grafted allocator self.pml4 machine (largeEntry virt) none
      (self.unmap2mb allocator.toPageAllocator virt machine) := by
  have foundRoot : tables self.pml4 machine [] = some self.pml4 := rfl
  have zero := zero_is_blank 2
  rw [PageTable.unmap2mb]
  split_ifs with readonly
  · exact readonly_grafted intact
  · dsimp only [splitVirtAddr]
    apply read_bind intact foundRoot (Nat.zero_le 2) rfl
    intro pdpt foundPdpt
    apply read_bind intact foundPdpt (Nat.le_succ 1) rfl
    intro pd foundPd
    have written : Grafted allocator self.pml4 machine (largeEntry virt) (leaf 2 0)
        (.ok () (machine.setEntry pd (index virt 21) 0)) :=
      write_grafted ⟨intact, rfl⟩ foundPd zero.1
    rw [zero.2] at written
    have pdptAfter := (tables_above_write intact foundPd (index virt 21) 0 (by simp)).trans
      foundPdpt
    have pdAfter := (tables_above_write intact foundPd (index virt 21) 0 (by simp)).trans foundPd
    have start : Kept allocator self.pml4 _ (machine.setEntry pd (index virt 21) 0) :=
      ⟨grafted_intact written, rfl⟩
    obtain ⟨after, pruned, kept⟩ :=
      prune_upper_holds (remove_keeps_kept _) start pdptAfter pdAfter
    rw [state_bind_ok (by rfl : writeEntry pd (index virt 21) 0 machine = _), pruned]
    exact grafted_then_kept written kept

theorem unmap4kb_grafted (virt : Nat) (intact : Intact allocator self.pml4 machine) :
    Grafted allocator self.pml4 machine (smallEntry virt) none
      (self.unmap4kb allocator.toPageAllocator virt machine) := by
  have foundRoot : tables self.pml4 machine [] = some self.pml4 := rfl
  have zero := zero_is_blank 3
  rw [PageTable.unmap4kb]
  split_ifs with readonly
  · exact readonly_grafted intact
  · dsimp only [splitVirtAddr]
    apply read_bind intact foundRoot (Nat.zero_le 2) rfl
    intro pdpt foundPdpt
    apply read_bind intact foundPdpt (Nat.le_succ 1) rfl
    intro pd foundPd
    apply read_bind intact foundPd (Nat.le_refl 2) rfl
    intro pt foundPt
    have written : Grafted allocator self.pml4 machine (smallEntry virt) (leaf 3 0)
        (.ok () (machine.setEntry pt (index virt 12) 0)) :=
      write_grafted ⟨intact, rfl⟩ foundPt zero.1
    rw [zero.2] at written
    have pdptAfter := (tables_above_write intact foundPt (index virt 12) 0 (by simp)).trans
      foundPdpt
    have pdAfter := (tables_above_write intact foundPt (index virt 12) 0 (by simp)).trans foundPd
    have ptAfter := (tables_above_write intact foundPt (index virt 12) 0 (by simp)).trans foundPt
    have start : Kept allocator self.pml4 _ (machine.setEntry pt (index virt 12) 0) :=
      ⟨grafted_intact written, rfl⟩
    obtain ⟨after, pruned, kept⟩ :=
      prune_pt_holds (remove_keeps_kept _) start pdptAfter pdAfter ptAfter
    rw [state_bind_ok (by rfl : writeEntry pt (index virt 12) 0 machine = _), pruned]
    exact grafted_then_kept written kept

section Keeping

variable {Holds : Machine σ → Prop}
  (removes : RemoveKeeps allocator.toPageAllocator self.pml4 Holds)

include removes

theorem unmap4kb_holds (virt : Nat) (intact : Intact allocator self.pml4 machine)
    (start : Holds machine)
    (writes : ∀ pt, tables self.pml4 machine (largeEntry virt) = some pt →
      Holds (machine.setEntry pt (index virt 12) 0)) :
    Yields (fun _ => Holds) Holds (self.unmap4kb allocator.toPageAllocator virt machine) := by
  have foundRoot : tables self.pml4 machine [] = some self.pml4 := rfl
  rw [PageTable.unmap4kb]
  split_ifs with readonly
  · exact .error start
  dsimp only [splitVirtAddr]
  refine read_yields foundRoot (Nat.zero_le 2) rfl (fun _ => start) fun pdpt foundPdpt => ?_
  refine read_yields foundPdpt (Nat.le_succ 1) rfl (fun _ => start) fun pd foundPd => ?_
  refine read_yields foundPd (Nat.le_refl 2) rfl (fun _ => start) fun pt foundPt => ?_
  have pdptAfter := (tables_above_write intact foundPt (index virt 12) 0 (by simp)).trans foundPdpt
  have pdAfter := (tables_above_write intact foundPt (index virt 12) 0 (by simp)).trans foundPd
  have ptAfter := (tables_above_write intact foundPt (index virt 12) 0 (by simp)).trans foundPt
  obtain ⟨after, pruned, kept⟩ :=
    prune_pt_holds removes (writes pt foundPt) pdptAfter pdAfter ptAfter
  rw [state_bind_ok (by rfl : writeEntry pt (index virt 12) 0 machine = _), pruned]
  exact .ok kept

/-- `missing` is the case in which no PD is reached. -/
theorem unmap2mb_holds (virt : Nat) (writable : self.readonly = false)
    (intact : Intact allocator self.pml4 machine)
    (missing : tables self.pml4 machine [index virt 30, index virt 39] = none → Holds machine)
    (writes : ∀ pd, tables self.pml4 machine [index virt 30, index virt 39] = some pd →
      Holds (machine.setEntry pd (index virt 21) 0)) :
    Yields (fun _ => Holds) Holds (self.unmap2mb allocator.toPageAllocator virt machine) := by
  have foundRoot : tables self.pml4 machine [] = some self.pml4 := rfl
  rw [PageTable.unmap2mb, if_neg (by rw [writable]; decide)]
  dsimp only [splitVirtAddr]
  refine read_yields foundRoot (Nat.zero_le 2) rfl ?_ fun pdpt foundPdpt => ?_
  · intro cut
    exact missing (table_at_none_of_suffix cut (List.suffix_cons _ _))
  refine read_yields foundPdpt (Nat.le_succ 1) rfl missing fun pd foundPd => ?_
  have pdptAfter := (tables_above_write intact foundPd (index virt 21) 0 (by simp)).trans foundPdpt
  have pdAfter := (tables_above_write intact foundPd (index virt 21) 0 (by simp)).trans foundPd
  obtain ⟨after, pruned, kept⟩ := prune_upper_holds removes (writes pd foundPd) pdptAfter pdAfter
  rw [state_bind_ok (by rfl : writeEntry pd (index virt 21) 0 machine = _), pruned]
  exact .ok kept

end Keeping

inductive Op where
  | map4kb (virt phys flags : Nat)
  | map2mb (virt phys flags : Nat)
  | unmap4kb (virt : Nat)
  | unmap2mb (virt : Nat)

namespace Op

def exec (self : PageTable) (alloc : PageAllocator σ) : Op → Attempt σ Unit
  | map4kb virt phys flags => self.map4kb alloc virt phys flags
  | map2mb virt phys flags => self.map2mb alloc virt phys flags
  | unmap4kb virt => self.unmap4kb alloc virt
  | unmap2mb virt => self.unmap2mb alloc virt

/-- The arguments that the safety sections of the four functions allow. -/
def Valid : Op → Prop
  | map4kb virt phys flags => Canonical virt ∧ pageSize ∣ virt ∧
      pageSize ∣ phys ∧ phys < 2 ^ 52 ∧ ValidFlags flags
  | map2mb virt phys flags => Canonical virt ∧ pageSize2mb ∣ virt ∧
      pageSize2mb ∣ phys ∧ phys < 2 ^ 52 ∧ ValidFlags flags
  | unmap4kb virt => Canonical virt ∧ pageSize ∣ virt
  | unmap2mb virt => Canonical virt ∧ pageSize2mb ∣ virt

/-- What an operation that returns `Some` does to the address map. -/
def apply : Op → AddressMap → AddressMap
  | map4kb virt phys _, map => remap map pageSize virt (some phys)
  | map2mb virt phys _, map => remap map pageSize2mb virt (some phys)
  | unmap4kb virt, map => remap map pageSize virt none
  | unmap2mb virt, map => remap map pageSize2mb virt none

end Op

/-- A machine beside the address map that its page table should implement. -/
structure Session (σ : Type) where
  machine : Machine σ
  map : AddressMap

def Session.step (self : PageTable) (alloc : PageAllocator σ) (session : Session σ) (op : Op) :
    Session σ :=
  match op.exec self alloc session.machine with
  | .ok _ after => ⟨after, op.apply session.map⟩
  | .error _ after => ⟨after, session.map⟩

structure Implements (allocator : LawfulAllocator σ) (root : Nat) (session : Session σ) : Prop where
  intact : Intact allocator root session.machine
  agrees : ∀ addr, Canonical addr → lookup (leaves root session.machine) addr = session.map addr

theorem step_implements_of_grafted {session : Session σ} {op : Op} {size virt : Nat}
    (implements : Implements allocator self.pml4 session)
    (grafted : Grafted allocator self.pml4 session.machine entry value
      (op.exec self allocator.toPageAllocator session.machine))
    (applies : op.apply session.map = remap session.map size virt value)
    (meaning : ∀ addr, Canonical addr →
      leaves self.pml4 session.machine entry.tail = none →
      lookup (graft (leaves self.pml4 session.machine) entry value) addr =
        remap (lookup (leaves self.pml4 session.machine)) size virt value addr) :
    Implements allocator self.pml4 (session.step self allocator.toPageAllocator op) := by
  unfold Session.step
  revert grafted
  generalize op.exec self allocator.toPageAllocator session.machine = outcome
  rintro (⟨intact, uncovered, after⟩ | kept)
  · refine ⟨intact, ?_⟩
    intro addr canonical
    change lookup (leaves self.pml4 _) addr = op.apply session.map addr
    rw [after, meaning addr canonical uncovered, applies]
    unfold remap
    rw [implements.agrees addr canonical]
  · refine ⟨kept.intact, ?_⟩
    intro addr canonical
    change lookup (leaves self.pml4 _) addr = session.map addr
    rw [kept.leaves, implements.agrees addr canonical]

theorem step_implements {session : Session σ} {op : Op}
    (implements : Implements allocator self.pml4 session) (valid : op.Valid) :
    Implements allocator self.pml4 (session.step self allocator.toPageAllocator op) := by
  have intact := implements.intact
  cases op with
  | map4kb virt phys flags =>
      obtain ⟨canonical, -, aligned, bound, flagged⟩ := valid
      apply step_implements_of_grafted implements
        (map4kb_grafted intact ⟨aligned, bound⟩ flagged) rfl
      intro addr onAddr uncovered
      exact lookup_graft_small _ canonical onAddr _ uncovered
  | map2mb virt phys flags =>
      obtain ⟨canonical, -, aligned, bound, flagged⟩ := valid
      have base : ValidBase phys := ⟨Nat.dvd_trans (by decide) aligned, bound⟩
      apply step_implements_of_grafted implements (map2mb_grafted intact base aligned flagged) rfl
      intro addr onAddr _
      exact lookup_graft_large _ canonical onAddr _
  | unmap4kb virt =>
      obtain ⟨canonical, -⟩ := valid
      apply step_implements_of_grafted implements (unmap4kb_grafted virt intact) rfl
      intro addr onAddr uncovered
      exact lookup_graft_small _ canonical onAddr _ uncovered
  | unmap2mb virt =>
      obtain ⟨canonical, -⟩ := valid
      apply step_implements_of_grafted implements (unmap2mb_grafted virt intact) rfl
      intro addr onAddr _
      exact lookup_graft_large _ canonical onAddr _

theorem run_implements {session : Session σ} {ops : List Op}
    (implements : Implements allocator self.pml4 session) (valid : ∀ op ∈ ops, op.Valid) :
    Implements allocator self.pml4
      (ops.foldl (Session.step self allocator.toPageAllocator) session) := by
  induction ops generalizing session with
  | nil => exact implements
  | cons op ops ih =>
      apply ih (step_implements implements (valid op List.mem_cons_self))
      intro later member
      exact valid later (List.mem_cons_of_mem op member)

/-- A PML4 without a present entry leads to no table. -/
theorem absent_alone (absent : ∀ place, machine.mem root place &&& pagePresent = 0)
    (found : tables root machine path = some table) : path = [] ∧ table = root := by
  have foundRoot : tables root machine [] = some root := rfl
  cases List.eq_nil_or_concat path with
  | inl empty =>
      subst empty
      exact ⟨rfl, (Option.some.inj found).symm⟩
  | inr shape =>
      obtain ⟨front, first, rfl⟩ := shape
      have cut : tables root machine [first] = none :=
        (table_at_cons foundRoot).trans (absent_descend (absent first))
      have missing := table_at_none_of_suffix cut (List.suffix_append front [first])
      rw [List.concat_eq_append] at found
      exact absurd (found.symm.trans missing) (by simp)

theorem absent_intact (held : root ∈ allocator.held machine)
    (absent : ∀ place, machine.mem root place &&& pagePresent = 0) :
    Intact allocator root machine ∧ ∀ place path, leaves root machine (place :: path) = none := by
  have foundRoot : tables root machine [] = some root := rfl
  have blank : ∀ level place, descend level (machine.mem root place) = none ∧
      leaf level (machine.mem root place) = none :=
    fun level place => ⟨absent_descend (absent place), absent_leaf (absent place)⟩
  refine ⟨⟨?_, ?_⟩, fun place path => leaf_at_blank foundRoot blank place List.nil_suffix⟩
  · intro left right table onLeft onRight
    rw [(absent_alone absent onLeft).1, (absent_alone absent onRight).1]
  · intro path table found
    rw [(absent_alone absent found).2]
    exact held

theorem zeroed_implements (held : self.pml4 ∈ allocator.held machine)
    (zeroed : ∀ place, machine.mem self.pml4 place = 0) :
    Implements allocator self.pml4 ⟨machine, fun _ => none⟩ := by
  obtain ⟨intact, noLeaf⟩ := absent_intact held fun place => by rw [zeroed place, Nat.zero_and]
  refine ⟨intact, ?_⟩
  intro addr _
  rw [lookup, largeEntry, noLeaf, smallEntry, noLeaf]
  rfl

/-- `translate` is the abstract address map after every run. -/
theorem translate_is_address_map (allocator : LawfulAllocator σ) (self : PageTable)
    (machine : Machine σ) (held : self.pml4 ∈ allocator.held machine)
    (zeroed : ∀ place, machine.mem self.pml4 place = 0) (ops : List Op)
    (valid : ∀ op ∈ ops, op.Valid) (addr : Nat) (canonical : Canonical addr) :
    let final := ops.foldl (Session.step self allocator.toPageAllocator) ⟨machine, fun _ => none⟩
    self.translate allocator.toPageAllocator addr final.machine =
      answer final.machine (final.map addr) := by
  intro final
  have implements : Implements allocator self.pml4 final :=
    run_implements (zeroed_implements held zeroed) valid
  rw [translate_lookup, implements.agrees addr canonical]

/-- A last-in first-out free list of single pages, the shape to which the list of
`SimplePageAllocator` comes down once its pages have been handed out. -/
structure FreeList where
  pages : List Nat
  nodup : pages.Nodup
  usable : ∀ page ∈ pages, UsablePage page

namespace FreeList

def allocPage : Attempt FreeList Nat := fun machine =>
  match machine with
  | ⟨mem, ⟨[], nodup, usable⟩⟩ => .error () ⟨mem, ⟨[], nodup, usable⟩⟩
  | ⟨mem, ⟨page :: pages, nodup, usable⟩⟩ =>
      .ok page ⟨mem, ⟨pages, nodup.of_cons,
        fun _ member => usable _ (List.mem_cons_of_mem _ member)⟩⟩

def freePage (page : Nat) (machine : Machine FreeList) : Machine FreeList :=
  if fresh : UsablePage page ∧ page ∉ machine.alloc.pages then
    ⟨machine.mem, ⟨page :: machine.alloc.pages, List.nodup_cons.mpr ⟨fresh.2, machine.alloc.nodup⟩,
      List.forall_mem_cons.mpr ⟨fresh.1, machine.alloc.usable⟩⟩⟩
  else
    machine

def held (machine : Machine FreeList) : Set Nat :=
  {page | UsablePage page ∧ page ∉ machine.alloc.pages}

theorem alloc_page_ok {machine after : Machine FreeList} {ptr : Nat}
    (allocated : allocPage machine = .ok ptr after) :
    after.mem = machine.mem ∧ machine.alloc.pages = ptr :: after.alloc.pages := by
  obtain ⟨mem, pages, nodup, usable⟩ := machine
  cases pages with
  | nil => simp [allocPage] at allocated
  | cons page pages =>
      simp only [allocPage, EStateM.Result.ok.injEq] at allocated
      obtain ⟨rfl, rfl⟩ := allocated
      exact ⟨rfl, rfl⟩

theorem alloc_page_error {machine after : Machine FreeList}
    (failed : allocPage machine = .error () after) : after = machine := by
  obtain ⟨mem, pages, nodup, usable⟩ := machine
  cases pages with
  | nil =>
      simp only [allocPage, EStateM.Result.error.injEq] at failed
      exact failed.2.symm
  | cons page pages => simp [allocPage] at failed

def lawful : LawfulAllocator FreeList where
  allocPage := allocPage
  freePage := freePage
  held := held
  alloc_some := by
    intro machine after ptr allocated
    obtain ⟨sameMem, popped⟩ := alloc_page_ok allocated
    have listed : ptr ∈ machine.alloc.pages := popped ▸ List.mem_cons_self
    have usable := machine.alloc.usable ptr listed
    have unlisted : ptr ∉ after.alloc.pages := by
      have nodup := machine.alloc.nodup
      rw [popped] at nodup
      exact (List.nodup_cons.mp nodup).1
    refine ⟨fun held => held.2 listed, ?_, usable, fun page _ => by rw [sameMem]⟩
    ext page
    simp only [held, Set.mem_ofPred_eq, Set.mem_insert_iff, popped, List.mem_cons, not_or]
    by_cases same : page = ptr
    · subst same
      simp [usable, unlisted]
    · simp [same]
  alloc_none := by
    intro machine after failed
    rw [alloc_page_error failed]
    exact ⟨rfl, fun _ _ => rfl⟩
  free_held := by
    intro machine page owned
    have fresh : UsablePage page ∧ page ∉ machine.alloc.pages := owned
    rw [freePage, dif_pos fresh]
    refine ⟨?_, fun _ _ _ => rfl⟩
    ext other
    simp only [held, Set.mem_ofPred_eq, Set.mem_sdiff, Set.mem_singleton_iff, List.mem_cons, not_or]
    tauto
  store_held := by
    intro machine after same _
    rw [held, held, same]

end FreeList

def threePages : Machine FreeList :=
  ⟨fun _ _ => 0, ⟨[0xFFFF_A000_0000_2000, 0xFFFF_A000_0000_3000, 0xFFFF_A000_0000_4000],
    by decide, by decide +kernel⟩⟩

def firstPage : PageTable := ⟨0x1000, false, first_page_aligned, first_page_mapped⟩

theorem mapped_page_translates :
    let final := [Op.map4kb 0x40_0000 0x7000 (pagePresent ||| pageRw), Op.unmap2mb 0x60_0000].foldl
      (Session.step firstPage FreeList.lawful.toPageAllocator) ⟨threePages, fun _ => none⟩
    firstPage.translate FreeList.lawful.toPageAllocator 0x40_0123 final.machine =
      answer final.machine (final.map 0x40_0123) := by
  have valid : ∀ op ∈ [Op.map4kb 0x40_0000 0x7000 (pagePresent ||| pageRw), Op.unmap2mb 0x60_0000],
      op.Valid := by
    rw [List.forall_mem_cons, List.forall_mem_singleton]
    exact ⟨⟨Or.inl (by decide), by decide, by decide, by decide, by decide, by decide⟩,
      Or.inl (by decide), by decide⟩
  have held : firstPage.pml4 ∈ FreeList.lawful.held threePages := by
    constructor
    · decide +kernel
    · decide +kernel
  exact translate_is_address_map FreeList.lawful firstPage threePages held (fun _ => rfl) _ valid
    0x40_0123 (Or.inl (by decide))

end Campix.Paging
