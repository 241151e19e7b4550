import Campix.Lib.Outcome
import Campix.Paging.Runs

/-!
# Who owns the pages of a page table

The allocator is put behind a ledger of the pages it gives and takes back. What
it is owed are the tables reached from the PML4, below it, and the pages that
were lost: `map_2mb` and `unmap_2mb` overwrite a PD entry without looking at it,
and where that entry linked a page table nothing leads to its page any more.
Every other step keeps the account, and what is lost stays lost.
-/

namespace Campix.Paging

open Lib.Word Lib.Outcome Lib.TableTree

set_option autoImplicit false

section Ledger

variable {Item : Type*}

inductive Event (Item : Type*) where
  | gave (item : Item)
  | took (item : Item)
  deriving DecidableEq

/-- The item was given and not taken back since; the latest event stands first. -/
def Owed (item : Item) : List (Event Item) → Prop
  | [] => False
  | .gave given :: ledger => given = item ∨ Owed item ledger
  | .took taken :: ledger => taken ≠ item ∧ Owed item ledger

/-- Nothing is given twice without being taken back in between, and only what is owed is taken
back. -/
def Fair : List (Event Item) → Prop
  | [] => True
  | .gave given :: ledger => ¬Owed given ledger ∧ Fair ledger
  | .took taken :: ledger => Owed taken ledger ∧ Fair ledger

end Ledger

variable {σ : Type}

abbrev Logged (σ : Type) := σ × List (Event Nat)

def Machine.unlogged (machine : Machine (Logged σ)) : Machine σ :=
  ⟨machine.mem, machine.alloc.1⟩

def Machine.ledger (machine : Machine (Logged σ)) : List (Event Nat) := machine.alloc.2

def Machine.withLedger (machine : Machine σ) (ledger : List (Event Nat)) : Machine (Logged σ) :=
  ⟨machine.mem, machine.alloc, ledger⟩

/-- The same allocator, with its answers and what it takes back on record. -/
def LawfulAllocator.logged (allocator : LawfulAllocator σ) : LawfulAllocator (Logged σ) where
  allocPage machine :=
    match allocator.allocPage machine.unlogged with
    | .ok ptr after => .ok ptr (after.withLedger (.gave ptr :: machine.ledger))
    | .error nothing after => .error nothing (after.withLedger machine.ledger)
  freePage page machine :=
    (allocator.freePage page machine.unlogged).withLedger (.took page :: machine.ledger)
  held machine := allocator.held machine.unlogged
  alloc_some := by
    intro machine after ptr allocated
    cases inner : allocator.allocPage machine.unlogged with
    | error nothing failed =>
        rw [inner] at allocated
        exact absurd allocated (by simp)
    | ok page returned =>
        rw [inner] at allocated
        simp only [EStateM.Result.ok.injEq] at allocated
        obtain ⟨rfl, rfl⟩ := allocated
        exact allocator.alloc_some inner
  alloc_none := by
    intro machine after failed
    cases inner : allocator.allocPage machine.unlogged with
    | ok page returned =>
        rw [inner] at failed
        exact absurd failed (by simp)
    | error nothing stopped =>
        rw [inner] at failed
        simp only [EStateM.Result.error.injEq] at failed
        obtain ⟨-, rfl⟩ := failed
        exact allocator.alloc_none inner
  free_held := allocator.free_held
  store_held := by
    intro machine after same outside
    exact allocator.store_held (congrArg Prod.fst same) outside

theorem logged_alloc {allocator : LawfulAllocator σ} {machine after : Machine (Logged σ)}
    {ptr : Nat}
    (allocated : allocator.logged.allocPage machine = .ok ptr after) :
    after.ledger = .gave ptr :: machine.ledger := by
  change (match allocator.allocPage machine.unlogged with
    | .ok ptr after => EStateM.Result.ok ptr (after.withLedger (.gave ptr :: machine.ledger))
    | .error nothing after => .error nothing (after.withLedger machine.ledger)) = _ at allocated
  cases inner : allocator.allocPage machine.unlogged with
  | error nothing failed =>
      rw [inner] at allocated
      exact absurd allocated (by simp)
  | ok page returned =>
      rw [inner] at allocated
      simp only [EStateM.Result.ok.injEq] at allocated
      obtain ⟨rfl, rfl⟩ := allocated
      rfl

theorem logged_alloc_error {allocator : LawfulAllocator σ} {machine after : Machine (Logged σ)}
    (failed : allocator.logged.allocPage machine = .error () after) :
    after.ledger = machine.ledger := by
  change (match allocator.allocPage machine.unlogged with
    | .ok ptr after => EStateM.Result.ok ptr (after.withLedger (.gave ptr :: machine.ledger))
    | .error nothing after => .error nothing (after.withLedger machine.ledger)) = _ at failed
  cases inner : allocator.allocPage machine.unlogged with
  | ok page returned =>
      rw [inner] at failed
      exact absurd failed (by simp)
  | error nothing stopped =>
      rw [inner] at failed
      simp only [EStateM.Result.error.injEq] at failed
      obtain ⟨-, rfl⟩ := failed
      rfl

/-- The pages owed to the allocator are the tables below the PML4 and `lost`. -/
structure Accounted (allocator : LawfulAllocator σ) (root : Nat) (lost : Set Nat)
    (machine : Machine (Logged σ)) : Prop where
  intact : Intact allocator.logged root machine
  fair : Fair machine.ledger
  owed : ∀ page, Owed page machine.ledger ↔
    (∃ path, path ≠ [] ∧ tables root machine path = some page) ∨ page ∈ lost
  unreached : ∀ path page, tables root machine path = some page → page ∉ lost
  lostHeld : lost ⊆ allocator.logged.held machine

variable {allocator : LawfulAllocator σ} {root table : Nat} {lost : Set Nat}
variable {machine : Machine (Logged σ)} {path : List (Fin 512)} {idx : Fin 512}

theorem owed_held (accounted : Accounted allocator root lost machine) {page : Nat}
    (owed : Owed page machine.ledger) : page ∈ allocator.logged.held machine := by
  rcases (accounted.owed page).mp owed with ⟨path, -, reached⟩ | gone
  · exact accounted.intact.held path page reached
  · exact accounted.lostHeld gone

theorem tables_below_pt (deep : 3 < path.length) : tables root machine path = none := by
  obtain ⟨idx, path, rfl⟩ : ∃ idx rest, path = idx :: rest := by
    cases path with
    | nil => simp at deep
    | cons idx rest => exact ⟨idx, rest, rfl⟩
  have level : 2 < path.length := by
    rw [List.length_cons] at deep
    omega
  rw [tables, tableAt]
  cases found : tableAt descend machine.mem root path with
  | none => rfl
  | some upper =>
      rw [Option.bind_some, descend, if_pos (Or.inr (Or.inl level))]

theorem accounted_congr {after : Machine (Logged σ)}
    (accounted : Accounted allocator root lost machine)
    (intact : Intact allocator.logged root after)
    (same : tables root after = tables root machine) (ledger : after.ledger = machine.ledger)
    (grows : allocator.logged.held machine ⊆ allocator.logged.held after) :
    Accounted allocator root lost after := by
  refine ⟨intact, ledger ▸ accounted.fair, ?_, ?_, accounted.lostHeld.trans grows⟩
  · intro page
    rw [ledger, same]
    exact accounted.owed page
  · intro path page reached
    rw [same] at reached
    exact accounted.unreached path page reached

theorem write_accounted (accounted : Accounted allocator root lost machine)
    (found : tables root machine path = some table) (lower : 2 ≤ path.length) {word : Nat}
    (ends : descend path.length word = none) :
    Accounted allocator root (lost ∪ {page | tables root machine (idx :: path) = some page})
      (machine.setEntry table idx word) := by
  have intact := accounted.intact
  have stays : Intact allocator.logged root (machine.setEntry table idx word) :=
    (write_grafts intact found ends).1
  have heldAfter : allocator.logged.held (machine.setEntry table idx word) =
      allocator.logged.held machine := held_set_entry (intact.held path table found) word
  have cut : ∀ other, (idx :: path) <:+ other →
      tables root (machine.setEntry table idx word) other = none :=
    fun other through => table_at_set_cut intact.tree found ends through
  have off : ∀ other, ¬(idx :: path) <:+ other →
      tables root (machine.setEntry table idx word) other = tables root machine other :=
    fun other apart => table_at_set_off intact.tree found apart
  have before : ∀ other page, tables root (machine.setEntry table idx word) other = some page →
      tables root machine other = some page ∧ ¬(idx :: path) <:+ other := by
    intro other page reached
    by_cases through : (idx :: path) <:+ other
    · exact absurd ((cut other through).symm.trans reached) (by simp)
    · exact ⟨(off other through).symm.trans reached, through⟩
  refine ⟨stays, accounted.fair, ?_, ?_, ?_⟩
  · intro page
    change Owed page machine.ledger ↔ _
    rw [accounted.owed page]
    constructor
    · rintro (⟨other, below, reached⟩ | gone)
      · by_cases through : (idx :: path) <:+ other
        · -- a path through the entry and longer than it would lie below a PT
          have exactly : other = idx :: path := by
            by_contra different
            have longer : (idx :: path).length < other.length := by
              apply lt_of_le_of_ne through.length_le
              intro equal
              exact different (through.eq_of_length equal).symm
            rw [List.length_cons] at longer
            have missing : tables root machine other = none := tables_below_pt (by omega)
            exact absurd (missing.symm.trans reached) (by simp)
          rw [exactly] at reached
          exact Or.inr (Or.inr reached)
        · exact Or.inl ⟨other, below, (off other through).trans reached⟩
      · exact Or.inr (Or.inl gone)
    · rintro (⟨other, below, reached⟩ | gone | behind)
      · exact Or.inl ⟨other, below, (before other page reached).1⟩
      · exact Or.inr gone
      · exact Or.inl ⟨idx :: path, List.cons_ne_nil _ _, behind⟩
  · rintro other page reached (gone | behind)
    · exact accounted.unreached other page (before other page reached).1 gone
    · obtain ⟨reachedBefore, apart⟩ := before other page reached
      exact apart (by rw [intact.tree other (idx :: path) page reachedBefore behind])
  · rw [heldAfter]
    rintro page (gone | behind)
    · exact accounted.lostHeld gone
    · exact intact.held (idx :: path) page behind

/-- `get_table::<true>` adds at most the table it returns; when it fails there
is no table behind the entry. -/
theorem get_table_accounted {subFlags disallowedFlags : Nat}
    (accounted : Accounted allocator root lost machine)
    (found : tables root machine path = some table) (upper : path.length ≤ 2)
    (level : disallowedAt path.length = disallowedFlags) (flags : ValidFlags subFlags) :
    Yields (fun next after => Accounted allocator root lost after ∧
        tables root after (idx :: path) = some next ∧
        ∀ other, other ≠ idx :: path → tables root after other = tables root machine other)
      (fun after => Accounted allocator root lost after ∧
        tables root machine (idx :: path) = none)
      (getTable true allocator.logged.toPageAllocator table idx subFlags disallowedFlags
        machine) := by
  subst level
  have intact := accounted.intact
  have missing : machine.mem table idx &&& pagePresent = 0 →
      tables root machine (idx :: path) = none := fun absent => by
    rw [tables, table_at_cons found, absent_descend absent]
  apply get_table_rule
  · intro absent after allocated
    obtain ⟨held, -⟩ := allocator.logged.alloc_none allocated
    obtain ⟨stays, sameTables, -⟩ := refused_keeps intact allocated
    exact .error ⟨accounted_congr accounted stays sameTables (logged_alloc_error allocated)
      held.symm.subset, missing absent⟩
  · intro absent ptr after allocated
    obtain ⟨kept, reached, linked, heldAfter⟩ :=
      link_keeps upper intact found absent allocated flags
    obtain ⟨fresh, -, usable, -⟩ := allocator.logged.alloc_some allocated
    rw [follow_entry_present upper reached (linked_present usable flags), linked, if_pos rfl]
    have given := logged_alloc allocated
    have ledger : ((after.clear ptr).setEntry table idx
        (sub64 ptr directMappingOffset ||| subFlags)).ledger = .gave ptr ::
          machine.ledger := given
    refine .ok ⟨⟨kept.intact, ?_, ?_, ?_, ?_⟩, by rw [linked, if_pos rfl], ?_⟩
    · rw [ledger]
      exact ⟨fun owed => fresh (owed_held accounted owed), accounted.fair⟩
    · intro page
      rw [ledger, Owed, accounted.owed page]
      constructor
      · rintro (rfl | ⟨other, below, present⟩ | gone)
        · exact Or.inl ⟨idx :: path, List.cons_ne_nil _ _, by rw [linked, if_pos rfl]⟩
        · refine Or.inl ⟨other, below, ?_⟩
          have different : other ≠ idx :: path := by
            rintro rfl
            exact absurd ((missing absent).symm.trans present) (by simp)
          rw [linked, if_neg different, present]
        · exact Or.inr gone
      · rintro (⟨other, below, present⟩ | gone)
        · rw [linked] at present
          split_ifs at present with exactly
          · exact Or.inl (Option.some.inj present)
          · exact Or.inr (Or.inl ⟨other, below, present⟩)
        · exact Or.inr (Or.inr gone)
    · intro other page present gone
      rw [linked] at present
      split_ifs at present with exactly
      · exact fresh (Option.some.inj present ▸ accounted.lostHeld gone)
      · exact accounted.unreached other page present gone
    · rw [heldAfter]
      exact accounted.lostHeld.trans (Set.subset_insert _ _)
    · intro other different
      rw [linked, if_neg different]
  · intro present
    rw [follow_entry_present upper found present]
    cases below : tables root machine (idx :: path) with
    | none => exact .error ⟨accounted, rfl⟩
    | some next => exact .ok ⟨accounted, below, fun _ _ => rfl⟩

/-- `remove` gives back the empty table behind an entry. -/
theorem remove_accounted {child : Nat} (accounted : Accounted allocator root lost machine)
    (found : tables root machine path = some table)
    (linked : tables root machine (idx :: path) = some child)
    (blank : ∀ place, machine.mem child place = 0) :
    ∃ after, remove allocator.logged.toPageAllocator table idx machine = .ok () after ∧
      Accounted allocator root lost after ∧
      ∀ upper, ¬(idx :: path) <:+ upper → tables root after upper = tables root machine upper := by
  have intact := accounted.intact
  obtain ⟨after, removed, kept, off, cut, sameAlloc, heldAfter, -⟩ :=
    remove_keeps intact found linked blank
  have ledger : after.ledger = .took child :: machine.ledger := congrArg Prod.snd sameAlloc
  have only : ∀ other page, (idx :: path) <:+ other → tables root machine other = some page →
      page = child := by
    intro other page through reached
    obtain ⟨below, rfl⟩ := through
    cases List.eq_nil_or_concat below with
    | inl empty =>
        rw [empty, List.nil_append] at reached
        exact Option.some.inj (reached.symm.trans linked)
    | inr shape =>
        obtain ⟨front, place, rfl⟩ := shape
        have bare : tables root machine (place :: idx :: path) = none := by
          rw [tables, table_at_cons linked, blank place]
          exact (zero_is_blank _).1
        have deeper : (place :: idx :: path) <:+ front.concat place ++ idx :: path := by
          rw [List.concat_eq_append, List.append_assoc]
          exact List.suffix_append front _
        exact absurd ((table_at_none_of_suffix bare deeper).symm.trans reached) (by simp)
  have before : ∀ other page, tables root after other = some page →
      tables root machine other = some page ∧ page ≠ child := by
    intro other page reached
    by_cases through : (idx :: path) <:+ other
    · exact absurd ((cut other through).symm.trans reached) (by simp)
    · have present := (off other through).symm.trans reached
      refine ⟨present, ?_⟩
      rintro rfl
      exact through (by rw [intact.tree _ _ _ present linked])
  refine ⟨after, removed, ⟨kept.intact, ?_, ?_, ?_, ?_⟩, off⟩
  · rw [ledger]
    exact ⟨(accounted.owed child).mpr (Or.inl ⟨_, List.cons_ne_nil _ _, linked⟩), accounted.fair⟩
  · intro page
    rw [ledger, Owed, accounted.owed page]
    constructor
    · rintro ⟨different, ⟨other, below, reached⟩ | gone⟩
      · refine Or.inl ⟨other, below, ?_⟩
        rw [off other fun through => different (only other page through reached).symm]
        exact reached
      · exact Or.inr gone
    · rintro (⟨other, below, reached⟩ | gone)
      · obtain ⟨present, different⟩ := before other page reached
        exact ⟨different.symm, Or.inl ⟨other, below, present⟩⟩
      · refine ⟨?_, Or.inr gone⟩
        rintro rfl
        exact accounted.unreached _ child linked gone
  · intro other page reached
    exact accounted.unreached other page (before other page reached).1
  · rw [heldAfter]
    intro page gone
    refine ⟨accounted.lostHeld gone, ?_⟩
    rintro rfl
    exact accounted.unreached _ page linked gone

theorem remove_keeps_accounted :
    RemoveKeeps allocator.logged.toPageAllocator root (Accounted allocator root lost) := by
  intro machine path table child idx accounted found linked blank
  exact remove_accounted accounted found linked blank

def Op.replaced (self : PageTable) (machine : Machine (Logged σ)) : Op → Set Nat
  | map2mb virt _ _ | unmap2mb virt =>
      {page | self.readonly = false ∧ tables self.pml4 machine (largeEntry virt) = some page}
  | map4kb _ _ _ | unmap4kb _ => ∅

theorem write_bare_accounted (accounted : Accounted allocator root lost machine)
    (found : tables root machine path = some table) (lower : 2 ≤ path.length) {word : Nat}
    (ends : descend path.length word = none)
    (bare : tables root machine (idx :: path) = none) :
    Accounted allocator root lost (machine.setEntry table idx word) := by
  have nothing : {page | tables root machine (idx :: path) = some page} = ∅ := by
    rw [bare]
    ext page
    simp
  have written : Accounted allocator root _ (machine.setEntry table idx word) :=
    write_accounted accounted found lower ends
  rwa [nothing, Set.union_empty] at written

theorem write_pt_accounted (accounted : Accounted allocator root lost machine)
    (found : tables root machine path = some table) (last : path.length = 3) (word : Nat) :
    Accounted allocator root lost (machine.setEntry table idx word) := by
  apply write_bare_accounted accounted found (by omega)
  · rw [descend, if_pos (Or.inr (Or.inl (by omega)))]
  · apply tables_below_pt
    rw [List.length_cons]
    omega

section Operations

variable {self : PageTable}

theorem map4kb_accounted (virt phys flags : Nat)
    (accounted : Accounted allocator self.pml4 lost machine) :
    Yields (fun _ => Accounted allocator self.pml4 lost) (Accounted allocator self.pml4 lost)
      (self.map4kb allocator.logged.toPageAllocator virt phys flags machine) := by
  have subFlags := sub_flags_valid virt
  have foundRoot : tables self.pml4 machine [] = some self.pml4 := rfl
  have walk : ∀ {table path idx state disallowedFlags},
      Accounted allocator self.pml4 lost state → tables self.pml4 state path = some table →
      path.length ≤ 2 → disallowedAt path.length = disallowedFlags →
      Yields (fun next after => Accounted allocator self.pml4 lost after ∧
          tables self.pml4 after (idx :: path) = some next)
        (Accounted allocator self.pml4 lost)
        (getTable true allocator.logged.toPageAllocator table idx (subFlagsFor virt)
          disallowedFlags state) :=
    fun kept found upper level => yields_weaken
      (get_table_accounted kept found upper level subFlags)
      (fun _ _ holds => ⟨holds.1, holds.2.1⟩) (fun _ holds => holds.1)
  rw [PageTable.map4kb]
  split_ifs with readonly
  · exact .error accounted
  · dsimp only [splitVirtAddr]
    apply yields_bind (walk accounted foundRoot (Nat.zero_le 2) rfl)
    rintro pdpt first ⟨keptFirst, foundPdpt⟩
    apply yields_bind (walk keptFirst foundPdpt (Nat.le_succ 1) rfl)
    rintro pd second ⟨keptSecond, foundPd⟩
    apply yields_bind (walk keptSecond foundPd (Nat.le_refl 2) rfl)
    rintro pt third ⟨keptThird, foundPt⟩
    exact .ok (write_pt_accounted keptThird foundPt rfl _)

theorem huge_ends (base flags : Nat) : descend 2 (base ||| pageHuge ||| flags) = none := by
  have huge : (base ||| pageHuge ||| flags) &&& pageHuge ≠ 0 := by
    rw [Nat.or_assoc, Nat.or_comm pageHuge, ← Nat.or_assoc, Nat.and_or_distrib_right,
      Nat.and_self]
    intro zero
    exact absurd (Nat.or_eq_zero_iff.mp zero).2 (by decide)
  rw [descend, if_pos (Or.inr (Or.inr ⟨rfl, huge⟩))]

theorem nothing_behind {entry : List (Fin 512)} (missing : tables root machine path = none)
    (through : path <:+ entry) : {page | tables root machine entry = some page} = ∅ := by
  have none : tables root machine entry = none := table_at_none_of_suffix missing through
  rw [none]
  ext page
  simp

theorem pdpt_above_entry (virt : Nat) : [index virt 39] <:+ largeEntry virt :=
  ⟨[index virt 21, index virt 30], rfl⟩

theorem pd_above_entry (virt : Nat) : [index virt 30, index virt 39] <:+ largeEntry virt :=
  ⟨[index virt 21], rfl⟩

theorem map2mb_accounted (virt phys flags : Nat)
    (accounted : Accounted allocator self.pml4 lost machine) (writable : self.readonly = false) :
    Yields
      (fun _ => Accounted allocator self.pml4
        (lost ∪ {page | tables self.pml4 machine (largeEntry virt) = some page}))
      (Accounted allocator self.pml4
        (lost ∪ {page | tables self.pml4 machine (largeEntry virt) = some page}))
      (self.map2mb allocator.logged.toPageAllocator virt phys flags machine) := by
  have subFlags := sub_flags_valid virt
  have foundRoot : tables self.pml4 machine [] = some self.pml4 := rfl
  rw [PageTable.map2mb, if_neg (by rw [writable]; decide)]
  dsimp only [splitVirtAddr]
  refine yields_bind (yields_weaken
    (get_table_accounted accounted foundRoot (Nat.zero_le 2) rfl subFlags)
    (fun _ _ holds => holds) fun after failed => ?_) ?_
  · rw [nothing_behind failed.2 (pdpt_above_entry virt), Set.union_empty]
    exact failed.1
  rintro pdpt first ⟨keptFirst, foundPdpt, sameFirst⟩
  have entryFirst := sameFirst (largeEntry virt) (by simp [largeEntry])
  refine yields_bind (yields_weaken
    (get_table_accounted keptFirst foundPdpt (Nat.le_succ 1) rfl subFlags)
    (fun _ _ holds => holds) fun after failed => ?_) ?_
  · rw [nothing_behind ((sameFirst _ (by simp)).symm.trans failed.2) (pd_above_entry virt),
      Set.union_empty]
    exact failed.1
  rintro pd second ⟨keptSecond, foundPd, sameSecond⟩
  have entrySecond := sameSecond (largeEntry virt) (by simp [largeEntry])
  rw [← entryFirst, ← entrySecond]
  have ends := huge_ends (alignDown phys pageSize2mb) flags
  have written : Accounted allocator self.pml4
      (lost ∪ {page | tables self.pml4 second (largeEntry virt) = some page})
      (second.setEntry pd (index virt 21) (alignDown phys pageSize2mb ||| pageHuge ||| flags)) :=
    write_accounted keptSecond foundPd (Nat.le_refl 2) ends
  exact .ok written

theorem unmap2mb_accounted (virt : Nat) (accounted : Accounted allocator self.pml4 lost machine)
    (writable : self.readonly = false) :
    Yields
      (fun _ => Accounted allocator self.pml4
        (lost ∪ {page | tables self.pml4 machine (largeEntry virt) = some page}))
      (Accounted allocator self.pml4
        (lost ∪ {page | tables self.pml4 machine (largeEntry virt) = some page}))
      (self.unmap2mb allocator.logged.toPageAllocator virt machine) := by
  apply unmap2mb_holds remove_keeps_accounted virt writable accounted.intact
  · intro missing
    rw [nothing_behind missing (pd_above_entry virt), Set.union_empty]
    exact accounted
  · intro pd foundPd
    exact write_accounted accounted foundPd (Nat.le_refl 2) (zero_is_blank 2).1

theorem unmap4kb_accounted (virt : Nat) (accounted : Accounted allocator self.pml4 lost machine) :
    Yields (fun _ => Accounted allocator self.pml4 lost) (Accounted allocator self.pml4 lost)
      (self.unmap4kb allocator.logged.toPageAllocator virt machine) :=
  unmap4kb_holds remove_keeps_accounted virt accounted.intact accounted fun _ foundPt =>
    write_pt_accounted accounted foundPt rfl 0

theorem exec_readonly {alloc : PageAllocator (Logged σ)} (readonly : self.readonly = true)
    (op : Op) :
    op.exec self alloc machine = .error () machine := by
  cases op with
  | map4kb virt phys flags =>
      rw [Op.exec, PageTable.map4kb, if_pos readonly]
      rfl
  | map2mb virt phys flags =>
      rw [Op.exec, PageTable.map2mb, if_pos readonly]
      rfl
  | unmap4kb virt =>
      rw [Op.exec, PageTable.unmap4kb, if_pos readonly]
      rfl
  | unmap2mb virt =>
      rw [Op.exec, PageTable.unmap2mb, if_pos readonly]
      rfl

theorem replaced_readonly (readonly : self.readonly = true) (op : Op) :
    op.replaced self machine = ∅ := by
  cases op <;> simp [Op.replaced, readonly]

/-- Whatever an operation returns, it loses the page table it replaces and
nothing else. -/
theorem step_accounted (op : Op) (accounted : Accounted allocator self.pml4 lost machine) :
    Accounted allocator self.pml4 (lost ∪ op.replaced self machine)
      (stateAfter (op.exec self allocator.logged.toPageAllocator machine)) := by
  cases op with
  | map4kb virt phys flags =>
      rw [Op.replaced, Set.union_empty]
      exact yields_state (map4kb_accounted virt phys flags accounted)
  | unmap4kb virt =>
      rw [Op.replaced, Set.union_empty]
      exact yields_state (unmap4kb_accounted virt accounted)
  | map2mb virt phys flags =>
      cases readonly : self.readonly with
      | true =>
          rw [exec_readonly readonly, replaced_readonly readonly, Set.union_empty]
          exact accounted
      | false =>
          rw [Op.replaced]
          simp only [readonly, true_and]
          exact yields_state (map2mb_accounted virt phys flags accounted readonly)
  | unmap2mb virt =>
      cases readonly : self.readonly with
      | true =>
          rw [exec_readonly readonly, replaced_readonly readonly, Set.union_empty]
          exact accounted
      | false =>
          rw [Op.replaced]
          simp only [readonly, true_and]
          exact yields_state (unmap2mb_accounted virt accounted readonly)

end Operations

def afterOps (self : PageTable) (allocator : LawfulAllocator σ) (machine : Machine σ)
    (ops : List Op) : Machine (Logged σ) :=
  ops.foldl (fun state op => stateAfter (op.exec self allocator.logged.toPageAllocator state))
    (machine.withLedger [])

/-- An entry of a table reached from the PML4, present and no leaf, that holds
the address of `page`. -/
def References (root : Nat) (machine : Machine (Logged σ)) (entry : Nat × Fin 512) (page : Nat) :
    Prop :=
  ∃ path, tables root machine path = some entry.1 ∧
    descend path.length (machine.mem entry.1 entry.2) = some page

/-- Every page the allocator gave and did not take back is referenced by one
entry; the others are referenced by none; and nothing was given back twice. -/
structure PagesAccounted (root : Nat) (machine : Machine (Logged σ)) : Prop where
  fair : Fair machine.ledger
  referenced : ∀ page, Owed page machine.ledger → ∃! entry, References root machine entry page
  returned : ∀ page, ¬Owed page machine.ledger → ∀ entry, ¬References root machine entry page

theorem references_path {entry : Nat × Fin 512} {page : Nat}
    (references : References root machine entry page) :
    ∃ path, tables root machine path = some entry.1 ∧
      tables root machine (entry.2 :: path) = some page := by
  obtain ⟨path, found, points⟩ := references
  exact ⟨path, found, (table_at_cons found).trans points⟩

theorem path_references {page : Nat} (reached : tables root machine (idx :: path) = some page) :
    ∃ upper, References root machine (upper, idx) page := by
  cases found : tables root machine path with
  | none =>
      have missing := table_at_none_of_suffix found (List.suffix_cons idx path)
      exact absurd (missing.symm.trans reached) (by simp)
  | some upper => exact ⟨upper, path, found, (table_at_cons found).symm.trans reached⟩

theorem pages_accounted_iff_lost (accounted : Accounted allocator root lost machine) :
    PagesAccounted root machine ↔ lost = ∅ := by
  constructor
  · intro pages
    apply Set.eq_empty_of_forall_notMem
    intro page gone
    have owed := (accounted.owed page).mpr (Or.inr gone)
    obtain ⟨entry, references, -⟩ := pages.referenced page owed
    obtain ⟨path, -, reached⟩ := references_path references
    exact accounted.unreached _ page reached gone
  · rintro rfl
    refine ⟨accounted.fair, ?_, ?_⟩
    · intro page owed
      rcases (accounted.owed page).mp owed with ⟨path, below, reached⟩ | gone
      swap
      · exact absurd gone (Set.notMem_empty page)
      obtain ⟨idx, path, rfl⟩ : ∃ idx rest, path = idx :: rest := List.exists_cons_of_ne_nil below
      obtain ⟨upper, references⟩ := path_references reached
      refine ⟨(upper, idx), references, ?_⟩
      rintro ⟨other, place⟩ otherReferences
      obtain ⟨first, foundFirst, reachedFirst⟩ := references_path references
      obtain ⟨second, foundSecond, reachedSecond⟩ := references_path otherReferences
      have same := accounted.intact.tree _ _ _ reachedSecond reachedFirst
      obtain ⟨rfl, rfl⟩ := List.cons.inj same
      have tables := Option.some.inj (foundSecond.symm.trans foundFirst)
      simp only at tables
      rw [tables]
    · intro page notOwed entry references
      obtain ⟨path, -, reached⟩ := references_path references
      exact notOwed ((accounted.owed page).mpr (Or.inl ⟨_, List.cons_ne_nil _ _, reached⟩))

section Run

variable {self : PageTable} {start : Machine σ}

theorem zeroed_accounted (held : self.pml4 ∈ allocator.held start)
    (zeroed : ∀ place, start.mem self.pml4 place = 0) :
    Accounted allocator self.pml4 ∅ (start.withLedger []) := by
  have implements : Implements allocator.logged self.pml4 ⟨start.withLedger [], fun _ => none⟩ :=
    zeroed_implements held zeroed
  have foundRoot : tables self.pml4 (start.withLedger []) [] = some self.pml4 := rfl
  refine ⟨implements.intact, trivial, ?_, fun _ _ _ => Set.notMem_empty _, Set.empty_subset _⟩
  intro page
  constructor
  · exact False.elim
  · rintro (⟨path, below, reached⟩ | gone)
    · -- the first step from the PML4 reads a zero
      obtain ⟨front, first, rfl⟩ : ∃ front first, path = front ++ [first] :=
        ⟨path.dropLast, path.getLast below, (List.dropLast_append_getLast below).symm⟩
      have cut : tables self.pml4 (start.withLedger []) [first] = none := by
        rw [tables, table_at_cons foundRoot]
        change descend 0 (start.mem self.pml4 first) = none
        rw [zeroed first]
        exact (zero_is_blank 0).1
      have missing := table_at_none_of_suffix cut (List.suffix_append front [first])
      exact absurd (missing.symm.trans reached) (by simp)
    · exact absurd gone (Set.notMem_empty page)

theorem run_accounted (held : self.pml4 ∈ allocator.held start)
    (zeroed : ∀ place, start.mem self.pml4 place = 0) (ops : List Op) :
    ∃ lost, Accounted allocator self.pml4 lost (afterOps self allocator start ops) ∧
      (lost = ∅ ↔ ∀ before op, before ++ [op] <+: ops →
        op.replaced self (afterOps self allocator start before) = ∅) := by
  induction ops using List.reverseRecOn with
  | nil =>
      refine ⟨∅, zeroed_accounted held zeroed, ⟨fun _ before op earlier => ?_, fun _ => rfl⟩⟩
      exact absurd (List.prefix_nil.mp earlier) (by simp)
  | append_singleton ops op ih =>
      obtain ⟨lost, accounted, ih⟩ := ih
      have stepped : afterOps self allocator start (ops ++ [op]) =
          stateAfter (op.exec self allocator.logged.toPageAllocator
            (afterOps self allocator start ops)) := by
        rw [afterOps, List.foldl_append]
        rfl
      refine ⟨_, stepped ▸ step_accounted op accounted, ?_⟩
      rw [Set.union_empty_iff, ih]
      constructor
      · rintro ⟨earlierSteps, lastStep⟩ before other earlier
        rcases List.prefix_concat_iff.mp earlier with last | inside
        · obtain ⟨rfl, same⟩ := List.append_inj' last rfl
          rw [List.singleton_inj.mp same]
          exact lastStep
        · exact earlierSteps before other inside
      · intro steps
        exact ⟨fun before other inside => steps before other
            (inside.trans (List.prefix_append ops [op])),
          steps ops op (List.prefix_refl _)⟩

/-- After any run from a zeroed PML4, whatever its steps returned: the pages of
the allocator are accounted for if and only if no step replaced a page table. -/
theorem table_pages_accounted_iff (allocator : LawfulAllocator σ) (self : PageTable)
    (machine : Machine σ) (held : self.pml4 ∈ allocator.held machine)
    (zeroed : ∀ place, machine.mem self.pml4 place = 0) (ops : List Op) :
    PagesAccounted self.pml4 (afterOps self allocator machine ops) ↔
      ∀ before op, before ++ [op] <+: ops →
        op.replaced self (afterOps self allocator machine before) = ∅ := by
  obtain ⟨lost, accounted, steps⟩ := run_accounted held zeroed ops
  rw [pages_accounted_iff_lost accounted, steps]

end Run

theorem first_page_held : firstPage.pml4 ∈ FreeList.lawful.held threePages := by
  constructor
  · decide +kernel
  · decide +kernel

/-- A page is mapped and unmapped: the three tables come and go. -/
theorem unmapped_page_accounted :
    PagesAccounted firstPage.pml4 (afterOps firstPage FreeList.lawful threePages
      [.map4kb 0x40_0000 0x7000 (pagePresent ||| pageRw), .unmap4kb 0x40_0000]) := by
  refine (table_pages_accounted_iff FreeList.lawful firstPage threePages first_page_held
    (fun _ => rfl) _).mpr fun before op earlier => ?_
  have member := earlier.subset (List.mem_append_right before List.mem_cons_self)
  rcases List.mem_pair.mp member with rfl | rfl
  · rfl
  · rfl

/-- A 2 MiB page mapped over the page table of a 4 KiB page loses its page. -/
theorem replaced_table_leaks :
    ¬PagesAccounted firstPage.pml4 (afterOps firstPage FreeList.lawful threePages
      [.map4kb 0x40_0000 0x7000 (pagePresent ||| pageRw),
        .map2mb 0x40_0000 0x20_0000 (pagePresent ||| pageRw)]) := by
  obtain ⟨lost, accounted, steps⟩ := run_accounted first_page_held (fun _ => rfl)
    [.map4kb 0x40_0000 0x7000 (pagePresent ||| pageRw),
      .map2mb 0x40_0000 0x20_0000 (pagePresent ||| pageRw)]
  rw [pages_accounted_iff_lost accounted, steps]
  intro none
  have nothing := none [.map4kb 0x40_0000 0x7000 (pagePresent ||| pageRw)] _ (List.prefix_refl _)
  have linked : tables firstPage.pml4 (afterOps firstPage FreeList.lawful threePages
      [.map4kb 0x40_0000 0x7000 (pagePresent ||| pageRw)]) (largeEntry 0x40_0000) =
        some 0xFFFF_A000_0000_4000 := by
    decide +kernel
  have behind : 0xFFFF_A000_0000_4000 ∈ (∅ : Set Nat) := by
    rw [← nothing]
    exact ⟨rfl, linked⟩
  exact behind

end Campix.Paging
