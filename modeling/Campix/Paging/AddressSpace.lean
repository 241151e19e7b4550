import Campix.Lib.Outcome
import Campix.Paging.Walk

/-!
# Address spaces of processes

`alloc_new` and `map_global_higher_half` of `paging.rs`. The PML4 of a process shares
the entries 256 to 383 with the kernel's, so the tables behind them are the kernel's
own. A page mapped in the lower half is reached through tables of the process alone,
as long as its PML4 starts without stale entries there; everything else that the
allocator has given out stays as it is.
-/

namespace Campix.Paging

open Lib.Word Lib.Fallible Lib.Outcome Lib.TableTree

set_option autoImplicit false

variable {σ : Type}

def Machine.store (machine : Machine σ) (page : Nat) (words : Table) : Machine σ :=
  { machine with mem := Function.update machine.mem page words }

theorem Machine.store_self (machine : Machine σ) (page : Nat) (words : Table) :
    (machine.store page words).mem page = words :=
  Function.update_self _ _ _

theorem Machine.store_other (machine : Machine σ) {page other : Nat} (words : Table)
    (different : other ≠ page) : (machine.store page words).mem other = machine.mem other :=
  Function.update_of_ne different _ _

theorem Machine.store_alloc (machine : Machine σ) (page : Nat) (words : Table) :
    (machine.store page words).alloc = machine.alloc :=
  rfl

theorem Machine.set_entry_alloc (machine : Machine σ) (table : Nat) (idx : Fin 512) (word : Nat) :
    (machine.setEntry table idx word).alloc = machine.alloc :=
  rfl

/-- The PML4 is a `*mut u8` when `write_bytes(pml4, 0, 1)` clears it, so only the
lowest byte of its first entry is cleared. -/
def PageTable.allocNew (allocator : LawfulAllocator σ) : Attempt σ PageTable := fun machine =>
  match allocated : allocator.allocPage machine with
  | .error nothing after => .error nothing after
  | .ok pml4 after =>
      have usable : UsablePage pml4 := (allocator.alloc_some allocated).2.2.1
      .ok
        { pml4Phys := sub64 pml4 directMappingOffset
          readonly := false
          aligned := (valid_base_of_page usable).aligned
          inDirectMapping := by
            obtain ⟨-, low, high⟩ := usable
            rw [sub64_of_le low]
            omega }
        (after.setEntry pml4 0 (after.mem pml4 0 &&& not64 0xFF))

def Shared (idx : Fin 512) : Prop := 256 ≤ idx.val ∧ idx.val < 384

instance : DecidablePred Shared := fun _ => inferInstanceAs (Decidable (_ ∧ _))

def PageTable.mapGlobalHigherHalf (self kernel : PageTable) : Attempt σ Unit :=
  if self.readonly then
    pure ()
  else
    modify fun machine => machine.store self.pml4 fun idx =>
      if Shared idx then machine.mem kernel.pml4 idx else machine.mem self.pml4 idx

def ownTables (root : Nat) (machine : Machine σ) : Nat → Set Nat
  | 0 => {root}
  | level + 1 => {table | ∃ upper ∈ ownTables root machine level, ∃ idx : Fin 512,
      (level = 0 → idx.val < 256) ∧ descend level (machine.mem upper idx) = some table}

/-- The pages of `kept` are as in `base`, and so is the upper half of the PML4. The
tables of the process are other pages, each at one level. -/
structure Isolated (allocator : LawfulAllocator σ) (root : Nat) (kept : Set Nat)
    (base machine : Machine σ) : Prop where
  held : kept ⊆ allocator.held machine
  same : ∀ page ∈ kept, machine.mem page = base.mem page
  upper : ∀ idx : Fin 512, 256 ≤ idx.val → machine.mem root idx = base.mem root idx
  own : ∀ level, ∀ table ∈ ownTables root machine level,
    table ∈ allocator.held machine ∧ table ∉ kept
  levelled : ∀ left right table, table ∈ ownTables root machine left →
    table ∈ ownTables root machine right → left = right

variable {allocator : LawfulAllocator σ} {root : Nat} {kept : Set Nat} {base machine : Machine σ}

theorem own_tables_congr {after : Machine σ}
    (same : ∀ level, ∀ table ∈ ownTables root machine level, after.mem table = machine.mem table)
    (level : Nat) : ownTables root after level = ownTables root machine level := by
  induction level with
  | zero => rfl
  | succ level ih =>
      ext table
      constructor
      · rintro ⟨upper, owned, idx, lower, points⟩
        rw [ih] at owned
        rw [same level upper owned] at points
        exact ⟨upper, owned, idx, lower, points⟩
      · rintro ⟨upper, owned, idx, lower, points⟩
        rw [← same level upper owned] at points
        exact ⟨upper, ih ▸ owned, idx, lower, points⟩

/-- A step that leaves `kept` and the tables of the process alone. -/
theorem isolated_congr {after : Machine σ} (isolated : Isolated allocator root kept base machine)
    (grows : allocator.held machine ⊆ allocator.held after)
    (same : ∀ page, page ∈ kept ∨ (∃ level, page ∈ ownTables root machine level) →
      after.mem page = machine.mem page) :
    Isolated allocator root kept base after ∧
      ∀ level, ownTables root after level = ownTables root machine level := by
  have tables := own_tables_congr fun level table owned => same table (Or.inr ⟨level, owned⟩)
  refine ⟨⟨isolated.held.trans grows, ?_, ?_, ?_, ?_⟩, tables⟩
  · intro page member
    rw [same page (Or.inl member), isolated.same page member]
  · intro idx high
    rw [same root (Or.inr ⟨0, rfl⟩), isolated.upper idx high]
  · intro level table owned
    rw [tables] at owned
    exact ⟨grows (isolated.own level table owned).1, (isolated.own level table owned).2⟩
  · intro left right table onLeft onRight
    rw [tables] at onLeft onRight
    exact isolated.levelled left right table onLeft onRight

theorem isolated_held (isolated : Isolated allocator root kept base machine) {page : Nat}
    (inside : page ∈ kept ∨ ∃ level, page ∈ ownTables root machine level) :
    page ∈ allocator.held machine := by
  rcases inside with member | ⟨level, owned⟩
  · exact isolated.held member
  · exact (isolated.own level page owned).1

theorem isolated_alloc {after : Machine σ} {ptr : Nat}
    (isolated : Isolated allocator root kept base machine)
    (allocated : allocator.allocPage machine = .ok ptr after) :
    Isolated allocator root kept base after ∧ ptr ∈ allocator.held after ∧ ptr ∉ kept ∧
      (∀ level, ptr ∉ ownTables root after level) ∧
      ∀ level, ownTables root after level = ownTables root machine level := by
  obtain ⟨fresh, held, -, frame⟩ := allocator.alloc_some allocated
  have grows : allocator.held machine ⊆ allocator.held after := by
    rw [held]
    exact Set.subset_insert _ _
  obtain ⟨stays, tables⟩ := isolated_congr isolated grows fun page inside =>
    frame page (isolated_held isolated inside)
  refine ⟨stays, by rw [held]; exact Set.mem_insert _ _, fun member => fresh (isolated.held member),
    fun level owned => ?_, tables⟩
  rw [tables] at owned
  exact fresh (isolated.own level ptr owned).1

theorem isolated_alloc_error {after : Machine σ}
    (isolated : Isolated allocator root kept base machine)
    (failed : allocator.allocPage machine = .error () after) :
    Isolated allocator root kept base after := by
  obtain ⟨held, frame⟩ := allocator.alloc_none failed
  exact (isolated_congr isolated held.symm.subset fun page inside =>
    frame page (isolated_held isolated inside)).1

theorem held_store {page : Nat} (owned : page ∈ allocator.held machine) (words : Table) :
    allocator.held (machine.store page words) = allocator.held machine := by
  apply allocator.store_held (by rfl)
  intro other outside
  have different : other ≠ page := fun same => outside (same ▸ owned)
  exact machine.store_other words different

theorem isolated_store {page : Nat} (isolated : Isolated allocator root kept base machine)
    (owned : page ∈ allocator.held machine) (outside : page ∉ kept)
    (unlinked : ∀ level, page ∉ ownTables root machine level) (words : Table) :
    Isolated allocator root kept base (machine.store page words) ∧
      ∀ level, ownTables root (machine.store page words) level = ownTables root machine level := by
  apply isolated_congr isolated (held_store owned words).symm.subset
  intro other inside
  apply machine.store_other
  rintro rfl
  rcases inside with member | ⟨level, table⟩
  · exact outside member
  · exact unlinked level table

section Write

variable {level table word : Nat} {idx : Fin 512}

def Links (allocator : LawfulAllocator σ) (root : Nat) (kept : Set Nat) (machine : Machine σ)
    (level word : Nat) : Prop :=
  ∀ fresh, descend level word = some fresh →
    fresh ∈ allocator.held machine ∧ fresh ∉ kept ∧
      (∀ other, fresh ∉ ownTables root machine other) ∧
      ∀ lower place, descend lower (machine.mem fresh place) = none

theorem own_tables_write (isolated : Isolated allocator root kept base machine)
    (owned : table ∈ ownTables root machine level)
    (links : Links allocator root kept machine level word) (other : Nat) :
    ∀ found ∈ ownTables root (machine.setEntry table idx word) other,
      found ∈ ownTables root machine other ∨ descend level word = some found ∧
        other = level + 1 := by
  induction other with
  | zero => exact fun found owned => Or.inl owned
  | succ other ih =>
      rintro found ⟨upper, reached, place, lower, points⟩
      rw [Machine.mem_set_entry] at points
      rcases ih upper reached with before | ⟨linked, here⟩
      · by_cases written : upper = table ∧ place = idx
        · obtain ⟨rfl, rfl⟩ := written
          have same := isolated.levelled other level upper before owned
          subst same
          rw [set_entry_self] at points
          exact Or.inr ⟨points, rfl⟩
        · rw [set_entry_other _ (not_and_or.mp written)] at points
          exact Or.inl ⟨upper, before, place, lower, points⟩
      · obtain ⟨-, -, unlinked, blank⟩ := links upper linked
        have apart : upper ≠ table := by
          rintro rfl
          exact unlinked level owned
        rw [set_entry_other _ (Or.inl apart), blank] at points
        exact absurd points (by simp)

theorem own_tables_above_write (isolated : Isolated allocator root kept base machine)
    (owned : table ∈ ownTables root machine level) {other found : Nat} (above : other ≤ level)
    (reached : found ∈ ownTables root machine other) :
    found ∈ ownTables root (machine.setEntry table idx word) other := by
  induction other generalizing found with
  | zero => exact reached
  | succ other ih =>
      obtain ⟨upper, before, place, lower, points⟩ := reached
      have apart : upper ≠ table := by
        rintro rfl
        have same := isolated.levelled other level upper before owned
        omega
      refine ⟨upper, ih (by omega) before, place, lower, ?_⟩
      rw [Machine.mem_set_entry, set_entry_other _ (Or.inl apart)]
      exact points

theorem isolated_write (isolated : Isolated allocator root kept base machine)
    (owned : table ∈ ownTables root machine level) (lower : level = 0 → idx.val < 256)
    (links : Links allocator root kept machine level word) :
    Isolated allocator root kept base (machine.setEntry table idx word) := by
  obtain ⟨ownedTable, outside⟩ := isolated.own level table owned
  have heldAfter : allocator.held (machine.setEntry table idx word) = allocator.held machine :=
    held_set_entry ownedTable word
  have reach : ∀ other, ∀ found ∈ ownTables root (machine.setEntry table idx word) other, _ :=
    own_tables_write isolated owned links
  refine ⟨heldAfter ▸ isolated.held, ?_, ?_, ?_, ?_⟩
  · intro page member
    have apart : page ≠ table := fun same => outside (same ▸ member)
    rw [← isolated.same page member]
    exact Function.update_of_ne apart _ _
  · intro place high
    rw [← isolated.upper place high, Machine.mem_set_entry]
    apply set_entry_other
    by_cases top : root = table
    · have atTop : level = 0 := isolated.levelled level 0 table owned top.symm
      right
      rintro rfl
      exact absurd (lower atTop) (by omega)
    · exact Or.inl top
  · intro other found reached
    rw [heldAfter]
    rcases reach other found reached with before | ⟨linked, -⟩
    · exact isolated.own other found before
    · exact ⟨(links found linked).1, (links found linked).2.1⟩
  · intro left right found onLeft onRight
    rcases reach left found onLeft with leftBefore | ⟨linked, leftNew⟩
    · rcases reach right found onRight with rightBefore | ⟨linked, -⟩
      · exact isolated.levelled left right found leftBefore rightBefore
      · exact absurd leftBefore ((links found linked).2.2.1 left)
    · rcases reach right found onRight with rightBefore | ⟨-, rightNew⟩
      · exact absurd rightBefore ((links found linked).2.2.1 right)
      · rw [leftNew, rightNew]

end Write

theorem follow_entry_isolated {level table : Nat} {idx : Fin 512}
    (isolated : Isolated allocator root kept base machine) (upper : level ≤ 2)
    (owned : table ∈ ownTables root machine level) (lower : level = 0 → idx.val < 256)
    (present : machine.mem table idx &&& pagePresent ≠ 0) :
    Yields (fun next after => Isolated allocator root kept base after ∧
        next ∈ ownTables root after (level + 1)) (Isolated allocator root kept base)
      (followEntry table idx (disallowedAt level) machine) := by
  rw [followEntry, state_bind_ok (by rfl : readEntry table idx machine = _)]
  split_ifs with refused
  · exact .error isolated
  · refine .ok ⟨isolated, table, owned, idx, lower, ?_⟩
    have points : ¬(machine.mem table idx &&& pagePresent = 0 ∨ 2 < level ∨
        level = 2 ∧ machine.mem table idx &&& pageHuge ≠ 0) := by
      rintro (absent | deep | ⟨last, huge⟩)
      · exact present absent
      · omega
      · rw [disallowedAt, if_pos last] at refused
        exact refused huge
    rw [descend, if_neg points]

theorem get_table_isolated {level table subFlags : Nat} {idx : Fin 512}
    (isolated : Isolated allocator root kept base machine) (upper : level ≤ 2)
    (owned : table ∈ ownTables root machine level) (lower : level = 0 → idx.val < 256)
    (flags : ValidFlags subFlags) :
    Yields (fun next after => Isolated allocator root kept base after ∧
        next ∈ ownTables root after (level + 1)) (Isolated allocator root kept base)
      (getTable true allocator.toPageAllocator table idx subFlags (disallowedAt level)
        machine) := by
  apply get_table_rule
  · intro _ after allocated
    exact .error (isolated_alloc_error isolated allocated)
  · intro _ ptr after allocated
    obtain ⟨stays, held, outside, unlinked, tables⟩ := isolated_alloc isolated allocated
    obtain ⟨-, -, usable, -⟩ := allocator.alloc_some allocated
    obtain ⟨cleared, clearedTables⟩ := isolated_store stays held outside unlinked fun _ => 0
    have clearedOwned : table ∈ ownTables root (after.clear ptr) level := by
      change table ∈ ownTables root (after.store ptr fun _ => 0) level
      rw [clearedTables, tables]
      exact owned
    have points : descend level (sub64 ptr directMappingOffset ||| subFlags) = some ptr :=
      page_link_points usable flags upper
    have links : Links allocator root kept (after.clear ptr) level
        (sub64 ptr directMappingOffset ||| subFlags) := by
      intro fresh linked
      obtain rfl : ptr = fresh := Option.some.inj (points.symm.trans linked)
      refine ⟨(held_store held _).symm.subset held, outside, fun other owned => ?_, ?_⟩
      · exact unlinked other (clearedTables other ▸ owned)
      · intro below place
        change descend below ((after.store ptr fun _ => 0).mem ptr place) = none
        rw [Machine.store_self]
        exact (zero_is_blank below).1
    have linkedState := isolated_write cleared clearedOwned lower links
    refine follow_entry_isolated linkedState upper ?_ lower (linked_present usable flags)
    exact own_tables_above_write cleared clearedOwned (Nat.le_refl level) clearedOwned
  · intro present
    exact follow_entry_isolated isolated upper owned lower present

theorem get_table_bind {Result : Type} {level table subFlags disallowedFlags : Nat} {idx : Fin 512}
    {rest : Nat → Attempt σ Result} {final : Result → Machine σ → Prop}
    (isolated : Isolated allocator root kept base machine) (upper : level ≤ 2)
    (owned : table ∈ ownTables root machine level) (lower : level = 0 → idx.val < 256)
    (refuses : disallowedAt level = disallowedFlags) (flags : ValidFlags subFlags)
    (continues : ∀ next after, Isolated allocator root kept base after →
      next ∈ ownTables root after (level + 1) →
      Yields final (Isolated allocator root kept base) (rest next after)) :
    Yields final (Isolated allocator root kept base)
      ((getTable true allocator.toPageAllocator table idx subFlags disallowedFlags >>= rest)
        machine) := by
  subst refuses
  exact yields_bind (get_table_isolated isolated upper owned lower flags) fun next after reached =>
    continues next after reached.1 reached.2

theorem lower_half_index {virt : Nat} (lower : virt < 0x0000_8000_0000_0000) :
    (index virt 39).val < 256 := by
  change virt >>> 39 &&& 0x1FF < 256
  have below : virt >>> 39 < 256 := by
    rw [Nat.shiftRight_eq_div_pow]
    omega
  exact Nat.and_le_left.trans_lt below

theorem map4kb_isolated {self : PageTable} {virt : Nat} (lower : virt < 0x0000_8000_0000_0000)
    (phys flags : Nat) (isolated : Isolated allocator self.pml4 kept base machine) :
    Isolated allocator self.pml4 kept base
      (stateAfter (self.map4kb allocator.toPageAllocator virt phys flags machine)) := by
  apply yields_state
  have subFlags := sub_flags_valid virt
  have index := lower_half_index lower
  rw [PageTable.map4kb]
  split_ifs with readonly
  · exact .error isolated
  · dsimp only [splitVirtAddr]
    apply get_table_bind isolated (Nat.zero_le 2) rfl (fun _ => index) rfl subFlags
    intro pdpt first isolatedFirst ownedPdpt
    apply get_table_bind isolatedFirst (Nat.le_succ 1) ownedPdpt (by simp) rfl subFlags
    intro pd second isolatedSecond ownedPd
    apply get_table_bind isolatedSecond (Nat.le_refl 2) ownedPd (by simp) rfl subFlags
    intro pt third isolatedThird ownedPt
    refine .ok (isolated_write isolatedThird ownedPt (by simp) ?_)
    intro fresh points
    exact absurd points (by simp [descend])

/-- The page that the allocator hands out next holds no word in the lower half of a
PML4 that looks like an entry. The first entry loses its lowest byte in any case. -/
def BlankPml4 (allocator : LawfulAllocator σ) (machine : Machine σ) : Prop :=
  ∀ pml4 after, allocator.allocPage machine = .ok pml4 after →
    ∀ idx : Fin 512, 0 < idx.val → idx.val < 256 → after.mem pml4 idx &&& pagePresent = 0

theorem blank_isolated (held : root ∈ allocator.held machine) (outside : root ∉ kept)
    (owned : kept ⊆ allocator.held machine)
    (blank : ∀ idx : Fin 512, idx.val < 256 → machine.mem root idx &&& pagePresent = 0) :
    Isolated allocator root kept machine machine := by
  have none : ∀ level table, table ∉ ownTables root machine (level + 1) := by
    intro level
    induction level with
    | zero =>
        rintro table ⟨upper, rfl, idx, lower, points⟩
        rw [absent_descend (blank idx (lower rfl))] at points
        exact absurd points (by simp)
    | succ level ih =>
        rintro table ⟨upper, reached, -⟩
        exact ih upper reached
  refine ⟨owned, fun _ _ => rfl, fun _ _ => rfl, ?_, ?_⟩
  · intro level table reached
    cases level with
    | zero =>
        obtain rfl : table = root := reached
        exact ⟨held, outside⟩
    | succ level => exact absurd reached (none level table)
  · intro left right table onLeft onRight
    cases left with
    | zero =>
        cases right with
        | zero => rfl
        | succ right => exact absurd onRight (none right table)
    | succ left => exact absurd onLeft (none left table)

theorem alloc_new_ok {self : PageTable} {after : Machine σ}
    (created : PageTable.allocNew allocator machine = .ok self after) :
    self.readonly = false ∧ ∃ between, allocator.allocPage machine = .ok self.pml4 between ∧
      after = between.setEntry self.pml4 0 (between.mem self.pml4 0 &&& not64 0xFF) := by
  unfold PageTable.allocNew at created
  split at created
  · exact absurd created (by simp)
  · rename_i pml4 between allocated
    obtain ⟨-, low, high⟩ := (allocator.alloc_some allocated).2.2.1
    rw [EStateM.Result.ok.injEq] at created
    obtain ⟨rfl, rfl⟩ := created
    have address : add64 (sub64 pml4 directMappingOffset) directMappingOffset = pml4 := by
      rw [sub64_of_le low, add64_of_lt (by omega), Nat.sub_add_cancel low]
    refine ⟨rfl, between, ?_, ?_⟩
    · rw [PageTable.pml4, address]
      exact allocated
    · rw [PageTable.pml4, address]

theorem map_global_higher_half_state {self : PageTable} (kernel : PageTable)
    (writable : self.readonly = false) (before : Machine σ) :
    stateAfter (self.mapGlobalHigherHalf kernel before) = before.store self.pml4 fun idx =>
      if Shared idx then before.mem kernel.pml4 idx else before.mem self.pml4 idx := by
  rw [PageTable.mapGlobalHigherHalf, writable]
  rfl

theorem new_space_held {kernel self : PageTable} {after : Machine σ}
    (allocated : PageTable.allocNew allocator machine = .ok self after) :
    allocator.held (stateAfter (self.mapGlobalHigherHalf kernel after)) =
      insert self.pml4 (allocator.held machine) := by
  obtain ⟨writable, between, taken, reset⟩ := alloc_new_ok allocated
  obtain ⟨-, held, -, -⟩ := allocator.alloc_some taken
  rw [map_global_higher_half_state kernel writable after, ← held]
  apply allocator.store_held
  · rw [Machine.store_alloc, reset, Machine.set_entry_alloc]
  · intro page notHeld
    have other : page ≠ self.pml4 := by
      intro same
      rw [same, held] at notHeld
      exact notHeld (Set.mem_insert _ _)
    rw [Machine.store_other _ _ other, reset, Machine.mem_set_entry, setEntry,
      Function.update_of_ne other]

theorem new_pml4_blank {kernel self : PageTable} {after : Machine σ}
    (allocated : PageTable.allocNew allocator machine = .ok self after)
    (blank : BlankPml4 allocator machine) :
    let shared := stateAfter (self.mapGlobalHigherHalf kernel after)
    allocator.held shared = insert self.pml4 (allocator.held machine) ∧
      ∀ idx : Fin 512, idx.val < 256 → shared.mem self.pml4 idx &&& pagePresent = 0 := by
  intro shared
  obtain ⟨writable, between, taken, reset⟩ := alloc_new_ok allocated
  have sharedState : shared = after.store self.pml4 _ :=
    map_global_higher_half_state kernel writable after
  refine ⟨new_space_held allocated, ?_⟩
  intro idx lower
  have private_ : ¬Shared idx := fun inside => absurd inside.1 (by omega)
  rw [sharedState, Machine.store_self, if_neg private_, reset, Machine.mem_set_entry]
  by_cases first : idx = 0
  · have cleared : not64 0xFF &&& pagePresent = 0 := by decide
    rw [first, set_entry_self, Nat.and_assoc, cleared, Nat.and_zero]
  · rw [set_entry_other _ (Or.inr first)]
    exact blank _ _ taken idx (Nat.pos_of_ne_zero fun zero => first (Fin.ext zero)) lower

theorem new_address_space_isolated {kernel self : PageTable} {after : Machine σ}
    (owned : kept ⊆ allocator.held machine) (shares : kernel.pml4 ∈ kept)
    (allocated : PageTable.allocNew allocator machine = .ok self after) :
    let shared := stateAfter (self.mapGlobalHigherHalf kernel after)
    (∀ page ∈ kept, shared.mem page = machine.mem page) ∧
      (∀ idx, Shared idx → shared.mem self.pml4 idx = machine.mem kernel.pml4 idx) ∧
      (BlankPml4 allocator machine → Isolated allocator self.pml4 kept shared shared) := by
  intro shared
  obtain ⟨writable, between, taken, reset⟩ := alloc_new_ok allocated
  obtain ⟨fresh, -, -, frame⟩ := allocator.alloc_some taken
  have outside : self.pml4 ∉ kept := fun member => fresh (owned member)
  have apart : kernel.pml4 ≠ self.pml4 := fun same => outside (same ▸ shares)
  have sharedState : shared = after.store self.pml4 _ :=
    map_global_higher_half_state kernel writable after
  have afterElsewhere : ∀ page, page ≠ self.pml4 → after.mem page = between.mem page := by
    intro page other
    rw [reset, Machine.mem_set_entry, setEntry, Function.update_of_ne other]
  refine ⟨?_, ?_, ?_⟩
  · intro page member
    have other : page ≠ self.pml4 := fun same => outside (same ▸ member)
    rw [sharedState, Machine.store_other _ _ other, afterElsewhere page other,
      frame page (owned member)]
  · intro idx inside
    rw [sharedState, Machine.store_self, if_pos inside, afterElsewhere _ apart,
      frame _ (owned shares)]
  · intro blank
    obtain ⟨held, blankLower⟩ : allocator.held shared = _ ∧ _ :=
      new_pml4_blank allocated blank
    apply blank_isolated
    · rw [held]
      exact Set.mem_insert _ _
    · exact outside
    · rw [held]
      exact owned.trans (Set.subset_insert _ _)
    · exact blankLower

end Campix.Paging
