import Campix.Process.FileTable
import Mathlib.Data.List.Perm.Subperm

/-!
# The numbers of descriptors

`free_fd` takes every number that an entry has, whether it was handed out or not. As long
as only descriptors in use are freed, the ones in use and the returned ones are together
the numbers below the highest one; a number that is freed without being in use is handed
out twice once the table is filled up.
-/

namespace Campix.Process

set_option autoImplicit false

/-- A table with the descriptors that were handed out and not freed since. -/
structure Usage where
  table : FileTable
  inUse : List Nat

inductive FdCall where
  | allocFd
  | allocFds (count : Nat)
  | freeFd (idx : Nat)

namespace Usage

def new : Usage := ⟨FileTable.new, []⟩

def withStdio (stdin stdout stderr : Fd) : Usage :=
    ⟨FileTable.newWithStdio stdin stdout stderr, [0, 1, 2]⟩

def step (usage : Usage) : FdCall → Usage
  | .allocFd =>
      match usage.table.allocFd with
      | some (fd, table) => ⟨table, fd :: usage.inUse⟩
      | none => usage
  | .allocFds count =>
      match usage.table.allocFds count with
      | (some fds, table) => ⟨table, fds ++ usage.inUse⟩
      | (none, table) => ⟨table, usage.inUse⟩
  | .freeFd idx => ⟨(usage.table.freeFd idx).2, usage.inUse.filter fun fd => fd ≠ idx⟩

def run (usage : Usage) (calls : List FdCall) : Usage := calls.foldl step usage

/-- The descriptors in use are different ones below the bound; a failing `alloc_fds` leaves
the free ones as they were, and `alloc_fd` fails only when all are in use. -/
structure Unique (usage : Usage) : Prop where
  nodup : usage.inUse.Nodup
  below : ∀ fd ∈ usage.inUse, fd < maxFiles
  rollback : ∀ count table, usage.table.allocFds count = (none, table) →
    ∀ fd < maxFiles, table.Vacant fd ↔ usage.table.Vacant fd
  full : usage.table.allocFd = none → usage.inUse.length = maxFiles

def Allows (usage : Usage) : FdCall → Prop
  | .allocFd | .allocFds _ => True
  | .freeFd idx => idx ∈ usage.inUse ∨ maxFiles ≤ idx

def Disciplined : Usage → List FdCall → Prop
  | _, [] => True
  | usage, call :: calls => usage.Allows call ∧ Disciplined (usage.step call) calls

/-- Every number below the highest one is in use or was returned, and none is both. -/
structure Counted (usage : Usage) : Prop where
  files : usage.table.files.length = maxFiles
  highest : usage.table.maxAllocatedFd ≤ maxFiles
  split : (usage.inUse ++ usage.table.availableFds).Perm (List.range usage.table.maxAllocatedFd)

variable {usage : Usage} {table after : FileTable} {inUse fds : List Nat} {fd idx count : Nat}

theorem counted_new : new.Counted :=
  ⟨List.length_replicate, Nat.zero_le _, List.Perm.refl _⟩

theorem counted_with_stdio (stdin stdout stderr : Fd) :
    (withStdio stdin stdout stderr).Counted := by
  refine ⟨?_, show 3 ≤ maxFiles by decide, List.Perm.refl _⟩
  simp [withStdio, FileTable.newWithStdio, FileTable.setFd, FileTable.new]

theorem vacant_iff (counted : usage.Counted) : usage.table.Vacant fd ↔ fd ∉ usage.inUse := by
  have members : fd ∈ usage.inUse ++ usage.table.availableFds ↔
      fd < usage.table.maxAllocatedFd := by
    rw [counted.split.mem_iff, List.mem_range]
  have nodup : (usage.inUse ++ usage.table.availableFds).Nodup :=
    counted.split.nodup_iff.mpr List.nodup_range
  rw [List.mem_append] at members
  unfold FileTable.Vacant
  constructor
  · rintro (returned | above) used
    · exact (List.disjoint_of_nodup_append nodup) used returned
    · exact absurd (members.mp (.inl used)) (Nat.not_lt.mpr above)
  · intro unused
    by_contra taken
    rw [not_or, Nat.not_le] at taken
    exact (members.mpr taken.2).elim unused taken.1

theorem counted_alloc_fd (counted : Counted ⟨table, inUse⟩)
    (given : table.allocFd = some (fd, after)) :
    Counted ⟨after, fd :: inUse⟩ := by
  obtain ⟨files, highest, split⟩ := counted
  obtain ⟨entries, top, available⟩ := table
  unfold FileTable.allocFd at given
  cases available with
  | cons first rest =>
      obtain ⟨rfl, rfl⟩ := Prod.mk.inj (Option.some.inj given)
      exact ⟨files, highest, List.perm_middle.symm.trans split⟩
  | nil =>
      dsimp only at given
      split_ifs at given with more
      obtain ⟨rfl, rfl⟩ := Prod.mk.inj (Option.some.inj given)
      refine ⟨files, more, ?_⟩
      change (top :: inUse ++ []).Perm (List.range (top + 1))
      rw [List.range_succ]
      exact (split.cons top).trans (List.perm_append_singleton top _).symm

theorem counted_free_fd (counted : Counted ⟨table, fd :: inUse⟩) :
    Counted ⟨(table.freeFd fd).2, inUse⟩ := by
  obtain ⟨files, highest, split⟩ := counted
  have inside : ¬fd ≥ table.files.length := by
    have below : fd ∈ List.range table.maxAllocatedFd := split.mem_iff.mp List.mem_cons_self
    rw [List.mem_range] at below
    have highest : table.maxAllocatedFd ≤ maxFiles := highest
    have files : table.files.length = maxFiles := files
    omega
  unfold FileTable.freeFd
  rw [if_neg inside]
  exact ⟨by rw [← files]; exact List.length_set, highest, List.perm_middle.trans split⟩

theorem counted_free_all (counted : Counted ⟨table, fds ++ inUse⟩) :
    Counted ⟨fds.foldl (fun table idx => (table.freeFd idx).2) table, inUse⟩ := by
  induction fds generalizing table with
  | nil => exact counted
  | cons fd fds ih => exact ih (counted_free_fd counted)

theorem counted_loop (count : Nat) (counted : Counted ⟨table, fds ++ inUse⟩) :
    (∀ given after, FileTable.allocFdsLoop count table fds = (some given, after) →
        Counted ⟨after, given ++ inUse⟩) ∧
      ∀ after, FileTable.allocFdsLoop count table fds = (none, after) → Counted ⟨after, inUse⟩ := by
  induction count generalizing table fds with
  | zero =>
      constructor
      · intro given after returned
        obtain ⟨same, rfl⟩ := Prod.mk.inj returned
        obtain rfl := Option.some.inj same
        exact counted
      · intro after returned
        exact absurd (Prod.mk.inj returned).1 (by simp)
  | succ count ih =>
      rw [FileTable.allocFdsLoop]
      cases next : table.allocFd with
      | none =>
          constructor
          · intro given after returned
            exact absurd (Prod.mk.inj returned).1 (by simp)
          · intro after returned
            obtain ⟨-, rfl⟩ := Prod.mk.inj returned
            exact counted_free_all counted
      | some pair =>
          obtain ⟨fd, later⟩ := pair
          apply ih
          obtain ⟨files, highest, split⟩ := counted_alloc_fd counted next
          refine ⟨files, highest, List.Perm.trans ?_ split⟩
          apply List.Perm.append_right
          rw [List.append_assoc]
          exact List.perm_middle

theorem free_fd_outside (files : table.files.length = maxFiles) (outside : maxFiles ≤ idx) :
    (table.freeFd idx).2 = table := by
  unfold FileTable.freeFd
  rw [if_pos (by omega)]

theorem filter_unused (unused : idx ∉ inUse) : inUse.filter (fun fd => fd ≠ idx) = inUse := by
  apply List.filter_eq_self.mpr
  intro fd member
  rw [decide_eq_true_eq]
  rintro rfl
  exact unused member

theorem counted_nodup (counted : Counted ⟨table, inUse⟩) : inUse.Nodup :=
  (List.nodup_append.mp (counted.split.nodup_iff.mpr List.nodup_range)).1

theorem counted_below (counted : Counted ⟨table, inUse⟩) :
    ∀ fd ∈ inUse, fd < table.maxAllocatedFd := by
  intro fd member
  exact List.mem_range.mp (counted.split.mem_iff.mp (List.mem_append_left _ member))

/-- The numbers in use and those that can still be handed out are all numbers. -/
theorem counted_room (counted : Counted ⟨table, inUse⟩) : inUse.length + table.room = maxFiles := by
  have length := counted.split.length_eq
  have highest := counted.highest
  rw [List.length_append, List.length_range] at length
  dsimp only at length highest
  unfold FileTable.room
  omega

theorem counted_step (counted : usage.Counted) {call : FdCall} (allowed : usage.Allows call) :
    (usage.step call).Counted := by
  obtain ⟨table, inUse⟩ := usage
  cases call with
  | allocFd =>
      cases given : table.allocFd with
      | none =>
          have same : step ⟨table, inUse⟩ .allocFd = ⟨table, inUse⟩ := by simp only [step, given]
          rw [same]
          exact counted
      | some pair =>
          have next : step ⟨table, inUse⟩ .allocFd = ⟨pair.2, pair.1 :: inUse⟩ := by
            simp only [step, given]
          rw [next]
          exact counted_alloc_fd counted given
  | allocFds count =>
      obtain ⟨succeeds, fails⟩ := @counted_loop table inUse [] count counted
      cases given : table.allocFds count with
      | mk result after =>
          cases result with
          | none =>
              have next : step ⟨table, inUse⟩ (.allocFds count) = ⟨after, inUse⟩ := by
                simp only [step, given]
              rw [next]
              exact fails after given
          | some fds =>
              have next : step ⟨table, inUse⟩ (.allocFds count) = ⟨after, fds ++ inUse⟩ := by
                simp only [step, given]
              rw [next]
              exact succeeds fds after given
  | freeFd idx =>
      have nodup := counted_nodup counted
      change Counted ⟨(table.freeFd idx).2, inUse.filter fun fd => fd ≠ idx⟩
      rcases allowed with used | outside
      · have rest : Counted ⟨table, idx :: inUse.erase idx⟩ := by
          refine ⟨counted.files, counted.highest, List.Perm.trans ?_ counted.split⟩
          exact (List.perm_cons_erase used).symm.append_right _
        have filtered : inUse.filter (fun fd => fd ≠ idx) = inUse.erase idx := by
          rw [nodup.erase_eq_filter]
          apply List.filter_congr
          intro fd _
          exact decide_not
        rw [filtered]
        exact counted_free_fd rest
      · have unused : idx ∉ inUse := fun used =>
          absurd (Nat.lt_of_lt_of_le (counted_below counted idx used) counted.highest)
            (Nat.not_lt.mpr outside)
        rw [filter_unused unused, free_fd_outside counted.files outside]
        exact counted

theorem unique_of_counted (counted : usage.Counted) : usage.Unique := by
  obtain ⟨table, inUse⟩ := usage
  refine ⟨counted_nodup counted,
    fun fd member => Nat.lt_of_lt_of_le (counted_below counted fd member) counted.highest, ?_, ?_⟩
  · intro count after failed fd _
    obtain ⟨-, fails⟩ := @counted_loop table inUse [] count counted
    have back := fails after failed
    exact (@vacant_iff ⟨after, inUse⟩ fd back).trans (vacant_iff counted).symm
  · intro failed
    have room := counted_room counted
    rw [FileTable.alloc_fd_none_iff.mp failed] at room
    exact room

theorem counted_run {calls : List FdCall} (counted : usage.Counted)
    (disciplined : usage.Disciplined calls) :
    (usage.run calls).Counted := by
  induction calls generalizing usage with
  | nil => exact counted
  | cons call calls ih => exact ih (counted_step counted disciplined.1) disciplined.2

theorem run_allocations (count : Nat) (room : count ≤ table.room) :
    (run ⟨table, inUse⟩ (List.replicate count .allocFd)).inUse.length = inUse.length + count := by
  induction count generalizing table inUse with
  | zero => rfl
  | succ count ih =>
      cases given : table.allocFd with
      | none =>
          have full := FileTable.alloc_fd_none_iff.mp given
          omega
      | some pair =>
          have next : step ⟨table, inUse⟩ .allocFd = ⟨pair.2, pair.1 :: inUse⟩ := by
            simp only [step, given]
          have less : pair.2.room + 1 = table.room := FileTable.alloc_fd_room given
          change (run (step ⟨table, inUse⟩ .allocFd)
            (List.replicate count .allocFd)).inUse.length = _
          rw [next, ih (by omega), List.length_cons]
          omega

/-- After a number was freed that is not in use, filling up the table hands out more
descriptors than there are. -/
theorem stray_free_overfills (counted : Counted ⟨table, inUse⟩)
    (stray : ¬Allows ⟨table, inUse⟩ (.freeFd idx)) :
    ∃ count, ¬Unique (run (step ⟨table, inUse⟩ (.freeFd idx)) (List.replicate count .allocFd)) := by
  have unused : idx ∉ inUse := fun used => stray (.inl used)
  have inside : ¬idx ≥ table.files.length := by
    rw [counted.files]
    exact fun outside => stray (.inr outside)
  have freed : (table.freeFd idx).2.room = table.room + 1 := by
    unfold FileTable.freeFd FileTable.room
    rw [if_neg inside, List.length_cons]
    dsimp only
    omega
  refine ⟨(table.freeFd idx).2.room, fun unique => ?_⟩
  change Unique (run ⟨(table.freeFd idx).2, inUse.filter fun fd => fd ≠ idx⟩ _) at unique
  rw [filter_unused unused] at unique
  have length := @run_allocations (table.freeFd idx).2 inUse _ (Nat.le_refl _)
  have room := counted_room counted
  have few : (run ⟨(table.freeFd idx).2, inUse⟩
      (List.replicate (table.freeFd idx).2.room .allocFd)).inUse.length ≤
      maxFiles := by
    have subset : (run ⟨(table.freeFd idx).2, inUse⟩
        (List.replicate (table.freeFd idx).2.room .allocFd)).inUse ⊆
        List.range maxFiles := fun fd member => List.mem_range.mpr (unique.below fd member)
    have bound := (List.subperm_of_subset unique.nodup subset).length_le
    rwa [List.length_range] at bound
  omega

/-- At every point of the run, whatever is allocated next, the descriptors in use are unique. -/
def StaysUnique (usage : Usage) (calls : List FdCall) : Prop :=
  ∀ before later, calls = before ++ later →
    ∀ count, ((usage.run before).run (List.replicate count .allocFd)).Unique

theorem stays_unique_iff {calls : List FdCall} (counted : usage.Counted) :
    usage.StaysUnique calls ↔ usage.Disciplined calls := by
  constructor
  · intro stays
    induction calls generalizing usage with
    | nil => trivial
    | cons call calls ih =>
        have allowed : usage.Allows call := by
          cases call with
          | allocFd => trivial
          | allocFds count => trivial
          | freeFd idx =>
              by_contra stray
              obtain ⟨count, broken⟩ := stray_free_overfills counted stray
              exact broken (stays [.freeFd idx] calls rfl count)
        refine ⟨allowed, ih (counted_step counted allowed) ?_⟩
        intro before later split count
        exact stays (call :: before) later (by rw [split, List.cons_append]) count
  · intro disciplined before later split count
    apply unique_of_counted
    have allocations : ∀ (count : Nat) (usage : Usage),
        usage.Disciplined (List.replicate count .allocFd) := by
      intro count
      induction count with
      | zero => exact fun _ => trivial
      | succ count ih => exact fun usage => ⟨trivial, ih _⟩
    have first : usage.Disciplined before := by
      clear counted count
      induction before generalizing usage calls with
      | nil => trivial
      | cons call before ih =>
          rw [split] at disciplined
          exact ⟨disciplined.1, ih disciplined.2 rfl⟩
    exact counted_run (counted_run counted first) (allocations count _)

/-- In every run from a new table, or from one with the standard descriptors, the
descriptors in use are unique as long as only descriptors in use, or numbers without an
entry, are freed. After any other free they need not be. -/
theorem descriptors_unique_iff (start : Usage)
    (begins : start = new ∨ ∃ stdin stdout stderr, start = withStdio stdin stdout stderr)
    (calls : List FdCall) :
    start.StaysUnique calls ↔ start.Disciplined calls := by
  have counted : start.Counted := by
    rcases begins with rfl | ⟨stdin, stdout, stderr, rfl⟩
    · exact counted_new
    · exact counted_with_stdio stdin stdout stderr
  exact stays_unique_iff counted

/-- The descriptors of an ordinary session. -/
theorem session_descriptors_unique :
    new.StaysUnique [.allocFds 2, .freeFd 0, .allocFd, .freeFd 9999] := by
  apply (descriptors_unique_iff new (.inl rfl) _).mpr
  have used : new.run [.allocFds 2] = ⟨{ FileTable.new with maxAllocatedFd := 2 }, [0, 1]⟩ := rfl
  refine ⟨trivial, .inl ?_, trivial, .inr (by decide), trivial⟩
  change 0 ∈ (new.run [.allocFds 2]).inUse
  rw [used]
  exact List.mem_cons_self

/-- The first descriptor is freed twice and then handed out twice. -/
theorem double_free_duplicates :
    ¬Unique (new.run [.allocFd, .freeFd 0, .freeFd 0, .allocFd, .allocFd]) ∧
      (new.run [.allocFd, .freeFd 0, .freeFd 0, .allocFd, .allocFd]).inUse = [0, 0] := by
  have twice : (new.run [.allocFd, .freeFd 0, .freeFd 0, .allocFd, .allocFd]).inUse = [0, 0] := by
    decide +kernel
  refine ⟨fun unique => ?_, twice⟩
  have nodup := unique.nodup
  rw [twice] at nodup
  exact absurd nodup (by decide)

end Usage

end Campix.Process
