import Mathlib.Data.List.Nodup

/-!
# The descriptors of a process

`FileTable` of `process/io/file_table.rs` and its first entries from `context.rs`. The
file system behind an entry is known by its number.
-/

namespace Campix.Process

set_option autoImplicit false

def maxFiles : Nat := 4096

structure Fd where
  fs : Nat
  handle : Nat
  deriving DecidableEq

/-- The stack of available descriptors has its top first. -/
structure FileTable where
  files : List (Option Fd)
  maxAllocatedFd : Nat
  availableFds : List Nat

namespace FileTable

def new : FileTable where
  files := List.replicate maxFiles none
  maxAllocatedFd := 0
  availableFds := []

def allocFd (self : FileTable) : Option (Nat × FileTable) :=
  match self.availableFds with
  | fd :: rest => some (fd, { self with availableFds := rest })
  | [] =>
      if self.maxAllocatedFd < maxFiles then
        some (self.maxAllocatedFd, { self with maxAllocatedFd := self.maxAllocatedFd + 1 })
      else
        none

def getFd (self : FileTable) (idx : Nat) : Option (Option Fd) := self.files[idx]?

/-- The assignment through the reference that `alloc_fd` and `get_fd` return. -/
def setFd (self : FileTable) (idx : Nat) (file : Fd) : FileTable :=
  { self with files := self.files.set idx (some file) }

def freeFd (self : FileTable) (idx : Nat) : Option Fd × FileTable :=
  if idx ≥ self.files.length then
    (none, self)
  else
    ((self.getFd idx).join,
      { self with
        availableFds := idx :: self.availableFds
        files := self.files.set idx none })

def allocFdsLoop : Nat → FileTable → List Nat → Option (List Nat) × FileTable
  | 0, self, fds => (some fds, self)
  | count + 1, self, fds =>
      match self.allocFd with
      | some (fd, self) => allocFdsLoop count self (fds ++ [fd])
      | none => (none, fds.foldl (fun table idx => (table.freeFd idx).2) self)

def allocFds (self : FileTable) (count : Nat) : Option (List Nat) × FileTable :=
  allocFdsLoop count self []

def newWithStdio (stdin stdout stderr : Fd) : FileTable :=
  ((({ new with maxAllocatedFd := 3 }.setFd 0 stdin).setFd 1 stdout).setFd 2 stderr)

def fileAt (self : FileTable) (fd : Nat) : Option Fd := (self.getFd fd).join

/-- The descriptors that can still be handed out. -/
def Vacant (self : FileTable) (fd : Nat) : Prop :=
  fd ∈ self.availableFds ∨ self.maxAllocatedFd ≤ fd

def room (self : FileTable) : Nat := self.availableFds.length + (maxFiles - self.maxAllocatedFd)

structure Orderly (table : FileTable) : Prop where
  nodup : table.availableFds.Nodup
  below : ∀ fd ∈ table.availableFds, fd < table.maxAllocatedFd
  empty : ∀ fd, table.Vacant fd → table.fileAt fd = none

variable {self after : FileTable} {fd other : Nat} {file : Fd}

theorem file_at_of_get (found : self.getFd fd = some (some file)) : self.fileAt fd = some file := by
  rw [fileAt, found]
  rfl

theorem get_of_file_at (found : self.fileAt fd = some file) : self.getFd fd = some (some file) :=
  Option.join_eq_some_iff.mp found

theorem file_at_set (other : Nat) :
    (self.setFd fd file).fileAt other =
      if other = fd ∧ fd < self.files.length then some file else self.fileAt other := by
  unfold fileAt getFd setFd
  simp only [List.getElem?_set]
  by_cases same : fd = other
  · subst same
    by_cases inside : fd < self.files.length
    · rw [if_pos rfl, if_pos inside, if_pos ⟨rfl, inside⟩]
      rfl
    · rw [if_pos rfl, if_neg inside, if_neg (fun both => inside both.2),
        List.getElem?_eq_none (by omega)]
  · rw [if_neg same, if_neg (fun both => same both.1.symm)]

theorem file_at_free (other : Nat) :
    (self.freeFd fd).2.fileAt other = if other = fd then none else self.fileAt other := by
  unfold freeFd
  by_cases outside : fd ≥ self.files.length
  · rw [if_pos outside]
    by_cases same : other = fd
    · rw [if_pos same, same, fileAt, getFd, List.getElem?_eq_none outside]
      rfl
    · rw [if_neg same]
  · rw [if_neg outside]
    unfold fileAt getFd
    simp only [List.getElem?_set]
    by_cases same : fd = other
    · rw [if_pos same, if_pos (by omega), if_pos same.symm]
      rfl
    · rw [if_neg same, if_neg (Ne.symm same)]

theorem alloc_fd_vacant (given : self.allocFd = some (fd, after)) (vacant : after.Vacant other) :
    self.Vacant other := by
  obtain ⟨files, highest, available⟩ := self
  unfold allocFd at given
  cases available with
  | cons top rest =>
      obtain ⟨rfl, rfl⟩ := Prod.mk.inj (Option.some.inj given)
      rcases vacant with member | above
      · exact Or.inl (List.mem_cons_of_mem _ member)
      · exact Or.inr above
  | nil =>
      simp only at given
      by_cases more : highest < maxFiles
      · rw [if_pos more] at given
        obtain ⟨rfl, rfl⟩ := Prod.mk.inj (Option.some.inj given)
        rcases vacant with member | above
        · exact Or.inl member
        · exact Or.inr (Nat.le_of_succ_le above)
      · rw [if_neg more] at given
        exact absurd given (by simp)

/-- What `alloc_fd` hands out was empty and is no longer vacant. -/
theorem alloc_fd_spec (orderly : self.Orderly) (given : self.allocFd = some (fd, after)) :
    after.Orderly ∧ after.files = self.files ∧ self.Vacant fd ∧ ¬after.Vacant fd ∧
      after.room + 1 = self.room := by
  have still : ∀ other, after.Vacant other → self.fileAt other = none :=
    fun other vacant => orderly.empty other (alloc_fd_vacant given vacant)
  obtain ⟨files, highest, available⟩ := self
  unfold allocFd at given
  cases available with
  | cons top rest =>
      obtain ⟨rfl, rfl⟩ := Prod.mk.inj (Option.some.inj given)
      have nodup := List.nodup_cons.mp orderly.nodup
      refine ⟨⟨nodup.2, ?_, still⟩, rfl, Or.inl List.mem_cons_self, ?_, ?_⟩
      · intro fd member
        exact orderly.below fd (List.mem_cons_of_mem _ member)
      · rintro (member | above)
        · exact nodup.1 member
        · exact absurd (orderly.below top List.mem_cons_self) (Nat.not_lt.mpr above)
      · simp only [room, List.length_cons]
        omega
  | nil =>
      simp only at given
      by_cases more : highest < maxFiles
      · rw [if_pos more] at given
        obtain ⟨rfl, rfl⟩ := Prod.mk.inj (Option.some.inj given)
        refine ⟨⟨orderly.nodup, ?_, still⟩, rfl, Or.inr (Nat.le_refl _), ?_, ?_⟩
        · intro fd member
          exact Nat.lt_succ_of_lt (orderly.below fd member)
        · rintro (member | above)
          · exact absurd (orderly.below _ member) (Nat.lt_irrefl _)
          · exact absurd above (Nat.not_succ_le_self _)
        · simp only [room, List.length_nil]
          omega
      · rw [if_neg more] at given
        exact absurd given (by simp)

theorem alloc_fd_room (given : self.allocFd = some (fd, after)) : after.room + 1 = self.room := by
  obtain ⟨files, highest, available⟩ := self
  unfold allocFd at given
  cases available with
  | cons top rest =>
      obtain ⟨rfl, rfl⟩ := Prod.mk.inj (Option.some.inj given)
      simp only [room, List.length_cons]
      omega
  | nil =>
      dsimp only at given
      split_ifs at given with more
      obtain ⟨rfl, rfl⟩ := Prod.mk.inj (Option.some.inj given)
      simp only [room, List.length_nil]
      omega

theorem alloc_fd_none_iff : self.allocFd = none ↔ self.room = 0 := by
  unfold allocFd room
  cases self.availableFds with
  | cons top rest =>
      constructor
      · exact fun given => absurd given (by simp)
      · intro empty
        rw [List.length_cons] at empty
        omega
  | nil =>
      simp only [List.length_nil]
      by_cases more : self.maxAllocatedFd < maxFiles
      · rw [if_pos more]
        constructor
        · exact fun given => absurd given (by simp)
        · omega
      · rw [if_neg more]
        exact ⟨fun _ => by omega, fun _ => rfl⟩

theorem set_fd_orderly (orderly : self.Orderly) (taken : ¬self.Vacant fd) (file : Fd) :
    (self.setFd fd file).Orderly := by
  refine ⟨orderly.nodup, orderly.below, fun other vacant => ?_⟩
  have same : self.Vacant other := vacant
  rw [file_at_set, if_neg]
  · exact orderly.empty other same
  · rintro ⟨rfl, -⟩
    exact taken same

theorem free_fd_orderly (orderly : self.Orderly) (taken : ¬self.Vacant fd) :
    (self.freeFd fd).2.Orderly := by
  have below : fd < self.maxAllocatedFd := by
    by_contra above
    exact taken (Or.inr (Nat.not_lt.mp above))
  refine ⟨?_, ?_, fun other vacant => ?_⟩
  · unfold freeFd
    split_ifs
    · exact orderly.nodup
    · exact List.nodup_cons.mpr ⟨fun member => taken (Or.inl member), orderly.nodup⟩
  · unfold freeFd
    split_ifs
    · exact orderly.below
    · exact List.forall_mem_cons.mpr ⟨below, orderly.below⟩
  · rw [file_at_free]
    by_cases same : other = fd
    · rw [if_pos same]
    · rw [if_neg same]
      apply orderly.empty
      unfold freeFd at vacant
      split_ifs at vacant
      · exact vacant
      · rcases vacant with member | above
        · exact Or.inl ((List.mem_cons.mp member).resolve_left same)
        · exact Or.inr above

theorem free_fd_vacant (vacant : (self.freeFd fd).2.Vacant other) :
    other = fd ∨ self.Vacant other := by
  unfold freeFd at vacant
  split_ifs at vacant
  · exact Or.inr vacant
  · rcases vacant with member | above
    · rcases List.mem_cons.mp member with same | member
      · exact Or.inl same
      · exact Or.inr (Or.inl member)
    · exact Or.inr (Or.inr above)

/-- Giving back descriptors that were not used yet changes no entry. -/
theorem free_all_spec {fds : List Nat} (nodup : fds.Nodup) (orderly : self.Orderly)
    (taken : ∀ fd ∈ fds, ¬self.Vacant fd) (unused : ∀ fd ∈ fds, self.fileAt fd = none) :
    (fds.foldl (fun table idx => (table.freeFd idx).2) self).Orderly ∧
      ∀ fd, (fds.foldl (fun table idx => (table.freeFd idx).2) self).fileAt fd = self.fileAt
        fd := by
  induction fds generalizing self with
  | nil => exact ⟨orderly, fun _ => rfl⟩
  | cons fd fds ih =>
      have apart := List.nodup_cons.mp nodup
      have same : ∀ other, (self.freeFd fd).2.fileAt other = self.fileAt other := by
        intro other
        rw [file_at_free]
        by_cases this : other = fd
        · rw [if_pos this, this, unused fd List.mem_cons_self]
        · rw [if_neg this]
      obtain ⟨after, entries⟩ := ih apart.2
        (free_fd_orderly orderly (taken fd List.mem_cons_self)) (by
          intro other member vacant
          rcases free_fd_vacant vacant with rfl | vacant
          · exact apart.1 member
          · exact taken other (List.mem_cons_of_mem _ member) vacant)
        (fun other member => (same other).trans (unused other (List.mem_cons_of_mem _ member)))
      exact ⟨after, fun other => (entries other).trans (same other)⟩

/-- `alloc_fds` hands out all the descriptors it is asked for, or gives back
those it had. -/
theorem alloc_fds_loop_spec (count : Nat) {fds : List Nat} (nodup : fds.Nodup)
    (orderly : self.Orderly) (taken : ∀ fd ∈ fds, ¬self.Vacant fd)
    (unused : ∀ fd ∈ fds, self.fileAt fd = none) :
    (allocFdsLoop count self fds).2.Orderly ∧
      (∀ fd, (allocFdsLoop count self fds).2.fileAt fd = self.fileAt fd) ∧
      ((allocFdsLoop count self fds).1 = none ↔ self.room < count) ∧
      ∀ given, (allocFdsLoop count self fds).1 = some given →
        given.length = fds.length + count ∧
          ∀ fd ∈ given, ¬(allocFdsLoop count self fds).2.Vacant fd ∧ self.fileAt fd = none := by
  induction count generalizing self fds with
  | zero =>
      refine ⟨orderly, fun _ => rfl, iff_of_false (by simp [allocFdsLoop]) (by omega), ?_⟩
      rintro given found
      obtain rfl := Option.some.inj found
      exact ⟨rfl, fun fd member => ⟨taken fd member, unused fd member⟩⟩
  | succ count ih =>
      rw [allocFdsLoop]
      cases next : self.allocFd with
      | none =>
          have full : self.room = 0 := alloc_fd_none_iff.mp next
          obtain ⟨after, entries⟩ := free_all_spec nodup orderly taken unused
          exact ⟨after, entries, iff_of_true rfl (by omega),
            fun given found => absurd found (by simp)⟩
      | some pair =>
          obtain ⟨fd, table⟩ := pair
          obtain ⟨after, files, vacant, gone, room⟩ := alloc_fd_spec orderly next
          have entries : ∀ fd, table.fileAt fd = self.fileAt fd := by
            intro fd
            rw [fileAt, getFd, files]
            rfl
          have kept : ∀ other, ¬self.Vacant other → ¬table.Vacant other := by
            intro other used now
            exact used (alloc_fd_vacant next now)
          have fresh : fd ∉ fds := fun member => taken fd member vacant
          obtain ⟨orderlyAfter, entriesAfter, full, all⟩ :=
            @ih table (fds ++ [fd]) (by
              rw [List.nodup_append]
              refine ⟨nodup, List.nodup_singleton fd, fun left inLeft right inRight same => ?_⟩
              rw [List.mem_singleton] at inRight
              exact fresh (inRight ▸ same ▸ inLeft)) after (by
              intro other member
              rcases List.mem_append.mp member with earlier | this
              · exact kept other (taken other earlier)
              · rw [List.mem_singleton.mp this]
                exact gone) (by
              intro other member
              rw [entries other]
              rcases List.mem_append.mp member with earlier | this
              · exact unused other earlier
              · rw [List.mem_singleton.mp this]
                exact orderly.empty fd vacant)
          refine ⟨orderlyAfter, fun other => (entriesAfter other).trans (entries other), ?_, ?_⟩
          · rw [full]
            omega
          · intro given found
            obtain ⟨length, rest⟩ := all given found
            rw [List.length_append, List.length_singleton] at length
            refine ⟨by omega, fun other member => ?_⟩
            obtain ⟨used, unset⟩ := rest other member
            exact ⟨used, (entries other).symm.trans unset⟩

end FileTable

end Campix.Process
