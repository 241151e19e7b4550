import Campix.Formats.Image
import Campix.Formats.TablesInOrder

/-!
# Page faults in the stacks of a thread

The handler of `exc_e_page_fault.rs`, for the threads of a process made by `create_process`. It
counts the pages from the top of the region in which the fault lies and grows the stack of the
thread until it has as many. The kernel stack begins at the top of its region. The user stack begins
at the end of the lower half, which is not the top of the region that is looked at.
-/

namespace Campix.Process

open Lib.Word Lib.Fallible
open Paging Formats

set_option autoImplicit false

variable {σ : Type}

def codeUser : Nat := 1 <<< 2
def codeReservedWrite : Nat := 1 <<< 3
def codeProtectionKey : Nat := 1 <<< 5
def codeSgx : Nat := 1 <<< 15

def kernelStackFlags : Nat := pagePresent ||| pageRw ||| pageAccessed
def userStackFlags : Nat := pagePresent ||| pageRw ||| pageUser ||| pageAccessed

structure SchedulerThreadSettings where
  maxUserStackPages : Nat
  maxKernelStackPages : Nat

structure Thread where
  kernelStack : ThreadStack
  stack : ThreadStack

structure PageFault where
  faultAddr : Nat
  exceptionErrorCode : Nat
  cs : Nat

/-- The handler returns to the faulting instruction, or the process is killed and another thread is
scheduled. A panic is a failure. The last of the free buffers is the head of the list. -/
inductive Handled where
  | returned (thread : Thread) (freeAllocatedBuffers : List Nat)
  | killed

def growTimes (allocator : LawfulAllocator σ) (pt : PageTable) (flags : Nat) :
    Nat → ThreadStack → Load σ ThreadStack
  | 0, stack => pure stack
  | count + 1, stack => do
      let stack ← stack.grow allocator pt flags
      growTimes allocator pt flags count stack

def newWithPages (allocator : LawfulAllocator σ) (stackTop numPages : Nat) (pt : PageTable)
    (flags : Nat) : Load σ ThreadStack :=
  growTimes allocator pt flags numPages ⟨stackTop, 0, []⟩

def createThread (allocator : LawfulAllocator σ) (pt : PageTable) (mainThreadStack : ThreadStack) :
    Load σ Thread := do
  let kernelStack ← newWithPages allocator procKernelStackTop 1 pt kernelStackFlags
  return { kernelStack, stack := mainThreadStack }

def ensureEnoughAllocatedBuffers (allocator : LawfulAllocator σ) (count : Nat)
    (freeAllocatedBuffers : List Nat) : Load σ (List Nat) := do
  let pushed ← callocPages allocator (count - freeAllocatedBuffers.length)
  return pushed.reverse ++ freeAllocatedBuffers

def PageFault.giveUp (fault : PageFault) : Load σ Handled :=
  if fault.cs &&& 0b11 ≠ 0 then pure .killed else throw .panic

/-- `(top - fault_addr).div_ceil(PAGE_SIZE)`. -/
def PageFault.npages (fault : PageFault) (top : Nat) : Nat :=
  (sub64 top fault.faultAddr + (pageSize - 1)) / pageSize

def growKernelStack (allocator : LawfulAllocator σ) (pt : PageTable) (npages : Nat) :
    ThreadStack → List Nat → Load σ (ThreadStack × List Nat × Bool)
  | kstack, [] => pure (kstack, [], decide (npages ≤ kstack.stackBuffers.length))
  | kstack, buffer :: buffers =>
      if npages > kstack.stackBuffers.length then do
        let kstack ← kstack.growUsingExistingBuffer allocator pt kernelStackFlags buffer
        growKernelStack allocator pt npages kstack buffers
      else
        pure (kstack, buffer :: buffers, true)

def PageFault.inKernelStack (fault : PageFault) (allocator : LawfulAllocator σ) (pt : PageTable)
    (tsettings : SchedulerThreadSettings) (thread : Thread) (freeAllocatedBuffers : List Nat) :
    Load σ Handled :=
  if fault.exceptionErrorCode &&& codeUser = 0 then
    if fault.npages procKernelStackTop > tsettings.maxKernelStackPages then
      throw .panic
    else do
      let (kstack, buffers, fixed) ← growKernelStack allocator pt (fault.npages procKernelStackTop)
        thread.kernelStack freeAllocatedBuffers
      if fixed then
        return .returned { thread with kernelStack := kstack } buffers
      else
        fault.giveUp
  else
    fault.giveUp

def PageFault.inUserStack (fault : PageFault) (allocator : LawfulAllocator σ) (pt : PageTable)
    (tsettings : SchedulerThreadSettings) (thread : Thread) (freeAllocatedBuffers : List Nat) :
    Load σ Handled :=
  if fault.exceptionErrorCode &&& codeUser = codeUser then
    if fault.npages procUserStackTop > tsettings.maxUserStackPages then
      throw .panic
    else do
      let stack ← growTimes allocator pt userStackFlags
        (fault.npages procUserStackTop - thread.stack.stackBuffers.length) thread.stack
      return .returned { thread with stack } freeAllocatedBuffers
  else
    fault.giveUp

def PageFault.handler (fault : PageFault) (allocator : LawfulAllocator σ) (pt : PageTable)
    (tsettings : SchedulerThreadSettings) (runningThread : Option Thread)
    (freeAllocatedBuffers : List Nat) : Load σ Handled :=
  match runningThread with
  | none => throw .panic
  | some thread =>
      if fault.exceptionErrorCode &&& codeReservedWrite ≠ 0 ∨
          fault.exceptionErrorCode &&& codeProtectionKey ≠ 0 ∨
          fault.exceptionErrorCode &&& codeSgx ≠ 0 then
        fault.giveUp
      else
        match getAddressSpace fault.faultAddr with
        | some (.higherHalf .processKernelStack) =>
            fault.inKernelStack allocator pt tsettings thread freeAllocatedBuffers
        | some (.lowerHalf .processStack) =>
            fault.inUserStack allocator pt tsettings thread freeAllocatedBuffers
        | _ => fault.giveUp

section Returns

variable {allocator : LawfulAllocator σ} {pt : PageTable} {tsettings : SchedulerThreadSettings}
variable {fault : PageFault} {thread repaired : Thread} {buffers left : List Nat}
variable {state after : Loading σ}

theorem give_up_not_returned : fault.giveUp state ≠ .ok (.returned repaired left) after := by
  unfold PageFault.giveUp
  split_ifs
  · exact fun returned => by simpa using (EStateM.Result.ok.inj returned).1
  · exact not_returned_of_throw

theorem in_kernel_stack_returned
    (returned : fault.inKernelStack allocator pt tsettings thread buffers state =
      .ok (.returned repaired left) after) :
    ∃ kstack, repaired = { thread with kernelStack := kstack } ∧
      growKernelStack allocator pt (fault.npages procKernelStackTop)
        thread.kernelStack buffers state =
        .ok (kstack, left, true) after := by
  unfold PageFault.inKernelStack at returned
  split_ifs at returned with user limit
  · exact (not_returned_of_throw returned).elim
  · cases grown : growKernelStack allocator pt (fault.npages procKernelStackTop) thread.kernelStack
        buffers state with
    | error failure between =>
        rw [state_bind_error grown] at returned
        exact absurd returned (by simp)
    | ok result between =>
        obtain ⟨kstack, rest, fixed⟩ := result
        rw [state_bind_ok grown] at returned
        cases fixed with
        | false => exact absurd returned give_up_not_returned
        | true =>
            obtain ⟨same, rfl⟩ := EStateM.Result.ok.inj returned
            obtain ⟨rfl, rfl⟩ := Handled.returned.inj same
            exact ⟨kstack, rfl, rfl⟩
  · exact absurd returned give_up_not_returned

theorem in_user_stack_returned
    (returned : fault.inUserStack allocator pt tsettings thread buffers state =
      .ok (.returned repaired left) after) :
    ∃ stack, repaired = { thread with stack } ∧ left = buffers ∧
      growTimes allocator pt userStackFlags
        (fault.npages procUserStackTop - thread.stack.stackBuffers.length) thread.stack state =
        .ok stack after := by
  unfold PageFault.inUserStack at returned
  split_ifs at returned with user limit
  · exact (not_returned_of_throw returned).elim
  · cases grown : growTimes allocator pt userStackFlags
        (fault.npages procUserStackTop - thread.stack.stackBuffers.length) thread.stack state with
    | error failure between =>
        rw [state_bind_error grown] at returned
        exact absurd returned (by simp)
    | ok stack between =>
        rw [state_bind_ok grown] at returned
        obtain ⟨same, rfl⟩ := EStateM.Result.ok.inj returned
        obtain ⟨rfl, rfl⟩ := Handled.returned.inj same
        exact ⟨stack, rfl, rfl, rfl⟩
  · exact absurd returned give_up_not_returned

theorem handler_returned
    (returned : fault.handler allocator pt tsettings (some thread) buffers state =
      .ok (.returned repaired left) after) :
    (getAddressSpace fault.faultAddr = some (.higherHalf .processKernelStack) ∧
      ∃ kstack, repaired = { thread with kernelStack := kstack } ∧
        growKernelStack allocator pt (fault.npages procKernelStackTop)
          thread.kernelStack buffers state =
          .ok (kstack, left, true) after) ∨
    (getAddressSpace fault.faultAddr = some (.lowerHalf .processStack) ∧
      ∃ stack, repaired = { thread with stack } ∧ left = buffers ∧
        growTimes allocator pt userStackFlags
          (fault.npages procUserStackTop - thread.stack.stackBuffers.length) thread.stack state =
          .ok stack after) := by
  unfold PageFault.handler at returned
  dsimp only at returned
  split_ifs at returned with unrecoverable
  · exact absurd returned give_up_not_returned
  · cases space : getAddressSpace fault.faultAddr with
    | none =>
        rw [space] at returned
        exact absurd returned give_up_not_returned
    | some half =>
        rw [space] at returned
        cases half with
        | higherHalf region =>
            cases region with
            | processKernelStack => exact Or.inl ⟨rfl, in_kernel_stack_returned returned⟩
            | _ => exact absurd returned give_up_not_returned
        | lowerHalf region =>
            cases region with
            | processStack => exact Or.inr ⟨rfl, in_user_stack_returned returned⟩
            | _ => exact absurd returned give_up_not_returned

theorem kernel_stack_space {addr : Nat}
    (space : getAddressSpace addr = some (.higherHalf .processKernelStack)) :
    globKernelMmioTop ≤ addr ∧ addr < procKernelStackTop := by
  unfold getAddressSpace at space
  split_ifs at space with higher code stack direct mmio top <;> cases space
  exact ⟨not_lt.mp mmio, top⟩

theorem user_stack_space {addr : Nat}
    (space : getAddressSpace addr = some (.lowerHalf .processStack)) :
    lowerHalfSafeguardEnd ≤ addr ∧ addr < procUserStackTop := by
  unfold getAddressSpace at space
  split_ifs at space with higher code stack direct mmio top lower guarded user <;> cases space
  exact ⟨not_lt.mp guarded, user⟩

end Returns

section Growth

variable {allocator : LawfulAllocator σ} {pt : PageTable}
  {Holds : (List (Fin 512) → Option Nat) → Prop}
variable {top flags : Nat} {state after : Loading σ} {stack grown : ThreadStack}

/-- One more buffer, mapped below the stack if that can be done. -/
theorem grow_in_order (inOrder : InOrder allocator pt.pml4 Holds [] state)
    (allowed : ∀ buffer, Insensitive Holds (stack.pushed buffer).getBottom)
    (returned : stack.grow allocator pt flags state = .ok grown after) :
    InOrder allocator pt.pml4 Holds [] after ∧ ∃ buffer, grown = stack.pushed buffer := by
  rw [ThreadStack.grow] at returned
  have keeps : Preserves allocator pt (Insensitive Holds) (InOrder allocator pt.pml4 Holds) :=
    in_order_preserves
  have settles := calloc_boxed_slice_settles keeps inOrder
  cases taken : callocBoxedSlice allocator state with
  | error failure between =>
      rw [state_bind_error taken] at returned
      exact absurd returned (by simp)
  | ok buffer between =>
      obtain ⟨-, inOrderBetween⟩ := settles_ok settles taken
      rw [state_bind_ok taken, grow_using_existing_buffer_eq] at returned
      obtain ⟨rfl, rfl⟩ := EStateM.Result.ok.inj returned
      exact ⟨in_order_map _ flags inOrderBetween (allowed buffer), buffer, rfl⟩

theorem grow_times_in_order (count : Nat) :
    ∀ {stack : ThreadStack} {state : Loading σ}, InOrder allocator pt.pml4 Holds [] state →
      stack.Sized top →
      (∀ between : ThreadStack, between.Sized top →
        stack.stackBuffers.length ≤ between.stackBuffers.length →
        between.stackBuffers.length < stack.stackBuffers.length + count →
        ∀ buffer, Insensitive Holds (between.pushed buffer).getBottom) →
      growTimes allocator pt flags count stack state = .ok grown after →
      InOrder allocator pt.pml4 Holds [] after ∧ grown.Sized top ∧
        grown.stackBuffers.length = stack.stackBuffers.length + count := by
  induction count with
  | zero =>
      intro stack state inOrder sized _ returned
      obtain ⟨rfl, rfl⟩ := EStateM.Result.ok.inj returned
      exact ⟨inOrder, sized, rfl⟩
  | succ count ih =>
      intro stack state inOrder sized allowed returned
      rw [growTimes] at returned
      cases first : stack.grow allocator pt flags state with
      | error failure between =>
          rw [state_bind_error first] at returned
          exact absurd returned (by simp)
      | ok larger between =>
          rw [state_bind_ok first] at returned
          obtain ⟨inOrderBetween, buffer, rfl⟩ :=
            grow_in_order inOrder (allowed stack sized (Nat.le_refl _) (by omega)) first
          have length := pushed_length stack buffer
          obtain ⟨inOrderAfter, sizedAfter, lengthAfter⟩ :=
            ih inOrderBetween (sized_pushed sized buffer)
            (fun middle sizedMiddle above below => allowed middle sizedMiddle (by omega) (by omega))
              returned
          exact ⟨inOrderAfter, sizedAfter, by omega⟩

theorem grow_kernel_stack_in_order {npages : Nat} {left buffers : List Nat} {fixed : Bool} :
    ∀ {stack : ThreadStack} {state : Loading σ}, Tree allocator pt.pml4 [] state → stack.Sized top →
      growKernelStack allocator pt npages stack buffers state = .ok (grown, left, fixed) after →
      Tree allocator pt.pml4 [] after ∧ grown.Sized top ∧ left ⊆ buffers := by
  induction buffers with
  | nil =>
      intro stack state tree sized returned
      obtain ⟨same, rfl⟩ := EStateM.Result.ok.inj returned
      obtain ⟨rfl, rest⟩ := Prod.mk.inj same
      obtain ⟨rfl, -⟩ := Prod.mk.inj rest
      exact ⟨tree, sized, List.Subset.refl _⟩
  | cons buffer buffers ih =>
      intro stack state tree sized returned
      rw [growKernelStack] at returned
      split_ifs at returned with short
      · rw [state_bind_ok (grow_using_existing_buffer_eq stack kernelStackFlags buffer
          state)] at returned
        obtain ⟨treeAfter, sizedAfter, fewer⟩ := ih
          (in_order_map _ kernelStackFlags tree (insensitive_true _))
            (sized_pushed sized buffer) returned
        exact ⟨treeAfter, sizedAfter, List.Subset.trans fewer (List.subset_cons_self _ _)⟩
      · obtain ⟨same, rfl⟩ := EStateM.Result.ok.inj returned
        obtain ⟨rfl, rest⟩ := Prod.mk.inj same
        obtain ⟨rfl, -⟩ := Prod.mk.inj rest
        exact ⟨tree, sized, List.Subset.refl _⟩

theorem kernel_flags_valid : ValidFlags kernelStackFlags :=
  ⟨by decide, by decide⟩

theorem mapped_page_found {virt buffer addr : Nat} {machine between : Machine σ}
    (intact : Intact allocator pt.pml4 machine) (usable : UsablePage buffer)
    (canonicalVirt : Canonical virt) (canonical : Canonical addr)
    (inside : addr / pageSize = virt / pageSize)
    (mapped : pt.map4kb allocator.toPageAllocator virt (sub64 buffer directMappingOffset)
      kernelStackFlags machine = .ok () between) :
    ∃ phys, lookup (leaves pt.pml4 between) addr = some phys := by
  have grafted : Grafted allocator pt.pml4 machine (smallEntry virt) _ _ :=
    map4kb_grafted intact (valid_base_of_page usable) kernel_flags_valid
  rw [mapped] at grafted
  cases grafted with
  | wrote _ uncovered grafted =>
      refine ⟨sub64 buffer directMappingOffset + addr % pageSize, ?_⟩
      rw [grafted, lookup_graft_small _ canonicalVirt canonical _ uncovered, remap, if_pos inside]
      rfl

/-- The last page that the loop adds is the one with the address. -/
theorem grow_kernel_stack_repairs {npages addr : Nat} {left buffers : List Nat}
    (bound : top < 2 ^ 64) (room : npages * pageSize ≤ top)
    (canonicalVirt : Canonical (top - npages * pageSize)) (canonical : Canonical addr)
    (inside : addr / pageSize = (top - npages * pageSize) / pageSize) :
    ∀ {stack : ThreadStack} {state : Loading σ}, Tree allocator pt.pml4 [] state → stack.Sized top →
      (∀ buffer ∈ buffers, UsablePage buffer) → stack.stackBuffers.length < npages →
      growKernelStack allocator pt npages stack buffers state = .ok (grown, left, true) after →
      grown.stackBuffers.length = npages ∧
        (MapsAll allocator.toPageAllocator pt kernelStackFlags stack
            (buffers.take (npages - stack.stackBuffers.length)) state.machine →
          ∃ phys, lookup (leaves pt.pml4 after.machine) addr = some phys) := by
  induction buffers with
  | nil =>
      intro stack state _ _ _ short returned
      have full := (Prod.mk.inj (Prod.mk.inj (EStateM.Result.ok.inj returned).1).2).2
      exact absurd (of_decide_eq_true full) (by omega)
  | cons buffer buffers ih =>
      intro stack state tree sized usable short returned
      have length := pushed_length stack buffer
      have treeNext := in_order_map (sub64 buffer directMappingOffset) kernelStackFlags tree
        (insensitive_true (stack.pushed buffer).getBottom)
      obtain ⟨more, counted⟩ : ∃ more, npages - stack.stackBuffers.length = more + 1 :=
        ⟨npages - stack.stackBuffers.length - 1, by omega⟩
      have rest : npages - (stack.pushed buffer).stackBuffers.length = more := by omega
      rw [growKernelStack, if_pos short,
        state_bind_ok (grow_using_existing_buffer_eq
          stack kernelStackFlags buffer state)] at returned
      rw [counted, List.take_succ_cons]
      by_cases last : (stack.pushed buffer).stackBuffers.length < npages
      · obtain ⟨lengthAfter, found⟩ := ih treeNext (sized_pushed sized buffer)
          (fun other member => usable other (List.mem_cons_of_mem _ member)) last returned
        refine ⟨lengthAfter, ?_⟩
        rintro ⟨between, mapped, others⟩
        apply found
        rw [rest, mapped]
        exact others
      · -- the loop ends here
        have final : growKernelStack allocator pt npages (stack.pushed buffer) buffers = pure
            (stack.pushed buffer, buffers, true) := by
          cases buffers with
          | nil => rw [growKernelStack, decide_eq_true (not_lt.mp last)]
          | cons next buffers => rw [growKernelStack, if_neg last]
        rw [final] at returned
        obtain ⟨same, rfl⟩ := EStateM.Result.ok.inj returned
        obtain ⟨rfl, -⟩ := Prod.mk.inj same
        refine ⟨by omega, ?_⟩
        rintro ⟨between, mapped, -⟩
        have place : (stack.pushed buffer).getBottom = top - npages * pageSize := by
          have total : stack.stackBuffers.length + 1 = npages := by omega
          rw [pushed_bottom sized buffer (by rwa [total]) bound, total]
        rw [mapped]
        rw [place] at mapped
        exact mapped_page_found tree.intact (usable buffer List.mem_cons_self)
          canonicalVirt canonical
          inside mapped

/-- Mapping another page does not change what an address is translated to. -/
theorem lookup_insensitive {virt addr : Nat} (value : Option Nat) (canonicalVirt : Canonical virt)
    (canonical : Canonical addr) (apart : addr / pageSize ≠ virt / pageSize) :
    Insensitive (fun leaves => lookup leaves addr = value) virt := by
  intro leaves target uncovered same
  rw [lookup_graft_small _ canonicalVirt canonical _ uncovered, remap, if_neg apart, same]

end Growth

/-- A process between the loader and the scheduler, or with its main thread and the free buffers of
the core that runs it. -/
inductive Stage where
  | loaded (mainThreadStack : ThreadStack)
  | running (thread : Thread) (freeAllocatedBuffers : List Nat)

/-- The states of a process with the page table `pt`. Whatever else the kernel does leaves the
tables of the process in order. -/
inductive Reached (allocator : LawfulAllocator σ) (pt : PageTable) : Stage → Loading σ → Prop
  | created {file : Elf64File} {kernel : PageTable} {rounds active : Nat}
      {cmdline environment : List (List UInt8)}
      {machine : Machine σ} {options : CreateProcessOptions} {after : Loading σ}
      (intact : Intact allocator kernel.pml4 machine) (clean : CleanPml4 allocator machine)
      (returned : file.createProcess allocator
        kernel rounds active cmdline environment ⟨machine, []⟩ =
        .ok options after)
      (table : options.pageTable = pt) :
      Reached allocator pt (.loaded options.stack) after
  | started {mainThreadStack : ThreadStack} {thread : Thread} {buffers : List Nat}
      {state after : Loading σ} (before : Reached allocator pt (.loaded mainThreadStack) state)
      (returned : createThread allocator pt mainThreadStack state = .ok thread after)
      (usable : ∀ buffer ∈ buffers, UsablePage buffer) :
      Reached allocator pt (.running thread buffers) after
  | ensured {thread : Thread} {buffers more : List Nat} {count : Nat} {state after : Loading σ}
      (before : Reached allocator pt (.running thread buffers) state)
      (returned : ensureEnoughAllocatedBuffers allocator count buffers state = .ok more after) :
      Reached allocator pt (.running thread more) after
  | recovered {fault : PageFault} {tsettings : SchedulerThreadSettings} {thread repaired : Thread}
      {buffers left : List Nat} {state after : Loading σ}
      (before : Reached allocator pt (.running thread buffers) state)
      (returned : fault.handler allocator pt tsettings (some thread) buffers state =
        .ok (.returned repaired left) after) :
      Reached allocator pt (.running repaired left) after
  | elsewhere {stage : Stage} {state after : Loading σ} (before : Reached allocator pt stage state)
      (intact : Intact allocator pt.pml4 after.machine) : Reached allocator pt stage after

def Stage.Sound : Stage → Prop
  | .loaded mainThreadStack => mainThreadStack.Sized lowerHalfEnd
  | .running thread buffers => thread.kernelStack.Sized procKernelStackTop ∧
      thread.stack.Sized lowerHalfEnd ∧ ∀ buffer ∈ buffers, UsablePage buffer

section Reached

variable {allocator : LawfulAllocator σ} {pt : PageTable} {state after : Loading σ}

theorem create_thread_returned {mainThreadStack : ThreadStack} {thread : Thread}
    (tree : Tree allocator pt.pml4 [] state)
    (returned : createThread allocator pt mainThreadStack state = .ok thread after) :
    Tree allocator pt.pml4 [] after ∧ thread.kernelStack.Sized procKernelStackTop ∧
      thread.stack = mainThreadStack := by
  rw [createThread, newWithPages] at returned
  cases grown : growTimes allocator pt kernelStackFlags 1 ⟨procKernelStackTop, 0, []⟩ state with
  | error failure between =>
      rw [state_bind_error grown] at returned
      exact absurd returned (by simp)
  | ok kernelStack between =>
      rw [state_bind_ok grown] at returned
      obtain ⟨rfl, rfl⟩ := EStateM.Result.ok.inj returned
      obtain ⟨treeAfter, sized, -⟩ :=
        grow_times_in_order 1 tree (new_stack_sized procKernelStackTop)
        (fun _ _ _ _ _ => insensitive_true _) grown
      exact ⟨treeAfter, sized, rfl⟩

theorem ensure_enough_returned {count : Nat} {buffers more : List Nat}
    (tree : Tree allocator pt.pml4 [] state) (usable : ∀ buffer ∈ buffers, UsablePage buffer)
    (returned : ensureEnoughAllocatedBuffers allocator count buffers state = .ok more after) :
    Tree allocator pt.pml4 [] after ∧ ∀ buffer ∈ more, UsablePage buffer := by
  have keeps : Preserves allocator pt (Insensitive fun _ => True) (Tree allocator pt.pml4) :=
    in_order_preserves
  have settles := calloc_pages_settles keeps (count - buffers.length) tree
  rw [ensureEnoughAllocatedBuffers] at returned
  cases taken : callocPages allocator (count - buffers.length) state with
  | error failure between =>
      rw [state_bind_error taken] at returned
      exact absurd returned (by simp)
  | ok pushed between =>
      obtain ⟨treeAfter, -, -, fresh⟩ := settles_ok settles taken
      rw [state_bind_ok taken] at returned
      obtain ⟨rfl, rfl⟩ := EStateM.Result.ok.inj returned
      refine ⟨in_order_fewer treeAfter (List.nil_subset _), fun buffer member => ?_⟩
      rcases List.mem_append.mp member with new | old
      · exact (fresh buffer (List.mem_reverse.mp new)).1
      · exact usable buffer old

theorem reached_sound {stage : Stage} (reached : Reached allocator pt stage state) :
    Tree allocator pt.pml4 [] state ∧ stage.Sound := by
  induction reached with
  | created intact clean returned table =>
      subst table
      exact ⟨tree_of_intact (create_process_tree intact clean returned),
        create_process_sized _ _ _ _ _ _ _ _ _ returned⟩
  | started _ returned usable ih =>
      obtain ⟨tree, sized⟩ := ih
      obtain ⟨treeAfter, sizedKernel, sameStack⟩ := create_thread_returned tree returned
      exact ⟨treeAfter, sizedKernel, sameStack ▸ sized, usable⟩
  | ensured _ returned ih =>
      obtain ⟨tree, sizedKernel, sizedUser, usable⟩ := ih
      obtain ⟨treeAfter, usableAfter⟩ := ensure_enough_returned tree usable returned
      exact ⟨treeAfter, sizedKernel, sizedUser, usableAfter⟩
  | recovered _ returned ih =>
      obtain ⟨tree, sizedKernel, sizedUser, usable⟩ := ih
      rcases handler_returned returned with ⟨-, kstack, rfl, grown⟩ | ⟨-, stack, rfl, rfl, grown⟩
      · obtain ⟨treeAfter, sizedAfter, fewer⟩ := grow_kernel_stack_in_order tree sizedKernel grown
        exact ⟨treeAfter, sizedAfter, sizedUser, fun buffer member => usable buffer (fewer member)⟩
      · obtain ⟨treeAfter, sizedAfter, -⟩ := grow_times_in_order _ tree sizedUser
          (fun _ _ _ _ _ => insensitive_true _) grown
        exact ⟨treeAfter, sizedKernel, sizedAfter, usable⟩
  | elsewhere _ intact ih => exact ⟨tree_of_intact intact, ih.2⟩

def Translates (allocator : PageAllocator σ) (pt : PageTable) (addr : Nat) (state : Loading σ) :
    Prop :=
  ∃ phys, pt.translate allocator addr state.machine = .ok phys state.machine

theorem translates_iff {addr : Nat} : Translates allocator.toPageAllocator pt addr state ↔
    ∃ phys, lookup (leaves pt.pml4 state.machine) addr = some phys := by
  unfold Translates
  rw [translate_lookup]
  cases lookup (leaves pt.pml4 state.machine) addr with
  | none => simp [answer]
  | some phys => simp [answer]

variable {fault : PageFault} {thread : Thread} {buffers left : List Nat}

theorem kernel_fault_repaired {kstack : ThreadStack} (tree : Tree allocator pt.pml4 [] state)
    (sized : thread.kernelStack.Sized procKernelStackTop)
    (usable : ∀ buffer ∈ buffers, UsablePage buffer)
    (space : getAddressSpace fault.faultAddr = some (.higherHalf .processKernelStack))
    (short : thread.kernelStack.stackBuffers.length < kstack.stackBuffers.length)
    (grown : growKernelStack allocator pt (fault.npages procKernelStackTop)
      thread.kernelStack buffers
      state = .ok (kstack, left, true) after)
    (mapped : MapsAll allocator.toPageAllocator pt kernelStackFlags thread.kernelStack
      (buffers.take (kstack.stackBuffers.length - thread.kernelStack.stackBuffers.length))
      state.machine) :
    Translates allocator.toPageAllocator pt fault.faultAddr after := by
  obtain ⟨low, high⟩ := kernel_stack_space space
  have pages : fault.npages procKernelStackTop =
      (procKernelStackTop - fault.faultAddr + (pageSize - 1)) / pageSize := by
    rw [PageFault.npages, sub64_of_le high.le]
  have grows : thread.kernelStack.stackBuffers.length < fault.npages procKernelStackTop := by
    by_contra full
    have unchanged : growKernelStack allocator pt (fault.npages procKernelStackTop)
        thread.kernelStack
        buffers state = .ok (thread.kernelStack, buffers, true) state := by
      cases buffers with
      | nil => rw [growKernelStack, decide_eq_true (not_lt.mp full)]; rfl
      | cons buffer buffers => rw [growKernelStack, if_neg full]; rfl
    rw [unchanged] at grown
    have same := (Prod.mk.inj (EStateM.Result.ok.inj grown).1).1
    rw [← same] at short
    exact absurd short (lt_irrefl _)
  have room : fault.npages procKernelStackTop * pageSize ≤ procKernelStackTop := by
    rw [pages]
    unfold procKernelStackTop globKernelMmioTop pageSize at *
    omega
  have canonicalVirt : Canonical (procKernelStackTop - fault.npages procKernelStackTop *
      pageSize) := by
    right
    rw [pages]
    unfold procKernelStackTop globKernelMmioTop pageSize at *
    omega
  have canonical : Canonical fault.faultAddr := by
    right
    unfold procKernelStackTop globKernelMmioTop at *
    omega
  have inside : fault.faultAddr / pageSize =
      (procKernelStackTop - fault.npages procKernelStackTop * pageSize) / pageSize := by
    rw [pages]
    unfold procKernelStackTop globKernelMmioTop pageSize at *
    omega
  obtain ⟨length, found⟩ := grow_kernel_stack_repairs (by decide)
    room canonicalVirt canonical inside
    tree sized usable grows grown
  rw [length] at mapped
  exact translates_iff.mpr (found mapped)

theorem user_fault_unrepaired {stack : ThreadStack} (tree : Tree allocator pt.pml4 [] state)
    (sized : thread.stack.Sized lowerHalfEnd)
    (space : getAddressSpace fault.faultAddr = some (.lowerHalf .processStack))
    (grown : growTimes allocator pt userStackFlags
      (fault.npages procUserStackTop - thread.stack.stackBuffers.length) thread.stack state =
      .ok stack after) :
    Translates allocator.toPageAllocator pt fault.faultAddr after ↔
      Translates allocator.toPageAllocator pt fault.faultAddr state := by
  obtain ⟨low, high⟩ := user_stack_space space
  have pages : fault.npages procUserStackTop =
      (procUserStackTop - fault.faultAddr + (pageSize - 1)) / pageSize := by
    rw [PageFault.npages, sub64_of_le high.le]
  have few : fault.npages procUserStackTop ≤ 2 ^ 32 := by
    rw [pages]
    unfold procUserStackTop lowerHalfSafeguardEnd pageSize at *
    omega
  have canonical : Canonical fault.faultAddr := by
    left
    unfold procUserStackTop at high
    omega
  have started : InOrder allocator pt.pml4 (fun leaves => lookup leaves fault.faultAddr =
      lookup (Paging.leaves pt.pml4 state.machine) fault.faultAddr) [] state :=
    ⟨tree.intact, rfl, tree.loose⟩
  obtain ⟨finished, -⟩ := grow_times_in_order _ started sized
    (fun between sizedBetween above below buffer => by
    -- the pages of the stack stay above the region
    have place := pushed_bottom sizedBetween buffer
      (by unfold lowerHalfEnd pageSize; omega) (by decide)
    rw [place]
    apply lookup_insensitive _ _ canonical
    · unfold procUserStackTop lowerHalfEnd pageSize at *
      omega
    · left
      unfold lowerHalfEnd pageSize
      omega) grown
  rw [translates_iff, translates_iff, finished.holds]

instance {addr : Nat} : Decidable (Translates allocator.toPageAllocator pt addr state) :=
  decidable_of_iff ((lookup (leaves pt.pml4 state.machine) addr).isSome = true)
    (by rw [translates_iff, Option.isSome_iff_exists])

end Reached

def sixteenPages : FreeList :=
  ⟨(List.range 16).map fun page => 0xFFFF_A000_0000_5000 + page * 0x1000, by decide +kernel,
    by decide +kernel⟩

def defaultSettings : SchedulerThreadSettings where
  maxUserStackPages := 256
  maxKernelStackPages := 32

theorem zero_kernel_intact : Intact FreeList.lawful firstPage.pml4
    ⟨fun _ _ => 0, sixteenPages⟩ := by
  have held : firstPage.pml4 ∈ FreeList.lawful.held ⟨fun _ _ => 0, sixteenPages⟩ := by
    constructor
    · decide +kernel
    · decide +kernel
  exact (absent_intact held fun _ => Nat.zero_and _).1

theorem zero_kernel_clean : CleanPml4 FreeList.lawful ⟨fun _ _ => 0, sixteenPages⟩ := by
  intro pml4 after allocated idx _
  change FreeList.allocPage ⟨fun _ _ => 0, sixteenPages⟩ = .ok pml4 after at allocated
  rw [(FreeList.alloc_page_ok allocated).1]
  exact Nat.zero_and _

theorem handler_run (fault : PageFault) (buffers : List Nat)
    (check : PageTable → Thread → Thread → Loading FreeList → Loading FreeList → Bool)
    (usable : ∀ buffer ∈ buffers, UsablePage buffer)
    (runs : (match (oneSegmentFile 0x40_0000).createProcess FreeList.lawful firstPage 0 0x1000 [] []
        ⟨⟨fun _ _ => 0, sixteenPages⟩, []⟩ with
      | .error _ _ => false
      | .ok options created =>
          match createThread FreeList.lawful options.pageTable options.stack created with
          | .error _ _ => false
          | .ok thread state =>
              match fault.handler FreeList.lawful options.pageTable defaultSettings (some thread)
                buffers
                state with
              | .ok (.returned repaired _) after =>
                  check options.pageTable thread repaired state after
              | _ => false) = true) :
    ∃ pt thread repaired left state after,
      Reached FreeList.lawful pt (.running thread buffers) state ∧
        fault.handler FreeList.lawful pt defaultSettings (some thread) buffers state =
          .ok (.returned repaired left) after ∧ check pt thread repaired state after = true := by
  cases loaded : (oneSegmentFile 0x40_0000).createProcess FreeList.lawful firstPage 0 0x1000 [] []
      ⟨⟨fun _ _ => 0, sixteenPages⟩, []⟩ with
  | error failure created =>
      rw [loaded] at runs
      exact absurd runs (by simp)
  | ok options created =>
      rw [loaded] at runs
      dsimp only at runs
      cases started : createThread FreeList.lawful options.pageTable options.stack created with
      | error failure state =>
          rw [started] at runs
          exact absurd runs (by simp)
      | ok thread state =>
          rw [started] at runs
          dsimp only at runs
          cases handled : fault.handler FreeList.lawful options.pageTable defaultSettings
            (some thread)
              buffers state with
          | error failure after =>
              rw [handled] at runs
              exact absurd runs (by simp)
          | ok result after =>
              rw [handled] at runs
              cases result with
              | killed => exact absurd runs (by simp)
              | returned repaired left =>
                  have reached := Reached.started
                    (Reached.created zero_kernel_intact zero_kernel_clean loaded rfl) started usable
                  exact ⟨_, thread, repaired, left, state, after, reached, handled, runs⟩

end Campix.Process
