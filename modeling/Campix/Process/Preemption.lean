import Campix.Process.Scheduler
import Mathlib.Tactic.SplitIfs

/-!
# Preemption

What a user thread finds in its registers when it runs again after a timer
interrupt. Every step writes the saved state of the thread that runs on its core
and of no other. `common_enter_interrupt` saves the interrupted registers, but it
announces the interrupt as a system call, so `schedule` replaces them with the
registers of the last fast system call on that core.
-/

namespace Campix.Process

open Kernel

set_option autoImplicit false

theorem requeue_frame (system : Kernel) (core : Nat) :
    (system.requeueRunning core).states = system.states ∧
      (system.requeueRunning core).cpus = system.cpus := by
  unfold requeueRunning
  split
  · split_ifs <;> exact ⟨rfl, rfl⟩
  · split_ifs <;> exact ⟨rfl, rfl⟩
  · exact ⟨rfl, rfl⟩

theorem end_thread_frame (system : Kernel) (tid exitCode : Nat) :
    (system.endThread tid exitCode).states = system.states ∧
      (system.endThread tid exitCode).cpus = system.cpus := by
  unfold endThread
  split_ifs <;> exact ⟨rfl, rfl⟩

theorem end_threads_frame (exitCode : Nat) (tids : List Nat) :
    ∀ system : Kernel,
      (tids.foldl (fun system tid => system.endThread tid exitCode) system).states =
          system.states ∧
        (tids.foldl (fun system tid => system.endThread tid exitCode) system).cpus =
          system.cpus := by
  induction tids with
  | nil =>
      intro system
      exact ⟨rfl, rfl⟩
  | cons tid tids ih =>
      intro system
      obtain ⟨states, cpus⟩ := ih (system.endThread tid exitCode)
      obtain ⟨sameStates, sameCpus⟩ := end_thread_frame system tid exitCode
      exact ⟨states.trans sameStates, cpus.trans sameCpus⟩

theorem process_exit_frame (system : Kernel) (pid exitCode : Nat) :
    (system.handleProcessExit pid exitCode).states = system.states ∧
      (system.handleProcessExit pid exitCode).cpus = system.cpus := by
  unfold handleProcessExit
  split_ifs with registered
  · exact end_threads_frame exitCode _ _
  · exact ⟨rfl, rfl⟩

theorem exit_frame (system : Kernel) (tid exitCode : Nat) :
    (system.handleExit tid exitCode).states = system.states ∧
      (system.handleExit tid exitCode).cpus = system.cpus := by
  obtain ⟨states, cpus⟩ := end_thread_frame system tid exitCode
  unfold handleExit
  dsimp only
  split_ifs with registered last
  · obtain ⟨exitStates, exitCpus⟩ := process_exit_frame (system.endThread tid exitCode)
      ((system.endThread tid exitCode).pids tid) exitCode
    exact ⟨exitStates.trans states, exitCpus.trans cpus⟩
  · exact ⟨states, cpus⟩
  · exact ⟨rfl, rfl⟩

theorem save_syscall_cpus (system : Kernel) (core : Nat) :
    (system.saveSyscallState core).cpus = system.cpus := by
  unfold saveSyscallState
  split <;> rfl

/-- The saved states after `schedule` took over the last system call. -/
def savedStates (states : Nat → ThreadState) (cpu : PerCpu) : Nat → ThreadState := fun thread =>
  if cpu.interruptSources.head? = some .syscall ∧ cpu.runningThread = some thread then
    ThreadState.restoreSyscall (states thread) cpu.syscallData
  else
    states thread

theorem save_syscall_states (system : Kernel) (core : Nat) :
    (system.saveSyscallState core).states = savedStates system.states (system.cpus core) := by
  funext thread
  unfold saveSyscallState savedStates
  split
  · rename_i running source isRunning
    rw [source, isRunning]
    by_cases same : thread = running
    · subst same
      rw [if_pos ⟨rfl, rfl⟩]
      exact Function.update_self _ _ _
    · rw [if_neg (by simpa using Ne.symm same)]
      exact Function.update_of_ne same _ _
  · rename_i notBoth
    rw [if_neg]
    rintro ⟨source, isRunning⟩
    exact notBoth thread source isRunning

theorem saved_states_idem (states : Nat → ThreadState) (cpu : PerCpu) :
    savedStates (savedStates states cpu) cpu = savedStates states cpu := by
  funext thread
  unfold savedStates
  split_ifs <;> rfl

theorem saved_states_other {states : Nat → ThreadState} {cpu : PerCpu} {thread : Nat}
    (other : cpu.runningThread ≠ some thread) : savedStates states cpu thread = states thread :=
  if_neg fun both => other both.2

theorem select_frame (system : Kernel) (core thread : Nat) :
    (system.select core thread).1.states = system.states ∧
      (system.select core thread).2 = some ⟨thread, system.states thread⟩ := by
  unfold select
  dsimp only
  split_ifs <;> exact ⟨rfl, rfl⟩

theorem schedule_loop_states {core rounds : Nat} :
    ∀ {system after : Kernel} {selection : Option Selection},
      scheduleLoop core rounds system = some (after, selection) →
      after.states = savedStates system.states (system.cpus core) ∧
        ∀ selected, selection = some selected →
          selected.restored = after.states selected.thread := by
  induction rounds with
  | zero =>
      intro system after selection returned
      exact absurd returned (by simp [scheduleLoop])
  | succ rounds ih =>
      intro system after selection returned
      obtain ⟨queuedStates, queuedCpus⟩ := requeue_frame system core
      rw [scheduleLoop] at returned
      dsimp only at returned
      split at returned
      · obtain ⟨rfl, rfl⟩ := Prod.mk.inj (Option.some.inj returned)
        refine ⟨?_, fun selected none => absurd none (by simp)⟩
        rw [save_syscall_states, queuedStates, queuedCpus]
      · rename_i thread taskQueue popped
        generalize taken : saveSyscallState
          { system.requeueRunning core with taskQueue := taskQueue } core = middle at returned
        have middleStates : middle.states = savedStates system.states (system.cpus core) := by
          rw [← taken, save_syscall_states, queuedStates, queuedCpus]
        have middleCpus : middle.cpus = system.cpus := by
          rw [← taken, save_syscall_cpus, queuedCpus]
        split_ifs at returned with skipped
        · obtain ⟨laterStates, restored⟩ := ih returned
          rw [middleStates, middleCpus, saved_states_idem] at laterStates
          exact ⟨laterStates, restored⟩
        · obtain ⟨states, selected⟩ := select_frame middle core thread
          rw [Option.some.inj returned] at states selected
          dsimp only at states selected
          refine ⟨states.trans middleStates, ?_⟩
          intro choice chosen
          rw [selected] at chosen
          rw [← Option.some.inj chosen, states]

theorem schedule_states {system after : Kernel} {core : Nat} {selection : Option Selection}
    (returned : system.schedule core = some (after, selection)) :
    after.states = savedStates system.states (system.cpus core) ∧
      ∀ selected, selection = some selected →
        selected.restored = after.states selected.thread :=
  schedule_loop_states returned

/-- The step is not one of `thread`. -/
def Label.Spares (thread : Nat) (system : Kernel) : Label → Prop
  | .interrupt core _ _ => (system.cpus core).runningThread ≠ some thread
  | .fastSyscall core _ _ => (system.cpus core).runningThread ≠ some thread
  | .spawn tid _ => tid ≠ thread

theorem set_state_other {system : Kernel} {thread running : Nat} (other : running ≠ thread)
    (state : ThreadState) : (system.setState running state).states thread = system.states thread :=
  Function.update_of_ne (Ne.symm other) _ _

theorem enter_frame {system : Kernel} {core thread : Nat} (frame : InterruptFrame)
    (other : (system.cpus core).runningThread ≠ some thread) :
    (system.commonEnterInterrupt core frame).states thread = system.states thread ∧
      ((system.commonEnterInterrupt core frame).cpus core).runningThread =
        (system.cpus core).runningThread := by
  unfold commonEnterInterrupt
  split_ifs with fromKernel
  · exact ⟨rfl, by simp [pushSource, setCpu]⟩
  · dsimp only
    split
    · rename_i running isRunning
      have sameRunning : (system.cpus core).runningThread = some running := by
        simpa [pushSource, setCpu] using isRunning
      have different : running ≠ thread := by
        rintro rfl
        exact other sameRunning
      exact ⟨set_state_other different _, by simp [setState, pushSource, setCpu]⟩
    · exact ⟨rfl, by simp [pushSource, setCpu]⟩

theorem schedule_spares {system after : Kernel} {core thread : Nat} {selection : Option Selection}
    (other : (system.cpus core).runningThread ≠ some thread)
    (returned : system.schedule core = some (after, selection)) :
    after.states thread = system.states thread ∧
      ∀ selected, selection = some selected →
        selected.restored = after.states selected.thread := by
  obtain ⟨states, restored⟩ := schedule_states returned
  exact ⟨by rw [states, saved_states_other other], restored⟩

theorem interrupt_spares {system after : Kernel} {core thread : Nat} {kind : Interrupt}
    {frame : InterruptFrame} {selection : Option Selection}
    (other : (system.cpus core).runningThread ≠ some thread)
    (stepped : system.interrupt core kind frame = some (after, selection)) :
    after.states thread = system.states thread ∧
      ∀ selected, selection = some selected →
        selected.restored = after.states selected.thread := by
  obtain ⟨entered, sameRunning⟩ := enter_frame frame other
  rw [← sameRunning] at other
  rw [← entered]
  unfold Kernel.interrupt at stepped
  clear entered sameRunning
  generalize system.commonEnterInterrupt core frame = inside at other stepped ⊢
  cases kind with
  | timer =>
      dsimp only at stepped
      split_ifs at stepped with fromUser
      · exact schedule_spares other stepped
      · obtain ⟨rfl, rfl⟩ := Prod.mk.inj (Option.some.inj stepped)
        exact ⟨rfl, fun _ none => absurd none (by simp)⟩
  | resumable =>
      obtain ⟨rfl, rfl⟩ := Prod.mk.inj (Option.some.inj stepped)
      exact ⟨rfl, fun _ none => absurd none (by simp)⟩
  | fatal =>
      dsimp only at stepped
      split at stepped
      · rename_i running isRunning
        obtain ⟨states, cpus⟩ := process_exit_frame inside (inside.pids running) (128 + sigkill)
        rw [← cpus] at other
        rw [← states]
        exact schedule_spares other stepped
      · exact absurd stepped (by simp)

theorem syscall_spares {system after : Kernel} {core thread : Nat} {data : SyscallData}
    {action : SyscallAction} {selection : Option Selection}
    (other : (system.cpus core).runningThread ≠ some thread)
    (stepped : system.fastSyscall core data action = some (after, selection)) :
    after.states thread = system.states thread ∧
      ∀ selected, selection = some selected →
        selected.restored = after.states selected.thread := by
  unfold fastSyscall at stepped
  dsimp only at stepped
  have entered : ((system.setCpu core { system.cpus core with syscallData := data }).pushSource core
      .syscall).states = system.states := rfl
  have sameRunning : (((system.setCpu core { system.cpus core with syscallData := data }).pushSource
      core .syscall).cpus core).runningThread = (system.cpus core).runningThread := by
    simp [pushSource, setCpu]
  rw [← sameRunning] at other
  rw [← entered]
  clear entered sameRunning
  generalize (system.setCpu core { system.cpus core with syscallData := data }).pushSource core
    .syscall = inside at other stepped ⊢
  split at stepped
  · exact absurd stepped (by simp)
  · rename_i running isRunning
    have different : running ≠ thread := by
      rintro rfl
      exact other isRunning
    have kept : ∀ state : ThreadState, (inside.setState running state).states thread =
        inside.states thread := fun state => set_state_other different state
    have finished : ∀ (state : ThreadState) (result : Nat),
        ((inside.setState running state).finishSyscall core running result).states thread =
          inside.states thread := fun state result =>
      (set_state_other different _).trans (set_state_other different state)
    cases action with
    | finish result =>
        obtain ⟨rfl, rfl⟩ := Prod.mk.inj (Option.some.inj stepped)
        exact ⟨set_state_other different _, fun _ none => absurd none (by simp)⟩
    | setFsBase value result =>
        obtain ⟨rfl, rfl⟩ := Prod.mk.inj (Option.some.inj stepped)
        exact ⟨finished _ _, fun _ none => absurd none (by simp)⟩
    | setGsBase value result =>
        obtain ⟨rfl, rfl⟩ := Prod.mk.inj (Option.some.inj stepped)
        exact ⟨finished _ _, fun _ none => absurd none (by simp)⟩
    | schedYield =>
        obtain ⟨states, restored⟩ := schedule_spares (by exact other) stepped
        exact ⟨states.trans (kept _), restored⟩
    | exit code =>
        obtain ⟨states, cpus⟩ := exit_frame inside running ((code &&& 0xFF) <<< 8)
        rw [← cpus] at other
        rw [← states]
        exact schedule_spares other stepped

theorem step_spares {system after : Kernel} {thread : Nat} {label : Label}
    {selection : Option Selection} (spares : label.Spares thread system)
    (stepped : system.step label = some (after, selection)) :
    after.states thread = system.states thread ∧
      ∀ selected, selection = some selected →
        selected.restored = after.states selected.thread := by
  cases label with
  | interrupt core kind frame => exact interrupt_spares spares stepped
  | fastSyscall core data action => exact syscall_spares spares stepped
  | spawn tid state =>
      obtain ⟨rfl, rfl⟩ := Prod.mk.inj (Option.some.inj stepped)
      exact ⟨Function.update_of_ne (Ne.symm spares) _ _, fun _ none => absurd none (by simp)⟩

/-- The kernel runs on without a step of `thread`, which is not selected. -/
inductive Waits (thread : Nat) : Kernel → Kernel → Prop
  | refl (system : Kernel) : Waits thread system system
  | step {first middle last : Kernel} {label : Label} {selection : Option Selection}
      (earlier : Waits thread first middle) (spares : label.Spares thread middle)
      (stepped : middle.step label = some (last, selection))
      (passed : ∀ selected, selection = some selected → selected.thread ≠ thread) :
      Waits thread first last

/-- After a timer interrupt of `thread` with these registers, the next `schedule`
that selects it restores `restored`. -/
inductive Resumes (thread : Nat) (system : Kernel) (core : Nat) (frame : InterruptFrame)
    (restored : ThreadState) : Prop
  | atOnce {after : Kernel}
      (preempted : system.step (.interrupt core .timer frame) =
        some (after, some ⟨thread, restored⟩))
  | later {after middle final : Kernel} {label : Label} {selection : Option Selection}
      (preempted : system.step (.interrupt core .timer frame) = some (after, selection))
      (passed : ∀ selected, selection = some selected → selected.thread ≠ thread)
      (waits : Waits thread after middle) (spares : label.Spares thread middle)
      (resumed : middle.step label = some (final, some ⟨thread, restored⟩))

/-- The registers of the last fast system call on the core are, in the fields that
`schedule` copies, the interrupted registers. -/
structure Agrees (data : SyscallData) (registers : Registers) : Prop where
  rax : data.gpregs.rax = registers.gpregs.rax
  rbx : data.gpregs.rbx = registers.gpregs.rbx
  rdx : data.gpregs.rdx = registers.gpregs.rdx
  rdi : data.gpregs.rdi = registers.gpregs.rdi
  rsi : data.gpregs.rsi = registers.gpregs.rsi
  r8 : data.gpregs.r8 = registers.gpregs.r8
  r9 : data.gpregs.r9 = registers.gpregs.r9
  r10 : data.gpregs.r10 = registers.gpregs.r10
  r12 : data.gpregs.r12 = registers.gpregs.r12
  r13 : data.gpregs.r13 = registers.gpregs.r13
  r14 : data.gpregs.r14 = registers.gpregs.r14
  r15 : data.gpregs.r15 = registers.gpregs.r15
  rip : data.gpregs.rcx = registers.rip
  rsp : data.rsp = registers.rsp
  rbp : data.rbp = registers.rbp
  rflags : data.gpregs.r11 = registers.rflags

theorem restored_iff_agrees (state : ThreadState) (data : SyscallData) (registers : Registers) :
    (ThreadState.restoreSyscall (ThreadState.save state registers) data).registers = registers ↔
      Agrees data registers := by
  obtain ⟨gpregs, rip, rsp, rbp, rflags⟩ := registers
  obtain ⟨rax, rbx, rcx, rdx, rdi, rsi, r8, r9, r10, r11, r12, r13, r14, r15⟩ := gpregs
  simp only [ThreadState.registers, ThreadState.restoreSyscall, ThreadState.save,
    Registers.mk.injEq, ThreadGPRegisters.mk.injEq]
  constructor
  · rintro ⟨⟨hrax, hrbx, -, hrdx, hrdi, hrsi, hr8, hr9, hr10, -, hr12, hr13, hr14, hr15⟩,
      hrip, hrsp,
      hrbp, hrflags⟩
    exact ⟨hrax, hrbx, hrdx, hrdi, hrsi, hr8, hr9, hr10, hr12, hr13, hr14, hr15, hrip, hrsp, hrbp,
      hrflags⟩
  · rintro ⟨hrax, hrbx, hrdx, hrdi, hrsi, hr8, hr9, hr10, hr12, hr13, hr14, hr15, hrip, hrsp, hrbp,
      hrflags⟩
    exact ⟨⟨hrax, hrbx, trivial, hrdx, hrdi, hrsi, hr8, hr9, hr10, trivial, hr12, hr13, hr14, hr15⟩,
      hrip, hrsp, hrbp, hrflags⟩

theorem preempted_state {system after : Kernel} {core thread : Nat} {frame : InterruptFrame}
    {selection : Option Selection} (running : (system.cpus core).runningThread = some thread)
    (fromUser : frame.cs &&& 0b11 ≠ 0)
    (preempted : system.step (.interrupt core .timer frame) = some (after, selection)) :
    after.states thread = ThreadState.restoreSyscall
        (ThreadState.save (system.states thread) frame.registers) (system.cpus core).syscallData ∧
      ∀ selected, selection = some selected →
        selected.restored = after.states selected.thread := by
  have scheduled : (system.commonEnterInterrupt core frame).schedule core =
      some (after, selection) := by
    rw [← preempted, Kernel.step, Kernel.interrupt]
    exact (if_pos fromUser).symm
  have entered : system.commonEnterInterrupt core frame =
      (system.pushSource core .syscall).setState thread
        (ThreadState.save (system.states thread) frame.registers) := by
    have same : ((system.pushSource core .syscall).cpus core).runningThread = some thread := by
      simpa [pushSource, setCpu] using running
    rw [commonEnterInterrupt, if_neg fromUser]
    dsimp only
    rw [same]
    rfl
  obtain ⟨states, restored⟩ := schedule_states scheduled
  refine ⟨?_, restored⟩
  rw [states, entered]
  simp [savedStates, setState, pushSource, setCpu, running]

theorem waits_keeps_state {first last : Kernel} {thread : Nat} (waits : Waits thread first last) :
    last.states thread = first.states thread := by
  induction waits with
  | refl => rfl
  | step earlier spares stepped passed ih => exact (step_spares spares stepped).1.trans ih

/-- A preempted thread gets its registers back exactly when the last fast system
call on its core left the same values. -/
theorem preemption_transparent_iff {system : Kernel} {core thread : Nat} {frame : InterruptFrame}
    {restored : ThreadState} (running : (system.cpus core).runningThread = some thread)
    (fromUser : frame.cs &&& 0b11 ≠ 0) (resumes : Resumes thread system core frame restored) :
    restored.registers = frame.registers ↔
      Agrees (system.cpus core).syscallData frame.registers := by
  rw [← restored_iff_agrees (system.states thread)]
  cases resumes with
  | atOnce preempted =>
      obtain ⟨states, selected⟩ := preempted_state running fromUser preempted
      have same : restored = _ := selected _ rfl
      rw [← states, same]
  | later preempted passed waits spares resumed =>
      obtain ⟨states, -⟩ := preempted_state running fromUser preempted
      obtain ⟨kept, selected⟩ := step_spares spares resumed
      have same : restored = _ := selected _ rfl
      rw [← states, same, kept, waits_keeps_state waits]

def clearRegisters : ThreadGPRegisters := ⟨0, 0, 0, 0, 0, 0, 0, 0, 0, 0, 0, 0, 0, 0⟩

def oneThread : Kernel where
  states _ := ⟨clearRegisters, 0, 0, 0, 0, 0, 0⟩
  taskStates _ := .running
  pids tid := tid
  processStates _ := .running
  processThreads pid := [pid]
  processes _ := true
  threads _ := true
  taskQueue := []
  cpus _ := ⟨[], some 1, ⟨clearRegisters, 0, 0⟩⟩

def userFrame : InterruptFrame :=
  ⟨⟨{ clearRegisters with rax := 7 }, 0x401000, 0x7FFF_FFFF_F000, 0x7FFF_FFFF_F010, 0x202⟩, 0x33⟩

/-- The state that thread 1 finds after the interrupt: the registers of no system call. -/
def lostState : ThreadState := ⟨clearRegisters, 0, 0, 0, 0, 0, 0⟩

theorem one_thread_resumes : Resumes 1 oneThread 0 userFrame lostState :=
  .atOnce rfl

theorem one_thread_transparent_iff :
    lostState.registers = userFrame.registers ↔
      Agrees (oneThread.cpus 0).syscallData userFrame.registers :=
  preemption_transparent_iff rfl (by decide) one_thread_resumes

theorem preempted_registers_lost :
    ¬∀ restored, Resumes 1 oneThread 0 userFrame restored →
      restored.registers = userFrame.registers := by
  intro transparent
  exact absurd (transparent lostState one_thread_resumes) (by decide)

theorem requeue_queue (system : Kernel) (core : Nat) :
    (system.requeueRunning core).skips = system.skips ∧
      ((system.requeueRunning core).taskQueue = system.taskQueue ∨
        ∃ running, system.skips running = false ∧
          (system.requeueRunning core).taskQueue = system.taskQueue ++ [running]) := by
  unfold requeueRunning
  split
  · split_ifs with ended
    · exact ⟨rfl, Or.inl rfl⟩
    · exact ⟨rfl, Or.inr ⟨_, by simp_all [skips], rfl⟩⟩
  · split_ifs with ended
    · exact ⟨rfl, Or.inl rfl⟩
    · exact ⟨rfl, Or.inr ⟨_, by simp_all [skips], rfl⟩⟩
  · exact ⟨rfl, Or.inl rfl⟩

theorem save_syscall_queue (system : Kernel) (core : Nat) :
    (system.saveSyscallState core).skips = system.skips ∧
      (system.saveSyscallState core).taskQueue = system.taskQueue := by
  unfold saveSyscallState
  split <;> exact ⟨rfl, rfl⟩

/-- A round that does not return pops the head of the queue and goes on. -/
theorem schedule_round {core rounds : Nat} {system : Kernel} {thread : Nat} {taskQueue : List Nat}
    (queued : (system.requeueRunning core).taskQueue = thread :: taskQueue)
    (continues : ∀ middle : Kernel, system.skips thread = true → middle.skips = system.skips →
      middle.taskQueue = taskQueue → ∃ result, scheduleLoop core rounds middle = some result) :
    ∃ result, scheduleLoop core (rounds + 1) system = some result := by
  obtain ⟨savedSkips, savedQueue⟩ := save_syscall_queue
    { system.requeueRunning core with taskQueue := taskQueue } core
  have sameSkips := savedSkips.trans (requeue_queue system core).1
  rw [scheduleLoop, queued]
  dsimp only
  rw [sameSkips]
  split_ifs with skipped
  · exact continues _ skipped sameSkips savedQueue
  · exact ⟨_, rfl⟩

/-- A thread that is not skipped ends the loop when it comes to the head. -/
theorem schedule_finds {core rounds : Nat} :
    ∀ {system : Kernel} {ahead behind : List Nat} {thread : Nat},
      (system.requeueRunning core).taskQueue = ahead ++ thread :: behind →
      system.skips thread = false → ahead.length < rounds →
      ∃ result, scheduleLoop core rounds system = some result := by
  induction rounds with
  | zero =>
      intro system ahead behind thread _ _ short
      exact absurd short (Nat.not_lt_zero _)
  | succ rounds ih =>
      intro system ahead behind thread queued runnable short
      cases ahead with
      | nil =>
          apply schedule_round queued
          intro middle skipped _ _
          rw [runnable] at skipped
          exact absurd skipped (by simp)
      | cons first ahead =>
          rw [List.cons_append] at queued
          apply schedule_round queued
          intro middle _ sameSkips sameQueue
          have shorter : ahead.length < rounds := Nat.lt_of_succ_lt_succ short
          have stillRunnable : middle.skips thread = false := by rw [sameSkips, runnable]
          obtain ⟨-, same | ⟨running, -, grown⟩⟩ := requeue_queue middle core
          · exact ih (same.trans sameQueue) stillRunnable shorter
          · rw [sameQueue, List.append_assoc, List.cons_append] at grown
            exact ih grown stillRunnable shorter

theorem schedule_loop_returns {core rounds : Nat} :
    ∀ {system : Kernel}, system.taskQueue.length < rounds →
      ∃ result, scheduleLoop core rounds system = some result := by
  induction rounds with
  | zero =>
      intro system short
      exact absurd short (Nat.not_lt_zero _)
  | succ rounds ih =>
      intro system short
      obtain ⟨-, same | ⟨running, runnable, grown⟩⟩ := requeue_queue system core
      · cases queued : system.taskQueue with
        | nil =>
            rw [scheduleLoop, same, queued]
            exact ⟨_, rfl⟩
        | cons thread taskQueue =>
            apply schedule_round (same.trans queued)
            intro middle _ _ sameQueue
            rw [queued, List.length_cons] at short
            exact ih (by rw [sameQueue]; exact Nat.lt_of_succ_lt_succ short)
      · exact schedule_finds grown runnable short

theorem schedule_returns (system : Kernel) (core : Nat) :
    ∃ result, system.schedule core = some result :=
  schedule_loop_returns (Nat.lt_succ_self _)

end Campix.Process
