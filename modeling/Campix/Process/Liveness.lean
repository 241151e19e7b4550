import Campix.Process.Preemption
import Mathlib.Data.List.Nodup

/-!
# Live and dead threads

What becomes of the threads of one core over whole runs: `create_process` queues a thread,
`schedule` puts the running one back and takes the next, a thread or a process ends or is
killed. A process that ends leaves `processes`, and its state stays a zombie; a thread of
it that waits in the run queue stays there. Every process has one thread, of the same
number, since only `create_process` makes threads.
-/

namespace Campix.Process

namespace Kernel

set_option autoImplicit false

def killProcess (system : Kernel) (pid : Nat) : Kernel :=
  if system.processes pid then system.handleProcessExit pid (128 + sigkill) else system

/-- How `schedule` is entered: from the timer that interrupts a thread, from `sched_yield`, from
another system call, or from the kernel itself. -/
inductive Entry where
  | timer (frame : InterruptFrame)
  | yield (data : SyscallData)
  | syscall (data : SyscallData)
  | kernel

def enterSyscall (system : Kernel) (core : Nat) (data : SyscallData) : Kernel :=
  (system.setCpu core { system.cpus core with syscallData := data }).pushSource core .syscall

def enter (system : Kernel) (core : Nat) : Entry → Kernel
  | .timer frame => system.commonEnterInterrupt core frame
  | .yield data =>
      let system := system.enterSyscall core data
      match (system.cpus core).runningThread with
      | none => system
      | some thread =>
          let state := system.states thread
          system.setState thread { state with gpregs := { state.gpregs with rax := 0 } }
  | .syscall data => system.enterSyscall core data
  | .kernel => system

inductive Event where
  | create (tid : Nat) (state : ThreadState)
  | schedule (entry : Entry)
  | exit (exitCode : Nat)
  | processExit (pid exitCode : Nat)
  | kill (pid : Nat)

def act (system : Kernel) (core : Nat) : Event → Option (Kernel × Option Selection)
  | .create tid state => some (system.spawn tid state, none)
  | .schedule entry => (system.enter core entry).schedule core
  | .exit exitCode =>
      match (system.cpus core).runningThread with
      | none => none
      | some thread => some (system.handleExit thread exitCode, none)
  | .processExit pid exitCode => some (system.handleProcessExit pid exitCode, none)
  | .kill pid => some (system.killProcess pid, none)

/-- Neither the thread nor its process is a zombie. -/
def Live (system : Kernel) (tid : Nat) : Prop :=
  (system.taskStates tid).isZombie = false ∧
    (system.processStates (system.pids tid)).isZombie = false

/-- A new thread's number is not in `threads`, and the timer schedules only out of user code. -/
def Possible (system : Kernel) : Event → Prop
  | .create tid _ => system.threads tid = false
  | .schedule (.timer frame) => frame.cs &&& 0b11 ≠ 0
  | _ => True

structure Fresh (core : Nat) (system : Kernel) : Prop where
  processes : ∀ pid, system.processes pid = false
  threads : ∀ tid, system.threads tid = false
  taskQueue : system.taskQueue = []
  runningThread : (system.cpus core).runningThread = none

/-- The states reached on one core by events that are `allowed` where they happen. -/
inductive Reaches (core : Nat) (allowed : Kernel → Event → Prop) : Kernel → Prop
  | start {system : Kernel} (fresh : Fresh core system) : Reaches core allowed system
  | act {system after : Kernel} {event : Event} {selection : Option Selection}
      (earlier : Reaches core allowed system) (possible : system.Possible event)
      (fits : allowed system event) (acted : system.act core event = some (after, selection)) :
      Reaches core allowed after

/-- Two systems that differ at most in saved registers. -/
structure SameTasks (core : Nat) (first second : Kernel) : Prop where
  taskStates : second.taskStates = first.taskStates
  pids : second.pids = first.pids
  processStates : second.processStates = first.processStates
  processThreads : second.processThreads = first.processThreads
  processes : second.processes = first.processes
  threads : second.threads = first.threads
  taskQueue : second.taskQueue = first.taskQueue
  runningThread : (second.cpus core).runningThread = (first.cpus core).runningThread

variable {system after : Kernel} {core : Nat}

theorem same_enter_syscall (data : SyscallData) :
    SameTasks core system (system.enterSyscall core data) ∧
      ((system.enterSyscall core data).cpus core).interruptSources.head? = some .syscall := by
  refine ⟨⟨rfl, rfl, rfl, rfl, rfl, rfl, rfl, ?_⟩, ?_⟩
  · simp [enterSyscall, pushSource, setCpu]
  · simp [enterSyscall, pushSource, setCpu]

theorem same_set_state (thread : Nat) (state : ThreadState) :
    SameTasks core system (system.setState thread state) :=
  ⟨rfl, rfl, rfl, rfl, rfl, rfl, rfl, rfl⟩

theorem SameTasks.trans {first second third : Kernel} (one : SameTasks core first second)
    (two : SameTasks core second third) : SameTasks core first third :=
  ⟨two.taskStates.trans one.taskStates, two.pids.trans one.pids,
    two.processStates.trans one.processStates, two.processThreads.trans one.processThreads,
    two.processes.trans one.processes, two.threads.trans one.threads,
    two.taskQueue.trans one.taskQueue, two.runningThread.trans one.runningThread⟩

theorem same_save_syscall : SameTasks core system (system.saveSyscallState core) := by
  unfold saveSyscallState
  split
  · exact same_set_state _ _
  · exact ⟨rfl, rfl, rfl, rfl, rfl, rfl, rfl, rfl⟩

theorem same_enter_interrupt (frame : InterruptFrame) :
    SameTasks core system (system.commonEnterInterrupt core frame) := by
  have pushed : ∀ source, SameTasks core system (system.pushSource core source) := fun source =>
    ⟨rfl, rfl, rfl, rfl, rfl, rfl, rfl, by simp [pushSource, setCpu]⟩
  unfold commonEnterInterrupt
  split
  · exact pushed .kernel
  · dsimp only
    split
    · exact (pushed .syscall).trans (same_set_state _ _)
    · exact pushed .syscall

theorem same_enter (entry : Entry) : SameTasks core system (system.enter core entry) := by
  cases entry with
  | timer frame => exact same_enter_interrupt frame
  | yield data =>
      have pushed := (@same_enter_syscall system core data).1
      simp only [enter]
      split
      · exact pushed
      · exact pushed.trans (same_set_state _ _)
  | syscall data => exact (same_enter_syscall data).1
  | kernel => exact ⟨rfl, rfl, rfl, rfl, rfl, rfl, rfl, rfl⟩

/-- An entry from user code leaves `Syscall` as the last source. -/
theorem enter_source {entry : Entry} (possible : system.Possible (.schedule entry))
    (fromUser : entry ≠ .kernel) :
    ((system.enter core entry).cpus core).interruptSources.head? = some .syscall := by
  cases entry with
  | timer frame =>
      simp only [enter, commonEnterInterrupt]
      rw [if_neg possible]
      split
      · simp [setState, pushSource, setCpu]
      · simp [pushSource, setCpu]
  | yield data =>
      have pushed := (@same_enter_syscall system core data).2
      simp only [enter]
      split
      · exact pushed
      · exact pushed
  | syscall data => exact (same_enter_syscall data).2
  | kernel => exact absurd rfl fromUser

/-- The last source is one that comes with the running thread's registers. -/
def FromUser (system : Kernel) (core : Nat) : Prop :=
  (system.cpus core).interruptSources.head? = some .user ∨
    (system.cpus core).interruptSources.head? = some .syscall

instance (system : Kernel) (core : Nat) : Decidable (system.FromUser core) :=
  inferInstanceAs (Decidable (_ ∨ _))

instance (system : Kernel) (tid : Nat) : Decidable (system.Live tid) :=
  inferInstanceAs (Decidable (_ ∧ _))

/-- The thread that `schedule` puts back into the queue. -/
def requeued (system : Kernel) (core : Nat) : List Nat :=
  (system.cpus core).runningThread.toList.filter fun thread =>
    system.FromUser core ∧ system.Live thread

theorem requeue_eq (system : Kernel) (core : Nat) :
    system.requeueRunning core =
      { system with taskQueue := system.taskQueue ++ system.requeued core } := by
  cases running : (system.cpus core).runningThread with
  | none => simp [requeueRunning, requeued, running]
  | some thread =>
      cases source : (system.cpus core).interruptSources.head? with
      | none => simp [requeueRunning, requeued, FromUser, running, source]
      | some last =>
          by_cases live : system.Live thread
          · have alive := live
            simp only [Live] at alive
            cases last <;> simp [requeueRunning, requeued, FromUser, running, source, live, alive]
          · have ended : (system.taskStates thread).isZombie = true ∨
                (system.processStates (system.pids thread)).isZombie = true := by
              simpa only [Live, not_and_or, Bool.not_eq_false] using live
            cases last <;> simp [requeueRunning, requeued, FromUser, running, source, live, ended]

theorem mem_requeued {tid : Nat} :
    tid ∈ system.requeued core ↔ (system.cpus core).runningThread = some tid ∧
      system.FromUser core ∧ system.Live tid := by
  simp [requeued]

theorem requeued_nodup (system : Kernel) (core : Nat) : (system.requeued core).Nodup := by
  refine List.Nodup.filter _ ?_
  cases (system.cpus core).runningThread <;> simp

structure Selects (core thread : Nat) (taskQueue : List Nat) (before after : Kernel) : Prop where
  taskStates : after.taskStates = Function.update before.taskStates thread .running
  pids : after.pids = before.pids
  processStates : ∀ pid, after.processStates pid =
    if pid = before.pids thread ∧ before.processes pid then .running else before.processStates pid
  processThreads : after.processThreads = before.processThreads
  processes : after.processes = before.processes
  threads : after.threads = before.threads
  taskQueue : after.taskQueue = taskQueue
  runningThread : (after.cpus core).runningThread = some thread

theorem select_selects (thread : Nat) :
    Selects core thread system.taskQueue system (system.select core thread).1 := by
  unfold select
  dsimp only
  split_ifs with registered
  · refine ⟨rfl, rfl, fun pid => ?_, rfl, rfl, rfl, rfl, by simp [setCpu]⟩
    change Function.update system.processStates (system.pids thread) .running pid = _
    by_cases same : pid = system.pids thread
    · rw [same, Function.update_self, if_pos ⟨rfl, registered⟩]
    · rw [Function.update_of_ne same, if_neg fun both => same both.1]
  · refine ⟨rfl, rfl, fun pid => ?_, rfl, rfl, rfl, rfl, by simp [setCpu]⟩
    refine (if_neg ?_).symm
    rintro ⟨rfl, known⟩
    exact registered known

theorem schedule_first_round
    (runnable : ∀ thread ∈ system.taskQueue ++ system.requeued core, system.skips thread = false)
    {after : Kernel} {selection : Option Selection}
    (returned : system.schedule core = some (after, selection)) :
    (system.taskQueue ++ system.requeued core = [] ∧ selection = none ∧
        SameTasks core system after) ∨
      ∃ thread taskQueue, system.taskQueue ++ system.requeued core = thread :: taskQueue ∧
        (∃ restored, selection = some ⟨thread, restored⟩) ∧
        Selects core thread taskQueue system after := by
  rw [schedule, scheduleLoop, requeue_eq] at returned
  simp only at returned
  cases queue : system.taskQueue ++ system.requeued core with
  | nil =>
      rw [queue] at returned
      simp only [Option.some.injEq, Prod.mk.injEq] at returned
      obtain ⟨rfl, rfl⟩ := returned
      have still : system.taskQueue = [] := (List.append_eq_nil_iff.mp queue).1
      refine .inl ⟨rfl, rfl, SameTasks.trans ?_ same_save_syscall⟩
      exact ⟨rfl, rfl, rfl, rfl, rfl, rfl, still.symm, rfl⟩
  | cons thread taskQueue =>
      rw [queue] at returned
      simp only at returned
      have same := @same_save_syscall { system with taskQueue := taskQueue } core
      have runs : ({ system with taskQueue := taskQueue }.saveSyscallState core).skips thread =
          false := by
        refine Eq.trans ?_ (runnable thread (by rw [queue]; exact List.mem_cons_self))
        unfold skips
        rw [same.processes, same.processStates, same.pids]
      rw [runs, if_neg Bool.false_ne_true] at returned
      have selects := @select_selects
        ({ system with taskQueue := taskQueue }.saveSyscallState core) core thread
      have restored := (select_frame
        ({ system with taskQueue := taskQueue }.saveSyscallState core) core thread).2
      obtain ⟨rfl, rfl⟩ := Prod.mk.inj (Option.some.inj returned)
      refine .inr ⟨thread, taskQueue, rfl, ⟨_, restored⟩, ?_⟩
      obtain ⟨taskStates, pids, processStates, processThreads, processes, threads, queued, now⟩ :=
        selects
      rw [same.taskStates] at taskStates
      rw [same.pids] at pids
      simp only [same.processStates, same.pids, same.processes] at processStates
      rw [same.processThreads] at processThreads
      rw [same.processes] at processes
      rw [same.threads] at threads
      rw [same.taskQueue] at queued
      exact ⟨taskStates, pids, processStates, processThreads, processes, threads, queued, now⟩

theorem end_threads_sole {pid exitCode : Nat} {tids : List Nat} (sole : ∀ tid ∈ tids, tid = pid) :
    ∀ {system : Kernel}, system.pids pid = pid →
      ∃ processThreads taskStates,
        tids.foldl (fun system tid => system.endThread tid exitCode) system =
          { system with processThreads := processThreads, taskStates := taskStates } ∧
        ∀ other ≠ pid, processThreads other = system.processThreads other ∧
          taskStates other = system.taskStates other := by
  induction tids with
  | nil =>
      intro system _
      exact ⟨system.processThreads, system.taskStates, rfl, fun other _ => ⟨rfl, rfl⟩⟩
  | cons tid tids ih =>
      intro system own
      obtain rfl := sole tid List.mem_cons_self
      have rest := @ih fun other member => sole other (List.mem_cons_of_mem _ member)
      rw [List.foldl_cons]
      by_cases known : system.threads tid = true
      · rw [endThread, if_pos known]
        obtain ⟨processThreads, taskStates, ended, others⟩ := @rest
          { system with
            processThreads := Function.update system.processThreads (system.pids tid)
              ((system.processThreads (system.pids tid)).filter (· ≠ tid))
            taskStates := Function.update system.taskStates tid (.zombie exitCode) } own
        refine ⟨processThreads, taskStates, ended, fun other different => ?_⟩
        obtain ⟨sameThreads, sameState⟩ := others other different
        simp only [own, Function.update_of_ne different] at sameThreads sameState
        exact ⟨sameThreads, sameState⟩
      · rw [endThread, if_neg known]
        exact rest own

theorem process_exit_eq {pid exitCode : Nat} (registered : system.processes pid = true)
    (own : system.pids pid = pid) (sole : ∀ tid ∈ system.processThreads pid, tid = pid) :
    ∃ processThreads taskStates,
      system.handleProcessExit pid exitCode = { system with
        processes := Function.update system.processes pid false
        processStates := Function.update system.processStates pid (.zombie exitCode)
        processThreads := processThreads
        taskStates := taskStates } ∧
      ∀ other ≠ pid, processThreads other = system.processThreads other ∧
        taskStates other = system.taskStates other := by
  obtain ⟨processThreads, taskStates, ended, others⟩ := @end_threads_sole pid exitCode _ sole
    { system with processes := Function.update system.processes pid false } own
  refine ⟨processThreads, taskStates, ?_, others⟩
  rw [handleProcessExit, if_pos registered]
  simp only
  rw [ended]

/-- A created thread is alive exactly while its process is registered; the queue has each
thread once and never the running one. -/
structure Sound (core : Nat) (system : Kernel) : Prop where
  own : ∀ tid, system.threads tid = true → system.pids tid = tid
  known : ∀ pid, system.processes pid = true → system.threads pid = true
  sole : ∀ pid, system.processes pid = true → ∀ tid ∈ system.processThreads pid, tid = pid
  status : ∀ tid, system.threads tid = true →
    (system.processStates tid).isZombie = !system.processes tid
  ended : ∀ tid, system.threads tid = true → (system.taskStates tid).isZombie = true →
    system.processes tid = false
  queued : ∀ tid ∈ system.taskQueue, system.threads tid = true
  nodup : system.taskQueue.Nodup
  running : ∀ tid, (system.cpus core).runningThread = some tid →
    system.threads tid = true ∧ tid ∉ system.taskQueue

theorem live_iff (sound : Sound core system) {tid : Nat} (known : system.threads tid = true) :
    system.Live tid ↔ system.processes tid = true := by
  have status := sound.status tid known
  unfold Live
  rw [sound.own tid known, status, Bool.not_eq_false']
  constructor
  · exact fun live => live.2
  · intro registered
    refine ⟨?_, registered⟩
    cases zombie : (system.taskStates tid).isZombie with
    | false => rfl
    | true =>
        rw [sound.ended tid known zombie] at registered
        exact absurd registered Bool.false_ne_true

theorem sound_fresh (fresh : Fresh core system) : Sound core system where
  own tid known := absurd known (by rw [fresh.threads]; exact Bool.false_ne_true)
  known pid registered := absurd registered (by rw [fresh.processes]; exact Bool.false_ne_true)
  sole pid registered := absurd registered (by rw [fresh.processes]; exact Bool.false_ne_true)
  status tid known := absurd known (by rw [fresh.threads]; exact Bool.false_ne_true)
  ended tid known := absurd known (by rw [fresh.threads]; exact Bool.false_ne_true)
  queued tid member := absurd member (by rw [fresh.taskQueue]; exact List.not_mem_nil)
  nodup := by rw [fresh.taskQueue]; exact List.nodup_nil
  running tid now := absurd now (by rw [fresh.runningThread]; exact (Option.some_ne_none tid).symm)

theorem sound_same (sound : Sound core system) (same : SameTasks core system after) :
    Sound core after := by
  obtain ⟨own, known, sole, status, ended, queued, nodup, running⟩ := sound
  obtain ⟨taskStates, pids, processStates, processThreads, processes, threads, taskQueue,
    runningThread⟩ := same
  constructor
  · rwa [pids, threads]
  · rwa [processes, threads]
  · rwa [processes, processThreads]
  · rwa [threads, processStates, processes]
  · rwa [threads, taskStates, processes]
  · rwa [taskQueue, threads]
  · rwa [taskQueue]
  · rwa [runningThread, threads, taskQueue]

theorem sound_spawn (sound : Sound core system) {tid : Nat} (fresh : system.threads tid = false)
    (state : ThreadState) : Sound core (system.spawn tid state) := by
  have other : ∀ {known}, system.threads known = true → known ≠ tid := by
    rintro known isKnown rfl
    rw [fresh] at isKnown
    exact Bool.false_ne_true isKnown
  have notQueued : tid ∉ system.taskQueue := fun member => other (sound.queued tid member) rfl
  -- A thread of the new system is the new one or an old one.
  have old : ∀ {known : Nat}, (system.spawn tid state).threads known = true → known ≠ tid →
      system.threads known = true := by
    intro known isKnown different
    change Function.update system.threads tid true known = true at isKnown
    rwa [Function.update_of_ne different] at isKnown
  constructor
  · intro known isKnown
    change Function.update system.pids tid tid known = known
    by_cases same : known = tid
    · rw [same, Function.update_self]
    · rw [Function.update_of_ne same]
      exact sound.own known (old isKnown same)
  · intro pid registered
    change Function.update system.processes tid true pid = true at registered
    change Function.update system.threads tid true pid = true
    by_cases same : pid = tid
    · rw [same, Function.update_self]
    · rw [Function.update_of_ne same] at registered ⊢
      exact sound.known pid registered
  · intro pid registered member inside
    change Function.update system.processes tid true pid = true at registered
    change member ∈ Function.update system.processThreads tid [tid] pid at inside
    by_cases same : pid = tid
    · rw [same, Function.update_self, List.mem_singleton] at inside
      rw [inside, same]
    · rw [Function.update_of_ne same] at registered inside
      exact sound.sole pid registered member inside
  · intro known isKnown
    change (Function.update system.processStates tid .init known).isZombie =
      !Function.update system.processes tid true known
    by_cases same : known = tid
    · rw [same, Function.update_self, Function.update_self]
      rfl
    · rw [Function.update_of_ne same, Function.update_of_ne same]
      exact sound.status known (old isKnown same)
  · intro known isKnown zombie
    change (Function.update system.taskStates tid .init known).isZombie = true at zombie
    change Function.update system.processes tid true known = false
    by_cases same : known = tid
    · rw [same, Function.update_self] at zombie
      exact absurd zombie Bool.false_ne_true
    · rw [Function.update_of_ne same] at zombie ⊢
      exact sound.ended known (old isKnown same) zombie
  · intro known member
    change Function.update system.threads tid true known = true
    rcases List.mem_append.mp member with before | new
    · rw [Function.update_of_ne (other (sound.queued known before))]
      exact sound.queued known before
    · rw [List.mem_singleton.mp new, Function.update_self]
  · exact sound.nodup.append (List.nodup_singleton tid) (by simpa using notQueued)
  · intro now isRunning
    obtain ⟨isKnown, notInQueue⟩ := sound.running now isRunning
    refine ⟨?_, ?_⟩
    · change Function.update system.threads tid true now = true
      rw [Function.update_of_ne (other isKnown)]
      exact isKnown
    · change now ∉ system.taskQueue ++ [tid]
      simp only [List.mem_append, List.mem_singleton, not_or]
      exact ⟨notInQueue, other isKnown⟩

/-- A process that is not registered any more is a zombie; of its threads nothing is asked. -/
theorem sound_ended (sound : Sound core system) {pid : Nat} {processes : Nat → Bool}
    {processStates taskStates : Nat → TaskState} {processThreads : Nat → List Nat}
    (gone : processes pid = false) (zombie : (processStates pid).isZombie = true)
    (others : ∀ other ≠ pid, processes other = system.processes other ∧
      processStates other = system.processStates other ∧
      processThreads other = system.processThreads other ∧
      taskStates other = system.taskStates other) :
    Sound core { system with
      processes := processes
      processStates := processStates
      processThreads := processThreads
      taskStates := taskStates } := by
  have apart : ∀ {other}, processes other = true →
      other ≠ pid ∧ system.processes other = true := by
    intro other registered
    by_cases same : other = pid
    · rw [same, gone] at registered
      exact absurd registered Bool.false_ne_true
    · rw [(others other same).1] at registered
      exact ⟨same, registered⟩
  refine ⟨sound.own, fun other registered => ?_, fun other registered tid member => ?_,
    fun tid known => ?_, fun tid known ended => ?_, sound.queued, sound.nodup, sound.running⟩
  · exact sound.known other (apart registered).2
  · obtain ⟨different, before⟩ := apart registered
    simp only [(others other different).2.2.1] at member
    exact sound.sole other before tid member
  · simp only
    by_cases same : tid = pid
    · rw [same, gone, zombie]
      rfl
    · rw [(others tid same).1, (others tid same).2.1]
      exact sound.status tid known
  · simp only at ended ⊢
    by_cases same : tid = pid
    · rw [same, gone]
    · rw [(others tid same).2.2.2] at ended
      rw [(others tid same).1]
      exact sound.ended tid known ended

theorem sound_process_exit (sound : Sound core system) (pid exitCode : Nat) :
    Sound core (system.handleProcessExit pid exitCode) := by
  by_cases registered : system.processes pid = true
  · obtain ⟨processThreads, taskStates, ended, others⟩ := @process_exit_eq system pid exitCode
      registered (sound.own pid (sound.known pid registered)) (sound.sole pid registered)
    rw [ended]
    have gone : Function.update system.processes pid false pid = false := Function.update_self ..
    refine sound_ended sound gone ?_ fun other different => ?_
    · rw [Function.update_self]
      rfl
    · rw [Function.update_of_ne different, Function.update_of_ne different]
      exact ⟨rfl, rfl, others other different⟩
  · rw [handleProcessExit, if_neg registered]
    exact sound

/-- The one thread of a process ends, and the process with it if it had not ended before. -/
theorem exit_eq (sound : Sound core system) {tid : Nat} (known : system.threads tid = true)
    (exitCode : Nat) :
    ∃ processes processStates processThreads taskStates,
      system.handleExit tid exitCode = { system with
        processes := processes
        processStates := processStates
        processThreads := processThreads
        taskStates := taskStates } ∧
      processes tid = false ∧ (processStates tid).isZombie = true ∧
      ∀ other ≠ tid, processes other = system.processes other ∧
        processStates other = system.processStates other ∧
        processThreads other = system.processThreads other ∧
        taskStates other = system.taskStates other := by
  have own := sound.own tid known
  rw [handleExit, if_pos known]
  simp only [endThread, if_pos known, own, Function.update_self]
  by_cases registered : system.processes tid = true
  · have last : (system.processThreads tid).filter (· ≠ tid) = [] := by
      refine List.filter_eq_nil_iff.mpr fun member inside => ?_
      simp [sound.sole tid registered member inside]
    obtain ⟨processThreads, taskStates, ended, others⟩ := @process_exit_eq { system with
        processThreads := Function.update system.processThreads tid []
        taskStates := Function.update system.taskStates tid (.zombie exitCode) } tid exitCode
      registered own (by
        intro member inside
        simp only [Function.update_self] at inside
        exact absurd inside List.not_mem_nil)
    rw [last, List.isEmpty_nil, if_pos rfl, ended]
    refine ⟨_, _, _, _, rfl, Function.update_self _ _ _, ?_, fun other different => ?_⟩
    · rw [Function.update_self]
      rfl
    · obtain ⟨sameThreads, sameState⟩ := others other different
      simp only [Function.update_of_ne different] at sameThreads sameState
      rw [Function.update_of_ne different, Function.update_of_ne different]
      exact ⟨rfl, rfl, sameThreads, sameState⟩
  · have gone : system.processes tid = false := Bool.eq_false_iff.mpr registered
    have zombie : (system.processStates tid).isZombie = true := by
      rw [sound.status tid known, gone]
      rfl
    refine ⟨system.processes, system.processStates,
      Function.update system.processThreads tid ((system.processThreads tid).filter (· ≠ tid)),
      Function.update system.taskStates tid (.zombie exitCode), ?_, gone, zombie,
      fun other different => ⟨rfl, rfl, ?_⟩⟩
    · split_ifs
      · rw [handleProcessExit, if_neg registered]
      · rfl
    · rw [Function.update_of_ne different, Function.update_of_ne different]
      exact ⟨rfl, rfl⟩

theorem sound_exit (sound : Sound core system) {tid : Nat} (known : system.threads tid = true)
    (exitCode : Nat) : Sound core (system.handleExit tid exitCode) := by
  obtain ⟨processes, processStates, processThreads, taskStates, ended, gone, zombie, others⟩ :=
    exit_eq sound known exitCode
  rw [ended]
  exact sound_ended sound gone zombie others

theorem runnable_of_sound (sound : Sound core system) {tid : Nat}
    (known : system.threads tid = true) : system.skips tid = false := by
  rw [skips, sound.own tid known, sound.status tid known]
  cases system.processes tid <;> rfl

theorem next_queue (sound : Sound core system) :
    (system.taskQueue ++ system.requeued core).Nodup ∧
      ∀ tid ∈ system.taskQueue ++ system.requeued core, system.threads tid = true := by
  refine ⟨sound.nodup.append (requeued_nodup system core) fun tid waiting back => ?_,
    fun tid member => ?_⟩
  · exact (sound.running tid (mem_requeued.mp back).1).2 waiting
  · rcases List.mem_append.mp member with waiting | back
    · exact sound.queued tid waiting
    · exact (sound.running tid (mem_requeued.mp back).1).1

theorem sound_selects (sound : Sound core system) {thread : Nat} {taskQueue : List Nat}
    (queue : system.taskQueue ++ system.requeued core = thread :: taskQueue)
    (selects : Selects core thread taskQueue system after) : Sound core after := by
  obtain ⟨nodup, known⟩ := next_queue sound
  rw [queue] at nodup known
  obtain ⟨notAgain, nodupRest⟩ := List.nodup_cons.mp nodup
  have knownThread := known thread List.mem_cons_self
  have own := sound.own thread knownThread
  obtain ⟨taskStates, pids, processStates, processThreads, processes, threads, queued, now⟩ :=
    selects
  constructor
  · rw [pids, threads]
    exact sound.own
  · rw [processes, threads]
    exact sound.known
  · rw [processes, processThreads]
    exact sound.sole
  · rw [threads, processes]
    intro tid isKnown
    rw [processStates]
    split_ifs with chosen
    · rw [chosen.2]
      rfl
    · exact sound.status tid isKnown
  · rw [threads, taskStates, processes]
    intro tid isKnown zombie
    by_cases same : tid = thread
    · rw [same, Function.update_self] at zombie
      exact absurd zombie Bool.false_ne_true
    · rw [Function.update_of_ne same] at zombie
      exact sound.ended tid isKnown zombie
  · rw [queued, threads]
    exact fun tid member => known tid (List.mem_cons_of_mem _ member)
  · rw [queued]
    exact nodupRest
  · rw [now, queued, threads]
    rintro tid same
    obtain rfl := Option.some.inj same
    exact ⟨knownThread, notAgain⟩

variable {event : Event} {selection : Option Selection}

theorem schedule_sound (sound : Sound core system)
    (returned : system.schedule core = some (after, selection)) :
    (system.taskQueue ++ system.requeued core = [] ∧ selection = none ∧
        SameTasks core system after) ∨
      ∃ thread taskQueue, system.taskQueue ++ system.requeued core = thread :: taskQueue ∧
        (∃ restored, selection = some ⟨thread, restored⟩) ∧
        Selects core thread taskQueue system after :=
  schedule_first_round (fun tid member => runnable_of_sound sound ((next_queue sound).2 tid member))
    returned

theorem sound_act (sound : Sound core system) (possible : system.Possible event)
    (acted : system.act core event = some (after, selection)) : Sound core after := by
  cases event with
  | create tid state =>
      obtain ⟨rfl, rfl⟩ := Prod.mk.inj (Option.some.inj acted)
      exact sound_spawn sound possible state
  | schedule entry =>
      have entered := sound_same sound (@same_enter system core entry)
      rcases schedule_sound entered acted with ⟨_, _, same⟩ | ⟨thread, taskQueue, queue, _, selects⟩
      · exact sound_same entered same
      · exact sound_selects entered queue selects
  | exit exitCode =>
      simp only [act] at acted
      cases running : (system.cpus core).runningThread with
      | none => simp [running] at acted
      | some thread =>
          rw [running] at acted
          obtain ⟨rfl, rfl⟩ := Prod.mk.inj (Option.some.inj acted)
          exact sound_exit sound (sound.running thread running).1 exitCode
  | processExit pid exitCode =>
      obtain ⟨rfl, rfl⟩ := Prod.mk.inj (Option.some.inj acted)
      exact sound_process_exit sound pid exitCode
  | kill pid =>
      obtain ⟨rfl, rfl⟩ := Prod.mk.inj (Option.some.inj acted)
      unfold killProcess
      split_ifs
      · exact sound_process_exit sound pid _
      · exact sound

theorem sound_of_reaches {allowed : Kernel → Event → Prop}
    (reaches : Reaches core allowed system) : Sound core system := by
  induction reaches with
  | start fresh => exact sound_fresh fresh
  | act earlier possible fits acted ih => exact sound_act ih possible acted

/-- The process `ended` is not registered any more; the queue, the core and all other processes
are as they were. -/
structure Ends (ended : Nat) (system after : Kernel) : Prop where
  taskQueue : after.taskQueue = system.taskQueue
  cpus : after.cpus = system.cpus
  threads : after.threads = system.threads
  gone : after.processes ended = false
  others : ∀ pid ≠ ended, after.processes pid = system.processes pid

theorem Ends.registered {ended pid : Nat} (ends : Ends ended system after)
    (still : after.processes pid = true) : system.processes pid = true := by
  by_cases same : pid = ended
  · rw [same, ends.gone] at still
    exact absurd still Bool.false_ne_true
  · rw [← ends.others pid same]
    exact still

theorem process_exit_ends (sound : Sound core system) (pid exitCode : Nat) :
    Ends pid system (system.handleProcessExit pid exitCode) := by
  by_cases registered : system.processes pid = true
  · obtain ⟨processThreads, taskStates, ended, _⟩ := @process_exit_eq system pid exitCode
      registered (sound.own pid (sound.known pid registered)) (sound.sole pid registered)
    rw [ended]
    exact ⟨rfl, rfl, rfl, Function.update_self _ _ _,
      fun other different => Function.update_of_ne different _ _⟩
  · rw [handleProcessExit, if_neg registered]
    exact ⟨rfl, rfl, rfl, Bool.eq_false_iff.mpr registered, fun _ _ => rfl⟩

theorem exit_ends (sound : Sound core system) {tid : Nat} (known : system.threads tid = true)
    (exitCode : Nat) : Ends tid system (system.handleExit tid exitCode) := by
  obtain ⟨processes, processStates, processThreads, taskStates, ended, gone, _, others⟩ :=
    exit_eq sound known exitCode
  rw [ended]
  exact ⟨rfl, rfl, rfl, gone, fun other different => (others other different).1⟩

theorem kill_ends (sound : Sound core system) (pid : Nat) :
    Ends pid system (system.killProcess pid) := by
  unfold killProcess
  split_ifs with registered
  · exact process_exit_ends sound pid _
  · exact ⟨rfl, rfl, rfl, Bool.eq_false_iff.mpr registered, fun _ _ => rfl⟩

/-- The event is a creation, an entry of `schedule`, or ends a process: that of the running
thread, or the one it names. -/
theorem act_cases (sound : Sound core system)
    (acted : system.act core event = some (after, selection)) :
    (∃ tid state, event = .create tid state ∧ after = system.spawn tid state) ∨
      (∃ entry, event = .schedule entry ∧
        (system.enter core entry).schedule core = some (after, selection)) ∨
      ∃ ended, Ends ended system after ∧ ((system.cpus core).runningThread = some ended ∨
        event = .kill ended ∨ ∃ exitCode, event = .processExit ended exitCode) := by
  cases event with
  | create tid state =>
      obtain ⟨rfl, rfl⟩ := Prod.mk.inj (Option.some.inj acted)
      exact .inl ⟨tid, state, rfl, rfl⟩
  | schedule entry => exact .inr (.inl ⟨entry, rfl, acted⟩)
  | exit exitCode =>
      simp only [act] at acted
      cases running : (system.cpus core).runningThread with
      | none => simp [running] at acted
      | some thread =>
          rw [running] at acted
          obtain ⟨rfl, rfl⟩ := Prod.mk.inj (Option.some.inj acted)
          exact .inr (.inr ⟨thread, exit_ends sound (sound.running thread running).1 exitCode,
            .inl rfl⟩)
  | processExit pid exitCode =>
      obtain ⟨rfl, rfl⟩ := Prod.mk.inj (Option.some.inj acted)
      exact .inr (.inr ⟨pid, process_exit_ends sound pid exitCode, .inr (.inr ⟨exitCode, rfl⟩)⟩)
  | kill pid =>
      obtain ⟨rfl, rfl⟩ := Prod.mk.inj (Option.some.inj acted)
      exact .inr (.inr ⟨pid, kill_ends sound pid, .inr (.inl rfl)⟩)

/-- The kernel enters `schedule` by itself only when no live thread is running. -/
def Regular (core : Nat) (system : Kernel) : Event → Prop
  | .schedule .kernel => system.FromUser core ∨
      ∀ tid, (system.cpus core).runningThread = some tid → ¬ system.Live tid
  | _ => True

/-- Every live thread waits in the queue or runs. -/
def Accounted (core : Nat) (system : Kernel) : Prop :=
  ∀ tid, system.threads tid = true → system.processes tid = true →
    tid ∈ system.taskQueue ∨ (system.cpus core).runningThread = some tid

theorem live_queued_next (sound : Sound core system) (accounted : Accounted core system)
    {entry : Entry} (possible : system.Possible (.schedule entry))
    (regular : Regular core system (.schedule entry)) {tid : Nat}
    (known : system.threads tid = true) (registered : system.processes tid = true) :
    tid ∈ (system.enter core entry).taskQueue ++ (system.enter core entry).requeued core := by
  have same := @same_enter system core entry
  rw [List.mem_append, same.taskQueue, mem_requeued, same.runningThread]
  rcases accounted tid known registered with waiting | now
  · exact .inl waiting
  · have live := (live_iff sound known).mpr registered
    have liveStill : (system.enter core entry).Live tid := by
      unfold Live
      rw [same.taskStates, same.processStates, same.pids]
      exact live
    refine .inr ⟨now, ?_, liveStill⟩
    by_cases fromKernel : entry = .kernel
    · subst fromKernel
      exact regular.resolve_right fun idle => idle tid now live
    · exact .inr (enter_source possible fromKernel)

theorem accounted_act (sound : Sound core system) (accounted : Accounted core system)
    (possible : system.Possible event) (regular : Regular core system event)
    (acted : system.act core event = some (after, selection)) : Accounted core after := by
  rcases act_cases sound acted with ⟨new, state, rfl, rfl⟩ | ⟨entry, rfl, entered⟩ | ⟨_, ends, _⟩
  · intro tid known registered
    change tid ∈ system.taskQueue ++ [new] ∨ (system.cpus core).runningThread = some tid
    by_cases same : tid = new
    · exact .inl (by simp [same])
    · change Function.update system.threads new true tid = true at known
      change Function.update system.processes new true tid = true at registered
      rw [Function.update_of_ne same] at known registered
      exact (accounted tid known registered).imp (List.mem_append_left _) id
  · have same := @same_enter system core entry
    have next := fun tid => @live_queued_next system core sound accounted entry possible regular tid
    rcases schedule_sound (sound_same sound same) entered with
      ⟨empty, _, idle⟩ | ⟨thread, taskQueue, queue, _, selects⟩
    · intro tid known registered
      rw [idle.threads, same.threads] at known
      rw [idle.processes, same.processes] at registered
      have member := next tid known registered
      rw [empty] at member
      exact absurd member List.not_mem_nil
    · intro tid known registered
      rw [selects.threads, same.threads] at known
      rw [selects.processes, same.processes] at registered
      have member := next tid known registered
      rw [queue] at member
      rw [selects.taskQueue, selects.runningThread]
      rcases List.mem_cons.mp member with rfl | waiting
      · exact .inr rfl
      · exact .inl waiting
  · intro tid known registered
    rw [ends.threads] at known
    rw [ends.taskQueue, ends.cpus]
    exact accounted tid known (ends.registered registered)

theorem accounted_of_reaches (reaches : Reaches core (Regular core) system) :
    Accounted core system := by
  induction reaches with
  | start fresh =>
      intro tid known
      rw [fresh.threads] at known
      exact absurd known Bool.false_ne_true
  | act earlier possible fits acted ih =>
      exact accounted_act (sound_of_reaches earlier) ih possible fits acted

/-- After every step of every run each live thread is once in the queue or is running, and not
both. -/
theorem live_threads_accounted (reaches : Reaches core (Regular core) system) {tid : Nat}
    (created : system.threads tid = true) (live : system.Live tid) :
    (system.taskQueue.count tid = 1 ∧ (system.cpus core).runningThread ≠ some tid) ∨
      (system.taskQueue.count tid = 0 ∧ (system.cpus core).runningThread = some tid) := by
  have sound := sound_of_reaches reaches
  by_cases now : (system.cpus core).runningThread = some tid
  · exact .inr ⟨List.count_eq_zero.mpr (sound.running tid now).2, now⟩
  · have waiting := (accounted_of_reaches reaches tid created
      ((live_iff sound created).mp live)).resolve_right now
    exact .inl ⟨List.count_eq_one_of_mem sound.nodup waiting, now⟩

def noThreads : Kernel where
  states _ := ⟨clearRegisters, 0, 0, 0, 0, 0, 0⟩
  taskStates _ := .init
  pids tid := tid
  processStates _ := .init
  processThreads _ := []
  processes _ := false
  threads _ := false
  taskQueue := []
  cpus _ := ⟨[], none, ⟨clearRegisters, 0, 0⟩⟩

theorem no_threads_fresh : Fresh 0 noThreads :=
  ⟨fun _ => rfl, fun _ => rfl, rfl, rfl⟩

def firstState : ThreadState :=
  ⟨clearRegisters, 0x401000, 0x7FFF_FFFF_F000, 0, 0x202, 0, 0⟩

theorem first_thread_possible : noThreads.Possible (.create 1 firstState) := rfl

/-- Three threads are created, the timer takes the core from the first one, and the process of
the second one is killed while it runs. -/
def secondKilled : Kernel :=
  let created := ((noThreads.spawn 1 firstState).spawn 2 firstState).spawn 3 firstState
  let dispatched := ((created.act 0 (.schedule .kernel)).map Prod.fst).getD created
  let preempted := ((dispatched.act 0 (.schedule (.timer userFrame))).map Prod.fst).getD created
  preempted.killProcess 2

theorem second_killed_reached {allowed : Kernel → Event → Prop}
    (creates : ∀ system tid state, allowed system (.create tid state))
    (dispatches : ∀ system, (system.cpus 0).runningThread = none →
      allowed system (.schedule .kernel))
    (timers : ∀ system frame, allowed system (.schedule (.timer frame)))
    (kills : ∀ system, system.taskQueue = [3, 1] → system.pids = id → allowed system (.kill 2)) :
    Reaches 0 allowed secondKilled := by
  have first : Reaches 0 allowed (noThreads.spawn 1 firstState) :=
    .act (.start no_threads_fresh) first_thread_possible (creates _ _ _) rfl
  have second := first.act (show Possible _ (.create 2 firstState) from rfl) (creates _ _ _) rfl
  have third := second.act (show Possible _ (.create 3 firstState) from rfl) (creates _ _ _) rfl
  have dispatched := third.act (show Possible _ (.schedule .kernel) from trivial)
    (dispatches _ rfl) rfl
  have interrupted : userFrame.cs &&& 0b11 ≠ 0 := by decide
  have preempted := dispatched.act (show Possible _ (.schedule (.timer userFrame)) from interrupted)
    (timers _ _) rfl
  refine preempted.act (show Possible _ (.kill 2) from trivial) (kills _ rfl ?_) rfl
  funext tid
  change Function.update (Function.update (Function.update id 1 1) 2 2) 3 3 tid = tid
  simp only [Function.update_apply, id_eq]
  split_ifs <;> omega

/-- The threads 1 and 3 wait, and the process of the thread that runs is gone. -/
theorem waiting_threads_accounted :
    secondKilled.taskQueue = [3, 1] ∧
    ((secondKilled.taskQueue.count 1 = 1 ∧ (secondKilled.cpus 0).runningThread ≠ some 1) ∨
      (secondKilled.taskQueue.count 1 = 0 ∧ (secondKilled.cpus 0).runningThread = some 1)) ∧
    ((secondKilled.taskQueue.count 3 = 1 ∧ (secondKilled.cpus 0).runningThread ≠ some 3) ∨
      (secondKilled.taskQueue.count 3 = 0 ∧ (secondKilled.cpus 0).runningThread = some 3)) := by
  have reached : Reaches 0 (Regular 0) secondKilled := by
    apply second_killed_reached
    · exact fun _ _ _ => trivial
    · intro system idle
      refine .inr fun tid running => ?_
      rw [idle] at running
      cases running
    · exact fun _ _ => trivial
    · exact fun _ _ _ => trivial
  exact ⟨rfl, live_threads_accounted reached (by decide) (by decide),
    live_threads_accounted reached (by decide) (by decide)⟩

def SparesQueued (system : Kernel) : Event → Prop
  | .processExit pid _ => ∀ tid ∈ system.taskQueue, system.pids tid ≠ pid
  | .kill pid => ∀ tid ∈ system.taskQueue, system.pids tid ≠ pid
  | _ => True

def QueueLives (system : Kernel) : Prop :=
  ∀ tid ∈ system.taskQueue, system.processes tid = true

/-- A thread that is put back is alive, so that the next one to run is. -/
theorem entered_lives (sound : Sound core system) (lives : QueueLives system) (entry : Entry)
    {tid : Nat}
    (member : tid ∈ (system.enter core entry).taskQueue ++ (system.enter core entry).requeued
      core) :
    (system.enter core entry).processes tid = true := by
  have same := @same_enter system core entry
  have soundEntered := sound_same sound same
  rcases List.mem_append.mp member with waiting | back
  · rw [same.taskQueue] at waiting
    rw [same.processes]
    exact lives tid waiting
  · obtain ⟨now, _, live⟩ := mem_requeued.mp back
    exact (live_iff soundEntered (soundEntered.running tid now).1).mp live

theorem queue_lives_act (sound : Sound core system) (lives : QueueLives system)
    (spares : SparesQueued system event)
    (acted : system.act core event = some (after, selection)) : QueueLives after := by
  rcases act_cases sound acted with ⟨new, state, rfl, rfl⟩ | ⟨entry, rfl, entered⟩ |
    ⟨ended, ends, which⟩
  · intro tid member
    change Function.update system.processes new true tid = true
    rcases List.mem_append.mp member with waiting | same
    · by_cases same : tid = new
      · rw [same, Function.update_self]
      · rw [Function.update_of_ne same]
        exact lives tid waiting
    · rw [List.mem_singleton.mp same, Function.update_self]
  · have same := @same_enter system core entry
    have soundEntered := sound_same sound same
    rcases schedule_sound soundEntered entered with
      ⟨_, _, idle⟩ | ⟨thread, taskQueue, queue, _, selects⟩
    · intro tid member
      rw [idle.taskQueue, same.taskQueue] at member
      rw [idle.processes, same.processes]
      exact lives tid member
    · intro tid member
      rw [selects.taskQueue] at member
      rw [selects.processes]
      exact entered_lives sound lives entry (by rw [queue]; exact List.mem_cons_of_mem _ member)
  · intro tid member
    rw [ends.taskQueue] at member
    have different : tid ≠ ended := by
      rintro rfl
      have own := sound.own tid (sound.queued tid member)
      rcases which with now | rfl | ⟨exitCode, rfl⟩
      · exact (sound.running tid now).2 member
      · exact spares tid member own
      · exact spares tid member own
    rw [ends.others tid different]
    exact lives tid member

theorem queue_lives_of_reaches (reaches : Reaches core SparesQueued system) :
    QueueLives system := by
  induction reaches with
  | start fresh =>
      intro tid member
      rw [fresh.taskQueue] at member
      exact absurd member List.not_mem_nil
  | act earlier possible fits acted ih =>
      exact queue_lives_act (sound_of_reaches earlier) ih fits acted

/-- In every run in which only processes without a waiting thread are ended, the thread that
`schedule` selects is alive when it is selected. -/
theorem selected_thread_lives (reaches : Reaches core SparesQueued system) {entry : Entry}
    {selected : Selection}
    (acted : system.act core (.schedule entry) = some (after, some selected)) :
    (system.enter core entry).Live selected.thread := by
  have sound := sound_of_reaches reaches
  have soundEntered := sound_same sound (@same_enter system core entry)
  rcases schedule_sound soundEntered acted with ⟨_, nothing, _⟩ | ⟨thread, _, queue, ⟨_, same⟩, _⟩
  · exact absurd nothing (Option.some_ne_none selected)
  · obtain rfl := Option.some.inj same
    have member : thread ∈ (system.enter core entry).taskQueue ++
        (system.enter core entry).requeued core := by
      rw [queue]
      exact List.mem_cons_self
    refine (live_iff soundEntered ((next_queue soundEntered).2 thread member)).mpr ?_
    exact entered_lives sound (queue_lives_of_reaches reaches) entry member

/-- Thread 3 is next after the process of thread 2 was killed. -/
theorem next_thread_lives :
    ∃ after, secondKilled.act 0 (.schedule (.timer userFrame)) =
        some (after, some ⟨3, firstState⟩) ∧
      after.taskQueue = [1] ∧ (secondKilled.enter 0 (.timer userFrame)).Live 3 := by
  have reached : Reaches 0 SparesQueued secondKilled := by
    apply second_killed_reached
    · exact fun _ _ _ => trivial
    · exact fun _ _ => trivial
    · exact fun _ _ => trivial
    · intro system queue pids tid member
      rw [queue] at member
      rw [pids]
      revert tid
      decide
  have selected : secondKilled.act 0 (.schedule (.timer userFrame)) =
      some (_, some ⟨3, firstState⟩) := rfl
  exact ⟨_, selected, rfl, selected_thread_lives reached selected⟩

/-- Thread 1 runs and thread 2 waits when process 2 is killed; the timer then hands the core to
thread 2. -/
theorem killed_thread_runs :
    ¬ ∀ system, Reaches 0 (fun _ _ => True) system → ∀ entry after selected,
      system.Possible (.schedule entry) →
        system.act 0 (.schedule entry) = some (after, some selected) →
          (system.enter 0 entry).Live selected.thread := by
  intro claimed
  have first : Reaches 0 (fun _ _ => True) (noThreads.spawn 1 firstState) :=
    .act (.start no_threads_fresh) first_thread_possible trivial rfl
  have second : (noThreads.spawn 1 firstState).Possible (.create 2 firstState) := rfl
  have both := Reaches.act first second trivial rfl
  have fromKernel : ((noThreads.spawn 1 firstState).spawn 2 firstState).Possible
      (.schedule .kernel) := trivial
  have scheduled := Reaches.act both fromKernel trivial rfl
  have killed := Reaches.act scheduled (show Possible _ (.kill 2) from trivial) trivial rfl
  have interrupted : userFrame.cs &&& 0b11 ≠ 0 := by decide
  have live := claimed _ killed (.timer userFrame) _ ⟨2, firstState⟩ interrupted rfl
  have zombie : true = false := live.2
  exact Bool.false_ne_true zombie.symm

end Kernel

end Campix.Process
