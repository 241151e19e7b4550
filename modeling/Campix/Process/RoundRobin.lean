import Campix.Process.Liveness

/-!
# The run queue of all cores

Any number of cores enter the kernel in any order. The one run queue is first in, first
out: what is taken from it are, in order, the threads that waited and those that were put
behind them, so that nobody is overtaken. No thread is on two cores. A core whose queue was
empty keeps to its idle loop: the timer does not call `schedule` when it interrupts the
kernel.
-/

namespace Campix.Process

namespace Kernel

set_option autoImplicit false

/-- `boot` is the call of `schedule` that ends the start of a core. -/
inductive Entrance where
  | boot (core : Nat)
  | step (label : Label)

def Entrance.core : Entrance → Option Nat
  | .boot core => some core
  | .step (.interrupt core _ _) => some core
  | .step (.fastSyscall core _ _) => some core
  | .step (.spawn _ _) => none

/-- The core runs user code. `jmp_to_userland` follows the removal of all sources, and the
idle loop does not remove any. -/
def Executes (system : Kernel) (core thread : Nat) : Prop :=
  (system.cpus core).runningThread = some thread ∧ (system.cpus core).interruptSources = []

def Idles (system : Kernel) (core : Nat) : Prop := ∀ thread, ¬system.Executes core thread

/-- System calls, and interrupts of user code, happen on a core that runs a thread. -/
def CanEnter (system : Kernel) : Entrance → Prop
  | .boot core => (system.cpus core).runningThread = none ∧ (system.cpus core).interruptSources = []
  | .step (.interrupt core kind frame) =>
      (∃ thread, system.Executes core thread) ∨ frame.cs &&& 0b11 = 0 ∧ kind ≠ .fatal
  | .step (.fastSyscall core _ _) => ∃ thread, system.Executes core thread
  | .step (.spawn tid _) => system.threads tid = false

def enterKernel (system : Kernel) : Entrance → Option (Kernel × Option Selection)
  | .boot core => system.schedule core
  | .step label => system.step label

def calls (system : Kernel) : Entrance → Option (Nat × Kernel)
  | .boot core => some (core, system)
  | .step (.interrupt core .timer frame) =>
      if frame.cs &&& 0b11 ≠ 0 then some (core, system.commonEnterInterrupt core frame) else none
  | .step (.interrupt _ .resumable _) => none
  | .step (.interrupt core .fatal frame) =>
      let entered := system.commonEnterInterrupt core frame
      (entered.cpus core).runningThread.map fun thread =>
        (core, entered.handleProcessExit (entered.pids thread) (128 + sigkill))
  | .step (.fastSyscall core data .schedYield) => some (core, system.enter core (.yield data))
  | .step (.fastSyscall core data (.exit code)) =>
      let entered := system.enterSyscall core data
      (entered.cpus core).runningThread.map fun thread =>
        (core, entered.handleExit thread ((code &&& 0xFF) <<< 8))
  | .step (.fastSyscall _ _ _) => none
  | .step (.spawn _ _) => none

def queues (system : Kernel) (entrance : Entrance) : List Nat :=
  match entrance, system.calls entrance with
  | .step (.spawn tid _), _ => [tid]
  | _, some (core, found) => found.requeued core
  | _, none => []

/-- Entrances one after the other, with the threads that were queued and, for each that was
selected, the core and the thread. -/
inductive Runs : Kernel → List Entrance → List Nat → List (Option Nat × Nat) → Kernel → Prop
  | done (system : Kernel) : Runs system [] [] [] system
  | next {system middle after : Kernel} {entrance : Entrance} {later : List Entrance}
    {queued : List Nat}
      {selection : Option Selection} {selected : List (Option Nat × Nat)}
        (can : system.CanEnter entrance)
      (entered : system.enterKernel entrance = some (middle, selection))
      (rest : Runs middle later queued selected after) :
      Runs system (entrance :: later) (system.queues entrance ++ queued)
        ((selection.map fun selection => (entrance.core, selection.thread)).toList ++
          selected) after

def Empty (system : Kernel) : Prop :=
  ∀ core, Fresh core system ∧ (system.cpus core).interruptSources = []

/-- What all cores keep: the tasks are in order for each of them, and no two have the same
thread. -/
structure Orderly (system : Kernel) : Prop where
  sound : ∀ core, Sound core system
  apart : ∀ core other thread, (system.cpus core).runningThread = some thread →
    (system.cpus other).runningThread = some thread → core = other

variable {system middle after : Kernel} {core other thread : Nat} {selection : Option Selection}

/-- The tasks are in order for another core too, if its thread is known and does not wait. -/
theorem sound_other (sound : Sound core system)
    (running : ∀ tid, (system.cpus other).runningThread = some tid →
      system.threads tid = true ∧ tid ∉ system.taskQueue) : Sound other system :=
  ⟨sound.own, sound.known, sound.sole, sound.status, sound.ended, sound.queued, sound.nodup,
    running⟩

theorem select_others (different : other ≠ core) :
    (system.select core thread).1.cpus other = system.cpus other := by
  unfold select
  dsimp only
  split_ifs <;> exact Function.update_of_ne different _ _

theorem schedule_loop_others {rounds : Nat} (different : other ≠ core) :
    ∀ {system after : Kernel} {selection : Option Selection},
      scheduleLoop core rounds system = some (after, selection) →
        after.cpus other = system.cpus other := by
  induction rounds with
  | zero =>
      intro system after selection impossible
      cases impossible
  | succ rounds ih =>
      intro system after selection returned
      have requeued := (requeue_frame system core).2
      rw [scheduleLoop] at returned
      dsimp only at returned
      cases queue : (system.requeueRunning core).taskQueue with
      | nil =>
          rw [queue] at returned
          obtain ⟨rfl, rfl⟩ := Prod.mk.inj (Option.some.inj returned)
          rw [save_syscall_cpus, requeued]
      | cons thread taskQueue =>
          rw [queue] at returned
          dsimp only at returned
          have saved := save_syscall_cpus
            { system.requeueRunning core with taskQueue := taskQueue } core
          split_ifs at returned with skipped
          · rw [ih returned, saved, ← requeued]
          · have selected := congrArg Prod.fst (Option.some.inj returned)
            dsimp only at selected
            rw [← selected, select_others different, saved, ← requeued]

theorem schedule_others (different : other ≠ core)
    (returned : system.schedule core = some (after, selection)) :
    after.cpus other = system.cpus other := schedule_loop_others different returned

theorem orderly_schedule (orderly : Orderly system)
    (returned : system.schedule core = some (after, selection)) : Orderly after := by
  have sound := orderly.sound core
  have others := fun other (different : other ≠ core) => schedule_others different returned
  rcases schedule_sound sound returned with ⟨empty, -, same⟩ |
    ⟨thread, taskQueue, queue, -, selects⟩
  · have running : ∀ each, (after.cpus each).runningThread = (system.cpus each).runningThread := by
      intro each
      by_cases here : each = core
      · rw [here]
        exact same.runningThread
      · rw [others each here]
    have still := sound_same sound same
    refine ⟨fun each => sound_other still fun tid now => ?_, fun first second tid => ?_⟩
    · rw [running] at now
      rw [same.threads, same.taskQueue]
      exact (orderly.sound each).running tid now
    · rw [running, running]
      exact orderly.apart first second tid
  · have still := sound_selects sound queue selects
    have waits : ∀ each, each ≠ core → ∀ tid, (system.cpus each).runningThread = some tid →
        tid ∉ thread :: taskQueue := by
      intro each different tid now member
      rw [← queue] at member
      rcases List.mem_append.mp member with waiting | back
      · exact ((orderly.sound each).running tid now).2 waiting
      · exact different (orderly.apart each core tid now (mem_requeued.mp back).1)
    refine ⟨fun each => sound_other still fun tid now => ?_,
      fun first second tid firstRuns secondRuns => ?_⟩
    · by_cases here : each = core
      · rw [here] at now
        exact still.running tid now
      · rw [others each here] at now
        rw [selects.threads, selects.taskQueue]
        exact ⟨((orderly.sound each).running tid now).1, fun member =>
          waits each here tid now (List.mem_cons_of_mem _ member)⟩
    · by_cases one : first = core
      · by_cases two : second = core
        · rw [one, two]
        · rw [others second two] at secondRuns
          rw [one, selects.runningThread] at firstRuns
          obtain rfl := Option.some.inj firstRuns
          exact absurd List.mem_cons_self (waits second two _ secondRuns)
      · rw [others first one] at firstRuns
        by_cases two : second = core
        · rw [two, selects.runningThread] at secondRuns
          obtain rfl := Option.some.inj secondRuns
          exact absurd List.mem_cons_self (waits first one _ firstRuns)
        · rw [others second two] at secondRuns
          exact orderly.apart first second tid firstRuns secondRuns

/-- What is taken stood at the front, and the thread that ran stands at the end. -/
theorem schedule_in_order (sound : Sound core system)
    (returned : system.schedule core = some (after, selection)) :
    system.taskQueue ++ system.requeued core =
      (selection.map fun selection => selection.thread).toList ++ after.taskQueue := by
  rcases schedule_sound sound returned with ⟨empty, rfl, same⟩ |
    ⟨thread, taskQueue, queue, ⟨restored, rfl⟩, selects⟩
  · rw [empty, same.taskQueue, (List.append_eq_nil_iff.mp empty).1]
    rfl
  · rw [queue, selects.taskQueue]
    rfl

/-- Nothing but registers and sources of interrupts changed. -/
def Quiet (system after : Kernel) : Prop := ∀ core, SameTasks core system after

theorem quiet_trans (first : Quiet system middle) (second : Quiet middle after) :
    Quiet system after :=
  fun core => (first core).trans (second core)

theorem orderly_quiet (orderly : Orderly system) (quiet : Quiet system after) : Orderly after := by
  refine ⟨fun core => sound_same (orderly.sound core) (quiet core), fun core other thread => ?_⟩
  rw [(quiet core).runningThread, (quiet other).runningThread]
  exact orderly.apart core other thread

theorem quiet_set_cpu {cpu : PerCpu}
    (running : cpu.runningThread = (system.cpus core).runningThread) :
    Quiet system (system.setCpu core cpu) := by
  intro other
  refine ⟨rfl, rfl, rfl, rfl, rfl, rfl, rfl, ?_⟩
  change ((Function.update system.cpus core cpu) other).runningThread = _
  by_cases here : other = core
  · rw [here, Function.update_self]
    exact running
  · rw [Function.update_of_ne here]

theorem quiet_set_state (state : ThreadState) : Quiet system (system.setState thread state) :=
  fun _ => same_set_state _ _

theorem quiet_push (source : InterruptSource) : Quiet system (system.pushSource core source) :=
    quiet_set_cpu rfl

theorem quiet_pop : Quiet system (system.popSource core) := quiet_set_cpu rfl

theorem quiet_enter_interrupt (frame : InterruptFrame) :
    Quiet system (system.commonEnterInterrupt core frame) := by
  unfold commonEnterInterrupt
  split_ifs
  · exact quiet_push .kernel
  · dsimp only
    split
    · exact quiet_trans (quiet_push .syscall) (quiet_set_state _)
    · exact quiet_push .syscall

theorem quiet_enter_syscall (data : SyscallData) :
    Quiet system (system.enterSyscall core data) := by
  refine quiet_trans ?_ (quiet_push .syscall)
  exact quiet_set_cpu rfl

theorem quiet_yield (data : SyscallData) : Quiet system (system.enter core (.yield data)) := by
  have entered := @quiet_enter_syscall system core data
  rw [enter]
  dsimp only
  split
  · exact entered
  · exact quiet_trans entered (quiet_set_state _)

theorem quiet_finish (result : Nat) : Quiet system (system.finishSyscall core thread result) := by
  unfold finishSyscall
  dsimp only
  refine quiet_trans ?_ quiet_pop
  refine quiet_trans ?_ (quiet_set_state _)
  exact quiet_set_cpu rfl

theorem orderly_process_exit (orderly : Orderly system) (pid exitCode : Nat) :
    Orderly (system.handleProcessExit pid exitCode) := by
  have frame := (process_exit_frame system pid exitCode).2
  refine ⟨fun core => sound_process_exit (orderly.sound core) pid exitCode,
    fun core other thread => ?_⟩
  rw [frame]
  exact orderly.apart core other thread

theorem orderly_exit (orderly : Orderly system) {tid : Nat} (known : system.threads tid = true)
    (exitCode : Nat) :
    Orderly (system.handleExit tid exitCode) := by
  have frame := (exit_frame system tid exitCode).2
  refine ⟨fun core => sound_exit (orderly.sound core) known exitCode, fun core other thread => ?_⟩
  rw [frame]
  exact orderly.apart core other thread

theorem orderly_spawn (orderly : Orderly system) {tid : Nat} (new : system.threads tid = false)
    (state : ThreadState) : Orderly (system.spawn tid state) :=
  ⟨fun core => sound_spawn (orderly.sound core) new state, orderly.apart⟩

variable {entrance : Entrance} {found : Kernel}

/-- An entrance that calls `schedule` has changed neither the queue nor what the cores run. -/
theorem enter_calls (orderly : Orderly system) (can : system.CanEnter entrance)
    (called : system.calls entrance = some (core, found)) :
    system.enterKernel entrance = found.schedule core ∧ Orderly found ∧
      found.taskQueue = system.taskQueue := by
  cases entrance with
  | boot core =>
      obtain ⟨rfl, rfl⟩ := Prod.mk.inj (Option.some.inj called)
      exact ⟨rfl, orderly, rfl⟩
  | step label =>
      cases label with
      | spawn tid state => cases called
      | interrupt core kind frame =>
          have quiet := @quiet_enter_interrupt system core frame
          have entered := orderly_quiet orderly quiet
          cases kind with
          | resumable => cases called
          | timer =>
              rw [calls] at called
              split_ifs at called with user
              obtain ⟨rfl, rfl⟩ := Prod.mk.inj (Option.some.inj called)
              exact ⟨if_pos user, entered, (quiet core).taskQueue⟩
          | fatal =>
              rw [calls] at called
              obtain ⟨thread, running, made⟩ := Option.map_eq_some_iff.mp called
              obtain ⟨rfl, rfl⟩ := Prod.mk.inj made
              refine ⟨?_, orderly_process_exit entered _ _, ?_⟩
              · change Kernel.interrupt system core .fatal frame = _
                rw [Kernel.interrupt, running]
              · exact (process_exit_ends (entered.sound core) _ _).taskQueue.trans
                  (quiet core).taskQueue
      | fastSyscall core data action =>
          obtain ⟨thread, executes, -⟩ := can
          have quiet := @quiet_enter_syscall system core data
          have entered := orderly_quiet orderly quiet
          have running := (quiet core).runningThread.trans executes
          have same : (((system.setCpu core
              { system.cpus core with syscallData := data }).pushSource core
              .syscall).cpus core).runningThread = some thread := running
          cases action with
          | finish result => cases called
          | setFsBase value result => cases called
          | setGsBase value result => cases called
          | schedYield =>
              obtain ⟨rfl, rfl⟩ := Prod.mk.inj (Option.some.inj called)
              have yields := @quiet_yield system core data
              refine ⟨?_, orderly_quiet orderly yields, (yields core).taskQueue⟩
              change Kernel.fastSyscall system core data .schedYield = _
              rw [Kernel.fastSyscall, same, enter]
              dsimp only
              rw [running]
              rfl
          | exit code =>
              rw [calls, running] at called
              obtain ⟨rfl, rfl⟩ := Prod.mk.inj (Option.some.inj called)
              have known := ((entered.sound core).running thread running).1
              refine ⟨?_, orderly_exit entered known _, ?_⟩
              · change Kernel.fastSyscall system core data (.exit code) = _
                rw [Kernel.fastSyscall, same]
                rfl
              · exact (exit_ends (entered.sound core) known _).taskQueue.trans
                  (quiet core).taskQueue

theorem interrupt_ne_spawn (core : Nat) (kind : Interrupt) (frame : InterruptFrame) (tid : Nat)
    (state : ThreadState) : Entrance.step (.interrupt core kind frame) ≠ .step
    (.spawn tid state) := by
  intro same
  cases same

theorem syscall_ne_spawn (core : Nat) (data : SyscallData) (action : SyscallAction) (tid : Nat)
    (state : ThreadState) : Entrance.step (.fastSyscall core data action) ≠ .step
    (.spawn tid state) := by
  intro same
  cases same

/-- Where `schedule` is not called, a process is created or nothing happens to the tasks. -/
theorem enter_quiet (can : system.CanEnter entrance) (quiet : system.calls entrance = none)
    (entered : system.enterKernel entrance = some (after, selection)) :
    selection = none ∧
      ((∃ tid state, entrance = .step (.spawn tid state) ∧ after = system.spawn tid state) ∨
        (∀ tid state, entrance ≠ .step (.spawn tid state)) ∧ Quiet system after) := by
  cases entrance with
  | boot core => cases quiet
  | step label =>
      cases label with
      | spawn tid state =>
          obtain ⟨rfl, rfl⟩ := Prod.mk.inj (Option.some.inj entered)
          exact ⟨rfl, .inl ⟨tid, state, rfl, rfl⟩⟩
      | interrupt core kind frame =>
          have enters := @quiet_enter_interrupt system core frame
          cases kind with
          | resumable =>
              obtain ⟨rfl, rfl⟩ := Prod.mk.inj (Option.some.inj entered)
              exact ⟨rfl, .inr ⟨interrupt_ne_spawn core _ frame, quiet_trans enters quiet_pop⟩⟩
          | timer =>
              rw [calls] at quiet
              split_ifs at quiet with user
              have returned : system.enterKernel (.step (.interrupt core .timer frame)) =
                  some ((system.commonEnterInterrupt core frame).commonExitInterrupt core, none) :=
                    if_neg user
              rw [returned] at entered
              obtain ⟨rfl, rfl⟩ := Prod.mk.inj (Option.some.inj entered)
              exact ⟨rfl, .inr ⟨interrupt_ne_spawn core _ frame, quiet_trans enters quiet_pop⟩⟩
          | fatal =>
              rw [calls, Option.map_eq_none_iff] at quiet
              change Kernel.interrupt system core .fatal frame = _ at entered
              rw [Kernel.interrupt, quiet] at entered
              cases entered
      | fastSyscall core data action =>
          obtain ⟨thread, executes, -⟩ := can
          have enters := @quiet_enter_syscall system core data
          have running := (enters core).runningThread.trans executes
          have same : (((system.setCpu core
              { system.cpus core with syscallData := data }).pushSource core
              .syscall).cpus core).runningThread = some thread := running
          change Kernel.fastSyscall system core data action = _ at entered
          rw [Kernel.fastSyscall, same] at entered
          cases action with
          | finish result =>
              obtain ⟨rfl, rfl⟩ := Prod.mk.inj (Option.some.inj entered)
              exact ⟨rfl, .inr ⟨syscall_ne_spawn core data
                _, quiet_trans enters (quiet_finish result)⟩⟩
          | setFsBase value result =>
              obtain ⟨rfl, rfl⟩ := Prod.mk.inj (Option.some.inj entered)
              exact ⟨rfl, .inr ⟨syscall_ne_spawn core data _,
                quiet_trans (quiet_trans enters (quiet_set_state _)) (quiet_finish result)⟩⟩
          | setGsBase value result =>
              obtain ⟨rfl, rfl⟩ := Prod.mk.inj (Option.some.inj entered)
              exact ⟨rfl, .inr ⟨syscall_ne_spawn core data _,
                quiet_trans (quiet_trans enters (quiet_set_state _)) (quiet_finish result)⟩⟩
          | schedYield => cases quiet
          | exit code =>
              rw [calls, running] at quiet
              cases quiet

theorem enter_in_order (orderly : Orderly system) (can : system.CanEnter entrance)
    (entered : system.enterKernel entrance = some (after, selection)) :
    Orderly after ∧ system.taskQueue ++ system.queues entrance =
      (selection.map fun selection => selection.thread).toList ++ after.taskQueue := by
  cases called : system.calls entrance with
  | some call =>
      obtain ⟨core, found⟩ := call
      obtain ⟨same, ready, queue⟩ := enter_calls orderly can called
      rw [same] at entered
      have queued : system.queues entrance = found.requeued core := by
        unfold queues
        rw [called]
        split
        · cases called
        · rename_i core' found' calls'
          cases calls'
          rfl
        · rename_i impossible
          cases impossible
      rw [queued, ← queue]
      exact ⟨orderly_schedule ready entered, schedule_in_order (ready.sound core) entered⟩
  | none =>
      obtain ⟨rfl, ⟨tid, state, rfl, rfl⟩ | ⟨other, quiet⟩⟩ := enter_quiet can called entered
      · exact ⟨orderly_spawn orderly can state, rfl⟩
      · have queued : system.queues entrance = [] := by
          unfold queues
          rw [called]
          split
          · exact absurd rfl (other _ _)
          · rename_i impossible
            cases impossible
          · rfl
        rw [queued, (quiet 0).taskQueue, List.append_nil]
        exact ⟨orderly_quiet orderly quiet, rfl⟩

variable {entrances : List Entrance} {queued : List Nat} {selected : List (Option Nat × Nat)}

theorem orderly_empty (empty : Empty system) : Orderly system := by
  refine ⟨fun core => sound_fresh (empty core).1, fun core _ thread running => ?_⟩
  rw [(empty core).1.runningThread] at running
  cases running

theorem runs_in_order (orderly : Orderly system)
    (runs : Runs system entrances queued selected after) :
    Orderly after ∧ system.taskQueue ++ queued = selected.map Prod.snd ++ after.taskQueue := by
  induction runs with
  | done system => exact ⟨orderly, List.append_nil _⟩
  | @next system middle after entrance later queued selection selected can entered rest ih =>
      obtain ⟨still, order⟩ := enter_in_order orderly can entered
      obtain ⟨final, rests⟩ := ih still
      refine ⟨final, ?_⟩
      rw [← List.append_assoc, order, List.append_assoc, rests, ← List.append_assoc,
        List.map_append]
      congr 2
      cases selection <;> rfl

/-- The threads that are selected are those that waited, in order, and then those that were
queued since; a call of `schedule` selects one as long as somebody waits. -/
theorem nobody_overtakes {start : Kernel} {earlier : List Entrance} {queuedBefore : List Nat}
    {selectedBefore : List (Option Nat × Nat)} (empty : Empty start)
    (reached : Runs start earlier queuedBefore selectedBefore system)
    (runs : Runs system entrances queued selected after) :
    system.taskQueue ++ queued = selected.map Prod.snd ++ after.taskQueue ∧
      (∀ place tid : Nat, system.taskQueue[place]? = some tid → place < selected.length →
        (selected.map Prod.snd)[place]? = some tid) ∧
      ∀ entrance core found next selection, after.CanEnter entrance →
        after.calls entrance = some (core, found) →
        after.enterKernel entrance = some (next, selection) → after.taskQueue ≠ [] →
          selection.isSome := by
  obtain ⟨orderly, -⟩ := runs_in_order (orderly_empty empty) reached
  obtain ⟨final, order⟩ := runs_in_order orderly runs
  refine ⟨order, fun place tid waits enough => ?_,
    fun entrance core found next selection can called entered waits => ?_⟩
  · have inside : place < system.taskQueue.length := (List.getElem?_eq_some_iff.mp waits).1
    have both := congrArg (fun items : List Nat => items[place]?) order
    rw [List.getElem?_append_left inside, waits,
      List.getElem?_append_left (by rwa [List.length_map])] at both
    exact both.symm
  · obtain ⟨-, taken⟩ := enter_in_order final can entered
    cases selection with
    | some selection => rfl
    | none =>
        obtain ⟨same, ready, queue⟩ := enter_calls final can called
        rw [same] at entered
        rcases schedule_sound (ready.sound core)
          entered with ⟨nobody, -, -⟩ | ⟨_, _, _, ⟨_, impossible⟩, _⟩
        · rw [queue] at nobody
          exact absurd (List.append_eq_nil_iff.mp nobody).1 waits
        · cases impossible

/-- No thread waits twice, waits while a core has it, or is on two cores. -/
theorem threads_apart {start : Kernel} (empty : Empty start)
    (runs : Runs start entrances queued selected system) :
    system.taskQueue.Nodup ∧
      (∀ core thread, (system.cpus core).runningThread = some thread → thread ∉ system.taskQueue) ∧
      ∀ core other thread, (system.cpus core).runningThread = some thread →
        (system.cpus other).runningThread = some thread → core = other := by
  obtain ⟨orderly, -⟩ := runs_in_order (orderly_empty empty) runs
  exact ⟨(orderly.sound 0).nodup,
    fun core thread running => ((orderly.sound core).running thread running).2,
    orderly.apart⟩

theorem push_others (different : other ≠ core) (source : InterruptSource) :
    (system.pushSource core source).cpus other = system.cpus other :=
      Function.update_of_ne different _ _

theorem pop_others (different : other ≠ core) :
    (system.popSource core).cpus other = system.cpus other :=
  Function.update_of_ne different _ _

theorem enter_interrupt_others (different : other ≠ core) (frame : InterruptFrame) :
    (system.commonEnterInterrupt core frame).cpus other = system.cpus other := by
  unfold commonEnterInterrupt
  split_ifs
  · exact push_others different _
  · dsimp only
    split <;> exact push_others different _

theorem enter_syscall_others (different : other ≠ core) (data : SyscallData) :
    (system.enterSyscall core data).cpus other = system.cpus other :=
  (push_others different _).trans (Function.update_of_ne different _ _)

theorem finish_others (different : other ≠ core) (result : Nat) :
    (system.finishSyscall core thread result).cpus other = system.cpus other :=
  (pop_others different).trans (Function.update_of_ne different _ _)

/-- What a core has is changed by its own entrances only. -/
theorem enter_others (different : entrance.core ≠ some other)
    (entered : system.enterKernel entrance = some (after, selection)) : after.cpus other =
    system.cpus other := by
  cases entrance with
  | boot core => exact schedule_others (fun same => different (same ▸ rfl)) entered
  | step label =>
      cases label with
      | spawn tid state =>
          obtain ⟨rfl, -⟩ := Prod.mk.inj (Option.some.inj entered)
          rfl
      | interrupt core kind frame =>
          have apart : other ≠ core := fun same => different (same ▸ rfl)
          have enters := @enter_interrupt_others system core other apart frame
          change Kernel.interrupt system core kind frame = _ at entered
          unfold Kernel.interrupt at entered
          cases kind with
          | timer =>
              dsimp only at entered
              split_ifs at entered
              · exact (schedule_others apart entered).trans enters
              · obtain ⟨rfl, -⟩ := Prod.mk.inj (Option.some.inj entered)
                exact (pop_others apart).trans enters
          | resumable =>
              obtain ⟨rfl, -⟩ := Prod.mk.inj (Option.some.inj entered)
              exact (pop_others apart).trans enters
          | fatal =>
              dsimp only at entered
              split at entered
              · rw [schedule_others apart entered, (process_exit_frame _ _ _).2]
                exact enters
              · cases entered
      | fastSyscall core data action =>
          have apart : other ≠ core := fun same => different (same ▸ rfl)
          have enters := @enter_syscall_others system core other apart data
          change Kernel.fastSyscall system core data action = _ at entered
          unfold Kernel.fastSyscall at entered
          dsimp only at entered
          split at entered
          · cases entered
          · cases action with
            | finish result =>
                obtain ⟨rfl, -⟩ := Prod.mk.inj (Option.some.inj entered)
                exact (finish_others apart result).trans enters
            | setFsBase value result =>
                obtain ⟨rfl, -⟩ := Prod.mk.inj (Option.some.inj entered)
                exact (finish_others apart result).trans enters
            | setGsBase value result =>
                obtain ⟨rfl, -⟩ := Prod.mk.inj (Option.some.inj entered)
                exact (finish_others apart result).trans enters
            | schedYield => exact (schedule_others apart entered).trans enters
            | exit code =>
                dsimp only at entered
                rw [schedule_others apart entered, (exit_frame _ _ _).2]
                exact enters

theorem enter_idle (idle : system.Idles core) (can : system.CanEnter entrance)
    (notBoot : entrance ≠ .boot core)
    (entered : system.enterKernel entrance = some (after, selection)) :
    after.cpus core = system.cpus core ∧ (entrance.core = some core → selection = none) := by
  by_cases here : entrance.core = some core
  · cases entrance with
    | boot each =>
        obtain rfl := Option.some.inj here
        exact absurd rfl notBoot
    | step label =>
        cases label with
        | spawn tid state => cases here
        | fastSyscall each data action =>
            obtain rfl := Option.some.inj here
            obtain ⟨thread, executes⟩ := can
            exact absurd executes (idle thread)
        | interrupt each kind frame =>
            obtain rfl := Option.some.inj here
            rcases can with ⟨thread, executes⟩ | ⟨fromKernel, mild⟩
            · exact absurd executes (idle thread)
            have enters : system.commonEnterInterrupt each frame = system.pushSource each .kernel :=
              if_pos fromKernel
            have leaves : ((system.pushSource each .kernel).commonExitInterrupt each).cpus each =
                system.cpus each := by
              change (Function.update (Function.update system.cpus each _) each _) each = _
              rw [Function.update_self]
              simp only [pushSource, setCpu, Function.update_self, List.tail_cons]
            have returned : system.enterKernel (.step (.interrupt each kind frame)) =
                some ((system.pushSource each .kernel).commonExitInterrupt each, none) := by
              change Kernel.interrupt system each kind frame = _
              unfold Kernel.interrupt
              rw [enters]
              cases kind with
              | timer => exact if_neg fun user => user fromKernel
              | resumable => rfl
              | fatal => exact absurd rfl mild
            rw [returned] at entered
            obtain ⟨rfl, rfl⟩ := Prod.mk.inj (Option.some.inj entered)
            exact ⟨leaves, fun _ => rfl⟩
  · exact ⟨enter_others here entered, fun same => absurd same here⟩

theorem enter_interrupt_sources (system : Kernel) (core : Nat) (frame : InterruptFrame) :
    ((system.commonEnterInterrupt core frame).cpus core).interruptSources ≠ [] := by
  unfold commonEnterInterrupt
  split_ifs
  · simp [pushSource, setCpu]
  · dsimp only
    split <;> simp [pushSource, setState, setCpu]

/-- Where `schedule` is called, the core does not execute a thread. -/
theorem calls_idles (can : system.CanEnter entrance)
    (called : system.calls entrance = some (core, found)) : found.Idles core := by
  have pushed : (found.cpus core).interruptSources ≠ [] → found.Idles core :=
    fun sources thread executes => sources executes.2
  cases entrance with
  | boot core =>
      obtain ⟨rfl, rfl⟩ := Prod.mk.inj (Option.some.inj called)
      rintro thread ⟨running, -⟩
      rw [can.1] at running
      cases running
  | step label =>
      cases label with
      | spawn tid state => cases called
      | interrupt core kind frame =>
          have sources := enter_interrupt_sources system core frame
          cases kind with
          | resumable => cases called
          | timer =>
              rw [calls] at called
              split_ifs at called
              obtain ⟨rfl, rfl⟩ := Prod.mk.inj (Option.some.inj called)
              exact pushed sources
          | fatal =>
              rw [calls] at called
              obtain ⟨thread, running, made⟩ := Option.map_eq_some_iff.mp called
              obtain ⟨rfl, rfl⟩ := Prod.mk.inj made
              apply pushed
              rw [(process_exit_frame _ _ _).2]
              exact sources
      | fastSyscall core data action =>
          have sources : ((system.enterSyscall core data).cpus core).interruptSources ≠ [] := by
            simp [enterSyscall, pushSource, setCpu]
          cases action with
          | finish result => cases called
          | setFsBase value result => cases called
          | setGsBase value result => cases called
          | schedYield =>
              obtain ⟨rfl, rfl⟩ := Prod.mk.inj (Option.some.inj called)
              apply pushed
              rw [enter]
              dsimp only
              split
              · exact sources
              · exact sources
          | exit code =>
              rw [calls] at called
              obtain ⟨thread, running, made⟩ := Option.map_eq_some_iff.mp called
              obtain ⟨rfl, rfl⟩ := Prod.mk.inj made
              apply pushed
              rw [(exit_frame _ _ _).2]
              exact sources

theorem schedule_loop_empty {rounds : Nat} :
    ∀ {system after : Kernel}, scheduleLoop core rounds system = some (after, none) →
      after.cpus = system.cpus := by
  induction rounds with
  | zero =>
      intro system after impossible
      cases impossible
  | succ rounds ih =>
      intro system after returned
      have requeued := (requeue_frame system core).2
      rw [scheduleLoop] at returned
      dsimp only at returned
      cases queue : (system.requeueRunning core).taskQueue with
      | nil =>
          rw [queue] at returned
          obtain ⟨rfl, -⟩ := Prod.mk.inj (Option.some.inj returned)
          rw [save_syscall_cpus, requeued]
      | cons thread taskQueue =>
          rw [queue] at returned
          dsimp only at returned
          split_ifs at returned
          · rw [ih returned, save_syscall_cpus]
            exact requeued
          · cases (Prod.mk.inj (Option.some.inj returned)).2

/-- A call of `schedule` comes back with a thread or leaves the core idle. -/
theorem call_selects_or_idles (orderly : Orderly system) (can : system.CanEnter entrance)
    (called : system.calls entrance = some (core, found)) :
    ∃ after selection, system.enterKernel entrance = some (after, selection) ∧
      (selection = none → after.Idles core) := by
  obtain ⟨same, -, -⟩ := enter_calls orderly can called
  obtain ⟨⟨after, selection⟩, returned⟩ := schedule_returns found core
  refine ⟨after, selection, same.trans returned, ?_⟩
  rintro rfl thread
  unfold Executes
  rw [schedule_loop_empty returned]
  exact calls_idles can called thread

/-- A core without a thread to run never takes one again, whatever the others do and however
many threads wait. -/
theorem idle_core_stays (idle : system.Idles core)
    (runs : Runs system entrances queued selected after)
    (booted : .boot core ∉ entrances) : after.Idles core ∧
    ∀ thread, (some core, thread) ∉ selected := by
  induction runs with
  | done system => exact ⟨idle, fun thread => List.not_mem_nil⟩
  | @next system middle after entrance later queued selection selected can entered rest ih =>
      rw [List.mem_cons, not_or] at booted
      obtain ⟨same, nobody⟩ := enter_idle idle can (Ne.symm booted.1) entered
      have still : middle.Idles core := by
        intro thread
        unfold Executes
        rw [same]
        exact idle thread
      obtain ⟨final, never⟩ := ih still booted.2
      refine ⟨final, fun thread member => ?_⟩
      rcases List.mem_append.mp member with first | later
      · obtain ⟨chosen, isSome, pair⟩ := Option.map_eq_some_iff.mp (Option.mem_toList.mp first)
        rw [nobody (congrArg Prod.fst pair)] at isSome
        cases isSome
      · exact never thread later

theorem no_threads_empty : Empty noThreads := fun _ => ⟨⟨fun _ => rfl, fun _ => rfl, rfl, rfl⟩, rfl⟩

def firstRuns : Kernel :=
  ((((noThreads.spawn 1 firstState).spawn 2 firstState).schedule 0).map Prod.fst).getD noThreads

theorem first_runs_reached : Runs noThreads
    [.step (.spawn 1 firstState), .step (.spawn 2 firstState), .boot 0] [1, 2]
    [(some 0, 1)] firstRuns := by
  have first : noThreads.CanEnter (.step (.spawn 1 firstState)) := rfl
  have second : (noThreads.spawn 1 firstState).CanEnter (.step (.spawn 2 firstState)) := rfl
  have boots : ((noThreads.spawn 1 firstState).spawn 2 firstState).CanEnter (.boot 0) := ⟨rfl, rfl⟩
  exact .next first rfl (.next second rfl (.next boots rfl (.done _)))

/-- The timer hands the core to thread 2. -/
theorem second_not_overtaken :
    firstRuns.taskQueue = [2] ∧ ∃ after,
      Runs firstRuns [.step (.interrupt 0 .timer userFrame)] [1] [(some 0, 2)] after ∧
      ([2] ++ [1] = [2] ++ after.taskQueue) := by
  have timer : firstRuns.CanEnter (.step (.interrupt 0 .timer userFrame)) := .inl ⟨1, rfl, rfl⟩
  have runs : Runs firstRuns [.step (.interrupt 0 .timer userFrame)] [1] [(some 0, 2)] _ :=
    .next timer rfl (.done _)
  exact ⟨rfl, _, runs, (nobody_overtakes no_threads_empty first_runs_reached runs).1⟩

theorem two_threads_apart : firstRuns.taskQueue.Nodup ∧ 1 ∉ firstRuns.taskQueue := by
  obtain ⟨nodup, apart, -⟩ := threads_apart no_threads_empty first_runs_reached
  exact ⟨nodup, apart 0 1 rfl⟩

/-- A core that starts before the first process is created does not run it. -/
theorem early_core_stays_idle : ∃ idle after, noThreads.enterKernel (.boot 0) = some (idle, none) ∧
    Runs idle [.step (.spawn 1 firstState), .step (.interrupt 0 .timer { userFrame with cs := 8 })]
      [1] [] after ∧
      after.taskQueue = [1] ∧ after.Idles 0 := by
  have idle : noThreads.Idles 0 := fun thread executes => absurd executes.1 nofun
  have created : noThreads.CanEnter (.step (.spawn 1 firstState)) := rfl
  have timer : (noThreads.spawn 1 firstState).CanEnter
      (.step (.interrupt 0 .timer { userFrame with cs := 8 })) :=
    .inr ⟨rfl, nofun⟩
  have runs : Runs noThreads [.step (.spawn 1 firstState),
      .step (.interrupt 0 .timer { userFrame with cs := 8 })] [1]
      [] _ := .next created rfl (.next timer rfl (.done _))
  have stays := idle_core_stays idle runs (by
    intro member
    rcases List.mem_cons.mp member with impossible | member
    · cases impossible
    · cases List.mem_singleton.mp member)
  exact ⟨noThreads, _, rfl, runs, rfl, stays.1⟩

end Kernel

end Campix.Process
