import Mathlib.Logic.Function.Basic

/-!
# Interrupt entry and scheduling

The part of `percpu.rs`, `interrupts/idt.rs`, `process/scheduler.rs` and
`process/proc.rs` that saves, queues and restores user threads, for any number of
cores over one scheduler. A thread is its id. The locks, the TSS, `cr3` and the
end-of-interrupt commands are left out: no saved register depends on them. A step
is one entry into the kernel up to the `iretq`, `sysretq` or idle loop that ends it.
-/

namespace Campix.Process

set_option autoImplicit false

structure ThreadGPRegisters where
  rax : Nat
  rbx : Nat
  rcx : Nat
  rdx : Nat
  rdi : Nat
  rsi : Nat
  r8 : Nat
  r9 : Nat
  r10 : Nat
  r11 : Nat
  r12 : Nat
  r13 : Nat
  r14 : Nat
  r15 : Nat
  deriving DecidableEq

structure ThreadState where
  gpregs : ThreadGPRegisters
  rip : Nat
  rsp : Nat
  rbp : Nat
  rflags : Nat
  fsBase : Nat
  gsBase : Nat
  deriving DecidableEq

/-- The registers of a thread at an interrupt: what the entry stub pushed
(`InterruptFrameRegisters`) and what the processor pushed, without `cs`. -/
structure Registers where
  gpregs : ThreadGPRegisters
  rip : Nat
  rsp : Nat
  rbp : Nat
  rflags : Nat
  deriving DecidableEq

def ThreadState.registers (state : ThreadState) : Registers :=
  ⟨state.gpregs, state.rip, state.rsp, state.rbp, state.rflags⟩

structure InterruptFrame where
  registers : Registers
  cs : Nat

structure SyscallData where
  gpregs : ThreadGPRegisters
  rsp : Nat
  rbp : Nat

inductive InterruptSource where
  | kernel
  | user
  | syscall
  deriving DecidableEq

/-- The last element of `interrupt_sources` is the head of the list. -/
structure PerCpu where
  interruptSources : List InterruptSource
  runningThread : Option Nat
  syscallData : SyscallData

inductive TaskState where
  | init
  | running
  | paused
  | zombie (exitCode : Nat)
  | dead
  deriving DecidableEq

def TaskState.isZombie : TaskState → Bool
  | .zombie _ => true
  | _ => false

structure Kernel where
  /-- `thread.state` -/
  states : Nat → ThreadState
  /-- `thread.task_state` -/
  taskStates : Nat → TaskState
  /-- `thread.pid` -/
  pids : Nat → Nat
  /-- `process.state`, which outlives the entry in `processes` -/
  processStates : Nat → TaskState
  /-- `process.threads` -/
  processThreads : Nat → List Nat
  /-- the keys of `scheduler.processes` and `scheduler.threads` -/
  processes : Nat → Bool
  threads : Nat → Bool
  taskQueue : List Nat
  cpus : Nat → PerCpu

namespace Kernel

def setState (system : Kernel) (tid : Nat) (state : ThreadState) : Kernel :=
  { system with states := Function.update system.states tid state }

def setCpu (system : Kernel) (core : Nat) (cpu : PerCpu) : Kernel :=
  { system with cpus := Function.update system.cpus core cpu }

def pushSource (system : Kernel) (core : Nat) (source : InterruptSource) : Kernel :=
  system.setCpu core { system.cpus core with
    interruptSources := source :: (system.cpus core).interruptSources }

def popSource (system : Kernel) (core : Nat) : Kernel :=
  system.setCpu core { system.cpus core with
    interruptSources := (system.cpus core).interruptSources.tail }

def ThreadState.save (state : ThreadState) (registers : Registers) : ThreadState :=
  ⟨registers.gpregs, registers.rip, registers.rsp, registers.rbp, registers.rflags, state.fsBase,
    state.gsBase⟩

/-- The source pushed for an interrupt of user code is `Syscall`. -/
def commonEnterInterrupt (system : Kernel) (core : Nat) (frame : InterruptFrame) : Kernel :=
  if frame.cs &&& 0b11 = 0 then
    system.pushSource core .kernel
  else
    let system := system.pushSource core .syscall
    match (system.cpus core).runningThread with
    | some thread =>
        system.setState thread (ThreadState.save (system.states thread) frame.registers)
    | none => system

def commonExitInterrupt (system : Kernel) (core : Nat) : Kernel := system.popSource core

/-- The registers that `schedule` copies from the last fast system call. `rcx` and
`r11` hold the return address and the flags, and are not copied themselves. -/
def ThreadState.restoreSyscall (state : ThreadState) (data : SyscallData) : ThreadState :=
  { state with
    gpregs := { data.gpregs with rcx := state.gpregs.rcx, r11 := state.gpregs.r11 }
    rip := data.gpregs.rcx
    rsp := data.rsp
    rbp := data.rbp
    rflags := data.gpregs.r11 }

def requeueRunning (system : Kernel) (core : Nat) : Kernel :=
  match (system.cpus core).interruptSources.head?, (system.cpus core).runningThread with
  | some .user, some thread | some .syscall, some thread =>
      if (system.taskStates thread).isZombie ∨
          (system.processStates (system.pids thread)).isZombie then
        system
      else
        { system with taskQueue := system.taskQueue ++ [thread] }
  | _, _ => system

def saveSyscallState (system : Kernel) (core : Nat) : Kernel :=
  match (system.cpus core).interruptSources.head?, (system.cpus core).runningThread with
  | some .syscall, some running =>
      system.setState running
        (ThreadState.restoreSyscall (system.states running) (system.cpus core).syscallData)
  | _, _ => system

/-- The state that `jmp_to_userland` puts into the registers. -/
structure Selection where
  thread : Nat
  restored : ThreadState

def select (system : Kernel) (core thread : Nat) : Kernel × Option Selection :=
  let pid := system.pids thread
  let system := if system.processes pid then
    { system with processStates := Function.update system.processStates pid .running } else system
  let system := { system with taskStates := Function.update system.taskStates thread .running }
  let system := system.setCpu core { system.cpus core with
    runningThread := some thread
    interruptSources := [] }
  (system, some ⟨thread, system.states thread⟩)

/-- A process that is still registered and is a zombie. -/
def skips (system : Kernel) (thread : Nat) : Bool :=
  system.processes (system.pids thread) && (system.processStates (system.pids thread)).isZombie

/-- The `'outer` loop; without a thread to run it ends in the idle loop. -/
def scheduleLoop (core : Nat) : Nat → Kernel → Option (Kernel × Option Selection)
  | 0, _ => none
  | rounds + 1, system =>
      let system := system.requeueRunning core
      match system.taskQueue with
      | [] => some (system.saveSyscallState core, none)
      | thread :: taskQueue =>
          let system := { system with taskQueue := taskQueue }.saveSyscallState core
          if system.skips thread then
            scheduleLoop core rounds system
          else
            some (system.select core thread)

def schedule (system : Kernel) (core : Nat) : Option (Kernel × Option Selection) :=
  scheduleLoop core (system.taskQueue.length + 1) system

def endThread (system : Kernel) (tid exitCode : Nat) : Kernel :=
  if system.threads tid then
    let pid := system.pids tid
    { system with
      processThreads := Function.update system.processThreads pid
        ((system.processThreads pid).filter (· ≠ tid))
      taskStates := Function.update system.taskStates tid (.zombie exitCode) }
  else
    system

def handleProcessExit (system : Kernel) (pid exitCode : Nat) : Kernel :=
  if system.processes pid then
    let system := { system with processes := Function.update system.processes pid false }
    let system := (system.processThreads pid).foldl
      (fun system tid => system.endThread tid exitCode)
      system
    { system with processStates := Function.update system.processStates pid (.zombie exitCode) }
  else
    system

def handleExit (system : Kernel) (tid exitCode : Nat) : Kernel :=
  if system.threads tid then
    let system := system.endThread tid exitCode
    if (system.processThreads (system.pids tid)).isEmpty then
      system.handleProcessExit (system.pids tid) exitCode
    else
      system
  else
    system

inductive SyscallAction where
  | finish (result : Nat)
  | setFsBase (value result : Nat)
  | setGsBase (value result : Nat)
  | schedYield
  | exit (code : Nat)

def finishSyscall (system : Kernel) (core thread result : Nat) : Kernel :=
  let cpu := system.cpus core
  let system := system.setCpu core { cpu with
    syscallData := { cpu.syscallData with gpregs := { cpu.syscallData.gpregs with rax := result } } }
  let state := system.states thread
  (system.setState thread { state with gpregs := { state.gpregs with rax := result } }).popSource core

def fastSyscall (system : Kernel) (core : Nat) (data : SyscallData) (action : SyscallAction) :
    Option (Kernel × Option Selection) :=
  let system := system.setCpu core { system.cpus core with syscallData := data }
  let system := system.pushSource core .syscall
  match (system.cpus core).runningThread with
  | none => none
  | some thread =>
      let state := system.states thread
      match action with
      | .finish result => some (system.finishSyscall core thread result, none)
      | .setFsBase value result =>
          some ((system.setState thread { state with fsBase := value }).finishSyscall core thread
            result, none)
      | .setGsBase value result =>
          some ((system.setState thread { state with gsBase := value }).finishSyscall core thread
            result, none)
      | .schedYield =>
          (system.setState thread
            { state with gpregs := { state.gpregs with rax := 0 } }).schedule core
      | .exit code => (system.handleExit thread ((code &&& 0xFF) <<< 8)).schedule core

inductive Interrupt where
  | timer
  | resumable
  | fatal

def sigkill : Nat := 9

def interrupt (system : Kernel) (core : Nat) (kind : Interrupt) (frame : InterruptFrame) :
    Option (Kernel × Option Selection) :=
  let system := system.commonEnterInterrupt core frame
  match kind with
  | .timer =>
      if frame.cs &&& 0b11 ≠ 0 then system.schedule core
      else some (system.commonExitInterrupt core, none)
  | .resumable => some (system.commonExitInterrupt core, none)
  | .fatal =>
      match (system.cpus core).runningThread with
      | some thread => (system.handleProcessExit (system.pids thread) (128 + sigkill)).schedule core
      | none => none

/-- `create_process`, as far as the scheduler is concerned. -/
def spawn (system : Kernel) (tid : Nat) (state : ThreadState) : Kernel :=
  { system with
    states := Function.update system.states tid state
    taskStates := Function.update system.taskStates tid .init
    pids := Function.update system.pids tid tid
    processStates := Function.update system.processStates tid .init
    processThreads := Function.update system.processThreads tid [tid]
    processes := Function.update system.processes tid true
    threads := Function.update system.threads tid true
    taskQueue := system.taskQueue ++ [tid] }

end Kernel

inductive Label where
  | interrupt (core : Nat) (kind : Kernel.Interrupt) (frame : InterruptFrame)
  | fastSyscall (core : Nat) (data : SyscallData) (action : Kernel.SyscallAction)
  | spawn (tid : Nat) (state : ThreadState)

def Kernel.step (system : Kernel) : Label → Option (Kernel × Option Kernel.Selection)
  | .interrupt core kind frame => system.interrupt core kind frame
  | .fastSyscall core data action => system.fastSyscall core data action
  | .spawn tid state => some (system.spawn tid state, none)

end Campix.Process
