import Campix.Process.Liveness

/-!
# Return from a fast system call

`fast_syscall_entry` of `interrupts/idt.rs` stores the caller's registers in the core's
`syscall_data`, and loads them from there again before `sysretq`. `sched_yield` does not
come back that way: `schedule` copies the same registers into the thread, and
`jmp_to_userland` loads them when the thread is selected the next time.
-/

namespace Campix.Process

namespace Kernel

set_option autoImplicit false

/-- The end of `fast_syscall_entry`. `rbp` is loaded and then overwritten with `rsp`; `sysretq`
takes the return address from `rcx` and the flags from `r11`. -/
def sysret (data : SyscallData) : Registers where
  gpregs := data.gpregs
  rip := data.gpregs.rcx
  rsp := data.rsp
  rbp := data.rsp
  rflags := data.gpregs.r11

def archSetGs : Nat := 0x1001
def archSetFs : Nat := 0x1002

/-- `linux_syscall0`: what the call does to the thread; `answer` is what the handler of any other
call computes. -/
def linuxSyscall0 (data : SyscallData) (answer : Nat) : SyscallAction :=
  if data.gpregs.rax = 24 then .schedYield
  else if data.gpregs.rax = 60 then .exit data.gpregs.rdi
  else if data.gpregs.rax = 158 ∧ data.gpregs.rdi = archSetFs then .setFsBase data.gpregs.rsi 0
  else if data.gpregs.rax = 158 ∧ data.gpregs.rdi = archSetGs then .setGsBase data.gpregs.rsi 0
  else .finish answer

def SyscallAction.result : SyscallAction → Nat
  | .finish result => result
  | .setFsBase _ result => result
  | .setGsBase _ result => result
  | .schedYield => 0
  | .exit _ => 0

/-- Calls that come back through `sysretq`. -/
def SyscallAction.Straight : SyscallAction → Prop
  | .finish _ => True
  | .setFsBase _ _ => True
  | .setGsBase _ _ => True
  | .schedYield => False
  | .exit _ => False

inductive Returns (thread : Nat) (system : Kernel) (core : Nat) (data : SyscallData)
    (action : SyscallAction) : Registers → Prop
  | direct {after : Kernel} {selection : Option Selection} (straight : action.Straight)
      (returned : system.step (.fastSyscall core data action) = some (after, selection)) :
      Returns thread system core data action (sysret (after.cpus core).syscallData)
  | atOnce {after : Kernel} {restored : ThreadState} (yielded : action = .schedYield)
      (selected : system.step (.fastSyscall core data action) =
        some (after, some ⟨thread, restored⟩)) :
      Returns thread system core data action restored.registers
  | later {after middle final : Kernel} {label : Label} {selection : Option Selection}
      {restored : ThreadState} (yielded : action = .schedYield)
      (left : system.step (.fastSyscall core data action) = some (after, selection))
      (passed : ∀ selected, selection = some selected → selected.thread ≠ thread)
      (waits : Waits thread after middle) (spares : label.Spares thread middle)
      (resumed : middle.step label = some (final, some ⟨thread, restored⟩)) :
      Returns thread system core data action restored.registers

/-- The caller's registers, with the result in `rax`. -/
structure Preserves (data : SyscallData) (result : Nat) (registers : Registers) : Prop where
  rip : registers.rip = data.gpregs.rcx
  rsp : registers.rsp = data.rsp
  rbp : registers.rbp = data.rbp
  rbx : registers.gpregs.rbx = data.gpregs.rbx
  rdx : registers.gpregs.rdx = data.gpregs.rdx
  rsi : registers.gpregs.rsi = data.gpregs.rsi
  rdi : registers.gpregs.rdi = data.gpregs.rdi
  r8 : registers.gpregs.r8 = data.gpregs.r8
  r9 : registers.gpregs.r9 = data.gpregs.r9
  r10 : registers.gpregs.r10 = data.gpregs.r10
  r12 : registers.gpregs.r12 = data.gpregs.r12
  r13 : registers.gpregs.r13 = data.gpregs.r13
  r14 : registers.gpregs.r14 = data.gpregs.r14
  r15 : registers.gpregs.r15 = data.gpregs.r15
  rflags : registers.rflags = data.gpregs.r11
  rax : registers.gpregs.rax = result

variable {system after : Kernel} {core thread : Nat} {data : SyscallData} {action : SyscallAction}
variable {selection : Option Selection}

theorem finish_data (result : Nat) :
    ((system.finishSyscall core thread result).cpus core).syscallData =
      { (system.cpus core).syscallData with
        gpregs := { (system.cpus core).syscallData.gpregs with rax := result } } := by
  simp [finishSyscall, popSource, setState, setCpu]

/-- What `handler_fast` finds: the caller's registers stored, and the caller running. -/
theorem syscall_entered (running : (system.cpus core).runningThread = some thread) :
    ((system.enterSyscall core data).cpus core).runningThread = some thread ∧
      ((system.enterSyscall core data).cpus core).syscallData = data := by
  refine ⟨?_, ?_⟩
  · rw [(same_enter_syscall data).1.runningThread]
    exact running
  · simp [enterSyscall, pushSource, setCpu]

/-- A call that comes straight back leaves its result in the stored registers, and nothing else. -/
theorem straight_data (running : (system.cpus core).runningThread = some thread)
    (straight : action.Straight)
    (returned : system.step (.fastSyscall core data action) = some (after, selection)) :
    (after.cpus core).syscallData =
      { data with gpregs := { data.gpregs with rax := action.result } } := by
  obtain ⟨still, stored⟩ := @syscall_entered system core thread data running
  simp only [enterSyscall] at still stored
  rw [step, fastSyscall] at returned
  simp only [still] at returned
  cases action with
  | finish result =>
      obtain ⟨rfl, -⟩ := Prod.mk.inj (Option.some.inj returned)
      rw [finish_data, stored]
      rfl
  | setFsBase value result =>
      obtain ⟨rfl, -⟩ := Prod.mk.inj (Option.some.inj returned)
      rw [finish_data]
      simp only [setState]
      rw [stored]
      rfl
  | setGsBase value result =>
      obtain ⟨rfl, -⟩ := Prod.mk.inj (Option.some.inj returned)
      rw [finish_data]
      simp only [setState]
      rw [stored]
      rfl
  | schedYield => exact straight.elim
  | exit code => exact straight.elim

theorem saved_running {states : Nat → ThreadState} {cpu : PerCpu}
    (source : cpu.interruptSources.head? = some .syscall)
    (running : cpu.runningThread = some thread) (stored : cpu.syscallData = data) :
    savedStates states cpu thread = ThreadState.restoreSyscall (states thread) data := by
  rw [savedStates, if_pos ⟨source, running⟩, stored]

/-- `sched_yield` sets the thread's `rax` to 0, and `schedule` copies the stored registers over
it, the number of the call included. -/
theorem yielded_state (running : (system.cpus core).runningThread = some thread)
    (left : system.step (.fastSyscall core data .schedYield) = some (after, selection)) :
    (∃ state, after.states thread = ThreadState.restoreSyscall state data) ∧
      ∀ selected, selection = some selected →
        selected.restored = after.states selected.thread := by
  obtain ⟨still, stored⟩ := @syscall_entered system core thread data running
  have source := (@same_enter_syscall system core data).2
  simp only [enterSyscall] at still stored source
  rw [step, fastSyscall] at left
  simp only [still] at left
  obtain ⟨states, restored⟩ := schedule_states left
  exact ⟨⟨_, (congrFun states thread).trans (saved_running source still stored)⟩, restored⟩

theorem preserves_sysret_iff (result : Nat) :
    Preserves data result (sysret { data with gpregs := { data.gpregs with rax := result } }) ↔
      data.rbp = data.rsp := by
  constructor
  · exact fun preserves => preserves.rbp.symm
  · intro same
    exact ⟨rfl, rfl, same.symm, rfl, rfl, rfl, rfl, rfl, rfl, rfl, rfl, rfl, rfl, rfl, rfl, rfl⟩

theorem yield_number {answer : Nat} :
    linuxSyscall0 data answer = .schedYield ↔ data.gpregs.rax = 24 := by
  unfold linuxSyscall0
  split_ifs with yields <;> simp [yields]

/-- The caller of a fast system call finds its registers as they were exactly when the call is
not `sched_yield` and `rbp` was equal to `rsp`. -/
theorem syscall_preserves_iff (running : (system.cpus core).runningThread = some thread)
    {answer : Nat} {registers : Registers}
    (returns : Returns thread system core data (linuxSyscall0 data answer) registers) :
    Preserves data (linuxSyscall0 data answer).result registers ↔
      data.gpregs.rax ≠ 24 ∧ data.rbp = data.rsp := by
  -- A caller that yielded is restored with the number of its call in `rax`.
  have afterYield : ∀ state registers, linuxSyscall0 data answer = .schedYield →
      registers = (ThreadState.restoreSyscall state data).registers →
        (Preserves data (linuxSyscall0 data answer).result registers ↔
          data.gpregs.rax ≠ 24 ∧ data.rbp = data.rsp) := by
    rintro state registers yielded rfl
    have number := yield_number.mp yielded
    rw [yielded]
    refine ⟨fun preserves => ?_, fun holds => absurd number holds.1⟩
    have zero : data.gpregs.rax = 0 := preserves.rax
    omega
  cases returns with
  | direct straight returned =>
      have other : data.gpregs.rax ≠ 24 := fun number => by
        rw [yield_number.mpr number] at straight
        exact straight.elim
      rw [straight_data running straight returned, preserves_sysret_iff]
      exact ⟨fun same => ⟨other, same⟩, fun holds => holds.2⟩
  | atOnce yielded selected =>
      rw [yielded] at selected
      obtain ⟨⟨state, restored⟩, same⟩ := yielded_state running selected
      refine afterYield state _ yielded ?_
      rw [← restored, ← same _ rfl]
  | later yielded left passed waits spares resumed =>
      rw [yielded] at left
      obtain ⟨⟨state, restored⟩, -⟩ := yielded_state running left
      obtain ⟨kept, same⟩ := step_spares spares resumed
      refine afterYield state _ yielded ?_
      rw [← restored, ← waits_keeps_state waits, ← kept, ← same _ rfl]

/-- `getpid` of thread 1. -/
def getPid (rbp : Nat) : SyscallData :=
  ⟨{ clearRegisters with rax := 39, rcx := 0x401002, r11 := 0x202 }, 0x7FFF_FFFF_F000, rbp⟩

theorem getpid_returns (rbp : Nat) :
    Returns 1 oneThread 0 (getPid rbp) (linuxSyscall0 (getPid rbp) 1)
      (sysret { getPid rbp with gpregs := { (getPid rbp).gpregs with rax := 1 } }) := by
  have straight : (linuxSyscall0 (getPid rbp) 1).Straight := trivial
  have returned : oneThread.step (.fastSyscall 0 (getPid rbp) (linuxSyscall0 (getPid rbp) 1)) =
      some (_, none) := rfl
  exact .direct straight returned

/-- Without a frame pointer the registers come back. -/
theorem getpid_preserves :
    Preserves (getPid 0x7FFF_FFFF_F000) 1
      (sysret { getPid 0x7FFF_FFFF_F000 with
        gpregs := { (getPid 0x7FFF_FFFF_F000).gpregs with rax := 1 } }) :=
  (syscall_preserves_iff rfl (getpid_returns _)).mpr ⟨by decide, rfl⟩

/-- A frame pointer is lost. -/
theorem getpid_loses_frame_pointer :
    ¬ ∀ registers, Returns 1 oneThread 0 (getPid 0x7FFF_FFFF_F010)
        (linuxSyscall0 (getPid 0x7FFF_FFFF_F010) 1) registers →
      Preserves (getPid 0x7FFF_FFFF_F010) 1 registers := by
  intro claimed
  have kept := (claimed _ (getpid_returns _)).rbp
  exact absurd kept (by decide)

end Kernel

end Campix.Process
