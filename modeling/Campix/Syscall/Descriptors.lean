import Campix.Syscall.Io

/-!
# What a closed descriptor still reaches

`linux_sys_close` closes the handle behind a descriptor and leaves the descriptor as it
is: its entry keeps the address of the handle and the number never becomes available
again. A session keeps for each process the descriptors that it has closed, with the
number of opens so far, and those that it was given and has not closed. A closed
descriptor is dead exactly as long as no later open has put a handle at the old address,
and the process gets a new descriptor exactly as long as one was never handed out.
-/

namespace Campix.Syscall.Io

open Drivers Process

set_option autoImplicit false

inductive Call where
  | open_ (flags mode : Nat) (answers : OpenAnswers)
  | pipe (mapped : Bool) (answers : PipeAnswers)
  | read (fd buf count : Nat) (mapped : Bool) (answer : Except VfsError Nat)
  | write (fd buf count : Nat) (mapped : Bool) (answer : Except VfsError Nat)
  | lseek (fd whence : Nat) (answer : Except VfsError Nat)
  | close (fd : Nat) (answer : Except VfsError Unit)

/-- The result of a call and the descriptors that the process is given by it. -/
structure Reply where
  result : Except Errno Nat
  given : List Nat
  state : IoState

def Call.run (state : IoState) (pid : Nat) : Call → Reply
  | .open_ flags mode answers =>
      match linuxSysOpen state pid flags mode answers with
      | (.ok fd, state) => ⟨.ok fd, [fd], state⟩
      | (.error err, state) => ⟨.error err, [], state⟩
  | .pipe mapped answers =>
      match linuxSysPipe state pid mapped answers with
      | (.ok (readFd, writeFd), state) => ⟨.ok 0, [readFd, writeFd], state⟩
      | (.error err, state) => ⟨.error err, [], state⟩
  | .read fd buf count mapped answer =>
      ⟨linuxSysRead state pid fd buf count mapped answer, [], state⟩
  | .write fd buf count mapped answer =>
      ⟨linuxSysWrite state pid fd buf count mapped answer, [], state⟩
  | .lseek fd whence answer => ⟨linuxSysLseek state pid fd whence answer, [], state⟩
  | .close fd answer =>
      ⟨(linuxSysClose state pid fd answer).1, [], (linuxSysClose state pid fd answer).2⟩

def Call.descriptor : Call → Option Nat
  | .open_ .. | .pipe .. => none
  | .read fd .. | .write fd .. | .lseek fd .. | .close fd _ => some fd

def Call.wants (state : IoState) : Call → Nat
  | .open_ flags mode answers =>
      match (openHandle state flags mode answers).1 with
      | .ok _ => 1
      | .error _ => 0
  | .pipe mapped _ => if mapped then 2 else 0
  | .read .. | .write .. | .lseek .. | .close .. => 0

/-- The arguments of a call other than its descriptor are those that it goes on
with, on a file system of this kind. -/
def Call.accepted (kind : FileSystemKind) : Call → Bool
  | .open_ .. | .pipe .. | .close .. => true
  | .read _ buf count mapped _ => lowerHalfRange buf count && mapped
  | .write _ buf count mapped _ => count ≤ maxSingleWrite && lowerHalfRange buf count && mapped
  | .lseek _ whence _ => whence ≤ whenceEnd && kind ≠ .pipeFs

def IoState.openOf (state : IoState) (file : Fd) : Option Nat :=
  (state.fileSystems file.fs).handles.getHandleData file.handle

def Call.reaches (state : IoState) (pid : Nat) (call : Call) : Option Nat := do
  let fd ← call.descriptor
  let file ← (state.tables pid).fileAt fd
  if call.accepted (state.fileSystems file.fs).kind then state.openOf file else none

/-- Apart from the calls of the processes, files are opened and closed elsewhere
in the kernel. -/
inductive Label where
  | call (pid : Nat) (call : Call)
  | opens (fs address : Nat)
  | closes (fs handle : Nat)

structure Session where
  state : IoState
  closed : Nat → Nat → Option Nat
  inUse : Nat → List Nat
  modest : Nat → Bool

namespace Session

/-- The descriptors that a process has and asks for are no more than `k`, for some
`k` with `k + 3 ≤ MAX_FILES`, now and at every earlier call. -/
def staysModest (session : Session) (pid : Nat) (call : Call) : Bool :=
  session.modest pid &&
    (session.inUse pid).length + call.wants session.state + 3 ≤ maxFiles

/-- The descriptors that a successful `close` ends. -/
def ended (call : Call) (result : Except Errno Nat) : List Nat :=
  match call, result with
  | .close fd _, .ok _ => [fd]
  | _, _ => []

def step (session : Session) : Label → Session
  | .call pid call =>
      let reply := call.run session.state pid
      let ends := ended call reply.result
      { state := reply.state
        closed := Function.update session.closed pid fun fd =>
          if fd ∈ reply.given then none
          else if fd ∈ ends then some session.state.opened
          else session.closed pid fd
        inUse := Function.update session.inUse pid
          (reply.given ++ (session.inUse pid).filter fun fd => fd ∉ ends)
        modest := Function.update session.modest pid (session.staysModest pid call) }
  | .opens fs address => { session with state := session.state.fopen fs address }
  | .closes fs handle =>
      let fileSystem := ((session.state.fileSystems fs).fclose handle (.ok ())).2
      { session with state := session.state.setFileSystem fs fileSystem }

/-- The processes have their standard descriptors. -/
def start (fileSystems : Nat → FileSystem) (stdio : Nat → Fd × Fd × Fd) (opened : Nat) :
    Session where
  state :=
    { fileSystems := fileSystems
      tables := fun pid => .newWithStdio (stdio pid).1 (stdio pid).2.1 (stdio pid).2.2
      opened := opened }
  closed := fun _ _ => none
  inUse := fun _ => []
  modest := fun _ => true

def Keeps (session : Session) : Label → Prop
  | .call pid call =>
      (∀ fd opened, call.descriptor = some fd → session.closed pid fd = some opened →
        (call.run session.state pid).result = .error .ebadf ∧
          ∀ number, call.reaches session.state pid = some number → number < opened) ∧
      (session.staysModest pid call →
        (call.run session.state pid).result ≠ .error .emfile)
  | .opens .. | .closes .. => True

def BufferMapped : Call → Prop
  | .read _ buf count mapped _ => lowerHalfRange buf count → mapped
  | _ => True

/-- When a closed descriptor is used, the other arguments are accepted and the
address in its entry is not that of an open handle; and a process that is asking
for descriptors finds some that were never handed out. -/
def Clean (session : Session) : Label → Prop
  | .call pid call =>
      (∀ fd file, call.descriptor = some fd → session.closed pid fd ≠ none →
        (session.state.tables pid).fileAt fd = some file →
        call.accepted (session.state.fileSystems file.fs).kind ∧
          session.state.openOf file = none) ∧
      (session.staysModest pid call →
        call.wants session.state ≤ (session.state.tables pid).room ∧ BufferMapped call)
  | .opens .. | .closes .. => True

end Session

/-- Entries stay, except those of the descriptors given to `pid`, and a handle that
was not open before comes from an open since. -/
structure Onward (pid : Nat) (given : List Nat) (before after : IoState) : Prop where
  opened : before.opened ≤ after.opened
  orderly : ∀ other, (after.tables other).Orderly
  entries : ∀ other fd file, (other = pid → fd ∉ given) →
    (before.tables other).fileAt fd = some file → (after.tables other).fileAt fd = some file
  handles : ∀ file number, after.openOf file = some number →
    before.openOf file = some number ∨ before.opened ≤ number

section Calls

variable {state middle after : IoState} {pid : Nat} {given : List Nat} {file : Fd}

theorem onward_refl (orderly : ∀ other, (state.tables other).Orderly) :
    Onward pid given state state :=
  ⟨Nat.le_refl _, orderly, fun _ _ _ _ found => found, fun _ _ found => Or.inl found⟩

theorem onward_trans (first : Onward pid given state middle)
    (second : Onward pid given middle after) :
    Onward pid given state after where
  opened := first.opened.trans second.opened
  orderly := second.orderly
  entries other fd file apart found :=
    second.entries other fd file apart (first.entries other fd file apart found)
  handles file number found := by
    rcases second.handles file number found with earlier | later
    · exact first.handles file number earlier
    · exact Or.inr (first.opened.trans later)

theorem open_of_set (fs : Nat) (fileSystem : FileSystem) :
    (state.setFileSystem fs fileSystem).openOf file =
      if file.fs = fs then fileSystem.handles.getHandleData file.handle else state.openOf file := by
  unfold IoState.openOf
  by_cases same : file.fs = fs
  · rw [if_pos same, same, IoState.set_file_system_self]
  · rw [if_neg same, IoState.set_file_system_other state fileSystem same]

theorem fopen_onward (orderly : ∀ other, (state.tables other).Orderly) (fs address : Nat) :
    Onward pid given state (state.fopen fs address) where
  opened := Nat.le_succ _
  orderly := orderly
  entries _ _ _ _ found := found
  handles file number found := by
    have split := @open_of_set state file fs { state.fileSystems fs with
      handles := (state.fileSystems fs).handles.allocFileHandle address state.opened }
    change (state.setFileSystem fs _).openOf file = some number at found
    rw [split, FileHandleAllocator.get_alloc] at found
    by_cases same : file.fs = fs
    · rw [if_pos same] at found
      by_cases here : file.handle = address
      · rw [if_pos here] at found
        exact Or.inr (Nat.le_of_eq (Option.some.inj found))
      · rw [if_neg here] at found
        left
        rw [IoState.openOf, same]
        exact found
    · rw [if_neg same] at found
      exact Or.inl found

theorem fclose_handles (self : FileSystem) (closing : Nat) (answer : Except VfsError Unit)
    {handle number : Nat}
    (found : (self.fclose closing answer).2.handles.getHandleData handle = some number) :
    self.handles.getHandleData handle = some number := by
  unfold FileSystem.fclose at found
  cases here : self.handles.getHandleData closing with
  | none =>
      rw [here] at found
      exact found
  | some data =>
      rw [here] at found
      cases answer with
      | error err => exact found
      | ok _ =>
          simp only at found
          rw [FileHandleAllocator.get_dealloc] at found
          split_ifs at found
          exact found

theorem fclose_onward (orderly : ∀ other, (state.tables other).Orderly) (fs handle : Nat)
    (answer : Except VfsError Unit) :
    Onward pid given state
      (state.setFileSystem fs ((state.fileSystems fs).fclose handle answer).2) where
  opened := Nat.le_refl _
  orderly := orderly
  entries _ _ _ _ found := found
  handles file number found := by
    left
    rw [open_of_set] at found
    by_cases same : file.fs = fs
    · rw [if_pos same] at found
      rw [IoState.openOf, same]
      exact fclose_handles _ handle answer found
    · rw [if_neg same] at found
      exact found

theorem table_onward {table : FileTable} (orderly : ∀ other, (state.tables other).Orderly)
    (good : table.Orderly)
    (entries : ∀ fd file, fd ∉ given → (state.tables pid).fileAt fd = some file →
      table.fileAt fd = some file) : Onward pid given state (state.setTable pid table) where
  opened := Nat.le_refl _
  orderly other := by
    by_cases same : other = pid
    · rw [same, IoState.set_table_self]
      exact good
    · rw [IoState.set_table_other state table same]
      exact orderly other
  entries other fd file apart found := by
    by_cases same : other = pid
    · rw [same, IoState.set_table_self]
      exact entries fd file (apart same) (same ▸ found)
    · rw [IoState.set_table_other state table same]
      exact found
  handles _ _ found := Or.inl found

/-- `open` makes at most one handle and leaves the tables alone. -/
theorem open_handle_state (flags mode : Nat) (answers : OpenAnswers) :
    (openHandle state flags mode answers).2 = state ∨
      ∃ fs address, (openHandle state flags mode answers).2 = state.fopen fs address := by
  unfold openHandle
  split
  · exact Or.inl rfl
  split
  · exact Or.inl rfl
  split
  · exact Or.inl rfl
  split
  · exact Or.inl rfl
  split
  · exact Or.inl rfl
  rename_i fs _ _ address _
  right
  refine ⟨fs, address, ?_⟩
  dsimp only
  split
  · rfl
  · rfl
  split
  · split
    · rfl
    · split
      · rfl
      · rfl
  · rfl

theorem open_handle_onward (orderly : ∀ other, (state.tables other).Orderly) (flags mode : Nat)
    (answers : OpenAnswers) :
    Onward pid given state (openHandle state flags mode answers).2 ∧
      (openHandle state flags mode answers).2.tables = state.tables := by
  rcases @open_handle_state state flags mode answers with same | ⟨fs, address, made⟩
  · rw [same]
    exact ⟨onward_refl orderly, rfl⟩
  · rw [made]
    exact ⟨fopen_onward orderly fs address, rfl⟩

theorem create_raw_fds_onward (orderly : ∀ other, (state.tables other).Orderly)
    (answers : PipeAnswers) :
    Onward pid given state (createRawFds state answers).2 ∧
      (createRawFds state answers).2.tables = state.tables := by
  unfold createRawFds
  split
  · exact ⟨onward_refl orderly, rfl⟩
  split
  · exact ⟨onward_refl orderly, rfl⟩
  rename_i fs _ _ read _
  have first : Onward pid given state (state.fopen fs read) := fopen_onward orderly fs read
  split
  · exact ⟨first, rfl⟩
  · exact ⟨onward_trans first (fopen_onward first.orderly fs _), rfl⟩

theorem open_onward (orderly : ∀ other, (state.tables other).Orderly) (flags mode : Nat)
    (answers : OpenAnswers) :
    Onward pid (Call.run state pid (.open_ flags mode answers)).given state
      (Call.run state pid (.open_ flags mode answers)).state := by
  have before := fun given => @open_handle_onward state pid given orderly flags mode answers
  simp only [Call.run, linuxSysOpen]
  cases made : openHandle state flags mode answers with
  | mk result middle =>
  rw [made] at before
  cases result with
  | error err => exact (before _).1
  | ok file =>
  cases free : (middle.tables pid).allocFd with
  | none =>
      simp only [free]
      exact (before _).1
  | some pair =>
      obtain ⟨idx, table⟩ := pair
      simp only [free]
      obtain ⟨first, -⟩ := before [idx]
      obtain ⟨good, files, -, taken, -⟩ := FileTable.alloc_fd_spec (first.orderly pid) free
      refine onward_trans first (table_onward first.orderly
        (FileTable.set_fd_orderly good taken file) fun fd old apart found => ?_)
      rw [FileTable.file_at_set, if_neg (fun both => apart (List.mem_singleton.mpr both.1)),
        FileTable.fileAt, FileTable.getFd, files]
      exact found

theorem pipe_onward (orderly : ∀ other, (state.tables other).Orderly) (mapped : Bool)
    (answers : PipeAnswers) :
    Onward pid (Call.run state pid (.pipe mapped answers)).given state
      (Call.run state pid (.pipe mapped answers)).state := by
  obtain ⟨good, entries, -, all⟩ := FileTable.alloc_fds_loop_spec 2 List.nodup_nil (orderly pid)
    (fun fd member => absurd member List.not_mem_nil)
    (fun fd member => absurd member List.not_mem_nil)
  simp only [Call.run, linuxSysPipe, FileTable.allocFds]
  cases mapped with
  | false => exact onward_refl orderly
  | true =>
  rw [if_neg (by decide)]
  cases given : FileTable.allocFdsLoop 2 (state.tables pid) [] with
  | mk fds table =>
  rw [given] at good entries all
  have kept : ∀ given, Onward pid given state (state.setTable pid table) := by
    intro given
    exact table_onward orderly good fun fd file _ found => (entries fd).trans found
  cases fds with
  | none => exact kept _
  | some fds =>
  have taken := (all fds rfl).2
  match fds, taken with
  | [], _ => exact kept _
  | [_], _ => exact kept _
  | _ :: _ :: _ :: _, _ => exact kept _
  | [read, write], taken =>
  have readTaken := (taken read List.mem_cons_self).1
  have writeTaken := (taken write (List.mem_cons_of_mem _ List.mem_cons_self)).1
  have pipes := fun given => @create_raw_fds_onward (state.setTable pid table) pid given
    (kept []).orderly answers
  dsimp only
  cases made : createRawFds (state.setTable pid table) answers with
  | mk result middle =>
  rw [made] at pipes
  have first : ∀ given, Onward pid given state middle := fun given =>
    onward_trans (kept given) (pipes given).1
  have tables : middle.tables pid = table := by
    rw [(pipes []).2, IoState.set_table_self]
  cases result with
  | error err => exact first _
  | ok ends =>
  obtain ⟨pipeRead, pipeWrite⟩ := ends
  dsimp only
  have readGood := FileTable.set_fd_orderly good readTaken pipeRead
  cases FileTable.getFd table read with
  | none => exact first _
  | some _ =>
  dsimp only
  cases FileTable.getFd (table.setFd read pipeRead) write with
  | none =>
      refine onward_trans (first _) (table_onward (first []).orderly readGood ?_)
      intro fd file _ found
      rw [tables] at found
      rw [FileTable.file_at_set, if_neg]
      · exact found
      · rintro ⟨rfl, -⟩
        have unset := (taken fd List.mem_cons_self).2
        rw [← entries fd, found] at unset
        exact absurd unset (by simp)
  | some _ =>
      refine onward_trans (first _) (table_onward (first []).orderly
        (FileTable.set_fd_orderly readGood writeTaken pipeWrite) ?_)
      intro fd file apart found
      rw [tables] at found
      rw [FileTable.file_at_set, if_neg (fun both => apart (by rw [both.1]; simp)),
        FileTable.file_at_set, if_neg (fun both => apart (by rw [both.1]; simp))]
      exact found

theorem close_onward (orderly : ∀ other, (state.tables other).Orderly) (fd : Nat)
    (answer : Except VfsError Unit) :
    Onward pid given state (linuxSysClose state pid fd answer).2 := by
  unfold linuxSysClose
  split
  · rename_i file _
    have closing := @fclose_onward state pid given orderly file.fs file.handle answer
    split
    · rename_i closed
      rw [closed] at closing
      exact closing
    · rename_i closed
      rw [closed] at closing
      exact closing
  · exact onward_refl orderly

theorem run_onward (orderly : ∀ other, (state.tables other).Orderly) (call : Call) :
    Onward pid (call.run state pid).given state (call.run state pid).state := by
  cases call with
  | open_ flags mode answers => exact open_onward orderly flags mode answers
  | pipe mapped answers => exact pipe_onward orderly mapped answers
  | read fd buf count mapped answer => exact onward_refl orderly
  | write fd buf count mapped answer => exact onward_refl orderly
  | lseek fd whence answer => exact onward_refl orderly
  | close fd answer => exact close_onward orderly fd answer

/-- A `close` that succeeds leaves the entry, with a handle that is not open. -/
theorem close_leaves {fd : Nat} {answer : Except VfsError Unit} {value : Nat}
    (closed : (linuxSysClose state pid fd answer).1 = .ok value) :
    ∃ file, (state.tables pid).fileAt fd = some file ∧
      (linuxSysClose state pid fd answer).2.tables = state.tables ∧
      (linuxSysClose state pid fd answer).2.openOf file = none := by
  unfold linuxSysClose at closed ⊢
  split at closed
  · rename_i file entry
    refine ⟨file, FileTable.file_at_of_get entry, ?_⟩
    unfold FileSystem.fclose at closed ⊢
    cases here : (state.fileSystems file.fs).handles.getHandleData file.handle with
    | none =>
        rw [here] at closed
        exact absurd closed (by simp)
    | some number =>
    rw [here] at closed
    cases answer with
    | error err => exact absurd closed (by simp)
    | ok _ =>
    refine ⟨rfl, ?_⟩
    dsimp only
    rw [open_of_set, if_pos rfl, FileHandleAllocator.get_dealloc, if_pos rfl]
  · exact absurd closed (by simp)

end Calls

/-- The entry of a closed descriptor is still there, and a handle at its address
comes from an open after the close. -/
structure Tracked (session : Session) : Prop where
  orderly : ∀ pid, (session.state.tables pid).Orderly
  entry : ∀ pid fd opened, session.closed pid fd = some opened →
    opened ≤ session.state.opened ∧ ∃ file, (session.state.tables pid).fileAt fd = some file ∧
      ∀ number, session.state.openOf file = some number → opened ≤ number

section Run

variable {session : Session}

theorem stdio_orderly (stdin stdout stderr : Fd) :
    (FileTable.newWithStdio stdin stdout stderr).Orderly := by
  refine ⟨List.nodup_nil, fun fd member => absurd member List.not_mem_nil, ?_⟩
  rintro fd (member | above)
  · exact absurd member List.not_mem_nil
  · change 3 ≤ fd at above
    unfold FileTable.newWithStdio
    rw [FileTable.file_at_set, if_neg (by omega), FileTable.file_at_set, if_neg (by omega),
      FileTable.file_at_set, if_neg (by omega)]
    simp only [FileTable.fileAt, FileTable.getFd, FileTable.new, List.getElem?_replicate]
    split_ifs
    · rfl
    · rfl

theorem start_tracked (fileSystems : Nat → FileSystem) (stdio : Nat → Fd × Fd × Fd)
    (opened : Nat) : Tracked (Session.start fileSystems stdio opened) :=
  ⟨fun pid => stdio_orderly _ _ _, fun _ _ _ closed => absurd closed (by simp [Session.start])⟩

/-- Entries and handles go on as a call does, and the closed descriptors are
those from before. -/
theorem tracked_onward {pid : Nat} {given : List Nat} {after : Session}
    (tracked : Tracked session) (onward : Onward pid given session.state after.state)
    (closed : ∀ other fd opened, after.closed other fd = some opened →
      (other = pid → fd ∉ given) ∧ session.closed other fd = some opened ∨
      opened ≤ after.state.opened ∧ ∃ file, (after.state.tables other).fileAt fd = some file ∧
        after.state.openOf file = none) : Tracked after := by
  refine ⟨onward.orderly, fun other fd opened now => ?_⟩
  rcases closed other fd opened now with ⟨apart, earlier⟩ | ⟨bound, file, found, gone⟩
  · obtain ⟨bound, file, found, later⟩ := tracked.entry other fd opened earlier
    refine ⟨bound.trans onward.opened, file, onward.entries other fd file apart found, ?_⟩
    intro number here
    rcases onward.handles file number here with before | since
    · exact later number before
    · exact bound.trans since
  · exact ⟨bound, file, found, fun number here => absurd (gone.symm.trans here) (by simp)⟩

theorem step_tracked (tracked : Tracked session) (label : Label) :
    Tracked (session.step label) := by
  cases label with
  | opens fs address =>
      have onward : Onward 0 [] session.state (session.state.fopen fs address) :=
        fopen_onward tracked.orderly fs address
      exact tracked_onward tracked onward
        fun _ _ _ closed => Or.inl ⟨fun _ => List.not_mem_nil, closed⟩
  | closes fs handle =>
      have onward : Onward 0 [] session.state (session.state.setFileSystem fs
          ((session.state.fileSystems fs).fclose handle (.ok ())).2) :=
        fclose_onward tracked.orderly fs handle (.ok ())
      exact tracked_onward tracked onward
        fun _ _ _ closed => Or.inl ⟨fun _ => List.not_mem_nil, closed⟩
  | call pid call =>
      have onward := @run_onward session.state pid tracked.orderly call
      refine tracked_onward tracked onward fun other fd opened closed => ?_
      unfold Session.step at closed ⊢
      dsimp only at closed ⊢
      by_cases same : other = pid
      swap
      · rw [Function.update_of_ne same] at closed
        exact Or.inl ⟨fun this => absurd this same, closed⟩
      subst same
      rw [Function.update_self] at closed
      by_cases fresh : fd ∈ (call.run session.state other).given
      · rw [if_pos fresh] at closed
        exact absurd closed (by simp)
      rw [if_neg fresh] at closed
      by_cases ends : fd ∈ Session.ended call (call.run session.state other).result
      swap
      · rw [if_neg ends] at closed
        exact Or.inl ⟨fun _ => fresh, closed⟩
      rw [if_pos ends] at closed
      obtain rfl := Option.some.inj closed
      refine Or.inr ⟨onward.opened, ?_⟩
      -- only a `close` with a result ends a descriptor
      cases call with
      | close closing answer =>
          simp only [Call.run] at ends ⊢
          cases result : (linuxSysClose session.state other closing answer).1 with
          | error err =>
              rw [result] at ends
              exact absurd ends List.not_mem_nil
          | ok value =>
              rw [result] at ends
              obtain rfl := List.mem_singleton.mp ends
              obtain ⟨file, found, tables, gone⟩ := close_leaves result
              exact ⟨file, by rw [tables]; exact found, gone⟩
      | open_ _ _ _ => exact absurd ends List.not_mem_nil
      | pipe _ _ => exact absurd ends List.not_mem_nil
      | read _ _ _ _ _ => exact absurd ends List.not_mem_nil
      | write _ _ _ _ _ => exact absurd ends List.not_mem_nil
      | lseek _ _ _ => exact absurd ends List.not_mem_nil

theorem run_tracked (tracked : Tracked session) (labels : List Label) :
    Tracked (labels.foldl Session.step session) := by
  induction labels generalizing session with
  | nil => exact tracked
  | cons label labels ih => exact ih (step_tracked tracked label)

end Run

section Results

variable {state : IoState} {pid fd : Nat} {file : Fd} {call : Call}

theorem errno_ne_emfile (err : VfsError) : vfsErrToLinuxErrno err ≠ .emfile := by
  cases err <;> decide

theorem gone_transfer (gone : state.openOf file = none) (answer : Except VfsError Nat) :
    (state.fileSystems file.fs).transfer file.handle answer = .error .badHandle := by
  rw [IoState.openOf] at gone
  rw [FileSystem.transfer, gone]

theorem gone_result (works : call.descriptor = some fd)
    (found : (state.tables pid).fileAt fd = some file)
    (accepted : call.accepted (state.fileSystems file.fs).kind)
    (gone : state.openOf file = none) : (call.run state pid).result = .error .ebadf := by
  have entry := FileTable.get_of_file_at found
  cases call with
  | open_ _ _ _ => exact absurd works (by simp [Call.descriptor])
  | pipe _ _ => exact absurd works (by simp [Call.descriptor])
  | read other buf count mapped answer =>
      obtain rfl := Option.some.inj works
      have checks : lowerHalfRange buf count = true ∧ mapped = true := by
        simpa [Call.accepted] using accepted
      simp only [Call.run, linuxSysRead, checks.1, checks.2, entry, gone_transfer gone]
      rfl
  | write other buf count mapped answer =>
      obtain rfl := Option.some.inj works
      have checks : (count ≤ maxSingleWrite ∧ lowerHalfRange buf count = true) ∧ mapped = true := by
        simpa [Call.accepted] using accepted
      simp only [Call.run, linuxSysWrite, if_neg (Nat.not_lt.mpr checks.1.1), checks.1.2, checks.2,
        entry, gone_transfer gone]
      rfl
  | lseek other whence answer =>
      obtain rfl := Option.some.inj works
      have checks : whence ≤ whenceEnd ∧ (state.fileSystems file.fs).kind ≠ .pipeFs := by
        simpa [Call.accepted] using accepted
      have known : whence = whenceSet ∨ whence = whenceCur ∨ whence = whenceEnd := by
        have bound := checks.1
        unfold whenceEnd at bound
        unfold whenceSet whenceCur whenceEnd
        omega
      have refused : (state.fileSystems file.fs).fseek file.handle answer = .error .badHandle := by
        rw [IoState.openOf] at gone
        rw [FileSystem.fseek, gone]
        cases kind : (state.fileSystems file.fs).kind with
        | ext2Volume => rfl
        | devFs => rfl
        | pipeFs => exact absurd kind checks.2
      simp only [Call.run, linuxSysLseek, if_pos known, entry, refused]
      rfl
  | close other answer =>
      obtain rfl := Option.some.inj works
      have refused : ((state.fileSystems file.fs).fclose file.handle answer) =
          (.error .badHandle, state.fileSystems file.fs) := by
        rw [IoState.openOf] at gone
        unfold FileSystem.fclose
        rw [gone]
      simp only [Call.run, linuxSysClose, entry, refused]
      rfl

/-- A call that refuses its other arguments does not return `EBADF` on a
descriptor with an entry. -/
theorem refused_result (works : call.descriptor = some fd)
    (found : (state.tables pid).fileAt fd = some file)
    (refused : ¬call.accepted (state.fileSystems file.fs).kind) :
    (call.run state pid).result ≠ .error .ebadf := by
  have entry := FileTable.get_of_file_at found
  cases call with
  | open_ _ _ _ => exact absurd works (by simp [Call.descriptor])
  | pipe _ _ => exact absurd works (by simp [Call.descriptor])
  | read other buf count mapped answer =>
      simp only [Call.accepted, Bool.and_eq_true, not_and] at refused
      simp only [Call.run, linuxSysRead]
      by_cases range : lowerHalfRange buf count = true
      · rw [if_neg (fun not => not range), if_neg (refused range)]
        simp
      · rw [if_pos range]
        simp
  | write other buf count mapped answer =>
      simp only [Call.accepted, Bool.and_eq_true, decide_eq_true_eq, not_and, and_imp] at refused
      simp only [Call.run, linuxSysWrite]
      by_cases long : count > maxSingleWrite
      · rw [if_pos long]
        simp
      rw [if_neg long]
      by_cases range : lowerHalfRange buf count = true
      · rw [if_neg (fun not => not range), if_neg (refused (Nat.not_lt.mp long) range)]
        simp
      · rw [if_pos range]
        simp
  | lseek other whence answer =>
      obtain rfl := Option.some.inj works
      simp only [Call.accepted, Bool.and_eq_true, decide_eq_true_eq, not_and] at refused
      simp only [Call.run, linuxSysLseek]
      by_cases known : whence = whenceSet ∨ whence = whenceCur ∨ whence = whenceEnd
      · have bound : whence ≤ whenceEnd := by
          unfold whenceSet whenceCur whenceEnd at known
          unfold whenceEnd
          omega
        have kind : (state.fileSystems file.fs).kind = .pipeFs := not_not.mp (refused bound)
        rw [if_pos known, entry]
        simp only [FileSystem.fseek, kind]
        decide
      · rw [if_neg known]
        simp
  | close other answer => exact absurd rfl refused

theorem answer_ne_emfile {Value : Type} (err : VfsError) :
    (.error (vfsErrToLinuxErrno err) : Except Errno Value) ≠ .error .emfile :=
  fun same => errno_ne_emfile err (Except.error.inj same)

theorem open_handle_ne_emfile (state : IoState) (flags mode : Nat) (answers : OpenAnswers) :
    (openHandle state flags mode answers).1 ≠ .error .emfile := by
  unfold openHandle
  split
  · simp
  split
  · simp
  split
  · simp
  split
  · exact answer_ne_emfile _
  split
  · exact answer_ne_emfile _
  dsimp only
  split
  · exact answer_ne_emfile _
  · simp
  split
  · split
    · simp
    · split
      · exact answer_ne_emfile _
      · simp
  · simp

theorem open_emfile_iff (orderly : ∀ other, (state.tables other).Orderly) (flags mode : Nat)
    (answers : OpenAnswers) :
    (Call.run state pid (.open_ flags mode answers)).result = .error .emfile ↔
      (state.tables pid).room < (Call.open_ flags mode answers).wants state := by
  have other := open_handle_ne_emfile state flags mode answers
  have tables := (@open_handle_onward state pid [] orderly flags mode answers).2
  simp only [Call.run, linuxSysOpen, Call.wants]
  cases made : openHandle state flags mode answers with
  | mk result middle =>
  rw [made] at other tables
  cases result with
  | error err =>
      exact iff_of_false (fun same => other (congrArg Except.error (Except.error.inj same)))
        (Nat.not_lt_zero _)
  | ok file =>
  rw [← tables]
  cases free : (middle.tables pid).allocFd with
  | none =>
      simp only [free]
      exact iff_of_true trivial (by rw [FileTable.alloc_fd_none_iff.mp free]; decide)
  | some pair =>
      simp only [free]
      refine iff_of_false (by simp) fun full => ?_
      have none := FileTable.alloc_fd_none_iff.mpr (Nat.lt_one_iff.mp full)
      exact absurd (none.symm.trans free) (by simp)

theorem pipe_emfile_iff (orderly : (state.tables pid).Orderly) (mapped : Bool)
    (answers : PipeAnswers) :
    (Call.run state pid (.pipe mapped answers)).result = .error .emfile ↔
      (state.tables pid).room < (Call.pipe mapped answers).wants state := by
  obtain ⟨-, -, full, all⟩ := FileTable.alloc_fds_loop_spec 2 List.nodup_nil orderly
    (fun fd member => absurd member List.not_mem_nil)
    (fun fd member => absurd member List.not_mem_nil)
  simp only [Call.run, linuxSysPipe, FileTable.allocFds, Call.wants]
  cases mapped with
  | false => exact iff_of_false (by simp) (Nat.not_lt_zero _)
  | true =>
  rw [if_neg (by decide), if_pos rfl, ← full]
  cases given : FileTable.allocFdsLoop 2 (state.tables pid) [] with
  | mk fds table =>
  cases fds with
  | none => exact iff_of_true rfl rfl
  | some fds =>
  refine iff_of_false ?_ (by simp)
  dsimp only
  -- with both descriptors at hand, only the file system can refuse
  split
  · rename_i failed
    split at failed
    · split at failed
      · exact absurd (Prod.mk.inj failed).1 (by simp)
      · split at failed
        · exact absurd (Prod.mk.inj failed).1 (by simp)
        · split at failed
          · exact absurd (Prod.mk.inj failed).1 (by simp)
          · simp
    · exact absurd (Prod.mk.inj failed).1 (by simp)
  · rename_i err _ failed
    intro same
    obtain rfl := Except.error.inj same
    split at failed
    · split at failed
      · exact answer_ne_emfile _ (Prod.mk.inj failed).1
      · split at failed
        · exact absurd (Prod.mk.inj failed).1 (by simp)
        · split at failed
          · exact absurd (Prod.mk.inj failed).1 (by simp)
          · exact absurd (Prod.mk.inj failed).1 (by simp)
    · exact absurd (Prod.mk.inj failed).1 (by simp)

theorem read_emfile_iff (fd buf count : Nat) (mapped : Bool) (answer : Except VfsError Nat) :
    linuxSysRead state pid fd buf count mapped answer = .error .emfile ↔
      ¬Session.BufferMapped (.read fd buf count mapped answer) := by
  simp only [linuxSysRead, Session.BufferMapped, Classical.not_imp]
  by_cases range : lowerHalfRange buf count = true
  swap
  · rw [if_pos range]
    exact iff_of_false (by simp) fun both => range both.1
  rw [if_neg (fun not => not range)]
  by_cases present : mapped = true
  swap
  · rw [if_neg present]
    exact iff_of_true rfl ⟨range, present⟩
  rw [if_pos present]
  refine iff_of_false ?_ fun both => both.2 present
  split
  · split
    · simp
    · exact answer_ne_emfile _
  · simp

theorem write_ne_emfile (fd buf count : Nat) (mapped : Bool) (answer : Except VfsError Nat) :
    linuxSysWrite state pid fd buf count mapped answer ≠ .error .emfile := by
  unfold linuxSysWrite
  split
  · simp
  split
  · simp
  split
  · split
    · split
      · simp
      · exact answer_ne_emfile _
    · simp
  · simp

theorem lseek_ne_emfile (fd whence : Nat) (answer : Except VfsError Nat) :
    linuxSysLseek state pid fd whence answer ≠ .error .emfile := by
  unfold linuxSysLseek
  split
  · split
    · split
      · simp
      · exact answer_ne_emfile _
    · simp
  · simp

theorem close_ne_emfile (fd : Nat) (answer : Except VfsError Unit) :
    (linuxSysClose state pid fd answer).1 ≠ .error .emfile := by
  unfold linuxSysClose
  split
  · split
    · simp
    · exact answer_ne_emfile _
  · simp

/-- `EMFILE` is the result of a call that finds too few descriptors, and of a
`read` into memory that is not mapped. -/
theorem emfile_iff (orderly : ∀ other, (state.tables other).Orderly) :
    (call.run state pid).result = .error .emfile ↔
      (state.tables pid).room < call.wants state ∨ ¬Session.BufferMapped call := by
  cases call with
  | open_ flags mode answers =>
      simp only [Session.BufferMapped, not_true, or_false]
      exact open_emfile_iff orderly flags mode answers
  | pipe mapped answers =>
      simp only [Session.BufferMapped, not_true, or_false]
      exact pipe_emfile_iff (orderly pid) mapped answers
  | read fd buf count mapped answer =>
      simp only [Call.wants, Nat.not_lt_zero, false_or]
      exact read_emfile_iff fd buf count mapped answer
  | write fd buf count mapped answer =>
      simp only [Call.wants, Nat.not_lt_zero, false_or, Session.BufferMapped, not_true, iff_false]
      exact write_ne_emfile fd buf count mapped answer
  | lseek fd whence answer =>
      simp only [Call.wants, Nat.not_lt_zero, false_or, Session.BufferMapped, not_true, iff_false]
      exact lseek_ne_emfile fd whence answer
  | close fd answer =>
      simp only [Call.wants, Nat.not_lt_zero, false_or, Session.BufferMapped, not_true, iff_false]
      exact close_ne_emfile fd answer

end Results

theorem keeps_iff_clean {session : Session} (tracked : Tracked session) (label : Label) :
    session.Keeps label ↔ session.Clean label := by
  cases label with
  | opens _ _ => exact Iff.rfl
  | closes _ _ => exact Iff.rfl
  | call pid call =>
      refine and_congr ?_ (imp_congr_right fun _ => ?_)
      · constructor
        · intro dead fd file works isClosed found
          obtain ⟨opened, closed⟩ := Option.ne_none_iff_exists'.mp isClosed
          obtain ⟨result, reached⟩ := dead fd opened works closed
          obtain ⟨-, entry, same, later⟩ := tracked.entry pid fd opened closed
          obtain rfl := Option.some.inj (same.symm.trans found)
          have accepted : call.accepted (session.state.fileSystems entry.fs).kind := by
            by_contra refused
            exact refused_result works found refused result
          refine ⟨accepted, ?_⟩
          cases here : session.state.openOf entry with
          | none => rfl
          | some number =>
              -- the call would reach an open that came after the close
              have reaches : call.reaches session.state pid = some number := by
                simp [Call.reaches, works, found, accepted, here]
              exact absurd (reached number reaches) (Nat.not_lt.mpr (later number here))
        · intro clean fd opened works closed
          obtain ⟨-, file, found, -⟩ := tracked.entry pid fd opened closed
          obtain ⟨accepted, gone⟩ := clean fd file works (by rw [closed]; simp) found
          refine ⟨gone_result works found accepted gone, fun number reaches => ?_⟩
          have nothing : call.reaches session.state pid = none := by
            simp [Call.reaches, works, found, gone]
          exact absurd (nothing.symm.trans reaches) (by simp)
      · rw [ne_eq, emfile_iff tracked.orderly, not_or, not_not, Nat.not_lt]

/-- In every run a closed descriptor stays dead and descriptors do not run out if
and only if every step is clean. -/
theorem closed_descriptors_dead_iff (fileSystems : Nat → FileSystem)
    (stdio : Nat → Fd × Fd × Fd) (opened : Nat) (labels : List Label) :
    (∀ before label, before ++ [label] <+: labels →
        (before.foldl Session.step (.start fileSystems stdio opened)).Keeps label) ↔
      ∀ before label, before ++ [label] <+: labels →
        (before.foldl Session.step (.start fileSystems stdio opened)).Clean label := by
  have step : ∀ (before : List Label) label,
      (before.foldl Session.step (.start fileSystems stdio opened)).Keeps label ↔
        (before.foldl Session.step (.start fileSystems stdio opened)).Clean label := by
    intro before label
    exact keeps_iff_clean (run_tracked (start_tracked fileSystems stdio opened) before) label
  constructor
  · intro keeps before label part
    exact (step before label).mp (keeps before label part)
  · intro clean before label part
    exact (step before label).mpr (clean before label part)

def quietVolume : Session :=
  .start (fun _ => ⟨.ext2Volume, ⟨[]⟩⟩) (fun _ => (⟨0, 1⟩, ⟨0, 2⟩, ⟨0, 3⟩)) 0

def opensAt (address : Nat) : Call :=
  .open_ openWriteOnly 0 ⟨true, .ok 0, .ok address, .ok true, .ok 0⟩

/-- A file is opened and closed, and a second one gets the handle address of the
first. -/
def reusedAddress : List Label :=
  [.call 1 (opensAt 0x1000), .call 1 (.close 3 (.ok ())), .call 1 (opensAt 0x1000)]

/-- A `write` to the closed descriptor then goes to the second file. -/
theorem closed_descriptor_writes :
    ¬∀ before label,
      before ++ [label] <+: reusedAddress ++ [.call 1 (.write 3 0x1000_0000_0000 4 true (.ok 4))] →
        (before.foldl Session.step quietVolume).Keeps label := by
  intro keeps
  have last := keeps reusedAddress _ (List.prefix_refl _)
  have closed : (reusedAddress.foldl Session.step quietVolume).closed 1 3 = some 1 := by
    decide +kernel
  have wrote : (Call.run (reusedAddress.foldl Session.step quietVolume).state 1
      (.write 3 0x1000_0000_0000 4 true (.ok 4))).result.toOption = some 4 := by
    decide +kernel
  rw [(last.1 3 1 rfl closed).1] at wrote
  exact absurd wrote (by decide)

end Campix.Syscall.Io
