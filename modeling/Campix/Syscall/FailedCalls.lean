import Campix.Process.DescriptorNumbers
import Campix.Syscall.Descriptors

/-!
# What a failing call leaves behind

`open` and `pipe` take a handle or descriptors first and can fail later on. A call that fails
before, or at the descriptors of `pipe`, leaves the tables and the handles as they were; none
of the later failures gives back what was taken.
-/

namespace Campix.Syscall.Io

open Drivers Pipes Process

set_option autoImplicit false

/-- The entries of all tables, the descriptors that are free and the handles that are open. -/
structure SameResources (before after : IoState) : Prop where
  entries : ∀ pid fd, (after.tables pid).fileAt fd = (before.tables pid).fileAt fd
  free : ∀ pid, ∀ fd < maxFiles, (after.tables pid).Vacant fd ↔ (before.tables pid).Vacant fd
  handles : ∀ file, after.openOf file = before.openOf file

/-- A call that fails changes none of them. -/
def LeaksNothing {Value : Type} (before : IoState) (call : Except Errno Value × IoState) : Prop :=
  ∀ err, call.1 = .error err → SameResources before call.2

/-- Of a table, which descriptors are in use is known, and the others have no file; a handle
comes from one of the opens so far. -/
structure IoState.Sound (state : IoState) : Prop where
  orderly : ∀ pid, (state.tables pid).Orderly
  counted : ∀ pid, ∃ inUse, Usage.Counted ⟨state.tables pid, inUse⟩
  numbered : ∀ file number, state.openOf file = some number → number < state.opened

variable {state after : IoState} {pid fs handle flags mode openMode : Nat} {answers : OpenAnswers}
  {table : FileTable} {inUse : List Nat}

theorem same_refl (state : IoState) : SameResources state state :=
  ⟨fun _ _ => rfl, fun _ _ _ => Iff.rfl, fun _ => rfl⟩

theorem counted_set_fd {fd : Nat} {file : Fd} (counted : Usage.Counted ⟨table, inUse⟩) :
    Usage.Counted ⟨table.setFd fd file, inUse⟩ :=
  ⟨List.length_set.trans counted.files, counted.highest, counted.split⟩

theorem open_of_fopen (file : Fd) :
    (state.fopen fs handle).openOf file =
      if file.fs = fs ∧ file.handle = handle then some state.opened else state.openOf file := by
  have split := @open_of_set state file fs { state.fileSystems fs with
    handles := (state.fileSystems fs).handles.allocFileHandle handle state.opened }
  change (state.setFileSystem fs _).openOf file = _
  rw [split, FileHandleAllocator.get_alloc]
  by_cases same : file.fs = fs
  · by_cases here : file.handle = handle
    · rw [if_pos same, if_pos here, if_pos ⟨same, here⟩]
    · rw [if_pos same, if_neg here, if_neg fun both => here both.2, IoState.openOf, same]
  · rw [if_neg same, if_neg fun both => same both.1]

theorem fopen_sound (sound : state.Sound) : (state.fopen fs handle).Sound := by
  refine ⟨sound.orderly, sound.counted, fun file number found => ?_⟩
  rw [open_of_fopen] at found
  change number < state.opened + 1
  split_ifs at found
  · obtain rfl := Option.some.inj found
    exact Nat.lt_succ_self _
  · exact Nat.lt_succ_of_lt (sound.numbered file number found)

theorem set_table_sound (sound : state.Sound) (orderly : table.Orderly)
    (counted : Usage.Counted ⟨table, inUse⟩) : (state.setTable pid table).Sound := by
  refine ⟨fun other => ?_, fun other => ?_, sound.numbered⟩
  · by_cases same : other = pid
    · rw [same, IoState.set_table_self]
      exact orderly
    · rw [IoState.set_table_other state table same]
      exact sound.orderly other
  · by_cases same : other = pid
    · rw [same, IoState.set_table_self]
      exact ⟨inUse, counted⟩
    · rw [IoState.set_table_other state table same]
      exact sound.counted other

theorem fclose_sound (sound : state.Sound) (answer : Except VfsError Unit) :
    (state.setFileSystem fs ((state.fileSystems fs).fclose handle answer).2).Sound := by
  refine ⟨sound.orderly, sound.counted, fun file number found => ?_⟩
  rw [open_of_set] at found
  split_ifs at found with same
  · apply sound.numbered file number
    rw [IoState.openOf, same]
    exact fclose_handles _ handle answer found
  · exact sound.numbered file number found

theorem open_handle_sound (sound : state.Sound) (flags mode : Nat) (answers : OpenAnswers) :
    (openHandle state flags mode answers).2.Sound := by
  rcases open_handle_state flags mode answers with same | ⟨fs, address, same⟩
  · rw [same]
    exact sound
  · rw [same]
    exact fopen_sound sound

theorem open_sound (sound : state.Sound) (flags mode : Nat) (answers : OpenAnswers) :
    (linuxSysOpen state pid flags mode answers).2.Sound := by
  have middle := open_handle_sound sound flags mode answers
  unfold linuxSysOpen
  cases made : openHandle state flags mode answers with
  | mk result opened =>
      rw [made] at middle
      cases result with
      | error err => exact middle
      | ok file =>
          dsimp only
          cases given : (opened.tables pid).allocFd with
          | none => exact middle
          | some pair =>
              obtain ⟨idx, table⟩ := pair
              obtain ⟨inUse, counted⟩ := middle.counted pid
              obtain ⟨good, -, -, taken, -⟩ := FileTable.alloc_fd_spec (middle.orderly pid) given
              exact set_table_sound middle (FileTable.set_fd_orderly good taken file)
                (counted_set_fd (Usage.counted_alloc_fd counted given))

theorem alloc_fds_sound (sound : state.Sound) {fds : Option (List Nat)} (count : Nat)
    (given : (state.tables pid).allocFds count = (fds, table)) :
    table.Orderly ∧ (∃ inUse, Usage.Counted ⟨table, inUse⟩) ∧
      (∀ fd, table.fileAt fd = (state.tables pid).fileAt fd) ∧
      (fds = none ↔ (state.tables pid).room < count) ∧
      (fds = none → ∀ fd < maxFiles, table.Vacant fd ↔ (state.tables pid).Vacant fd) ∧
      ∀ all, fds = some all → all.length = count ∧ ∀ fd ∈ all, ¬table.Vacant fd ∧ fd < maxFiles ∧
        (state.tables pid).Vacant fd := by
  obtain ⟨inUse, counted⟩ := sound.counted pid
  have spec := FileTable.alloc_fds_loop_spec count List.nodup_nil (sound.orderly pid)
    (fun fd member => absurd member List.not_mem_nil)
      (fun fd member => absurd member List.not_mem_nil)
  have loop : FileTable.allocFdsLoop count (state.tables pid) [] = (fds, table) := given
  rw [loop] at spec
  obtain ⟨orderly, entries, room, all⟩ := spec
  obtain ⟨succeeds, fails⟩ := @Usage.counted_loop (state.tables pid) inUse [] count counted
  cases fds with
  | none =>
      have back := fails table given
      refine ⟨orderly, ⟨inUse, back⟩, entries, room, fun _ fd _ => ?_,
        fun _ impossible => absurd impossible (by simp)⟩
      exact (Usage.vacant_iff back).trans (Usage.vacant_iff counted).symm
  | some fds =>
      have taken := succeeds fds table given
      refine ⟨orderly, ⟨_, taken⟩, entries, room, fun impossible => absurd impossible (by simp), ?_⟩
      intro other same
      obtain rfl := Option.some.inj same
      obtain ⟨length, gone⟩ := all fds rfl
      refine ⟨by rw [length, List.length_nil, Nat.zero_add], fun fd member => ⟨(gone fd member).1, ?_, ?_⟩⟩
      · have below := Usage.counted_below taken fd (List.mem_append_left _ member)
        exact Nat.lt_of_lt_of_le below taken.highest
      · apply (Usage.vacant_iff counted).mpr
        intro used
        have apart := List.disjoint_of_nodup_append (Usage.counted_nodup taken)
        exact apart member used

theorem create_raw_fds_sound (sound : state.Sound) (answers : PipeAnswers) :
    (createRawFds state answers).2.Sound ∧
      (createRawFds state answers).2.tables = state.tables := by
  unfold createRawFds
  split
  · exact ⟨sound, rfl⟩
  split
  · exact ⟨sound, rfl⟩
  dsimp only
  split
  · exact ⟨fopen_sound sound, rfl⟩
  · exact ⟨fopen_sound (fopen_sound sound), rfl⟩

theorem get_fd_of_counted {fd : Nat} (counted : Usage.Counted ⟨table, inUse⟩)
    (below : fd < maxFiles) :
    ∃ entry, table.getFd fd = some entry := by
  have files : table.files.length = maxFiles := counted.files
  exact ⟨_, List.getElem?_eq_getElem (by omega)⟩

theorem pipe_sound (sound : state.Sound) (mapped : Bool) (answers : PipeAnswers) :
    (linuxSysPipe state pid mapped answers).2.Sound := by
  unfold linuxSysPipe
  split
  · exact sound
  cases given : (state.tables pid).allocFds 2 with
  | mk fds table =>
      obtain ⟨orderly, ⟨inUse, counted⟩, -, -, -, all⟩ := alloc_fds_sound sound 2 given
      have taken : (state.setTable pid table).Sound := set_table_sound sound orderly counted
      cases fds with
      | none => exact taken
      | some fds =>
          dsimp only
          split
          · rename_i read write
            have gone := (all _ rfl).2
            obtain ⟨made, tables⟩ := create_raw_fds_sound taken answers
            have first := FileTable.set_fd_orderly orderly (gone read List.mem_cons_self).1
            cases creating : createRawFds (state.setTable pid table) answers with
            | mk result later =>
                rw [creating] at made
                cases result with
                | error err => exact made
                | ok ends =>
                    obtain ⟨pipeRead, pipeWrite⟩ := ends
                    dsimp only
                    have readSet := @counted_set_fd _ _ read pipeRead counted
                    have readTaken := (gone read List.mem_cons_self).1
                    have writeTaken := (gone write (List.mem_cons_of_mem _ List.mem_cons_self)).1
                    have readGood := FileTable.set_fd_orderly orderly readTaken pipeRead
                    split
                    · exact made
                    · split
                      · exact set_table_sound made readGood readSet
                      · exact set_table_sound made (FileTable.set_fd_orderly readGood writeTaken
                          pipeWrite)
                          (counted_set_fd readSet)
          · exact taken

theorem call_sound (sound : state.Sound) (call : Call) : (call.run state pid).state.Sound := by
  cases call with
  | open_ flags mode answers =>
      have after := @open_sound state pid sound flags mode answers
      simp only [Call.run]
      cases made : linuxSysOpen state pid flags mode answers with
      | mk result later =>
          rw [made] at after
          cases result with
          | error err => exact after
          | ok fd => exact after
  | pipe mapped answers =>
      have after := @pipe_sound state pid sound mapped answers
      simp only [Call.run]
      cases made : linuxSysPipe state pid mapped answers with
      | mk result later =>
          rw [made] at after
          cases result with
          | error err => exact after
          | ok fds => exact after
  | read fd buf count mapped answer => exact sound
  | write fd buf count mapped answer => exact sound
  | lseek fd whence answer => exact sound
  | close fd answer =>
      change (linuxSysClose state pid fd answer).2.Sound
      unfold linuxSysClose
      split
      · rename_i file _
        have closing := @fclose_sound state file.fs file.handle sound answer
        split
        · rename_i made
          rw [made] at closing
          exact closing
        · rename_i made
          rw [made] at closing
          exact closing
      · exact sound

theorem step_sound {session : Session} (sound : session.state.Sound) (label : Label) :
    (session.step label).state.Sound := by
  cases label with
  | call pid call => exact call_sound sound call
  | opens fs address => exact fopen_sound sound
  | closes fs handle => exact fclose_sound sound (.ok ())

theorem run_sound {session : Session} (sound : session.state.Sound) (labels : List Label) :
    (labels.foldl Session.step session).state.Sound := by
  induction labels generalizing session with
  | nil => exact sound
  | cons label labels ih => exact ih (step_sound sound label)

theorem start_sound (fileSystems : Nat → FileSystem) (stdio : Nat → Fd × Fd × Fd) (opened : Nat)
    (numbered : ∀ file : Fd, ∀ number,
      (fileSystems file.fs).handles.getHandleData file.handle = some number → number < opened) :
    (Session.start fileSystems stdio opened).state.Sound where
  orderly _ := stdio_orderly _ _ _
  counted _ := ⟨_, Usage.counted_with_stdio _ _ _⟩
  numbered := numbered

/-- `open` gets as far as `fopen`, which returns a handle. -/
structure Opens (flags mode : Nat) (answers : OpenAnswers) (openMode fs handle : Nat) : Prop where
  copied : answers.copied = true
  supported : flags &&& supportedOpenFlags = flags ∧ mode &&& supportedPermissionFlags = mode
  openMode : openModeOf flags = some openMode
  getFile : answers.getFile = .ok fs
  fopen : answers.fopen = .ok handle

/-- What `open` asks of the file behind `fopen`: that the path has one, and a seek to its start
if it is to be truncated, which takes the mode for writing and a file system that seeks. -/
structure Completes (state : IoState) (flags : Nat) (answers : OpenAnswers)
    (openMode fs : Nat) : Prop where
  found : answers.getStats = .ok true
  truncates : has flags openTruncate = true → openMode &&& OPEN_MODE_WRITE = OPEN_MODE_WRITE ∧
    (state.fileSystems fs).kind ≠ .pipeFs ∧ ∃ position, answers.fseek = .ok position

theorem open_handle_early (early : ∀ openMode fs handle,
    ¬Opens flags mode answers openMode fs handle) :
    ∃ err, openHandle state flags mode answers = (.error err, state) := by
  unfold openHandle
  by_cases copied : answers.copied = true
  swap
  · rw [if_pos copied]
    exact ⟨_, rfl⟩
  rw [if_neg (not_not.mpr copied)]
  by_cases supported : flags &&& supportedOpenFlags ≠ flags ∨
    mode &&& supportedPermissionFlags ≠ mode
  · rw [if_pos supported]
    exact ⟨_, rfl⟩
  rw [if_neg supported]
  cases chosen : openModeOf flags with
  | none => exact ⟨_, rfl⟩
  | some openMode =>
      cases getFile : answers.getFile with
      | error err => exact ⟨_, rfl⟩
      | ok fs =>
          cases fopen : answers.fopen with
          | error err => exact ⟨_, rfl⟩
          | ok handle =>
              rw [not_or, not_not, not_not] at supported
              exact absurd ⟨copied, supported, chosen, getFile, fopen⟩ (early openMode fs handle)

theorem seek_fopen (answer : Except VfsError Nat) :
    ((state.fopen fs handle).fileSystems fs).fseek handle answer =
      if (state.fileSystems fs).kind = .pipeFs then .error .actionNotAllowed else answer := by
  have here : (state.fopen fs handle).fileSystems fs = { state.fileSystems fs with
      handles := (state.fileSystems fs).handles.allocFileHandle handle state.opened } :=
    IoState.set_file_system_self _ _ _
  rw [here]
  unfold FileSystem.fseek
  rw [FileHandleAllocator.get_alloc, if_pos rfl]
  cases (state.fileSystems fs).kind with
  | ext2Volume => rfl
  | devFs => rfl
  | pipeFs => rfl

/-- Behind `fopen` the handle stays open, whether the rest succeeds or not. -/
theorem open_handle_opened (opens : Opens flags mode answers openMode fs handle) :
    (openHandle state flags mode answers).2 = state.fopen fs handle ∧
      ((openHandle state flags mode answers).1 = .ok ⟨fs, handle⟩ ∧
        Completes state flags answers openMode fs ∨
        (∃ err, (openHandle state flags mode answers).1 = .error err) ∧
          ¬Completes state flags answers openMode fs) := by
  obtain ⟨copied, supported, chosen, getFile, fopen⟩ := opens
  have allowed : ¬(flags &&& supportedOpenFlags ≠ flags ∨
      mode &&& supportedPermissionFlags ≠ mode) := by
    rw [not_or, not_not, not_not]
    exact supported
  unfold openHandle
  rw [if_neg (not_not.mpr copied), if_neg allowed, chosen, getFile, fopen]
  dsimp only
  rw [seek_fopen]
  cases stats : answers.getStats with
  | error err =>
      refine ⟨rfl, .inr ⟨⟨_, rfl⟩, fun completes => ?_⟩⟩
      exact absurd (stats.symm.trans completes.found) (by simp)
  | ok present =>
      cases present with
      | false =>
          refine ⟨rfl, .inr ⟨⟨_, rfl⟩, fun completes => ?_⟩⟩
          exact absurd (stats.symm.trans completes.found) (by simp)
      | true =>
          dsimp only
          by_cases truncates : has flags openTruncate = true
          swap
          · rw [if_neg truncates]
            exact ⟨rfl, .inl ⟨rfl, stats, fun asked => absurd asked truncates⟩⟩
          rw [if_pos truncates]
          by_cases writes : openMode &&& OPEN_MODE_WRITE ≠ OPEN_MODE_WRITE
          · rw [if_pos writes]
            exact ⟨rfl, .inr ⟨⟨_, rfl⟩, fun completes => writes (completes.truncates truncates).1⟩⟩
          rw [if_neg writes]
          by_cases pipes : (state.fileSystems fs).kind = .pipeFs
          · rw [if_pos pipes]
            exact ⟨rfl, .inr ⟨⟨_, rfl⟩, fun completes => (completes.truncates truncates).2.1 pipes⟩⟩
          rw [if_neg pipes]
          cases sought : answers.fseek with
          | error err =>
              refine ⟨rfl, .inr ⟨⟨_, rfl⟩, fun completes => ?_⟩⟩
              obtain ⟨position, found⟩ := (completes.truncates truncates).2.2
              exact absurd (sought.symm.trans found) (by simp)
          | ok position =>
              exact ⟨rfl, .inl ⟨rfl, stats, fun _ => ⟨not_not.mp writes, pipes, position, sought⟩⟩⟩

theorem fopen_not_same (sound : state.Sound) : ¬SameResources state (state.fopen fs handle) := by
  intro same
  have here := same.handles ⟨fs, handle⟩
  rw [open_of_fopen, if_pos ⟨rfl, rfl⟩] at here
  exact absurd (sound.numbered _ _ here.symm) (Nat.lt_irrefl _)

theorem open_leaks_nothing_iff (sound : state.Sound) (pid flags mode : Nat)
    (answers : OpenAnswers) :
    LeaksNothing state (linuxSysOpen state pid flags mode answers) ↔
      ∀ openMode fs handle, Opens flags mode answers openMode fs handle →
        Completes state flags answers openMode fs ∧ (state.tables pid).room ≠ 0 := by
  by_cases reached : ∃ openMode fs handle, Opens flags mode answers openMode fs handle
  swap
  · have early : ∀ openMode fs handle, ¬Opens flags mode answers openMode fs handle :=
      fun openMode fs handle opens => reached ⟨openMode, fs, handle, opens⟩
    obtain ⟨err, failed⟩ := @open_handle_early state flags mode answers early
    have call : linuxSysOpen state pid flags mode answers = (.error err, state) := by
      rw [linuxSysOpen, failed]
    constructor
    · intro _ openMode fs handle opens
      exact absurd opens (early openMode fs handle)
    · intro _ other _
      rw [call]
      exact same_refl state
  obtain ⟨openMode, fs, handle, opens⟩ := reached
  have only : (∀ openMode fs handle, Opens flags mode answers openMode fs handle →
      Completes state flags answers openMode fs ∧ (state.tables pid).room ≠ 0) ↔
        Completes state flags answers openMode fs ∧ (state.tables pid).room ≠ 0 := by
    constructor
    · exact fun all => all openMode fs handle opens
    · intro completes openMode' fs' handle' opens'
      obtain rfl := Option.some.inj (opens.openMode.symm.trans opens'.openMode)
      obtain rfl := Except.ok.inj (opens.getFile.symm.trans opens'.getFile)
      exact completes
  rw [only]
  obtain ⟨later, outcome⟩ := @open_handle_opened state fs handle flags mode openMode answers opens
  have leaks : ∀ err, linuxSysOpen state pid flags mode answers =
      (.error err, state.fopen fs handle) →
      ¬LeaksNothing state (linuxSysOpen state pid flags mode answers) := by
    intro err call leaksNothing
    rw [call] at leaksNothing
    exact fopen_not_same sound (leaksNothing err rfl)
  rcases outcome with ⟨done, completes⟩ | ⟨⟨err, failed⟩, incomplete⟩
  · have handled : openHandle state flags mode answers =
        (.ok ⟨fs, handle⟩, state.fopen fs handle) :=
      Prod.ext done later
    have tables : (state.fopen fs handle).tables pid = state.tables pid := rfl
    cases given : (state.tables pid).allocFd with
    | none =>
        have call : linuxSysOpen state pid flags mode answers =
            (.error .emfile, state.fopen fs handle) := by
          rw [linuxSysOpen, handled]
          dsimp only
          rw [tables, given]
        apply iff_of_false (leaks _ call)
        intro all
        exact all.2 (FileTable.alloc_fd_none_iff.mp given)
    | some pair =>
        obtain ⟨idx, table⟩ := pair
        have call : (linuxSysOpen state pid flags mode answers).1 = .ok idx := by
          rw [linuxSysOpen, handled]
          dsimp only
          rw [tables, given]
        apply iff_of_true
        · intro err failed
          rw [call] at failed
          exact absurd failed (by simp)
        · refine ⟨completes, fun full => ?_⟩
          exact absurd (given.symm.trans (FileTable.alloc_fd_none_iff.mpr full)) (by simp)
  · have handled : openHandle state flags mode answers = (.error err, state.fopen fs handle) :=
      Prod.ext failed later
    have call : linuxSysOpen state pid flags mode answers =
        (.error err, state.fopen fs handle) := by
      rw [linuxSysOpen, handled]
    exact iff_of_false (leaks err call) fun all => incomplete all.1

def PipeAnswers.Made (answers : PipeAnswers) : Prop :=
  ∃ fs read write, answers.create = .ok fs ∧ answers.fopenRead = .ok read ∧
    answers.fopenWrite = .ok write

theorem create_raw_fds_made (answers : PipeAnswers) :
    answers.Made ∧ (∃ ends, (createRawFds state answers).1 = .ok ends) ∨
      ¬answers.Made ∧ ∃ err, (createRawFds state answers).1 = .error err := by
  unfold createRawFds
  cases create : answers.create with
  | error err =>
      right
      refine ⟨?_, err, rfl⟩
      rintro ⟨fs, read, write, made, -⟩
      exact absurd (create.symm.trans made) (by simp)
  | ok fs =>
      cases fopenRead : answers.fopenRead with
      | error err =>
          right
          refine ⟨?_, err, rfl⟩
          rintro ⟨fs, read, write, -, made, -⟩
          exact absurd (fopenRead.symm.trans made) (by simp)
      | ok read =>
          cases fopenWrite : answers.fopenWrite with
          | error err =>
              right
              refine ⟨?_, err, rfl⟩
              rintro ⟨fs, read, write, -, -, made⟩
              exact absurd (fopenWrite.symm.trans made) (by simp)
          | ok write => exact .inl ⟨⟨fs, read, write, create, fopenRead, fopenWrite⟩, _, rfl⟩

theorem same_set_table (entries : ∀ fd, table.fileAt fd = (state.tables pid).fileAt fd)
    (free : ∀ fd < maxFiles, table.Vacant fd ↔ (state.tables pid).Vacant fd) :
    SameResources state (state.setTable pid table) := by
  refine ⟨fun other fd => ?_, fun other fd small => ?_, fun _ => rfl⟩
  · by_cases same : other = pid
    · rw [same, IoState.set_table_self]
      exact entries fd
    · rw [IoState.set_table_other state table same]
  · by_cases same : other = pid
    · rw [same, IoState.set_table_self]
      exact free fd small
    · rw [IoState.set_table_other state table same]

theorem pipe_leaks_nothing_iff (sound : state.Sound) (pid : Nat) (mapped : Bool)
    (answers : PipeAnswers) :
    LeaksNothing state (linuxSysPipe state pid mapped answers) ↔
      (mapped = true → 2 ≤ (state.tables pid).room → answers.Made) := by
  by_cases inMemory : mapped = true
  swap
  · have call : linuxSysPipe state pid mapped answers = (.error .einval, state) := by
      rw [linuxSysPipe, if_pos inMemory]
    rw [call]
    exact iff_of_true (fun _ _ => same_refl state) fun asked => absurd asked inMemory
  cases given : (state.tables pid).allocFds 2 with
  | mk fds table =>
      obtain ⟨-, ⟨inUse, counted⟩, entries, room, back, all⟩ := alloc_fds_sound sound 2 given
      cases fds with
      | none =>
          have call : linuxSysPipe state pid mapped answers =
              (.error .emfile, state.setTable pid table) := by
            rw [linuxSysPipe, if_neg (not_not.mpr inMemory), given]
          have full := room.mp rfl
          rw [call]
          apply iff_of_true
          · intro _ _
            exact same_set_table entries (back rfl)
          · intro _ enough
            omega
      | some fds =>
          have enough : 2 ≤ (state.tables pid).room := by
            by_contra short
            exact absurd (room.mpr (by omega)) (by simp)
          obtain ⟨length, gone⟩ := all fds rfl
          obtain ⟨read, write, rfl⟩ := List.length_eq_two.mp length
          obtain ⟨readTaken, readSmall, readFree⟩ := gone read List.mem_cons_self
          have writeSmall := (gone write (List.mem_cons_of_mem _ List.mem_cons_self)).2.1
          have tables := (@create_raw_fds_onward (state.setTable pid table) pid []
            (set_table_sound sound (alloc_fds_sound sound 2 given).1 counted).orderly answers).2
          cases creating : createRawFds (state.setTable pid table) answers with
          | mk result later =>
              rw [creating] at tables
              have made := @create_raw_fds_made (state.setTable pid table) answers
              rw [creating] at made
              rcases made with ⟨made, ends, rfl⟩ | ⟨unmade, err, rfl⟩
              · obtain ⟨pipeRead, pipeWrite⟩ := ends
                obtain ⟨readEntry, readFound⟩ := get_fd_of_counted counted readSmall
                obtain ⟨writeEntry, writeFound⟩ :=
                  get_fd_of_counted (@counted_set_fd _ _ read pipeRead counted) writeSmall
                have call : (linuxSysPipe state pid mapped answers).1 = .ok (read, write) := by
                  rw [linuxSysPipe, if_neg (not_not.mpr inMemory), given]
                  dsimp only
                  rw [creating]
                  dsimp only
                  rw [readFound]
                  dsimp only
                  rw [writeFound]
                apply iff_of_true
                · intro err failed
                  rw [call] at failed
                  exact absurd failed (by simp)
                · exact fun _ _ => made
              · have call : linuxSysPipe state pid mapped answers =
                    (.error (vfsErrToLinuxErrno err), later) := by
                  rw [linuxSysPipe, if_neg (not_not.mpr inMemory), given]
                  dsimp only
                  rw [creating]
                apply iff_of_false
                · rw [call]
                  intro leaksNothing
                  have same := (leaksNothing _ rfl).free pid read readSmall
                  dsimp only at same tables
                  rw [tables, IoState.set_table_self] at same
                  exact readTaken (same.mpr readFree)
                · exact fun completes => unmade (completes inMemory enough)

/-- A failing `open` leaks nothing if and only if it does not fail behind `fopen`, and a failing
`pipe` if and only if it does not fail behind the allocation of its descriptors. -/
theorem failed_calls_leak_nothing_iff (state : IoState) (sound : state.Sound) (pid : Nat) :
    (∀ flags mode answers, LeaksNothing state (linuxSysOpen state pid flags mode answers) ↔
        ∀ openMode fs handle, Opens flags mode answers openMode fs handle →
          Completes state flags answers openMode fs ∧ (state.tables pid).room ≠ 0) ∧
      ∀ mapped answers, LeaksNothing state (linuxSysPipe state pid mapped answers) ↔
        (mapped = true → 2 ≤ (state.tables pid).room → answers.Made) :=
  ⟨open_leaks_nothing_iff sound pid, pipe_leaks_nothing_iff sound pid⟩

theorem quiet_volume_sound : quietVolume.state.Sound :=
  start_sound _ _ 0 fun _ _ impossible =>
    absurd impossible (by simp [FileHandleAllocator.getHandleData])

theorem quiet_volume_leaks_nothing_iff :
    (∀ flags mode answers, LeaksNothing
      quietVolume.state (linuxSysOpen quietVolume.state 1 flags mode answers) ↔
        ∀ openMode fs handle, Opens flags mode answers openMode fs handle →
          Completes quietVolume.state flags answers openMode fs ∧
            (quietVolume.state.tables 1).room ≠ 0) ∧
      ∀ mapped answers, LeaksNothing quietVolume.state
        (linuxSysPipe quietVolume.state 1 mapped answers) ↔
        (mapped = true → 2 ≤ (quietVolume.state.tables 1).room → answers.Made) :=
  failed_calls_leak_nothing_iff quietVolume.state quiet_volume_sound 1

/-- `Truncate` without the mode for writing: the call fails and the handle stays open. -/
theorem truncating_read_leaks :
    (linuxSysOpen quietVolume.state 1 openTruncate 0 ⟨true, .ok 0, .ok 0x1000, .ok true, .ok 0⟩).1 =
        .error .einval ∧
      quietVolume.state.openOf ⟨0, 0x1000⟩ = none ∧
      (linuxSysOpen quietVolume.state 1 openTruncate 0
        ⟨true, .ok 0, .ok 0x1000, .ok true, .ok 0⟩).2.openOf ⟨0, 0x1000⟩ = some 0 ∧
      ¬LeaksNothing quietVolume.state
        (linuxSysOpen quietVolume.state 1
          openTruncate 0 ⟨true, .ok 0, .ok 0x1000, .ok true, .ok 0⟩) := by
  have failed : (linuxSysOpen quietVolume.state 1 openTruncate 0
      ⟨true, .ok 0, .ok 0x1000, .ok true, .ok 0⟩).1 = .error .einval := rfl
  have open_ : (linuxSysOpen quietVolume.state 1 openTruncate 0
      ⟨true, .ok 0, .ok 0x1000, .ok true, .ok 0⟩).2.openOf ⟨0, 0x1000⟩ = some 0 := by decide +kernel
  have closed : quietVolume.state.openOf ⟨0, 0x1000⟩ = none := rfl
  refine ⟨failed, closed, open_, fun leaksNothing => ?_⟩
  have same := (leaksNothing _ failed).handles ⟨0, 0x1000⟩
  rw [open_, closed] at same
  exact absurd same (by simp)

end Campix.Syscall.Io
