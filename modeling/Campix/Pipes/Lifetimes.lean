import Campix.Pipes.PipeFs

/-!
# Lifetimes of pipes

Every sequence of calls on the file system of pipes, with a record of which sides of each
pipe were ever opened and of the bytes that went in and came out. The counters of a pipe
count its handles, so that a side is gone for good once its counter is back at 0, and the
pipe goes with its last handle.
-/

namespace Campix.Pipes

open Drivers Lib.Slice Lib.Word

set_option autoImplicit false

/-- `address` is where the heap puts the record of a new handle. -/
inductive Operation where
  | createChild (directory : VfsFile)
  | fopen (file : VfsFile) (mode address : Nat)
  | fclose (handle : Nat)
  | fread (handle : Nat) (buf : List UInt8)
  | fwrite (handle : Nat) (buf : List UInt8)

structure Record where
  fs : PipeFs
  opened : Nat → PipeMode → Bool
  accepted : Nat → List UInt8
  returned : Nat → List UInt8

namespace Record

def log (fs : PipeFs) (handle : Nat) (bytes : List UInt8) (logs : Nat → List UInt8) : Nat →
    List UInt8 :=
  match fs.handles.getHandleData handle with
  | none => logs
  | some data => Function.update logs data.pipeId (logs data.pipeId ++ bytes)

def note (fs : PipeFs) (handle : Nat) (opened : Nat → PipeMode → Bool) : Nat → PipeMode → Bool :=
  match fs.handles.getHandleData handle with
  | none => opened
  | some data =>
      Function.update opened data.pipeId (Function.update (opened data.pipeId) data.mode true)

/-- A call and what it adds to the record; `none` is a panic. -/
def perform (record : Record) : Operation → Option Record
  | .createChild directory =>
      match record.fs.createChild directory with
      | none => none
      | some (_, fs) => some { record with fs := fs }
  | .fopen file mode address =>
      match record.fs.fopen file mode address with
      | none => none
      | some (.error _, fs) => some { record with fs := fs }
      | some (.ok handle, fs) =>
          some { record with fs := fs, opened := note fs handle record.opened }
  | .fclose handle =>
      match record.fs.fclose handle with
      | none => none
      | some (_, fs) => some { record with fs := fs }
  | .fread handle buf =>
      match record.fs.fread handle buf with
      | none => none
      | some (.error _, fs) => some { record with fs := fs }
      | some (.ok (count, buf), fs) =>
          some { record with fs := fs, returned := log fs handle (buf.take count) record.returned }
  | .fwrite handle buf =>
      match record.fs.fwrite handle buf with
      | none => none
      | some (.error _, fs) => some { record with fs := fs }
      | some (.ok count, fs) =>
          some { record with fs := fs, accepted := log fs handle (buf.take count) record.accepted }

def Allowed (record : Record) : Operation → Prop
  | .fopen _ _ address => record.fs.handles.Unused address
  | _ => True

end Record

def mounted (osId : Nat) (shared : Nat → Pipe) : Record where
  fs := { osId, shared, pipes := [], handles := ⟨[]⟩, nextPipeId := 0 }
  opened := fun _ _ => false
  accepted := fun _ => []
  returned := fun _ => []

inductive Reaches (start : Record) : Record → Prop
  | start : Reaches start start
  | step {record next : Record} {operation : Operation} (reached : Reaches start record)
      (allowed : record.Allowed operation) (performed : record.perform operation = some next) :
      Reaches start next

def openHandles (fs : PipeFs) (id : Nat) (mode : PipeMode) : Nat :=
  fs.handles.count fun data => data.pipeId = id ∧ data.mode = mode

def side (mode : PipeMode) (pipe : Pipe) : Nat :=
  match mode with
  | .read => pipe.readers
  | .write => pipe.writers

def SideClosed (record : Record) (id : Nat) (mode : PipeMode) : Prop :=
  record.opened id mode = true ∧ openHandles record.fs id mode = 0

/-- The state of one pipe: `handles` counts the open handles of each side, and `inMap`
says that the pipe is in the map. -/
structure Alive (pipe : Pipe) (opened : PipeMode → Bool) (handles : PipeMode → Nat) (inMap : Prop)
    (accepted returned : List UInt8) : Prop where
  counted : ∀ mode, side mode pipe = handles mode
  noted : ∀ mode, handles mode ≠ 0 → opened mode = true
  closed : pipe.closed = true ↔ ∃ mode, opened mode = true ∧ handles mode = 0
  present : inMap ↔ (∀ mode, opened mode = false) ∨ ∃ mode, handles mode ≠ 0
  ring : pipe.Ring
  order : accepted = returned ++ pipe.queue

structure Living (record : Record) : Prop where
  distinct : record.fs.handles.Distinct
  held : ∀ item ∈ record.fs.handles.handles, item.2.pipeId < record.fs.nextPipeId
  made : ∀ id ∈ record.fs.pipes, id < record.fs.nextPipeId
  fresh : ∀ id, record.fs.nextPipeId ≤ id → (∀ mode, record.opened id mode = false) ∧
    record.accepted id = [] ∧ record.returned id = []
  alive : ∀ id < record.fs.nextPipeId, Alive (record.fs.shared id) (record.opened id)
    (openHandles record.fs id) (id ∈ record.fs.pipes) (record.accepted id) (record.returned id)

theorem living_mounted (osId : Nat) (shared : Nat → Pipe) : Living (mounted osId shared) where
  distinct := List.nodup_nil
  held := fun _ impossible => absurd impossible List.not_mem_nil
  made := fun _ impossible => absurd impossible List.not_mem_nil
  fresh := fun _ _ => ⟨fun _ => rfl, rfl, rfl⟩
  alive := fun _ impossible => absurd impossible (Nat.not_lt_zero _)

variable {fs after : PipeFs} {record next : Record}

def withPipe (fs : PipeFs) : PipeFs :=
  { fs.updatePipe fs.nextPipeId (.newAnonymous (64 * 1024)) with
    pipes := fs.nextPipeId :: fs.pipes.filter (· ≠ fs.nextPipeId)
    nextPipeId := fs.nextPipeId + 1 }

theorem create_child_cases {directory : VfsFile} {result : Except VfsError VfsFile}
    (called : fs.createChild directory = some (result, after)) : after = fs ∨
    after = withPipe fs := by
  unfold PipeFs.createChild at called
  split_ifs at called
  · exact .inl (by cases called; rfl)
  · split at called <;> cases called
    · exact .inl rfl
    · exact .inr rfl
    · exact .inl rfl

def sideFile (id : Nat) : PipeMode → PipeFsSpecificFileData
  | .read => .pipefsRead id
  | .write => .pipefsWrite id

def withHandle (fs : PipeFs) (id : Nat) (mode : PipeMode) (address : Nat) : PipeFs :=
  { fs.updatePipe id (PipeFs.openSide mode (fs.shared id)) with
    handles := fs.handles.allocFileHandle address ⟨mode, id⟩ }

theorem open_pipe_cases {id mode address : Nat} {pipeMode : PipeMode} {result : Except VfsError Nat}
    (called : fs.openPipe id pipeMode mode address = some (result, after)) :
    (∃ error, result = .error error) ∧ after = fs ∨
      result = .ok address ∧ id ∈ fs.pipes ∧ (fs.shared id).closed = false ∧
        after = withHandle fs id pipeMode address := by
  unfold PipeFs.openPipe at called
  by_cases exists_ : mode &&& OPEN_MODE_FAIL_IF_EXISTS ≠ 0
  · rw [if_pos exists_] at called
    cases called
    exact .inl ⟨⟨_, rfl⟩, rfl⟩
  · rw [if_neg exists_] at called
    by_cases missing : id ∉ fs.pipes
    · rw [if_pos missing] at called
      cases called
      exact .inl ⟨⟨_, rfl⟩, rfl⟩
    · rw [if_neg missing] at called
      cases closed : (fs.shared id).closed with
      | true =>
          rw [if_pos closed] at called
          cases called
          exact .inl ⟨⟨_, rfl⟩, rfl⟩
      | false =>
          rw [if_neg (by rw [closed]; exact Bool.false_ne_true)] at called
          cases called
          exact .inr ⟨rfl, not_not.mp missing, rfl, rfl⟩

theorem fopen_cases {file : VfsFile} {mode address : Nat} {result : Except VfsError Nat}
    (called : fs.fopen file mode address = some (result, after)) :
    (∃ error, result = .error error) ∧ after = fs ∨
      ∃ id pipeMode, file.fsSpecificData = some (sideFile id pipeMode) ∧ result = .ok address ∧
        id ∈ fs.pipes ∧ (fs.shared id).closed = false ∧
          after = withHandle fs id pipeMode address := by
  unfold PipeFs.fopen at called
  by_cases other : file.fs ≠ fs.osId
  · rw [if_pos other] at called
    cases called
    exact .inl ⟨⟨_, rfl⟩, rfl⟩
  rw [if_neg other] at called
  split at called
  · cases called
    exact .inl ⟨⟨_, rfl⟩, rfl⟩
  · next id kind =>
    split at called
    · cases called
      exact .inl ⟨⟨_, rfl⟩, rfl⟩
    · rcases open_pipe_cases called with refused | opened
      · exact .inl refused
      · exact .inr ⟨id, .read, kind, opened⟩
  · next id kind =>
    split at called
    · cases called
      exact .inl ⟨⟨_, rfl⟩, rfl⟩
    · rcases open_pipe_cases called with refused | opened
      · exact .inl refused
      · exact .inr ⟨id, .write, kind, opened⟩
  · cases called
    exact .inl ⟨⟨_, rfl⟩, rfl⟩

structure Closes (fs : PipeFs) (id : Nat) (mode : PipeMode) (after : PipeFs) : Prop where
  handles : after.handles = fs.handles
  nextPipeId : after.nextPipeId = fs.nextPipeId
  others : ∀ other, other ≠ id → after.shared other = fs.shared other
  queue : (after.shared id).queue = (fs.shared id).queue
  ring : (fs.shared id).Ring → (after.shared id).Ring
  this : side mode (after.shared id) = side mode (fs.shared id) - 1
  that : ∀ other, other ≠ mode → side other (after.shared id) = side other (fs.shared id)
  closed : ((after.shared id).closed = true ↔
    (fs.shared id).closed = true ∨ side mode (fs.shared id) - 1 = 0)
  pipes : ∀ other, other ∈ after.pipes ↔
    other ∈ fs.pipes ∧ ¬(other = id ∧ ∀ mode, side mode (after.shared id) = 0)

theorem forall_mode {p : PipeMode → Prop} : (∀ mode, p mode) ↔ p .read ∧ p .write :=
  ⟨fun all => ⟨all .read, all .write⟩, fun both mode => by cases mode; exacts [both.1, both.2]⟩

/-- Both branches of `fclose` change the pipe alike. -/
theorem closes_of_update {id : Nat} {mode : PipeMode} {pipe : Pipe} {pipes : List Nat}
    (same : pipe = { fs.shared id with
      readers := pipe.readers, writers := pipe.writers, closed := pipe.closed })
    (this : side mode pipe = side mode (fs.shared id) - 1)
    (that : ∀ other, other ≠ mode → side other pipe = side other (fs.shared id))
    (closed : pipe.closed = true ↔ (fs.shared id).closed = true ∨ side mode (fs.shared id) - 1 = 0)
    (left : ∀ other, other ∈ pipes ↔
      other ∈ fs.pipes ∧ ¬(other = id ∧ ∀ mode, side mode pipe = 0)) :
    Closes fs id mode { fs.updatePipe id pipe with pipes := pipes } := by
  have here : (fs.updatePipe id pipe).shared id = pipe := Function.update_self ..
  refine ⟨rfl, rfl, ?_, ?_, ?_, ?_, ?_, ?_, ?_⟩
  · intro other different
    exact Function.update_of_ne different ..
  · change ((fs.updatePipe id pipe).shared id).queue = _
    rw [here, same]
    rfl
  · intro ring
    change ((fs.updatePipe id pipe).shared id).Ring
    rw [here, same]
    exact ⟨ring.bounded, ring.begins, ring.ends⟩
  · change side mode ((fs.updatePipe id pipe).shared id) = _
    rw [here, this]
  · intro other different
    change side other ((fs.updatePipe id pipe).shared id) = _
    rw [here, that other different]
  · change ((fs.updatePipe id pipe).shared id).closed = true ↔ _
    rw [here, closed]
  · intro other
    change other ∈ pipes ↔ other ∈ fs.pipes ∧
      ¬(other = id ∧ ∀ mode, side mode ((fs.updatePipe id pipe).shared id) = 0)
    rw [here, left]

theorem mem_removed {id other : Nat} {gone : Prop} (removed : gone) :
    other ∈ fs.pipes.filter (· ≠ id) ↔ other ∈ fs.pipes ∧ ¬(other = id ∧ gone) := by
  simp [removed]

theorem mem_kept {id other : Nat} {gone : Prop} (kept : ¬gone) :
    other ∈ fs.pipes ↔ other ∈ fs.pipes ∧ ¬(other = id ∧ gone) := by
  simp [kept]

theorem close_read_spec {id : Nat} (open_ : side .read (fs.shared id) ≠ 0) :
    Closes fs id .read (fs.closeRead id) := by
  have down : sub64 (fs.shared id).readers 1 = (fs.shared id).readers - 1 :=
    sub64_of_le (Nat.one_le_iff_ne_zero.mpr open_)
  have others : ∀ {pipe : Pipe}, pipe.writers = (fs.shared id).writers →
      ∀ other, other ≠ PipeMode.read → side other pipe = side other (fs.shared id) := by
    intro pipe writers other different
    cases other with
    | read => exact absurd rfl different
    | write => exact writers
  unfold PipeFs.closeRead
  dsimp only
  rw [down]
  by_cases last : (fs.shared id).readers - 1 = 0
  · rw [if_pos last]
    by_cases alone : (fs.shared id).writers = 0
    · rw [if_pos alone]
      exact closes_of_update rfl rfl (others rfl) ⟨fun _ => .inr last, fun _ => rfl⟩
        fun other => mem_removed (forall_mode.mpr ⟨last, alone⟩)
    · rw [if_neg alone]
      exact closes_of_update rfl rfl (others rfl) ⟨fun _ => .inr last, fun _ => rfl⟩
        fun other => mem_kept fun none => alone (none .write)
  · rw [if_neg last]
    exact closes_of_update rfl rfl (others rfl) ⟨.inl, fun closed => closed.resolve_right last⟩
      fun other => mem_kept fun none => last (none .read)

theorem close_write_spec {id : Nat} (open_ : side .write (fs.shared id) ≠ 0) :
    Closes fs id .write (fs.closeWrite id) := by
  have down : sub64 (fs.shared id).writers 1 = (fs.shared id).writers - 1 :=
    sub64_of_le (Nat.one_le_iff_ne_zero.mpr open_)
  have others : ∀ {pipe : Pipe}, pipe.readers = (fs.shared id).readers →
      ∀ other, other ≠ PipeMode.write → side other pipe = side other (fs.shared id) := by
    intro pipe readers other different
    cases other with
    | read => exact readers
    | write => exact absurd rfl different
  unfold PipeFs.closeWrite
  dsimp only
  rw [down]
  by_cases last : (fs.shared id).writers - 1 = 0
  · rw [if_pos last]
    by_cases alone : (fs.shared id).readers = 0
    · rw [if_pos alone]
      exact closes_of_update rfl rfl (others rfl) ⟨fun _ => .inr last, fun _ => rfl⟩
        fun other => mem_removed (forall_mode.mpr ⟨alone, last⟩)
    · rw [if_neg alone]
      exact closes_of_update rfl rfl (others rfl) ⟨fun _ => .inr last, fun _ => rfl⟩
        fun other => mem_kept fun none => alone (none .read)
  · rw [if_neg last]
    exact closes_of_update rfl rfl (others rfl) ⟨.inl, fun closed => closed.resolve_right last⟩
      fun other => mem_kept fun none => last (none .write)

theorem fclose_cases {handle : Nat} {result : Except VfsError Unit}
    (counted : ∀ data, fs.handles.getHandleData handle = some data →
      side data.mode (fs.shared data.pipeId) ≠ 0)
    (called : fs.fclose handle = some (result, after)) :
    (fs.handles.getHandleData handle = none ∧ after = fs) ∨
    ∃ data middle, fs.handles.getHandleData handle = some data ∧
      Closes fs data.pipeId data.mode middle ∧
      after = { middle with handles := ⟨fs.handles.handles.filter fun item => item.1 ≠ handle⟩ } := by
  unfold PipeFs.fclose at called
  cases found : fs.handles.getHandleData handle with
  | none =>
      rw [found] at called
      cases called
      exact .inl ⟨rfl, rfl⟩
  | some data =>
      rw [found] at called
      dsimp only at called
      have closes : Closes fs data.pipeId data.mode
          (if data.mode = .read then fs.closeRead data.pipeId else fs.closeWrite data.pipeId) := by
        have open_ := counted data found
        cases mode : data.mode with
        | read =>
            rw [mode] at open_
            rw [if_pos rfl]
            exact close_read_spec open_
        | write =>
            rw [mode] at open_
            rw [if_neg nofun]
            exact close_write_spec open_
      generalize (if data.mode = .read then fs.closeRead data.pipeId else fs.closeWrite
        data.pipeId) =
        middle at closes called
      rw [closes.handles, FileHandleAllocator.dealloc_eq found] at called
      cases called
      exact .inr ⟨data, middle, rfl, closes, rfl⟩

section Alive

variable {pipe : Pipe} {opened : PipeMode → Bool} {handles : PipeMode → Nat} {inMap : Prop}
variable {accepted returned : List UInt8}

theorem alive_new {bufSize : Nat} (unopened : ∀ mode, opened mode = false)
    (none : ∀ mode, handles mode = 0)
    (present : inMap) : Alive (.newAnonymous bufSize) opened handles inMap [] [] := by
  refine ⟨?_, fun mode some => absurd (none mode) some, ?_,
    ⟨fun _ => .inl unopened, fun _ => present⟩,
    Pipe.ring_new bufSize, rfl⟩
  · intro mode
    rw [none mode]
    cases mode <;> rfl
  · refine ⟨fun impossible => absurd impossible Bool.false_ne_true, ?_⟩
    rintro ⟨mode, wasOpened, -⟩
    exact absurd ((unopened mode).symm.trans wasOpened) Bool.false_ne_true

theorem side_open (mode other : PipeMode) (pipe : Pipe) :
    side other (PipeFs.openSide mode pipe) = side other pipe + if mode = other then 1 else 0 := by
  cases mode <;> cases other <;> rfl

theorem alive_open {mode : PipeMode} {handles' : PipeMode → Nat}
    (alive : Alive pipe opened handles inMap accepted returned) (present : inMap)
    (notClosed : pipe.closed = false)
    (counts : ∀ other, handles' other = handles other + if mode = other then 1 else 0) :
    Alive (PipeFs.openSide mode pipe) (Function.update opened mode true)
      handles' inMap accepted returned := by
  have mine : handles' mode ≠ 0 := by
    rw [counts, if_pos rfl]
    omega
  have ring : (PipeFs.openSide mode pipe).Ring := by
    have before := alive.ring
    cases mode <;> exact ⟨before.bounded, before.begins, before.ends⟩
  have order : accepted = returned ++ (PipeFs.openSide mode pipe).queue := by
    have before := alive.order
    cases mode <;> exact before
  have stillOpen : (PipeFs.openSide mode pipe).closed = false := by
    cases mode <;> exact notClosed
  refine ⟨?_, ?_, ?_, ⟨fun _ => .inr ⟨mode, mine⟩, fun _ => present⟩, ring, order⟩
  · intro other
    rw [side_open, counts, alive.counted]
  · intro other some
    by_cases same : other = mode
    · rw [same, Function.update_self]
    · rw [Function.update_of_ne same]
      apply alive.noted
      rwa [counts, if_neg (Ne.symm same), Nat.add_zero] at some
  · rw [stillOpen]
    refine ⟨fun impossible => absurd impossible Bool.false_ne_true, ?_⟩
    rintro ⟨other, wasOpened, gone⟩
    by_cases same : other = mode
    · exact absurd (same ▸ gone) mine
    · rw [Function.update_of_ne same] at wasOpened
      rw [counts, if_neg (Ne.symm same), Nat.add_zero] at gone
      have closed := alive.closed.mpr ⟨other, wasOpened, gone⟩
      exact absurd (notClosed.symm.trans closed) Bool.false_ne_true

theorem alive_close {id : Nat} {mode : PipeMode} {handles' : PipeMode → Nat} {inMap' : Prop}
    (alive : Alive (fs.shared id) opened handles inMap accepted returned)
    (closes : Closes fs id mode after)
    (counts : ∀ other, handles' other + (if mode = other then 1 else 0) = handles other)
    (left : inMap' ↔ inMap ∧ ¬∀ mode, side mode (after.shared id) = 0) :
    Alive (after.shared id) opened handles' inMap' accepted returned := by
  have mine : handles mode = handles' mode + 1 := by
    have := counts mode
    rw [if_pos rfl] at this
    omega
  have others : ∀ other, other ≠ mode → handles' other = handles other := by
    intro other different
    have := counts other
    rwa [if_neg (Ne.symm different), Nat.add_zero] at this
  have wasOpened : opened mode = true := alive.noted mode (by omega)
  have present : inMap := alive.present.mpr (.inr ⟨mode, by omega⟩)
  have counted : ∀ other, side other (after.shared id) = handles' other := by
    intro other
    by_cases same : other = mode
    · rw [same, closes.this, alive.counted]
      omega
    · rw [closes.that other same, others other same, alive.counted]
  refine ⟨counted, ?_, ?_, ?_, closes.ring alive.ring, by rw [closes.queue]; exact alive.order⟩
  · intro other some
    apply alive.noted
    have := counts other
    omega
  · rw [closes.closed, alive.closed, alive.counted]
    constructor
    · rintro (⟨other, otherOpened, gone⟩ | last)
      · exact ⟨other, otherOpened, by have := counts other; omega⟩
      · exact ⟨mode, wasOpened, by omega⟩
    · rintro ⟨other, otherOpened, gone⟩
      by_cases same : other = mode
      · subst same
        exact .inr (by omega)
      · rw [others other same] at gone
        exact .inl ⟨other, otherOpened, gone⟩
  · rw [left, not_forall]
    constructor
    · rintro ⟨-, other, some⟩
      rw [counted] at some
      exact .inr ⟨other, some⟩
    · rintro (never | ⟨other, some⟩)
      · exact absurd ((never mode).symm.trans wasOpened) Bool.false_ne_true
      · exact ⟨present, other, by rwa [counted]⟩

/-- Bytes that go in or out leave the rest of the pipe alone. -/
theorem alive_move {moved : Pipe} {accepted' returned' : List UInt8}
    (alive : Alive pipe opened handles inMap accepted returned) (ring : moved.Ring)
    (sides : ∀ mode, side mode moved = side mode pipe) (closed : moved.closed = pipe.closed)
    (order : accepted' = returned' ++ moved.queue) :
    Alive moved opened handles inMap accepted' returned' :=
  ⟨fun mode => (sides mode).trans (alive.counted mode), alive.noted, by
    rw [closed]; exact alive.closed,
    alive.present, ring, order⟩

end Alive

theorem living_frame {id : Nat} (living : Living record)
    (made : id < record.fs.nextPipeId) (same : next.fs.nextPipeId = record.fs.nextPipeId)
    (distinct : next.fs.handles.Distinct)
    (held : ∀ item ∈ next.fs.handles.handles, item ∈ record.fs.handles.handles ∨ item.2.pipeId = id)
    (others : ∀ other, other ≠ id → next.fs.shared other = record.fs.shared other ∧
      next.opened other = record.opened other ∧
      openHandles next.fs other = openHandles record.fs other ∧
      (other ∈ next.fs.pipes ↔ other ∈ record.fs.pipes) ∧
      next.accepted other = record.accepted other ∧ next.returned other = record.returned other)
    (alive : Alive (next.fs.shared id)
      (next.opened id) (openHandles next.fs id) (id ∈ next.fs.pipes)
      (next.accepted id) (next.returned id)) : Living next := by
  refine ⟨distinct, ?_, ?_, ?_, ?_⟩
  · intro item member
    rw [same]
    rcases held item member with old | here
    · exact living.held item old
    · rw [here]
      exact made
  · intro other member
    rw [same]
    by_cases here : other = id
    · rw [here]
      exact made
    · exact living.made other ((others other here).2.2.2.1.mp member)
  · intro other beyond
    rw [same] at beyond
    obtain ⟨-, opened, -, -, accepted, returned⟩ := others other (by omega)
    rw [opened, accepted, returned]
    exact living.fresh other beyond
  · intro other below
    rw [same] at below
    by_cases here : other = id
    · rw [here]
      exact alive
    · obtain ⟨shared, opened, handles, member, accepted, returned⟩ := others other here
      rw [shared, opened, handles, accepted, returned, propext member]
      exact living.alive other below

theorem living_create (living : Living record) :
    Living { record with fs := withPipe record.fs } := by
  have none : ∀ mode, openHandles record.fs record.fs.nextPipeId mode = 0 := by
    intro mode
    unfold openHandles FileHandleAllocator.count
    rw [List.countP_eq_zero]
    intro item member
    have below := living.held item member
    simp only [decide_eq_true_eq, not_and]
    omega
  obtain ⟨unopened, accepted, returned⟩ := living.fresh _ (le_refl record.fs.nextPipeId)
  refine ⟨living.distinct, fun item member => Nat.lt_succ_of_lt (living.held item member), ?_,
    fun id fresh => living.fresh id (Nat.le_of_succ_le fresh), ?_⟩
  · intro id member
    rcases List.mem_cons.mp member with rfl | kept
    · exact Nat.lt_succ_self _
    · exact Nat.lt_succ_of_lt (living.made id (List.mem_of_mem_filter kept))
  · intro id below
    rcases Nat.lt_or_eq_of_le (Nat.le_of_lt_succ below) with before | rfl
    · have shared : (withPipe record.fs).shared id = record.fs.shared id :=
        Function.update_of_ne (Nat.ne_of_lt before) ..
      have member : id ∈ (withPipe record.fs).pipes ↔ id ∈ record.fs.pipes := by
        change id ∈ record.fs.nextPipeId :: record.fs.pipes.filter (· ≠ record.fs.nextPipeId) ↔ _
        simp [Nat.ne_of_lt before]
      change Alive ((withPipe record.fs).shared id) _ _ (id ∈ (withPipe record.fs).pipes) _ _
      rw [shared, propext member]
      exact living.alive id before
    · have shared : (withPipe record.fs).shared record.fs.nextPipeId = .newAnonymous (64 * 1024) :=
        Function.update_self ..
      change Alive ((withPipe record.fs).shared _) _ _ _ (record.accepted _) (record.returned _)
      rw [shared, accepted, returned]
      exact alive_new unopened none List.mem_cons_self

theorem note_with_handle {id address : Nat} {mode : PipeMode} (opened : Nat → PipeMode → Bool) :
    Record.note (withHandle fs id mode address) address opened =
      Function.update opened id (Function.update (opened id) mode true) := by
  have found : (withHandle fs id mode address).handles.getHandleData address = some ⟨mode, id⟩ := by
    simp [withHandle, FileHandleAllocator.getHandleData, FileHandleAllocator.allocFileHandle]
  unfold Record.note
  rw [found]

theorem living_fopen {id address : Nat} {mode : PipeMode} (living : Living record)
    (unused : record.fs.handles.Unused address) (inMap : id ∈ record.fs.pipes)
    (notClosed : (record.fs.shared id).closed = false) :
    Living { record with
      fs := withHandle record.fs id mode address
      opened := Record.note (withHandle record.fs id mode address) address record.opened } := by
  have counts : ∀ other otherMode,
      openHandles (withHandle record.fs id mode address) other otherMode =
      openHandles record.fs other otherMode + if id = other ∧ mode = otherMode then 1 else 0 := by
    intro other otherMode
    unfold openHandles withHandle
    rw [FileHandleAllocator.count_alloc unused]
    simp
  rw [note_with_handle]
  apply living_frame living (living.made id inMap)
  · rfl
  · exact FileHandleAllocator.distinct_alloc living.distinct unused _
  · intro item member
    change item ∈ (record.fs.handles.allocFileHandle address _).handles at member
    rw [FileHandleAllocator.alloc_eq unused] at member
    rcases List.mem_cons.mp member with rfl | old
    · exact .inr rfl
    · exact .inl old
  · intro other different
    refine ⟨Function.update_of_ne different .., Function.update_of_ne different .., ?_, Iff.rfl,
      rfl, rfl⟩
    funext otherMode
    rw [counts, if_neg (fun same => different same.1.symm), Nat.add_zero]
  · have shared : (withHandle record.fs id mode address).shared id =
        PipeFs.openSide mode (record.fs.shared id) := Function.update_self ..
    dsimp only
    rw [shared, Function.update_self]
    refine alive_open (living.alive id (living.made id inMap)) inMap notClosed ?_
    intro other
    rw [counts]
    simp

/-- Taking a handle out of the set leaves one less on its side of its pipe. -/
theorem open_handles_filter {middle : PipeFs} {handle : Nat} {data : PipeFsHandle}
    (distinct : fs.handles.Distinct) (found : fs.handles.getHandleData handle = some data)
    (id : Nat) (mode : PipeMode) :
    openHandles { middle with
      handles := ⟨fs.handles.handles.filter fun item => item.1 ≠ handle⟩ } id mode +
      (if data.pipeId = id ∧ data.mode = mode then 1 else 0) = openHandles fs id mode := by
  have removed := FileHandleAllocator.count_filter distinct found
    fun data => data.pipeId = id ∧ data.mode = mode
  simpa [openHandles] using removed

theorem living_fclose {handle : Nat} {data : PipeFsHandle} {middle : PipeFs}
    (living : Living record)
    (found : record.fs.handles.getHandleData handle = some data)
    (closes : Closes record.fs data.pipeId data.mode middle) :
    Living { record with fs := { middle with
      handles := ⟨record.fs.handles.handles.filter fun item => item.1 ≠ handle⟩ } } := by
  have below : data.pipeId < record.fs.nextPipeId :=
    living.held _ (FileHandleAllocator.mem_of_get found)
  have counts := fun other otherMode =>
    @open_handles_filter record.fs middle handle data living.distinct found other otherMode
  apply living_frame living below
  · exact closes.nextPipeId
  · exact FileHandleAllocator.distinct_filter living.distinct handle
  · intro item member
    exact .inl (List.mem_of_mem_filter member)
  · intro other different
    refine ⟨closes.others other different, rfl, ?_, ?_, rfl, rfl⟩
    · funext otherMode
      have := counts other otherMode
      rwa [if_neg (fun same => different same.1.symm), Nat.add_zero] at this
    · change other ∈ middle.pipes ↔ _
      rw [closes.pipes]
      simp [different]
  · change Alive (middle.shared data.pipeId) (record.opened data.pipeId) (openHandles _ data.pipeId)
      (data.pipeId ∈ middle.pipes) _ _
    refine alive_close (living.alive _ below) closes ?_ ?_
    · intro other
      have := counts data.pipeId other
      simpa using this
    · rw [closes.pipes]
      simp

theorem living_move {handle : Nat} {data : PipeFsHandle} {moved : Pipe}
    {accepted returned : List UInt8}
    (living : Living record) (found : record.fs.handles.getHandleData handle = some data)
    (ring : moved.Ring) (sides : ∀ mode, side mode moved = side mode (record.fs.shared data.pipeId))
    (closed : moved.closed = (record.fs.shared data.pipeId).closed)
    (order : record.accepted data.pipeId ++ accepted =
      record.returned data.pipeId ++ returned ++ moved.queue) :
    Living { record with
      fs := record.fs.updatePipe data.pipeId moved
      accepted := Function.update record.accepted data.pipeId
        (record.accepted data.pipeId ++ accepted)
      returned := Function.update record.returned data.pipeId
        (record.returned data.pipeId ++ returned) } := by
  have below : data.pipeId < record.fs.nextPipeId :=
    living.held _ (FileHandleAllocator.mem_of_get found)
  apply living_frame living below
  · rfl
  · exact living.distinct
  · exact fun item member => .inl member
  · intro other different
    exact ⟨Function.update_of_ne different ..,
      rfl, rfl, Iff.rfl, Function.update_of_ne different ..,
      Function.update_of_ne different ..⟩
  · have shared : (record.fs.updatePipe data.pipeId moved).shared data.pipeId = moved :=
      Function.update_self ..
    dsimp only
    rw [shared, Function.update_self, Function.update_self]
    exact alive_move (living.alive _ below) ring sides closed order

theorem fread_cases (living : Living record) (handle : Nat) (buf : List UInt8) :
    (∃ error, record.fs.fread handle buf = some (.error error, record.fs)) ∨
      ∃ data, record.fs.handles.getHandleData handle = some data ∧ data.mode = .read ∧
        (((record.fs.shared data.pipeId).dataLen = 0 ∧
          (record.fs.shared data.pipeId).closed = true ∧
            record.fs.fread handle buf = some (.ok (0, buf), record.fs)) ∨
          (record.fs.shared data.pipeId).dataLen ≠ 0 ∧
            ∃ count bytes moved, (record.fs.shared data.pipeId).read buf = some
              (count, bytes, moved) ∧
              record.fs.fread handle buf =
                some (.ok (count, bytes), record.fs.updatePipe data.pipeId moved)) := by
  unfold PipeFs.fread
  cases found : record.fs.handles.getHandleData handle with
  | none => exact .inl ⟨_, rfl⟩
  | some data =>
      dsimp only
      by_cases mode : data.mode = .read
      · rw [if_pos mode]
        have below : data.pipeId < record.fs.nextPipeId :=
          living.held _ (FileHandleAllocator.mem_of_get found)
        by_cases empty : (record.fs.shared data.pipeId).dataLen = 0
        · rw [if_pos (show (record.fs.shared data.pipeId).isEmpty = true from decide_eq_true empty)]
          cases closed : (record.fs.shared data.pipeId).closed with
          | true => exact .inr ⟨data, rfl, mode, .inl ⟨empty, closed, if_pos rfl⟩⟩
          | false => exact .inl ⟨_, if_neg Bool.false_ne_true⟩
        · rw [if_neg (show ¬(record.fs.shared data.pipeId).isEmpty = true by
            simpa [Pipe.isEmpty] using empty)]
          obtain ⟨moved, read, -⟩ := Pipe.read_spec (living.alive _ below).ring buf
          exact .inr ⟨data, rfl, mode, .inr ⟨empty, _, _, moved, read, by rw [read]⟩⟩
      · rw [if_neg mode]
        exact .inl ⟨_, rfl⟩

theorem fwrite_cases (living : Living record) (handle : Nat) (buf : List UInt8) :
    (∃ error, record.fs.fwrite handle buf = some (.error error, record.fs)) ∨
      ∃ data, record.fs.handles.getHandleData handle = some data ∧
        ∃ count moved, (record.fs.shared data.pipeId).write buf = some (count, moved) ∧
          record.fs.fwrite handle buf = some
            (.ok count, record.fs.updatePipe data.pipeId moved) := by
  unfold PipeFs.fwrite
  cases found : record.fs.handles.getHandleData handle with
  | none => exact .inl ⟨_, rfl⟩
  | some data =>
      dsimp only
      by_cases mode : data.mode = .write
      · rw [if_pos mode]
        have below : data.pipeId < record.fs.nextPipeId :=
          living.held _ (FileHandleAllocator.mem_of_get found)
        by_cases broken : (record.fs.shared data.pipeId).readers = 0
        · rw [if_pos broken]
          exact .inl ⟨_, rfl⟩
        · rw [if_neg broken]
          by_cases full : (record.fs.shared data.pipeId).isFull = true
          · rw [if_pos full]
            exact .inl ⟨_, rfl⟩
          · rw [if_neg full]
            obtain ⟨moved, written, -⟩ := Pipe.write_spec (living.alive _ below).ring buf
            exact .inr ⟨data, rfl, _, moved, written, by rw [written]⟩
      · rw [if_neg mode]
        exact .inl ⟨_, rfl⟩

theorem log_update {handle id : Nat} {data : PipeFsHandle} {pipe : Pipe} (bytes : List UInt8)
    (logs : Nat → List UInt8) (found : fs.handles.getHandleData handle = some data) :
    Record.log (fs.updatePipe id pipe) handle bytes logs =
      Function.update logs data.pipeId (logs data.pipeId ++ bytes) := by
  unfold Record.log
  change (match fs.handles.getHandleData handle with | none => _ | some _ => _) = _
  rw [found]

theorem log_nil (handle : Nat) (logs : Nat → List UInt8) : Record.log fs handle [] logs = logs := by
  unfold Record.log
  split
  · rfl
  · rw [List.append_nil, Function.update_eq_self]

theorem counter_ne_zero {handle : Nat} {data : PipeFsHandle} (living : Living record)
    (found : record.fs.handles.getHandleData handle = some data) :
    side data.mode (record.fs.shared data.pipeId) ≠ 0 := by
  have below : data.pipeId < record.fs.nextPipeId :=
    living.held _ (FileHandleAllocator.mem_of_get found)
  rw [(living.alive _ below).counted]
  exact Nat.pos_iff_ne_zero.mp (FileHandleAllocator.count_pos found (by simp))

theorem living_fread (living : Living record) (handle : Nat) (buf : List UInt8) :
    ∃ next, record.perform (.fread handle buf) = some next ∧ Living next ∧
      next.opened = record.opened ∧
      next.fs.handles = record.fs.handles := by
  simp only [Record.perform]
  rcases fread_cases living handle buf with
    ⟨error, called⟩ | ⟨data, found, -, ⟨-, -, called⟩ | ⟨-, count, bytes, moved, read, called⟩⟩
  · rw [called]
    exact ⟨_, rfl, living, rfl, rfl⟩
  · rw [called]
    refine ⟨_, rfl, ?_, rfl, rfl⟩
    rw [List.take_zero, log_nil]
    exact living
  · rw [called]
    refine ⟨_, rfl, ?_, rfl, rfl⟩
    have below : data.pipeId < record.fs.nextPipeId :=
      living.held _ (FileHandleAllocator.mem_of_get found)
    have alive := living.alive _ below
    obtain ⟨after, spec, ring, queue, rest⟩ := Pipe.read_spec alive.ring buf
    rw [read] at spec
    cases spec
    have length := Pipe.length_queue alive.ring
    have part : (splice buf 0 ((record.fs.shared data.pipeId).queue.take
        (min (record.fs.shared data.pipeId).dataLen buf.length))).take
        (min (record.fs.shared data.pipeId).dataLen buf.length) =
        (record.fs.shared data.pipeId).queue.take
          (min (record.fs.shared data.pipeId).dataLen buf.length) :=
      take_splice_zero (by rw [List.length_take]; omega) (by omega)
    have order : record.accepted data.pipeId ++ [] = record.returned data.pipeId ++
        (record.fs.shared data.pipeId).queue.take
          (min (record.fs.shared data.pipeId).dataLen buf.length) ++ moved.queue := by
      rw [queue, List.append_nil, List.append_assoc, List.take_append_drop]
      exact alive.order
    have moves := living_move living found ring (fun mode => by rw [rest]; cases mode <;> rfl)
      (by rw [rest]) order
    rw [List.append_nil, Function.update_eq_self] at moves
    rw [log_update _ _ found, part]
    exact moves

theorem living_fwrite (living : Living record) (handle : Nat) (buf : List UInt8) :
    ∃ next, record.perform (.fwrite handle buf) = some next ∧ Living next ∧
      next.opened = record.opened ∧
      next.fs.handles = record.fs.handles := by
  simp only [Record.perform]
  rcases fwrite_cases living handle buf with ⟨error, called⟩ |
    ⟨data, found, count, moved, written, called⟩
  · rw [called]
    exact ⟨_, rfl, living, rfl, rfl⟩
  · rw [called]
    refine ⟨_, rfl, ?_, rfl, rfl⟩
    have below : data.pipeId < record.fs.nextPipeId :=
      living.held _ (FileHandleAllocator.mem_of_get found)
    have alive := living.alive _ below
    obtain ⟨after, spec, ring, queue, -, rest⟩ := Pipe.write_spec alive.ring buf
    rw [written] at spec
    cases spec
    have order : record.accepted data.pipeId ++ buf.take
          (min ((record.fs.shared data.pipeId).data.length - (record.fs.shared data.pipeId).dataLen)
            buf.length) = record.returned data.pipeId ++ [] ++ moved.queue := by
      rw [queue, List.append_nil, alive.order, List.append_assoc]
    have moves := living_move living found ring (fun mode => by rw [rest]; cases mode <;> rfl)
      (by rw [rest]) order
    rw [List.append_nil, Function.update_eq_self] at moves
    rw [log_update _ _ found]
    exact moves

theorem side_closed_of_closed {id : Nat} {mode : PipeMode} (living : Living record)
    (gone : SideClosed record id mode) :
    id < record.fs.nextPipeId ∧ (record.fs.shared id).closed = true := by
  have below : id < record.fs.nextPipeId := by
    by_contra beyond
    have never := (living.fresh id (by omega)).1 mode
    exact absurd (never.symm.trans gone.1) Bool.false_ne_true
  exact ⟨below, (living.alive id below).closed.mpr ⟨mode, gone⟩⟩

/-- Every call that the heap allows returns, keeps the invariant, and opens no side again
that was closed. -/
theorem living_perform {operation : Operation} (living : Living record)
    (allowed : record.Allowed operation) :
    ∃ next, record.perform operation = some next ∧ Living next ∧
      ∀ id mode, SideClosed record id mode → SideClosed next id mode := by
  cases operation with
  | createChild directory =>
      obtain ⟨⟨result, after⟩, called⟩ : ∃ outcome,
          record.fs.createChild directory = some outcome := by
        unfold PipeFs.createChild
        split
        · exact ⟨_, rfl⟩
        · split <;> exact ⟨_, rfl⟩
      simp only [Record.perform, called]
      rcases create_child_cases called with rfl | rfl
      · exact ⟨_, rfl, living, fun _ _ gone => gone⟩
      · exact ⟨_, rfl, living_create living, fun _ _ gone => gone⟩
  | fopen file mode address =>
      obtain ⟨⟨result, after⟩, called⟩ : ∃ outcome,
          record.fs.fopen file mode address = some outcome := by
        unfold PipeFs.fopen PipeFs.openPipe
        split
        · exact ⟨_, rfl⟩
        · split <;> (repeat' split) <;> exact ⟨_, rfl⟩
      simp only [Record.perform, called]
      rcases fopen_cases called with ⟨⟨error, rfl⟩, rfl⟩ |
        ⟨id, pipeMode, -, rfl, inMap, notClosed, rfl⟩
      · exact ⟨_, rfl, living, fun _ _ gone => gone⟩
      · refine ⟨_, rfl, living_fopen living allowed inMap notClosed, ?_⟩
        intro other otherMode gone
        have different : other ≠ id := by
          rintro rfl
          have closed := (side_closed_of_closed living gone).2
          exact absurd (notClosed.symm.trans closed) Bool.false_ne_true
        refine ⟨?_, ?_⟩
        · dsimp only
          rw [note_with_handle, Function.update_of_ne different]
          exact gone.1
        · unfold openHandles withHandle
          rw [FileHandleAllocator.count_alloc allowed]
          simpa [openHandles, Ne.symm different] using gone.2
  | fclose handle =>
      obtain ⟨⟨result, after⟩, called⟩ : ∃ outcome, record.fs.fclose handle = some outcome := by
        unfold PipeFs.fclose
        split
        · exact ⟨_, rfl⟩
        · dsimp only
          split <;> exact ⟨_, rfl⟩
      simp only [Record.perform, called]
      rcases fclose_cases (fun data found => counter_ne_zero living found) called with
        ⟨-, rfl⟩ | ⟨data, middle, found, closes, rfl⟩
      · exact ⟨_, rfl, living, fun _ _ gone => gone⟩
      · refine ⟨_, rfl, living_fclose living found closes, ?_⟩
        intro id mode gone
        refine ⟨gone.1, ?_⟩
        have removed :=
          @open_handles_filter record.fs middle handle data living.distinct found id mode
        exact Nat.eq_zero_of_add_eq_zero_right (removed.trans gone.2)
  | fread handle buf =>
      obtain ⟨next, called, kept, opened, handles⟩ := living_fread living handle buf
      refine ⟨next, called, kept, ?_⟩
      intro id mode gone
      exact ⟨by rw [opened]; exact gone.1, by rw [openHandles, handles]; exact gone.2⟩
  | fwrite handle buf =>
      obtain ⟨next, called, kept, opened, handles⟩ := living_fwrite living handle buf
      refine ⟨next, called, kept, ?_⟩
      intro id mode gone
      exact ⟨by rw [opened]; exact gone.1, by rw [openHandles, handles]; exact gone.2⟩

theorem reaches_living {start : Record} (living : Living start) (reached : Reaches start record) :
    Living record ∧ ∀ id mode, SideClosed start id mode → SideClosed record id mode := by
  induction reached with
  | start => exact ⟨living, fun _ _ gone => gone⟩
  | step reached allowed performed ih =>
      obtain ⟨next, called, kept, closed⟩ := living_perform ih.1 allowed
      obtain rfl := Option.some.inj (called.symm.trans performed)
      exact ⟨kept, fun id mode gone => closed id mode (ih.2 id mode gone)⟩

/-- A successful `fclose` takes one open handle from the side of the handle and from no other. -/
theorem fclose_counted {handle : Nat} (living : Living record)
    (closed : record.fs.fclose handle = some (.ok (), after)) :
    ∃ data, record.fs.handles.getHandleData handle = some data ∧
      ∀ id mode, openHandles after id mode +
        (if data.pipeId = id ∧ data.mode = mode then 1 else 0) = openHandles record.fs id mode := by
  cases found : record.fs.handles.getHandleData handle with
  | none =>
      rw [PipeFs.fclose, found] at closed
      cases closed
  | some data =>
      have counted : ∀ other, record.fs.handles.getHandleData handle = some other →
          side other.mode (record.fs.shared other.pipeId) ≠ 0 :=
        fun other here => counter_ne_zero living here
      refine ⟨data, rfl, fun id mode => ?_⟩
      rcases fclose_cases counted closed with ⟨missing, -⟩ | ⟨other, middle, here, -, rfl⟩
      · rw [missing] at found
        cases found
      · obtain rfl := Option.some.inj (found.symm.trans here)
        exact open_handles_filter living.distinct found id mode

/-- What a state of the file system shows of the lifetimes of its pipes. -/
structure Exact (record : Record) : Prop where
  counters : ∀ id < record.fs.nextPipeId,
    (record.fs.shared id).readers = openHandles record.fs id .read ∧
      (record.fs.shared id).writers = openHandles record.fs id .write
  noUnderflow : ∀ handle data, record.fs.handles.getHandleData handle = some data →
    1 ≤ side data.mode (record.fs.shared data.pipeId)
  inMap : ∀ id < record.fs.nextPipeId,
    (id ∈ record.fs.pipes ↔ ¬((∃ mode, record.opened id mode = true) ∧
      ∀ mode, openHandles record.fs id mode = 0))
  refused : ∀ id mode, SideClosed record id mode →
    ∀ file sideMode openMode address, file.fsSpecificData = some (sideFile id sideMode) →
      ∃ error, record.fs.fopen file openMode address = some (.error error, record.fs)
  endOfFile : ∀ handle buf filled after, buf ≠ [] →
    record.fs.fread handle buf = some (.ok (0, filled), after) →
      ∃ data, record.fs.handles.getHandleData handle = some data ∧
        record.accepted data.pipeId = record.returned data.pipeId ∧
        openHandles record.fs data.pipeId .write = 0

theorem exact_of_living (living : Living record) : Exact record := by
  constructor
  · intro id below
    have counted := (living.alive id below).counted
    exact ⟨counted .read, counted .write⟩
  · intro handle data found
    exact Nat.one_le_iff_ne_zero.mpr (counter_ne_zero living found)
  · intro id below
    rw [(living.alive id below).present, not_and_or, not_exists, not_forall]
    simp
  · intro id mode gone file sideMode openMode address kind
    obtain ⟨below, closed⟩ := side_closed_of_closed living gone
    cases called : record.fs.fopen file openMode address with
    | none =>
        unfold PipeFs.fopen PipeFs.openPipe at called
        split at called
        · cases called
        · split at called <;> (repeat' split at called) <;> cases called
    | some outcome =>
        obtain ⟨result, after⟩ := outcome
        rcases fopen_cases called with ⟨⟨error, rfl⟩, rfl⟩ |
          ⟨other, otherMode, same, -, -, notClosed, -⟩
        · exact ⟨error, rfl⟩
        · have sameId : other = id := by
            rw [kind] at same
            cases sideMode <;> cases otherMode <;> simp_all [sideFile]
          rw [sameId] at notClosed
          exact absurd (notClosed.symm.trans closed) Bool.false_ne_true
  · intro handle buf filled after nonempty read
    rcases fread_cases living handle buf with
      ⟨error, called⟩ | ⟨data, found, mode,
        ⟨empty, closed, -⟩ | ⟨some_, count, bytes, moved, moves, called⟩⟩
    · rw [called] at read
      cases read
    · have below : data.pipeId < record.fs.nextPipeId :=
        living.held _ (FileHandleAllocator.mem_of_get found)
      have alive := living.alive _ below
      refine ⟨data, found, ?_, ?_⟩
      · have queue : (record.fs.shared data.pipeId).queue = [] :=
          List.length_eq_zero_iff.mp ((Pipe.length_queue alive.ring).trans empty)
        rw [alive.order, queue, List.append_nil]
      · -- the reader is still there, so it is the other side that closed the pipe
        obtain ⟨side_, -, gone⟩ := alive.closed.mp closed
        have reader := counter_ne_zero living found
        rw [alive.counted, mode] at reader
        cases side_ with
        | read => exact absurd gone reader
        | write => exact gone
    · have below : data.pipeId < record.fs.nextPipeId :=
        living.held _ (FileHandleAllocator.mem_of_get found)
      obtain ⟨next, spec, -⟩ := Pipe.read_spec (living.alive _ below).ring buf
      rw [moves] at spec
      cases spec
      rw [called] at read
      have zero : min (record.fs.shared data.pipeId).dataLen buf.length = 0 :=
        (Prod.mk.inj (Except.ok.inj (Prod.mk.inj (Option.some.inj read)).1)).1
      have length : buf.length ≠ 0 := fun none => nonempty (List.length_eq_zero_iff.mp none)
      omega

/-- Over every sequence of calls: the counters are exact, a pipe is in the map until its
last handle is closed, a side that was closed stays closed, and the end of the file is
reached only when all bytes are read and nobody can write more. -/
theorem pipe_lifetimes_exact (osId : Nat) (shared : Nat → Pipe) (record : Record)
    (reached : Reaches (mounted osId shared) record) :
    Exact record ∧
      (∀ later, Reaches record later →
        ∀ id mode, SideClosed record id mode → SideClosed later id mode) ∧
      ∀ operation, record.Allowed operation → ∃ next, record.perform operation = some next := by
  have living := (reaches_living (living_mounted osId shared) reached).1
  refine ⟨exact_of_living living, ?_, ?_⟩
  · intro later reaches
    exact (reaches_living living reaches).2
  · intro operation allowed
    obtain ⟨next, performed, -⟩ := living_perform living allowed
    exact ⟨next, performed⟩

/-- The writer of a pipe closes it, the reader comes to the end of the file and closes it too. -/
theorem closed_pipe_exact :
    ∃ closed ended, Reaches (mounted 7 fun _ => .newAnonymous 0) closed ∧
      SideClosed closed 0 .write ∧ openHandles closed.fs 0 .read = 1 ∧ 0 ∈ closed.fs.pipes ∧
      closed.fs.fread 8192 [0] = some (.ok (0, [0]), closed.fs) ∧ Exact closed ∧
      closed.perform (.fclose 8192) = some ended ∧ 0 ∉ ended.fs.pipes ∧ Exact ended := by
  have made := Reaches.step (@Reaches.start (mounted 7 fun _ => .newAnonymous 0))
    (show Record.Allowed _ (.createChild ⟨7, some .pipefsRoot⟩) from trivial) rfl
  have writer := made.step
    (show Record.Allowed _ (.fopen ⟨7, some (.pipefsWrite 0)⟩ 2 4096) from rfl) rfl
  have reader := writer.step
    (show Record.Allowed _ (.fopen ⟨7, some (.pipefsRead 0)⟩ 1 8192) from rfl) rfl
  have closed := reader.step (show Record.Allowed _ (.fclose 4096) from trivial) rfl
  have ended := closed.step (show Record.Allowed _ (.fclose 8192) from trivial) rfl
  exact ⟨_, _, closed, ⟨rfl, rfl⟩, rfl, List.mem_singleton_self 0, rfl,
    (pipe_lifetimes_exact 7 _ _ closed).1, rfl, List.not_mem_nil,
    (pipe_lifetimes_exact 7 _ _ ended).1⟩

end Campix.Pipes
