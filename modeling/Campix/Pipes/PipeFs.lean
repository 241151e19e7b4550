import Campix.Drivers.Handles
import Campix.Drivers.Vfs
import Campix.Pipes.Pipe

/-!
# The file system of pipes

`PipeFs` of `pipefs.rs`: the calls that make, open, close, read and write pipes. A pipe is
shared by the map of pipes and by the handles on it, so the pipes are kept by the number
that each got when it was made, and the map is a list of such numbers. The counters and
the numbers are `u64` and would wrap only after `2 ^ 64` calls.
-/

namespace Campix.Pipes

open Drivers Lib.Word

set_option autoImplicit false

inductive PipeMode where
  | read
  | write
  deriving DecidableEq

structure PipeFsHandle where
  mode : PipeMode
  pipeId : Nat

inductive PipeFsSpecificFileData where
  | pipefsRoot
  | pipefsDir (id : Nat)
  | pipefsRead (id : Nat)
  | pipefsWrite (id : Nat)

/-- `none` is the data of another file system. -/
structure VfsFile where
  fs : Nat
  fsSpecificData : Option PipeFsSpecificFileData

def OPEN_MODE_READ : Nat := 1 <<< 0
def OPEN_MODE_WRITE : Nat := 1 <<< 1
def OPEN_MODE_APPEND : Nat := 1 <<< 2
def OPEN_MODE_CREATE : Nat := 1 <<< 4
def OPEN_MODE_FAIL_IF_EXISTS : Nat := 1 <<< 5

structure PipeFs where
  osId : Nat
  shared : Nat → Pipe
  pipes : List Nat
  handles : FileHandleAllocator PipeFsHandle
  nextPipeId : Nat

/-- The result of a call; `none` is a panic. -/
abbrev Outcome (Value : Type) := Option (Except VfsError Value × PipeFs)

namespace PipeFs

def updatePipe (self : PipeFs) (id : Nat) (pipe : Pipe) : PipeFs :=
  { self with shared := Function.update self.shared id pipe }

def createChild (self : PipeFs) (directory : VfsFile) : Outcome VfsFile :=
  if directory.fs ≠ self.osId then
    some (.error .fileSystemMismatch, self)
  else
    match directory.fsSpecificData with
    | none => some (.error .fileSystemMismatch, self)
    | some .pipefsRoot =>
        let id := self.nextPipeId
        some (.ok ⟨self.osId, some (.pipefsDir id)⟩,
          { self.updatePipe id (.newAnonymous (64 * 1024)) with
            pipes := id :: self.pipes.filter (· ≠ id)
            nextPipeId := id + 1 })
    | some _ => some (.error .actionNotAllowed, self)

def openSide (mode : PipeMode) (pipe : Pipe) : Pipe :=
  match mode with
  | .read => { pipe with readers := pipe.readers + 1 }
  | .write => { pipe with writers := pipe.writers + 1 }

def openPipe (self : PipeFs) (id : Nat) (pipeMode : PipeMode) (mode address : Nat) : Outcome Nat :=
  if mode &&& OPEN_MODE_FAIL_IF_EXISTS ≠ 0 then
    some (.error .fileAlreadyExists, self)
  else if id ∉ self.pipes then
    some (.error .pathNotFound, self)
  else if (self.shared id).closed then
    some (.error .pathNotFound, self)
  else
    some (.ok address,
      { self.updatePipe id (openSide pipeMode (self.shared id)) with
        handles := self.handles.allocFileHandle address ⟨pipeMode, id⟩ })

def fopen (self : PipeFs) (file : VfsFile) (mode address : Nat) : Outcome Nat :=
  if file.fs ≠ self.osId then
    some (.error .fileSystemMismatch, self)
  else
    match file.fsSpecificData with
    | none => some (.error .fileSystemMismatch, self)
    | some (.pipefsRead id) =>
        if mode &&& OPEN_MODE_READ = 0 ∨ mode &&& OPEN_MODE_WRITE ≠ 0 ∨
            mode &&& OPEN_MODE_APPEND ≠ 0 ∨ mode &&& OPEN_MODE_CREATE ≠ 0 then
          some (.error .invalidOpenMode, self)
        else
          self.openPipe id .read mode address
    | some (.pipefsWrite id) =>
        if mode &&& OPEN_MODE_READ ≠ 0 ∨ mode &&& OPEN_MODE_WRITE = 0 ∨
            mode &&& OPEN_MODE_APPEND ≠ 0 ∨ mode &&& OPEN_MODE_CREATE ≠ 0 then
          some (.error .invalidOpenMode, self)
        else
          self.openPipe id .write mode address
    | some _ => some (.error .notFile, self)

def closeRead (self : PipeFs) (id : Nat) : PipeFs :=
  let pipe := self.shared id
  let pipe := { pipe with readers := sub64 pipe.readers 1 }
  if pipe.readers = 0 then
    let pipe := { pipe with closed := true }
    if pipe.writers = 0 then
      { self.updatePipe id pipe with pipes := self.pipes.filter (· ≠ id) }
    else
      self.updatePipe id pipe
  else
    self.updatePipe id pipe

def closeWrite (self : PipeFs) (id : Nat) : PipeFs :=
  let pipe := self.shared id
  let pipe := { pipe with writers := sub64 pipe.writers 1 }
  if pipe.writers = 0 then
    let pipe := { pipe with closed := true }
    if pipe.readers = 0 then
      { self.updatePipe id pipe with pipes := self.pipes.filter (· ≠ id) }
    else
      self.updatePipe id pipe
  else
    self.updatePipe id pipe

def fclose (self : PipeFs) (handle : Nat) : Outcome Unit :=
  match self.handles.getHandleData handle with
  | none => some (.error .badHandle, self)
  | some data =>
      let closed := if data.mode = .read then self.closeRead data.pipeId else self.closeWrite
        data.pipeId
      match closed.handles.deallocFileHandle handle with
      | (true, handles) => some (.ok (), { closed with handles := handles })
      | (false, _) => some (.error .badHandle, closed)

/-- The bytes read and the buffer with them in it. -/
def fread (self : PipeFs) (handle : Nat) (buf : List UInt8) : Outcome (Nat × List UInt8) :=
  match self.handles.getHandleData handle with
  | none => some (.error .badHandle, self)
  | some data =>
      if data.mode = .read then
        let pipe := self.shared data.pipeId
        if pipe.isEmpty then
          -- the end of the file, once nobody can write any more
          if pipe.closed then some (.ok (0, buf), self) else some (.error .wouldBlock, self)
        else
          match pipe.read buf with
          | none => none
          | some (count, buf, pipe) => some (.ok (count, buf), self.updatePipe data.pipeId pipe)
      else
        some (.error .actionNotAllowed, self)

def fwrite (self : PipeFs) (handle : Nat) (buf : List UInt8) : Outcome Nat :=
  match self.handles.getHandleData handle with
  | none => some (.error .badHandle, self)
  | some data =>
      if data.mode = .write then
        let pipe := self.shared data.pipeId
        if pipe.readers = 0 then
          some (.error .brokenPipe, self)
        else if pipe.isFull then
          some (.error .wouldBlock, self)
        else
          match pipe.write buf with
          | none => none
          | some (count, pipe) => some (.ok count, self.updatePipe data.pipeId pipe)
      else
        some (.error .actionNotAllowed, self)

end PipeFs

end Campix.Pipes
