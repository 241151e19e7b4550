import Campix.Pipes.PipeFs
import Campix.Process.FileTable
import Campix.Syscall.UserMemory

/-!
# The system calls on descriptors

`open`, `pipe`, `read`, `write`, `lseek` and `close` of `syscall/linux/io.rs`, over the
descriptors of every process and the handles of every mounted file system. The record of
a handle is the number of the open that made it. What the rest of the kernel answers
during a call is an argument of the call: whether its buffer is mapped, what a path leads
to, at which address the heap puts a handle, and what a file does once its handle has been
found. An error number stands for the negative result that
`linux_return_err_from_syscall` makes of it.
-/

namespace Campix.Syscall.Io

open Drivers Pipes Process

set_option autoImplicit false

inductive Errno where
  | eperm
  | enoent
  | eio
  | ebadf
  | ewouldblock
  | eexist
  | enotdir
  | eisdir
  | einval
  | emfile
  | enospc
  | espipe
  | erofs
  | enotempty
  | enodata
  deriving DecidableEq

def vfsErrToLinuxErrno : VfsError → Errno
  | .pathNotFound | .entryNotFound => .enoent
  | .invalidArgument | .badBufferSize | .invalidOpenMode => .einval
  | .invalidSeekPosition => .espipe
  | .actionNotAllowed => .eperm
  | .badHandle => .ebadf
  | .fileAlreadyExists => .eexist
  | .directoryNotEmpty => .enotempty
  | .notDirectory => .enotdir
  | .notFile => .eisdir
  | .brokenPipe => .espipe
  | .wouldBlock => .ewouldblock
  | .alreadyMounted => .eexist
  | .nameTooLong => .einval
  | .fileSystemMismatch => .einval
  | .fileSystemNotMounted => .enoent
  | .readOnly => .erofs
  | .outOfSpace => .enospc
  | .maximumSizeReached => .einval
  | .invalidDataStructure => .einval
  | .notMountPoint => .einval
  | .outOfBounds => .einval
  | .shortRead => .einval
  | .unknownError => .eio
  | .done => .enodata
  | .driverError => .eio

inductive FileSystemKind where
  | ext2Volume
  | devFs
  | pipeFs
  deriving DecidableEq

structure FileSystem where
  kind : FileSystemKind
  handles : FileHandleAllocator Nat

namespace FileSystem

/-- `fread` and `fwrite`: both look the handle up first. -/
def transfer (self : FileSystem) (handle : Nat) (answer : Except VfsError Nat) :
    Except VfsError Nat :=
  match self.handles.getHandleData handle with
  | none => .error .badHandle
  | some _ => answer

def fseek (self : FileSystem) (handle : Nat) (answer : Except VfsError Nat) :
    Except VfsError Nat :=
  match self.kind with
  | .pipeFs => .error .actionNotAllowed
  | .ext2Volume | .devFs =>
      match self.handles.getHandleData handle with
      | none => .error .badHandle
      | some _ => answer

def fclose (self : FileSystem) (handle : Nat) (answer : Except VfsError Unit) :
    Except VfsError Unit × FileSystem :=
  match self.handles.getHandleData handle with
  | none => (.error .badHandle, self)
  | some _ =>
      match answer with
      | .error err => (.error err, self)
      | .ok _ => (.ok (), { self with handles := (self.handles.deallocFileHandle handle).2 })

end FileSystem

structure IoState where
  fileSystems : Nat → FileSystem
  tables : Nat → FileTable
  opened : Nat

namespace IoState

def setTable (state : IoState) (pid : Nat) (table : FileTable) : IoState :=
  { state with tables := Function.update state.tables pid table }

def setFileSystem (state : IoState) (fs : Nat) (fileSystem : FileSystem) : IoState :=
  { state with fileSystems := Function.update state.fileSystems fs fileSystem }

@[simp]
theorem set_table_self (state : IoState) (pid : Nat) (table : FileTable) :
    (state.setTable pid table).tables pid = table := by
  simp [setTable]

theorem set_table_other (state : IoState) {pid other : Nat} (table : FileTable)
    (apart : other ≠ pid) : (state.setTable pid table).tables other = state.tables other := by
  simp [setTable, apart]

@[simp]
theorem set_file_system_self (state : IoState) (fs : Nat) (fileSystem : FileSystem) :
    (state.setFileSystem fs fileSystem).fileSystems fs = fileSystem := by
  simp [setFileSystem]

theorem set_file_system_other (state : IoState) {fs other : Nat} (fileSystem : FileSystem)
    (apart : other ≠ fs) :
    (state.setFileSystem fs fileSystem).fileSystems other = state.fileSystems other := by
  simp [setFileSystem, apart]

def fopen (state : IoState) (fs address : Nat) : IoState :=
  let self := state.fileSystems fs
  { state.setFileSystem fs
      { self with handles := self.handles.allocFileHandle address state.opened } with
    opened := state.opened + 1 }

end IoState

/-- The checks of `read` and `write` on the addresses of the buffer. -/
def lowerHalfRange (buf count : Nat) : Bool :=
  buf + count < 2 ^ 64 ∧ isLowerHalf (getAddressSpace buf) ∧
    isLowerHalf (getAddressSpace (buf + count))

def linuxSysRead (state : IoState) (pid fd buf count : Nat) (mapped : Bool)
    (answer : Except VfsError Nat) : Except Errno Nat :=
  if ¬lowerHalfRange buf count then
    .error .einval
  else if mapped then
    match (state.tables pid).getFd fd with
    | some (some file) =>
        match (state.fileSystems file.fs).transfer file.handle answer with
        | .ok read => .ok read
        | .error err => .error (vfsErrToLinuxErrno err)
    | _ => .error .ebadf
  else
    .error .emfile

def linuxSysWrite (state : IoState) (pid fd buf count : Nat) (mapped : Bool)
    (answer : Except VfsError Nat) : Except Errno Nat :=
  if count > maxSingleWrite then
    .error .einval
  else if ¬lowerHalfRange buf count then
    .error .einval
  else if mapped then
    match (state.tables pid).getFd fd with
    | some (some file) =>
        match (state.fileSystems file.fs).transfer file.handle answer with
        | .ok written => .ok written
        | .error err => .error (vfsErrToLinuxErrno err)
    | _ => .error .ebadf
  else
    .error .einval

def whenceSet : Nat := 0
def whenceCur : Nat := 1
def whenceEnd : Nat := 2

/-- The three positions differ only in what the file is asked for. -/
def linuxSysLseek (state : IoState) (pid fd whence : Nat) (answer : Except VfsError Nat) :
    Except Errno Nat :=
  if whence = whenceSet ∨ whence = whenceCur ∨ whence = whenceEnd then
    match (state.tables pid).getFd fd with
    | some (some file) =>
        match (state.fileSystems file.fs).fseek file.handle answer with
        | .ok _ => .ok 0
        | .error err => .error (vfsErrToLinuxErrno err)
    | _ => .error .ebadf
  else
    .error .einval

def linuxSysClose (state : IoState) (pid fd : Nat) (answer : Except VfsError Unit) :
    Except Errno Nat × IoState :=
  match (state.tables pid).getFd fd with
  | some (some file) =>
      match (state.fileSystems file.fs).fclose file.handle answer with
      | (.ok _, fileSystem) => (.ok 0, state.setFileSystem file.fs fileSystem)
      | (.error err, fileSystem) =>
          (.error (vfsErrToLinuxErrno err), state.setFileSystem file.fs fileSystem)
  | _ => (.error .ebadf, state)

def openWriteOnly : Nat := 1 <<< 0
def openReadWrite : Nat := 1 <<< 1
def openCreate : Nat := 1 <<< 6
def openExcl : Nat := 1 <<< 7
def openTruncate : Nat := 1 <<< 9
def openAppend : Nat := 1 <<< 10

def supportedOpenFlags : Nat :=
  openWriteOnly ||| openReadWrite ||| openCreate ||| openExcl ||| openTruncate ||| openAppend

def has (flags flag : Nat) : Bool := flags &&& flag ≠ 0

/-- `None` is the flag `Excl` without `Create`. -/
def openModeOf (flags : Nat) : Option Nat :=
  let openMode := if has flags openWriteOnly then OPEN_MODE_WRITE else OPEN_MODE_READ
  let openMode := if has flags openReadWrite then openMode ||| OPEN_MODE_WRITE else openMode
  let openMode := if has flags openAppend then openMode ||| OPEN_MODE_APPEND else openMode
  if has flags openCreate then
    let openMode := openMode ||| OPEN_MODE_CREATE
    some (if has flags openExcl then openMode ||| OPEN_MODE_FAIL_IF_EXISTS else openMode)
  else if has flags openExcl then
    none
  else
    some openMode

/-- What `open` learns: whether the path can be copied, the file system of its
file, the address that `fopen` returns, whether the path has a file and what the
seek of `Truncate` returns. -/
structure OpenAnswers where
  copied : Bool
  getFile : Except VfsError Nat
  fopen : Except VfsError Nat
  getStats : Except VfsError Bool
  fseek : Except VfsError Nat

/-- `open` up to the point where it needs a descriptor. An error behind `fopen`
leaves the handle open. -/
def openHandle (state : IoState) (flags mode : Nat) (answers : OpenAnswers) :
    Except Errno Fd × IoState :=
  if ¬answers.copied then
    (.error .einval, state)
  else if flags &&& supportedOpenFlags ≠ flags ∨ mode &&& supportedPermissionFlags ≠ mode then
    (.error .einval, state)
  else
    match openModeOf flags with
    | none => (.error .einval, state)
    | some openMode =>
    match answers.getFile with
    | .error err => (.error (vfsErrToLinuxErrno err), state)
    | .ok fs =>
    match answers.fopen with
    | .error err => (.error (vfsErrToLinuxErrno err), state)
    | .ok handle =>
    let state := state.fopen fs handle
    match answers.getStats with
    | .error err => (.error (vfsErrToLinuxErrno err), state)
    | .ok false => (.error .enoent, state)
    | .ok true =>
    if has flags openTruncate then
      if openMode &&& OPEN_MODE_WRITE ≠ OPEN_MODE_WRITE then
        (.error .einval, state)
      else
        match (state.fileSystems fs).fseek handle answers.fseek with
        | .error err => (.error (vfsErrToLinuxErrno err), state)
        | .ok _ => (.ok ⟨fs, handle⟩, state)
    else
      (.ok ⟨fs, handle⟩, state)

def linuxSysOpen (state : IoState) (pid flags mode : Nat) (answers : OpenAnswers) :
    Except Errno Nat × IoState :=
  match openHandle state flags mode answers with
  | (.error err, state) => (.error err, state)
  | (.ok file, state) =>
      match (state.tables pid).allocFd with
      | some (idx, table) => (.ok idx, state.setTable pid (table.setFd idx file))
      | none => (.error .emfile, state)

structure PipeAnswers where
  create : Except VfsError Nat
  fopenRead : Except VfsError Nat
  fopenWrite : Except VfsError Nat

def createRawFds (state : IoState) (answers : PipeAnswers) :
    Except VfsError (Fd × Fd) × IoState :=
  match answers.create with
  | .error err => (.error err, state)
  | .ok fs =>
  match answers.fopenRead with
  | .error err => (.error err, state)
  | .ok read =>
  let state := state.fopen fs read
  match answers.fopenWrite with
  | .error err => (.error err, state)
  | .ok write => (.ok (⟨fs, read⟩, ⟨fs, write⟩), state.fopen fs write)

/-- The two descriptors that a successful `pipe` stores for the process; the
call itself returns zero. -/
def linuxSysPipe (state : IoState) (pid : Nat) (mapped : Bool) (answers : PipeAnswers) :
    Except Errno (Nat × Nat) × IoState :=
  if ¬mapped then
    (.error .einval, state)
  else
    match (state.tables pid).allocFds 2 with
    | (none, table) => (.error .emfile, state.setTable pid table)
    | (some fds, table) =>
    let state := state.setTable pid table
    match fds with
    | [read, write] =>
        match createRawFds state answers with
        | (.error err, state) => (.error (vfsErrToLinuxErrno err), state)
        | (.ok (pipeRead, pipeWrite), state) =>
        match table.getFd read with
        | none => (.error .einval, state)
        | some _ =>
        let table := table.setFd read pipeRead
        match table.getFd write with
        | none => (.error .einval, state.setTable pid table)
        | some _ => (.ok (read, write), state.setTable pid (table.setFd write pipeWrite))
    | _ => (.error .einval, state)

end Campix.Syscall.Io
