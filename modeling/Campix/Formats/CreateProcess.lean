import Campix.Formats.Elf
import Campix.Lib.Slice
import Campix.Paging.AddressSpace
import Campix.Paging.Teardown
import Campix.Process.Memory

/-!
# Loading a program

`create_process` and `build_stack` of `formats/elf.rs`, with the `ThreadStack` of
`process/memory.rs`. The kernel heap, from which the page tables and the page buffers
both come, hands out pages of the memory; a `Box<[u8]>` of `PAGE_SIZE` bytes is the
address of such a page. A panic halts the kernel: it is a failure of its own, and what
was done before it stays. The pages mapped so far, `allocated_code` of the source, are
part of the state; they stay on record when the buffers are dropped.
-/

namespace Campix.Formats

open Lib.Slice Lib.Word Paging

set_option autoImplicit false

/-- `running` is a call that has not come to an end. -/
inductive LoadFailure where
  | error (error : ElfError)
  | panic
  | running

/-- `allocatedCode` pairs the virtual address of a page with its buffer. -/
structure Loading (σ : Type) where
  machine : Machine σ
  allocatedCode : List (Nat × Nat)

def Loading.buffers {σ : Type} (state : Loading σ) : List Nat := state.allocatedCode.map Prod.snd

abbrev Load (σ : Type) := EStateM LoadFailure (Loading σ)

variable {σ : Type}

/-- Runs an operation on the machine; where it fails, so does loading. -/
def onMachine {Value : Type} (failure : LoadFailure) (operation : Attempt σ Value) : Load σ Value :=
  fun state =>
    match operation state.machine with
    | .ok value after => .ok value { state with machine := after }
    | .error _ after => .error failure { state with machine := after }

/-- Runs an operation whose `Option` result is dropped. -/
def ignoring (operation : Attempt σ Unit) : Load σ Unit := fun state =>
  match operation state.machine with
  | .ok _ after => .ok () { state with machine := after }
  | .error _ after => .ok () { state with machine := after }

def bytesOf (words : Table) : List UInt8 :=
  (List.range pageSize).map fun offset =>
    UInt8.ofNat (words (Fin.ofNat 512 (offset / 8)) >>> (8 * (offset % 8)))

def tableOf (bytes : List UInt8) : Table := fun idx => readLe bytes (8 * idx.val) 8

def storePage (page : Nat) (bytes : List UInt8) : Load σ Unit :=
  modify fun state => { state with machine := state.machine.store page (tableOf bytes) }

def loadPage (page : Nat) : Load σ (List UInt8) := do
  return bytesOf ((← get).machine.mem page)

/-- `alloc_boxed_slice(PAGE_SIZE)`; the bytes of the page are left as they were. -/
def allocBoxedSlice (allocator : LawfulAllocator σ) : Load σ Nat :=
  onMachine .panic allocator.allocPage

def callocBoxedSlice (allocator : LawfulAllocator σ) : Load σ Nat := do
  let page ← allocBoxedSlice allocator
  storePage page (List.replicate pageSize 0)
  return page

def fillZero (buffer : List UInt8) (begin_ end_ : Nat) : Option (List UInt8) :=
  copyFromSlice buffer begin_ end_ (List.replicate (end_ - begin_) 0)

def Elf64ProgramHeader.beginMap (ph : Elf64ProgramHeader) : Nat :=
    alignDown ph.pVaddr.toNat pageSize

def Elf64ProgramHeader.endMap (ph : Elf64ProgramHeader) : Nat :=
  alignUp (add64 ph.pVaddr.toNat ph.pMemsz.toNat) pageSize

def pagesBetween (begin_ end_ : Nat) : List Nat :=
  (List.range ((end_ - begin_ + pageSize - 1) / pageSize)).map fun page => begin_ + page * pageSize

def segmentData (file : Elf64File) (ph : Elf64ProgramHeader) : Option (List UInt8) :=
  getSlice file.contents ph.pOffset.toNat (add64 ph.pOffset.toNat ph.pFilesz.toNat)

/-- The buffer for the page at `virt` and the position in the segment after it;
`none` is a panic. -/
def fillPage (ph : Elf64ProgramHeader) (segment : List UInt8) (virt codeI : Nat)
    (buffer : List UInt8) : Option (List UInt8 × Nat) := do
  let vaddr := ph.pVaddr.toNat
  let filesz := ph.pFilesz.toNat
  let endCode := add64 vaddr filesz
  if virt < vaddr then
    let zeros := vaddr - virt
    let rem := min (sub64 pageSize zeros) (sub64 filesz codeI)
    let buffer ← fillZero buffer 0 zeros
    let buffer ←
      if zeros + rem < pageSize then fillZero buffer (zeros + rem) buffer.length else some buffer
    let buffer ← copyFromSlice buffer zeros (zeros + rem) (← getSlice segment codeI (codeI + rem))
    return (buffer, codeI + rem)
  else if add64 virt pageSize ≥ endCode then
    let rem := sub64 filesz codeI
    let buffer ← copyFromSlice buffer 0 rem (← getSlice segment codeI segment.length)
    let buffer ← fillZero buffer rem buffer.length
    return (buffer, codeI + rem)
  else if codeI ≥ filesz then
    return (← fillZero buffer 0 buffer.length, codeI + pageSize)
  else
    let rem := min (filesz - codeI) pageSize
    let buffer ← copyFromSlice buffer 0 rem (← getSlice segment codeI (codeI + rem))
    return (buffer, codeI + rem)

def pageFlags : Nat := pageUser ||| pageAccessed ||| pageRw ||| pagePresent

def loadPages (allocator : LawfulAllocator σ) (pt : PageTable) (ph : Elf64ProgramHeader)
    (segment : List UInt8) : Nat → List Nat → Load σ Unit
  | _, [] => pure ()
  | codeI, virt :: virts => do
      let buffer ← allocBoxedSlice allocator
      match fillPage ph segment virt codeI (← loadPage buffer) with
      | none => throw .panic
      | some (bytes, codeI) =>
          storePage buffer bytes
          ignoring (pt.map4kb allocator.toPageAllocator virt (sub64 buffer directMappingOffset)
            pageFlags)
          modify fun state => { state with allocatedCode := state.allocatedCode ++ [(virt, buffer)] }
          loadPages allocator pt ph segment codeI virts

def loadSegments (allocator : LawfulAllocator σ) (pt : PageTable) (file : Elf64File) :
    List Elf64ProgramHeader → Load σ Unit
  | [] => pure ()
  | ph :: headers => do
      if ph.segmentType ≠ .load then
        loadSegments allocator pt file headers
      else
        match segmentData file ph with
        | none => throw (.error (.invalidSegmentOffset ph.pOffset.toNat ph.pFilesz.toNat))
        | some segment =>
            loadPages allocator pt ph segment 0 (pagesBetween ph.beginMap ph.endMap)
            loadSegments allocator pt file headers

structure ThreadStack where
  stackTop : Nat
  stackSize : Nat
  stackBuffers : List Nat

def ThreadStack.getBottom (stack : ThreadStack) : Nat := sub64 stack.stackTop stack.stackSize

/-- The buffers are pages, so the length check of the source succeeds. -/
def ThreadStack.growUsingExistingBuffer (stack : ThreadStack) (allocator : LawfulAllocator σ)
    (pt : PageTable) (flags buffer : Nat) : Load σ ThreadStack := do
  let stack := { stack with stackSize := add64 stack.stackSize pageSize }
  ignoring (pt.map4kb allocator.toPageAllocator
    stack.getBottom (sub64 buffer directMappingOffset) flags)
  return { stack with stackBuffers := stack.stackBuffers ++ [buffer] }

def ThreadStack.grow (stack : ThreadStack) (allocator : LawfulAllocator σ) (pt : PageTable)
    (flags : Nat) : Load σ ThreadStack := do
  let buffer ← callocBoxedSlice allocator
  stack.growUsingExistingBuffer allocator pt flags buffer

def ThreadStack.growUsing (allocator : LawfulAllocator σ) (pt : PageTable) (flags : Nat) :
    ThreadStack → List Nat → Load σ ThreadStack
  | stack, [] => pure stack
  | stack, buffer :: buffers => do
      let stack ← stack.growUsingExistingBuffer allocator pt flags buffer
      growUsing allocator pt flags stack buffers

def callocPages (allocator : LawfulAllocator σ) : Nat → Load σ (List Nat)
  | 0 => pure []
  | count + 1 => do
      let page ← callocBoxedSlice allocator
      let pages ← callocPages allocator count
      return page :: pages

def writeByte (pages : List Nat) (offset : Nat) (byte : UInt8) : Load σ Unit :=
  match pages[offset / pageSize]? with
  | none => throw .panic
  | some page => do
      let bytes ← loadPage page
      storePage page (bytes.set (offset % pageSize) byte)

def writeBytes (pages : List Nat) : Nat → List UInt8 → Load σ Unit
  | _, [] => pure ()
  | offset, byte :: bytes => do
      writeByte pages offset byte
      writeBytes pages (offset + 1) bytes

def writeU64 (pages : List Nat) (offset val : Nat) : Load σ Unit :=
  writeBytes pages offset (toLe val 8)

def writeU64s (pages : List Nat) : Nat → List Nat → Load σ Unit
  | _, [] => pure ()
  | offset, val :: vals => do
      writeU64 pages offset val
      writeU64s pages (offset + 8) vals

/-- Writes the strings, each with its null terminator, and returns their addresses
and the offset behind the last one. -/
def writeStrings (pages : List Nat) (stackBottom : Nat) :
    Nat → List (List UInt8) → Load σ (List Nat × Nat)
  | idx, [] => pure ([], idx)
  | idx, s :: strings => do
      writeBytes pages idx s
      writeByte pages (idx + s.length) 0
      let (ptrs, idx') ← writeStrings pages stackBottom (idx + s.length + 1) strings
      return (add64 stackBottom idx :: ptrs, idx')

/-- The arrays of pointers are written behind one another: the arguments, the
environment and the auxiliary pairs, each with its null. -/
def buildStack (allocator : LawfulAllocator σ) (stackTop : Nat) (pt : PageTable) (flags : Nat)
    (args env : List (List UInt8)) (aux : List (Nat × Nat)) :
    Load σ (ThreadStack × Nat × Nat × Nat) := do
  let argcSize := 8
  let argvPtrsSize := (args.length + 1) * 8
  let envpPtrsSize := (env.length + 1) * 8
  let auxvSize := (aux.length + 1) * 16
  let argsDataSize := (args.map fun s => s.length + 1).sum
  let envDataSize := (env.map fun s => s.length + 1).sum
  let totalSize := argcSize + argvPtrsSize + envpPtrsSize + auxvSize + argsDataSize + envDataSize
  let numPages := (totalSize + pageSize - 1) / pageSize
  let pages ← callocPages allocator numPages
  let totalAllocSize := numPages * pageSize
  let stackBottom := sub64 stackTop totalAllocSize
  writeU64 pages 0 args.length
  let argvOffset := argcSize
  let envpOffset := argvOffset + argvPtrsSize
  let auxvOffset := envpOffset + envpPtrsSize
  let (stringPtrs, idx) ← writeStrings pages stackBottom (auxvOffset + auxvSize) (args ++ env)
  writeU64s pages argvOffset (stringPtrs.take args.length ++ [0])
  writeU64s pages envpOffset (stringPtrs.drop args.length ++ [0])
  writeU64s pages auxvOffset (aux.flatMap fun pair => [pair.1, pair.2])
  writeU64s pages (auxvOffset + 16 * aux.length) [0, 0]
  if idx > totalAllocSize then
    throw .panic
  else
    let stack ← ThreadStack.growUsing allocator pt flags ⟨stackTop, 0, []⟩ pages.reverse
    return (stack, stackBottom, add64 stackBottom argvOffset, add64 stackBottom envpOffset)

structure CreateProcessOptions where
  pageTable : PageTable
  stack : ThreadStack
  argc : Nat
  argv : Nat
  envp : Nat
  rip : Nat
  rsp : Nat

/-- What `create_process` does with the new page table. The code buffers of the
result are those of the final state. -/
def Elf64File.loadInto (file : Elf64File) (allocator : LawfulAllocator σ) (pt : PageTable)
    (cmdline environment : List (List UInt8)) : Load σ CreateProcessOptions := do
  loadSegments allocator pt file file.iterProgramHeaders
  let (stack, rsp, argv, envp) ←
    buildStack allocator 0x0000_8000_0000_0000 pt pageFlags cmdline environment []
  let stack ← stack.grow allocator pt pageFlags
  return {
    pageTable := pt, stack, argc := cmdline.length, argv, envp
    rip := file.header.entryOffset, rsp }

/-- A function that returns early drops what it holds: the buffers, and then the page table. -/
def droppingOnError {Value : Type} (allocator : LawfulAllocator σ) (pt : PageTable)
    (rounds active : Nat) (load : Load σ Value) : Load σ Value := fun state =>
  match load state with
  | .error (.error error) after =>
      let freed := freePages allocator.toPageAllocator after.buffers after.machine
      match pt.drop allocator.toPageAllocator rounds active freed with
      | .ok _ machine => .error (.error error) { after with machine }
      | .error .panic machine => .error .panic { after with machine }
      | .error .running machine => .error .running { after with machine }
  | result => result

/-- `active` is the page table in CR3, and `rounds` bounds the loop that drops the new one. -/
def Elf64File.createProcess (file : Elf64File) (allocator : LawfulAllocator σ) (kernel : PageTable)
    (rounds active : Nat) (cmdline environment : List (List UInt8)) :
    Load σ CreateProcessOptions := do
  let pt ← onMachine (.error .invalidPageTableAllocation) (PageTable.allocNew allocator)
  ignoring (pt.mapGlobalHigherHalf kernel)
  droppingOnError allocator pt rounds active (file.loadInto allocator pt cmdline environment)

end Campix.Formats
