import Campix.Paging.AddressMap
import Campix.Paging.Iter
import Campix.Process.Memory

/-!
# How system calls reach user memory

`UserProcessBuffer` and `UserProcessStructure` of `syscall/utils`, and the part of each
system call up to the point where it holds the memory behind its pointer. What a call
reads or writes there is a list of ranges, each a start and a length.
-/

namespace Campix.Syscall

open Lib.Word Paging Process

set_option autoImplicit false

def isLowerHalf : Option VirtualAddressSpace → Bool
  | some (.lowerHalf _) => true
  | _ => false

def sameHalf : Option VirtualAddressSpace → Option VirtualAddressSpace → Bool
  | some (.higherHalf _), some (.higherHalf _) => true
  | some (.lowerHalf _), some (.lowerHalf _) => true
  | _, _ => false

/-- The memory a system call runs in: the page table in use and the bytes behind the
canonical addresses. -/
structure UserSpace (σ : Type) where
  table : PageTable
  alloc : PageAllocator σ
  machine : Machine σ
  bytes : Nat → UInt8

variable {σ : Type}

/-- The byte that the processor reads at an address; at one that is not canonical it raises a
general protection fault, whatever the page table says. -/
def UserSpace.load (space : UserSpace σ) (addr : Nat) : Option UInt8 :=
  if Canonical addr then some (space.bytes addr) else none

def UserSpace.loadSlice (space : UserSpace σ) (addr length : Nat) : Option (List UInt8) :=
  (List.range length).mapM fun offset => space.load (addr + offset)

/-- The loop over the pages of the buffer; `None` is a call that has not returned. -/
def verifyPages (space : UserSpace σ) (beginPageAddr endPageAddr : Nat) :
    Nat → PageTableIter → Option Nat → Option Bool
  | 0, _, _ => none
  | rounds + 1, iter, last =>
      match space.table.next space.alloc space.machine (rounds + 1) iter with
      | none => none
      | some (none, _) => some (decide (last = some endPageAddr))
      | some (some page, iter) =>
          match last with
          | none =>
              if page.virt ≠ beginPageAddr then some false
              else verifyPages space beginPageAddr endPageAddr rounds iter (some page.virt)
          | some lastAddr =>
              if page.virt ≠ add64 lastAddr pageSize then some false
              else verifyPages space beginPageAddr endPageAddr rounds iter (some page.virt)

def verifyFullyMapped (space : UserSpace σ) (rounds buffer size : Nat) : Option Bool :=
  if buffer + size ≥ 2 ^ 64 then
    some false
  else
    let endAddr := buffer + size
    let beginPageAddr := alignDown buffer pageSize
    let endPageAddr := alignDown endAddr pageSize
    if ¬sameHalf (getAddressSpace buffer) (getAddressSpace endAddr) then
      some false
    else
      verifyPages space beginPageAddr endPageAddr rounds
        ⟨beginPageAddr, add64 endPageAddr pageSize⟩ none

/-- The slice that `verify_fully_mapped` and `verify_fully_mapped_mut` return. -/
def verifiedSlice (space : UserSpace σ) (rounds buffer size : Nat) : List (Nat × Nat) :=
  if verifyFullyMapped space rounds buffer size = some true then [(buffer, size)] else []

def userProcessStructure (space : UserSpace σ) (rounds data size align : Nat) : List (Nat × Nat) :=
  if data % align = 0 then verifiedSlice space rounds data size else []

/-- How far a scan for a string got: it returned, it was stopped by a fault of the processor,
or it is still in its loop. -/
inductive CStrScan where
  | returned (string : Option (List UInt8 × Bool))
  | faulted
  | running
deriving DecidableEq

def cStrLoop (space : UserSpace σ) (endUnaligned endAligned : Nat) :
    Nat → Nat → List UInt8 → CStrScan × List (Nat × Nat)
  | 0, _, _ => (.running, [])
  | rounds + 1, currAddr, vec =>
      if currAddr < endAligned then
        match space.table.translate space.alloc currAddr space.machine with
        | .error _ _ => (.returned none, [])
        | .ok _ _ =>
            let read := sub64 (min (alignDown (add64 currAddr pageSize) pageSize) endUnaligned)
              currAddr
            match space.loadSlice currAddr read with
            | none => (.faulted, [(currAddr, 1)])
            | some slice =>
                let idxOfZero := slice.findIdx (· = 0)
                let vec := vec ++ slice.take idxOfZero
                if idxOfZero < read then
                  (.returned (some (vec, true)), [(currAddr, idxOfZero + 1)])
                else
                  let rest := cStrLoop space endUnaligned endAligned rounds
                    (add64 currAddr read) vec
                  (rest.1, (currAddr, read) :: rest.2)
      else
        (.returned (some (vec, false)), [])

/-- `copy_user_c_str`, with the ranges it scans. The byte at which it faults is one of them. -/
def copyUserCStr (space : UserSpace σ) (rounds addr maxLen : Nat) : CStrScan × List (Nat × Nat) :=
  let endUnaligned := add64 addr maxLen
  let endAligned := alignDown endUnaligned pageSize
  cStrLoop space endUnaligned endAligned rounds addr []

def maxPathLen : Nat := 4096
def maxSingleWrite : Nat := 64 * 1024 * 1024
def supportedPermissionFlags : Nat := 0o7777
def archGetFs : Nat := 0x1003
def archGetGs : Nat := 0x1004

/-- The system calls that are given a pointer, with the arguments that decide
whether it is used. -/
inductive PointerCall where
  | read (buf count : UInt64)
  | write (buf count : UInt64)
  | open_ (path : UInt64)
  | mkdir (path mode : UInt64)
  | pipe (fds : UInt64)
  | uname (buf : UInt64)
  | archPrctl (code value : UInt64)

def linuxSysRead (space : UserSpace σ) (rounds buf count : Nat) : List (Nat × Nat) :=
  if buf + count ≥ 2 ^ 64 then
    []
  else if ¬isLowerHalf (getAddressSpace buf) ∨ ¬isLowerHalf (getAddressSpace (buf + count)) then
    []
  else
    verifiedSlice space rounds buf count

def linuxSysWrite (space : UserSpace σ) (rounds buf count : Nat) : List (Nat × Nat) :=
  if count > maxSingleWrite then [] else linuxSysRead space rounds buf count

def linuxSysOpen (space : UserSpace σ) (rounds path : Nat) : List (Nat × Nat) :=
  (copyUserCStr space rounds path maxPathLen).2

def linuxSysMkdir (space : UserSpace σ) (rounds path mode : Nat) : List (Nat × Nat) :=
  if mode &&& supportedPermissionFlags ≠ mode then []
  else (copyUserCStr space rounds path maxPathLen).2

/-- `LinuxPipefds` has 16 bytes and is aligned to 8. -/
def linuxSysPipe (space : UserSpace σ) (rounds fds : Nat) : List (Nat × Nat) :=
  userProcessStructure space rounds fds 16 8

/-- `LinuxUtsname` is five arrays of 65 bytes. -/
def linuxSysUname (space : UserSpace σ) (rounds buf : Nat) : List (Nat × Nat) :=
  userProcessStructure space rounds buf 325 1

def linuxSysArchPrctl (space : UserSpace σ) (rounds code value : Nat) : List (Nat × Nat) :=
  if code = archGetFs ∨ code = archGetGs then userProcessStructure space rounds value 8 8 else []

def PointerCall.ranges (space : UserSpace σ) (rounds : Nat) : PointerCall → List (Nat × Nat)
  | .read buf count => linuxSysRead space rounds buf.toNat count.toNat
  | .write buf count => linuxSysWrite space rounds buf.toNat count.toNat
  | .open_ path => linuxSysOpen space rounds path.toNat
  | .mkdir path mode => linuxSysMkdir space rounds path.toNat mode.toNat
  | .pipe fds => linuxSysPipe space rounds fds.toNat
  | .uname buf => linuxSysUname space rounds buf.toNat
  | .archPrctl code value => linuxSysArchPrctl space rounds code.toNat value.toNat

end Campix.Syscall
