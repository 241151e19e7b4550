import Campix.Memory.BuddyAlloc
import Campix.Lib.Bytes

/-!
# The kernel heap

`ExtendedBuddyPageAllocator` of `memory/mem.rs`: a buddy allocator with a table
of one byte per page that remembers the order of the block starting there. The
table lies in a block of the allocator itself, among the pages it hands out,
so here the memory is made of bytes and a `FreeBlock` is the sixteen bytes at
the start of its block: what the allocator writes into its headers can reach
the table and the other way round.
-/

namespace Campix.Memory.ExtendedBuddy

open Lib.Word Lib.Bytes
open Memory.BuddyAlloc

set_option autoImplicit false

def headerSize : Nat := 16

def headerAt (bytes : Nat → UInt8) (addr : Nat) : FreeBlock :=
  { next := nonNull (readWord bytes 8 addr), order := readWord bytes 8 (addr + 8) }

def headerByte (block : FreeBlock) (offset : Nat) : UInt8 :=
  if offset < 8 then wordByte (block.next.getD 0) offset else wordByte block.order (offset - 8)

/-- The bytes once the headers `before` have become `after`. Headers stand at
the start of pages. -/
def writeHeaders (bytes : Nat → UInt8) (before after : Nat → FreeBlock) : Nat → UInt8 :=
  fun addr =>
    let offset := addr % pageSize
    if offset < headerSize ∧ after (addr - offset) ≠ before (addr - offset) then
      headerByte (after (addr - offset)) offset
    else bytes addr

/-- The memory is `bytes`; the headers in `allocator` are read from it. -/
structure ExtendedBuddyPageAllocator where
  allocator : BuddyPageAllocator
  orders : Nat
  bytes : Nat → UInt8

def withBytes (heap : ExtendedBuddyPageAllocator) (bytes : Nat → UInt8) :
    ExtendedBuddyPageAllocator :=
  { heap with bytes, allocator := { heap.allocator with mem := headerAt bytes } }

/-- A call of the inner allocator has returned `after`. -/
def withAllocator (heap : ExtendedBuddyPageAllocator) (after : BuddyPageAllocator) :
    ExtendedBuddyPageAllocator :=
  withBytes { heap with allocator := after }
    (writeHeaders heap.bytes heap.allocator.mem after.mem)

def divCeil (value divisor : Nat) : Nat :=
  if value % divisor = 0 then value / divisor else value / divisor + 1

def entryIndex (heap : ExtendedBuddyPageAllocator) (addr : Nat) : Nat :=
  sub64 addr heap.allocator.baseAddr / pageSize

def markUsed (heap : ExtendedBuddyPageAllocator) (addr order : Nat) : ExtendedBuddyPageAllocator :=
  withBytes heap (Function.update heap.bytes (heap.orders + entryIndex heap addr)
    (UInt8.ofNat order))

def markFree (heap : ExtendedBuddyPageAllocator) (addr : Nat) : ExtendedBuddyPageAllocator :=
  withBytes heap (Function.update heap.bytes (heap.orders + entryIndex heap addr) 0xFF)

def getOrder (heap : ExtendedBuddyPageAllocator) (addr : Nat) : Option Nat :=
  let entry := heap.bytes (heap.orders + entryIndex heap addr)
  if entry = 0xFF then none else some entry.toNat

def isInRange (heap : ExtendedBuddyPageAllocator) (addr : Nat) : Bool :=
  entryIndex heap addr < heap.allocator.pageCount

def new (bytes : Nat → UInt8) (allocator : BuddyPageAllocator) :
    Except Halt (Option ExtendedBuddyPageAllocator) := do
  let (block, after) ← allocPages allocator (divCeil allocator.pageCount pageSize)
  match block with
  | none => return none
  | some (orders, order) =>
      let heap := withAllocator { allocator, orders, bytes } after
      let heap := withBytes heap (writeBytes heap.bytes orders 0xFF after.pageCount)
      return some (markUsed heap orders order)

/-- `alloc`, with the order of the block that the inner allocator returned. -/
def allocBlock (heap : ExtendedBuddyPageAllocator) (size : Nat) :
    Except Halt (Option (Nat × Nat) × ExtendedBuddyPageAllocator) := do
  let (block, after) ← allocPages heap.allocator (divCeil size pageSize)
  match block with
  | none => return (none, withAllocator heap after)
  | some (addr, order) =>
      return (some (addr, order), markUsed (withAllocator heap after) addr order)

def alloc (heap : ExtendedBuddyPageAllocator) (size : Nat) :
    Except Halt (Option Nat × ExtendedBuddyPageAllocator) := do
  let (block, heap) ← allocBlock heap size
  return (block.map Prod.fst, heap)

def callocBlock (heap : ExtendedBuddyPageAllocator) (size : Nat) :
    Except Halt (Option (Nat × Nat) × ExtendedBuddyPageAllocator) := do
  let (block, heap) ← allocBlock heap size
  match block with
  | none => return (none, heap)
  | some (addr, order) =>
      return (some (addr, order), withBytes heap (writeBytes heap.bytes addr 0 size))

def calloc (heap : ExtendedBuddyPageAllocator) (size : Nat) :
    Except Halt (Option Nat × ExtendedBuddyPageAllocator) := do
  let (block, heap) ← callocBlock heap size
  return (block.map Prod.fst, heap)

def free (heap : ExtendedBuddyPageAllocator) (addr : Nat) :
    Except Halt ExtendedBuddyPageAllocator :=
  if isInRange heap addr = false then .ok heap
  else match getOrder heap addr with
    | none => .ok heap
    | some order => do
        let after ← BuddyAlloc.free heap.allocator addr order
        return markFree (withAllocator heap after) addr

/-- `ExtendedBuddyPageAllocator::new(BuddyPageAllocator::new(..))`, on a
memory with any contents. -/
def build (bytes : Nat → UInt8) (baseAddr pageCount : Nat) :
    Except Halt (Option ExtendedBuddyPageAllocator) := do
  let allocator ← BuddyAlloc.new (headerAt bytes) baseAddr pageCount
  let bytes := writeHeaders bytes (headerAt bytes) allocator.mem
  new bytes { allocator with mem := headerAt bytes }

structure Session where
  heap : ExtendedBuddyPageAllocator
  /-- The blocks returned and not freed since, with their orders. -/
  live : List (Nat × Nat)

inductive Call where
  | alloc (size : UInt64)
  | calloc (size : UInt64)
  /-- Of any page, whether a block starts there or not. -/
  | free (addr : Nat)
  /-- The owner of a live block writes a byte of it. -/
  | store (addr : Nat) (value : UInt8)

inductive Stop where
  | halted (reason : Halt)
  /-- The client passed an address that is not aligned, the table, or wrote
  outside its blocks. -/
  | notAllowed
deriving DecidableEq, Repr

def Holds (session : Session) (addr : Nat) : Prop :=
  ∃ block ∈ session.live, block.1 ≤ addr ∧ addr < block.1 + blockSize block.2

instance (session : Session) (addr : Nat) : Decidable (Holds session addr) :=
  inferInstanceAs (Decidable (∃ block ∈ session.live, _))

def received (session : Session) :
    Except Halt (Option (Nat × Nat) × ExtendedBuddyPageAllocator) → Except Stop Session
  | .error reason => .error (.halted reason)
  | .ok (none, heap) => .ok { session with heap }
  | .ok (some block, heap) => .ok { heap, live := block :: session.live }

def perform (session : Session) : Call → Except Stop Session
  | .alloc size => received session (allocBlock session.heap size.toNat)
  | .calloc size => received session (callocBlock session.heap size.toNat)
  | .free addr =>
      if addr % pageSize = 0 ∧ addr ≠ session.heap.orders then
        match free session.heap addr with
        | .error reason => .error (.halted reason)
        | .ok heap => .ok { heap, live := session.live.filter fun block => block.1 ≠ addr }
      else .error .notAllowed
  | .store addr value =>
      if Holds session addr then
        let bytes := Function.update session.heap.bytes addr value
        .ok { session with heap := withBytes session.heap bytes }
      else .error .notAllowed

end Campix.Memory.ExtendedBuddy
