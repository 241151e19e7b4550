import Campix.Lib.Word
import Campix.Lib.Run

/-!
# The buddy page allocator

A direct transcription of `memory/buddy_alloc.rs`. Free blocks carry their own
list node: `FreeBlock` is the header written at the first bytes of a free
block, so the managed memory is part of the state. Addresses and counters are
64-bit words and wrap as in a release build. An `assert!`, an index past the
end of `free_lists` and a loop that never ends are the ways a call can fail to
return; they are the values of `Halt`.
-/

namespace Campix.Memory.BuddyAlloc

open Lib.Word

set_option autoImplicit false

def pageSize : Nat := 4096

def maxOrder : Nat := 28

def blockSize (order : Nat) : Nat := pageSize * 2 ^ order

structure FreeBlock where
  next : Option Nat
  order : Nat
deriving DecidableEq, Repr

structure BuddyPageAllocator where
  baseAddr : Nat
  pageCount : Nat
  freeLists : Nat → Option Nat
  allocatedPages : Nat
  /-- The headers found at the block addresses of the managed memory. -/
  mem : Nat → FreeBlock

inductive Halt where
  /-- `assert!` in `new` -/
  | badRegion
  /-- `assert_eq!` in `add_free_block` -/
  | unalignedBlock
  /-- `assert_eq!` in `consume` -/
  | orderMismatch
  /-- `free_lists[order]` with `order > MAX_ORDER` -/
  | orderIndex
  /-- the loop has no exit -/
  | diverges
deriving DecidableEq, Repr

/-- `NonNull::new`. -/
def nonNull (addr : Nat) : Option Nat :=
  if addr = 0 then none else some addr

/-- `total_size` doubles as a 64-bit word: past `2^63` it becomes zero and the
loop never ends, which is what running out of `fuel` stands for. -/
def requiredOrderLoop (numPages : Nat) : Nat → Nat → Nat → Except Halt Nat
  | 0, _, _ => .error .diverges
  | fuel + 1, totalSize, order =>
      if totalSize < numPages then
        requiredOrderLoop numPages fuel (mul64 totalSize 2) (order + 1)
      else .ok order

def requiredOrder (numPages : Nat) : Except Halt Nat :=
  requiredOrderLoop numPages 65 1 0

def findBuddy (addr order : Nat) : Nat :=
  addr ^^^ blockSize order

/-- One round of the loop of `init`; the second component is `curr_page`. -/
def initRound (state : BuddyPageAllocator × Nat) (order : Nat) : BuddyPageAllocator × Nat :=
  if sub64 state.1.pageCount state.2 < 2 ^ order then state
  else
    let freeBlock := add64 state.1.baseAddr (mul64 state.2 pageSize)
    ({ state.1 with
        mem := Function.update state.1.mem freeBlock { next := none, order := order }
        freeLists := Function.update state.1.freeLists order (nonNull freeBlock) },
      add64 state.2 (2 ^ order))

def init (alloc : BuddyPageAllocator) : BuddyPageAllocator :=
  ((List.range (maxOrder + 1)).reverse.foldl initRound (alloc, 0)).1

def new (mem : Nat → FreeBlock) (baseAddr pageCount : Nat) : Except Halt BuddyPageAllocator :=
  if baseAddr % pageSize = 0 ∧ 0 < pageCount then
    .ok (init { baseAddr, pageCount, freeLists := fun _ => none, allocatedPages := 0, mem })
  else .error .badRegion

def addFreeBlock (alloc : BuddyPageAllocator) (addr order : Nat) :
    Except Halt BuddyPageAllocator :=
  if sub64 addr alloc.baseAddr % blockSize order ≠ 0 then .error .unalignedBlock
  else if maxOrder < order then .error .orderIndex
  else .ok { alloc with
    mem := Function.update alloc.mem addr { next := alloc.freeLists order, order := order }
    freeLists := Function.update alloc.freeLists order (nonNull addr) }

def consume (alloc : BuddyPageAllocator) (order : Nat) :
    Except Halt (Option Nat × BuddyPageAllocator) :=
  if maxOrder < order then .error .orderIndex
  else match alloc.freeLists order with
    | none => .ok (none, alloc)
    | some block =>
        if order ≠ (alloc.mem block).order then .error .orderMismatch
        else .ok (some block, { alloc with
          freeLists := Function.update alloc.freeLists order (alloc.mem block).next })

/-- The search of `alloc` for a non-empty list, with `remaining` orders left. -/
def searchOrder (freeLists : Nat → Option Nat) : Nat → Nat → Nat
  | 0, currentOrder => currentOrder
  | remaining + 1, currentOrder =>
      if (freeLists currentOrder).isNone then
        searchOrder freeLists remaining (currentOrder + 1)
      else currentOrder

def splitLoop (order : Nat) : Nat → BuddyPageAllocator → Except Halt BuddyPageAllocator
  | 0, alloc => .ok alloc
  | levels + 1, alloc => do
      let currentOrder := order + levels + 1
      let (block, alloc) ← consume alloc currentOrder
      match block with
      | none => splitLoop order levels alloc
      | some blockAddr =>
          let halfSize := blockSize (currentOrder - 1)
          let buddy2 := add64 blockAddr halfSize
          let alloc ← addFreeBlock alloc buddy2 (currentOrder - 1)
          let alloc ← addFreeBlock alloc blockAddr (currentOrder - 1)
          splitLoop order levels alloc

def allocPages (alloc : BuddyPageAllocator) (numPages : Nat) :
    Except Halt (Option (Nat × Nat) × BuddyPageAllocator) := do
  if numPages = 0 then return (none, alloc)
  let order ← requiredOrder numPages
  if maxOrder < order then return (none, alloc)
  let currentOrder := searchOrder alloc.freeLists (maxOrder + 1 - order) order
  if maxOrder < currentOrder then return (none, alloc)
  let alloc ← splitLoop order (currentOrder - order) alloc
  let (block, alloc) ← consume alloc order
  match block with
  | none => return (none, alloc)
  | some blockAddr =>
      return (some (blockAddr, order),
        { alloc with allocatedPages := add64 alloc.allocatedPages (2 ^ order) })

/-- The place a `&mut Option<NonNull<FreeBlock>>` points to: the head of the
list or the `next` field of a block. -/
inductive Slot where
  | head
  | nextOf (block : Nat)

def readSlot (alloc : BuddyPageAllocator) (order : Nat) : Slot → Option Nat
  | .head => alloc.freeLists order
  | .nextOf block => (alloc.mem block).next

def writeSlot (alloc : BuddyPageAllocator) (order : Nat) (slot : Slot) (value : Option Nat) :
    BuddyPageAllocator :=
  match slot with
  | .head => { alloc with freeLists := Function.update alloc.freeLists order value }
  | .nextOf block => { alloc with
      mem := Function.update alloc.mem block { alloc.mem block with next := value } }

def removeLoop (addr order : Nat) : Nat → Slot → BuddyPageAllocator →
    Except Halt (Bool × BuddyPageAllocator)
  | 0, _, _ => .error .diverges
  | fuel + 1, current, alloc =>
      match readSlot alloc order current with
      | none => .ok (false, alloc)
      | some block =>
          if block = addr then
            -- `*current = block.as_mut().next.take()`
            let rest := (alloc.mem block).next
            let taken := writeSlot alloc order (.nextOf block) none
            .ok (true, writeSlot taken order current rest)
          else removeLoop addr order fuel (.nextOf block) alloc

/-- A free list holds distinct blocks, so `page_count + 1` rounds are enough
for a list that ends. -/
def removeFreeBlock (alloc : BuddyPageAllocator) (addr order : Nat) :
    Except Halt (Bool × BuddyPageAllocator) :=
  if maxOrder < order then .error .orderIndex
  else removeLoop addr order (alloc.pageCount + 1) .head alloc

/-- The loop of `free`, with `remaining` orders left before `MAX_ORDER` is passed. -/
def freeLoop : Nat → Nat → Nat → BuddyPageAllocator → Except Halt BuddyPageAllocator
  | 0, _, _, alloc => .ok alloc
  | remaining + 1, addr, order, alloc => do
      let buddyAddr := add64 (findBuddy (sub64 addr alloc.baseAddr) order) alloc.baseAddr
      let (found, alloc) ← removeFreeBlock alloc buddyAddr order
      if found then freeLoop remaining (min addr buddyAddr) (order + 1) alloc
      else addFreeBlock alloc addr order

def free (alloc : BuddyPageAllocator) (addr order : Nat) : Except Halt BuddyPageAllocator :=
  let alloc := { alloc with allocatedPages := sub64 alloc.allocatedPages (2 ^ order) }
  if maxOrder < order then .error .orderIndex
  else freeLoop (maxOrder + 1 - order) addr order alloc

/-- A client run keeps, besides the allocator, the blocks it holds. -/
structure Session where
  alloc : BuddyPageAllocator
  live : List (Nat × Nat)

inductive Call where
  | alloc (numPages : Nat)
  | free (addr order : Nat)
  /-- The owner of a live block overwrites one of its pages. -/
  | store (page : Nat) (bytes : FreeBlock)

inductive Stop where
  | halted (reason : Halt)
  /-- The client passed a block it does not hold. -/
  | notHeld
deriving DecidableEq, Repr

def Holds (session : Session) (page : Nat) : Prop :=
  ∃ block ∈ session.live, block.1 ≤ page ∧ page < block.1 + blockSize block.2

instance (session : Session) (page : Nat) : Decidable (Holds session page) :=
  inferInstanceAs (Decidable (∃ block ∈ session.live, _))

def perform (session : Session) : Call → Except Stop Session
  | .alloc numPages =>
      match allocPages session.alloc numPages with
      | .error reason => .error (.halted reason)
      | .ok (none, alloc) => .ok { session with alloc }
      | .ok (some block, alloc) => .ok { alloc, live := block :: session.live }
  | .free addr order =>
      if (addr, order) ∈ session.live then
        match free session.alloc addr order with
        | .error reason => .error (.halted reason)
        | .ok alloc => .ok { alloc, live := session.live.erase (addr, order) }
      else .error .notHeld
  | .store page bytes =>
      if Holds session page then
        .ok { session with alloc := { session.alloc with
          mem := Function.update session.alloc.mem page bytes } }
      else .error .notHeld

end Campix.Memory.BuddyAlloc
