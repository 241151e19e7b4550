import Campix.Paging.PageTable

/-!
# Iterating over the mapped pages of a range

`PageTableIter` of `paging.rs`. One round of its loop looks at the tables at the
current position and yields a page, moves on or stops. The rounds are bounded by a
parameter, because from some positions the source never returns: `None` is a call
that has not returned yet.
-/

namespace Campix.Paging

open Lib.Word

set_option autoImplicit false

variable {σ : Type}

def joinVirtAddr (pml4 pdpt pd pt offset : Nat) : Nat :=
  let addr := pml4 <<< 39 ||| pdpt <<< 30 ||| pd <<< 21 ||| pt <<< 12 ||| offset &&& 0xFFF
  if addr &&& 1 <<< 47 ≠ 0 then addr ||| 0xFFFF_0000_0000_0000 else addr

inductive PageSize where
  | kb4
  | mb2
  | gb1
  deriving DecidableEq

structure PageTableEntry where
  virt : Nat
  phys : Nat
  pageSize : PageSize

inductive Round where
  | stop
  | skip (position : Nat)
  | found (entry : PageTableEntry) (position : Nat)

def Machine.tableBelow (machine : Machine σ) (alloc : PageAllocator σ) (table : Nat) (idx : Fin 512)
    (disallowedFlags : Nat) : Option Nat :=
  match getTable false alloc table idx 0 disallowedFlags machine with
  | .ok next _ => some next
  | .error _ _ => none

def PageTable.iterRound (self : PageTable) (alloc : PageAllocator σ) (machine : Machine σ)
    (position : Nat) : Round :=
  if position ≥ 0x0000_8000_0000_0000 ∧ position < 0xFFFF_8000_0000_0000 then
    .skip 0xFFFF_8000_0000_0000
  else
    let (pml4Idx, pdptIdx, pdIdx, ptIdx) := splitVirtAddr position
    match machine.tableBelow alloc self.pml4 pml4Idx 0 with
    | none =>
        let nextPml4Idx := pml4Idx.val + 1
        if nextPml4Idx ≥ 512 then .stop else .skip (joinVirtAddr nextPml4Idx 0 0 0 0)
    | some pdpt =>
    match machine.tableBelow alloc pdpt pdptIdx 0 with
    | none =>
        let (nextPml4Idx, nextPdptIdx) :=
          if pdptIdx.val ≥ 512 then (pml4Idx.val + 1, 0) else (pml4Idx.val, pdptIdx.val + 1)
        .skip (joinVirtAddr nextPml4Idx nextPdptIdx 0 0 0)
    | some pd =>
    let pdEntry := machine.mem pd pdIdx
    if pdEntry &&& pagePresent = pagePresent ∧ pdEntry &&& pageHuge = pageHuge then
      .found ⟨position, pdEntry &&& addressMask, .mb2⟩ (add64 position pageSize2mb)
    else
    match machine.tableBelow alloc pd pdIdx pageHuge with
    | none =>
        let (nextPdptIdx, nextPdIdx) :=
          if pdIdx.val + 1 ≥ 512 then (pdptIdx.val + 1, 0) else (pdptIdx.val, pdIdx.val + 1)
        let (nextPml4Idx, nextPdptIdx) :=
          if nextPdptIdx ≥ 512 then (pml4Idx.val + 1, 0) else (pml4Idx.val, nextPdptIdx)
        .skip (joinVirtAddr nextPml4Idx nextPdptIdx nextPdIdx 0 0)
    | some pt =>
    let ptEntry := machine.mem pt ptIdx
    if ptEntry &&& pagePresent = pagePresent then
      .found ⟨position, ptEntry &&& addressMask, .kb4⟩ (add64 position pageSize)
    else
      .skip (add64 position pageSize)

structure PageTableIter where
  position : Nat
  endExclusive : Nat

def PageTable.iterRange (_self : PageTable) (beginInclusive endExclusive : Nat) : PageTableIter :=
  ⟨beginInclusive, endExclusive⟩

def PageTable.next (self : PageTable) (alloc : PageAllocator σ) (machine : Machine σ) :
    Nat → PageTableIter → Option (Option PageTableEntry × PageTableIter)
  | 0, _ => none
  | rounds + 1, iter =>
      if iter.position < iter.endExclusive then
        match self.iterRound alloc machine iter.position with
        | .stop => some (none, iter)
        | .skip position => self.next alloc machine rounds { iter with position := position }
        | .found entry position => some (some entry, { iter with position := position })
      else
        some (none, iter)

end Campix.Paging
