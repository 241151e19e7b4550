import Campix.Lib.Fallible
import Campix.Lib.TableTree
import Campix.Lib.Word

/-!
# Four-level page tables

A transcription of `Table` and `PageTable` of `paging.rs`. The memory is keyed by
the direct-mapped address of a page and holds its 512 words; a `&mut Table` is
such an address. The page allocator is the trait object of the source: it works
on the same memory, in which it may keep its free list. `None` is `throw ()`, and
what was written before it stays. The `invlpg` that `invalidate` asks for acts on
the TLB, which is not modelled.
-/

namespace Campix.Paging

open Lib.Word

set_option autoImplicit false

def directMappingOffset : Nat := 0xFFFF_A000_0000_0000

def pageSize : Nat := 4096
def pageSize2mb : Nat := 2 * 1024 * 1024

def pagePresent : Nat := 1 <<< 0
def pageRw : Nat := 1 <<< 1
def pageUser : Nat := 1 <<< 2
def pageAccessed : Nat := 1 <<< 5
def pageHuge : Nat := 1 <<< 7
def pageNoExecute : Nat := 1 <<< 63

def addressMask : Nat := 0x000F_FFFF_FFFF_F000

instance neZeroEntries : NeZero 512 := ⟨by decide⟩

abbrev Table := Fin 512 → Nat
abbrev Memory := Nat → Table

structure Machine (σ : Type) where
  mem : Memory
  alloc : σ

abbrev Attempt (σ : Type) := EStateM Unit (Machine σ)

structure PageAllocator (σ : Type) where
  allocPage : Attempt σ Nat
  freePage : Nat → Machine σ → Machine σ

variable {σ : Type}

def alignDown (addr align : Nat) : Nat := addr &&& not64 (align - 1)

def alignUp (addr align : Nat) : Nat := sub64 (add64 addr align) 1 &&& not64 (align - 1)

def index (addr shift : Nat) : Fin 512 :=
  ⟨addr >>> shift &&& 0x1FF, Nat.lt_succ_of_le Nat.and_le_right⟩

/-- The indices into the PML4, the PDPT, the PD and the PT. -/
def splitVirtAddr (addr : Nat) : Fin 512 × Fin 512 × Fin 512 × Fin 512 :=
  (index addr 39, index addr 30, index addr 21, index addr 12)

def readEntry (table : Nat) (idx : Fin 512) : Attempt σ Nat :=
  fun machine => .ok (machine.mem table idx) machine

def Machine.setEntry (machine : Machine σ) (table : Nat) (idx : Fin 512) (word : Nat) : Machine σ :=
  { machine with mem := Lib.TableTree.setEntry machine.mem table idx word }

theorem Machine.mem_set_entry (machine : Machine σ) (table : Nat) (idx : Fin 512) (word : Nat) :
    (machine.setEntry table idx word).mem = Lib.TableTree.setEntry machine.mem table idx word :=
  rfl

def Machine.clear (machine : Machine σ) (table : Nat) : Machine σ :=
  { machine with mem := Function.update machine.mem table fun _ => 0 }

def writeEntry (table : Nat) (idx : Fin 512) (word : Nat) : Attempt σ Unit :=
  fun machine => .ok () (machine.setEntry table idx word)

def writeZeroes (table : Nat) : Attempt σ Unit :=
  fun machine => .ok () (machine.clear table)

/-- The second half of `get_table`, which reads the entry again. -/
def followEntry (table : Nat) (idx : Fin 512) (disallowedFlags : Nat) : Attempt σ Nat := do
  let value ← readEntry table idx
  if value &&& disallowedFlags ≠ 0 then
    throw ()
  else
    return add64 (value &&& addressMask) directMappingOffset

def getTable (addIfEmpty : Bool) (allocator : PageAllocator σ) (table : Nat) (idx : Fin 512)
    (subFlags disallowedFlags : Nat) : Attempt σ Nat := do
  let value ← readEntry table idx
  if value &&& pagePresent = 0 then
    if addIfEmpty then
      let ptr ← allocator.allocPage
      writeZeroes ptr
      writeEntry table idx (sub64 ptr directMappingOffset ||| subFlags)
      followEntry table idx disallowedFlags
    else
      throw ()
  else
    followEntry table idx disallowedFlags

def remove (allocator : PageAllocator σ) (table : Nat) (idx : Fin 512) : Attempt σ Unit := do
  let value ← readEntry table idx
  if value &&& pagePresent ≠ 0 then
    modify (allocator.freePage (add64 (value &&& addressMask) directMappingOffset))
    writeEntry table idx 0
  else
    writeEntry table idx 0

def empty (table : Nat) : Attempt σ Bool :=
  fun machine => .ok (decide (∀ idx, machine.mem table idx = 0)) machine

structure PageTable where
  pml4Phys : Nat
  readonly : Bool
  aligned : pageSize ∣ pml4Phys
  inDirectMapping : pml4Phys + directMappingOffset < 2 ^ 64

theorem first_page_aligned : pageSize ∣ 0x1000 := by decide

theorem first_page_mapped : 0x1000 + directMappingOffset < 2 ^ 64 := by decide

def PageTable.pml4 (table : PageTable) : Nat := add64 table.pml4Phys directMappingOffset

def subFlagsFor (virt : Nat) : Nat :=
  if virt ≥ 0xFFFF_8000_0000_0000 then
    pagePresent ||| pageRw ||| pageAccessed
  else
    pagePresent ||| pageRw ||| pageAccessed ||| pageUser

namespace PageTable

def map4kb (self : PageTable) (allocator : PageAllocator σ) (virt phys flags : Nat) :
    Attempt σ Unit := do
  if self.readonly then
    throw ()
  else
    let (pml4Idx, pdptIdx, pdIdx, ptIdx) := splitVirtAddr virt
    let subFlags := subFlagsFor virt
    let pdpt ← getTable true allocator self.pml4 pml4Idx subFlags 0
    let pd ← getTable true allocator pdpt pdptIdx subFlags 0
    let pt ← getTable true allocator pd pdIdx subFlags pageHuge
    writeEntry pt ptIdx (alignDown phys pageSize ||| flags)

def map2mb (self : PageTable) (allocator : PageAllocator σ) (virt phys flags : Nat) :
    Attempt σ Unit := do
  if self.readonly then
    throw ()
  else
    let (pml4Idx, pdptIdx, pdIdx, _) := splitVirtAddr virt
    let subFlags := subFlagsFor virt
    let pdpt ← getTable true allocator self.pml4 pml4Idx subFlags 0
    let pd ← getTable true allocator pdpt pdptIdx subFlags 0
    writeEntry pd pdIdx (alignDown phys pageSize2mb ||| pageHuge ||| flags)

/-- What both `unmap`s do once a table of the PD or below may have become empty. -/
def pruneUpper (allocator : PageAllocator σ) (pml4 pdpt pd : Nat) (pml4Idx pdptIdx : Fin 512) :
    Attempt σ Unit := do
  if ← empty pd then
    remove allocator pdpt pdptIdx
    if ← empty pdpt then
      remove allocator pml4 pml4Idx

def unmap4kb (self : PageTable) (allocator : PageAllocator σ) (virt : Nat) : Attempt σ Unit := do
  if self.readonly then
    throw ()
  else
    let (pml4Idx, pdptIdx, pdIdx, ptIdx) := splitVirtAddr virt
    let pdpt ← getTable false allocator self.pml4 pml4Idx 0 0
    let pd ← getTable false allocator pdpt pdptIdx 0 0
    let pt ← getTable false allocator pd pdIdx 0 pageHuge
    writeEntry pt ptIdx 0
    if ← empty pt then
      remove allocator pd pdIdx
      pruneUpper allocator self.pml4 pdpt pd pml4Idx pdptIdx

def unmap2mb (self : PageTable) (allocator : PageAllocator σ) (virt : Nat) : Attempt σ Unit := do
  if self.readonly then
    throw ()
  else
    let (pml4Idx, pdptIdx, pdIdx, _) := splitVirtAddr virt
    let pdpt ← getTable false allocator self.pml4 pml4Idx 0 0
    let pd ← getTable false allocator pdpt pdptIdx 0 0
    writeEntry pd pdIdx 0
    pruneUpper allocator self.pml4 pdpt pd pml4Idx pdptIdx

def translate (self : PageTable) (allocator : PageAllocator σ) (virt : Nat) : Attempt σ Nat := do
  let (pml4Idx, pdptIdx, pdIdx, ptIdx) := splitVirtAddr virt
  let pdpt ← getTable false allocator self.pml4 pml4Idx 0 0
  let pd ← getTable false allocator pdpt pdptIdx 0 0
  let pdEntry ← readEntry pd pdIdx
  if pdEntry &&& pagePresent = pagePresent ∧ pdEntry &&& pageHuge = pageHuge then
    return add64 (pdEntry &&& addressMask) (virt % pageSize2mb)
  else
    let pt ← getTable false allocator pd pdIdx 0 pageHuge
    let ptEntry ← readEntry pt ptIdx
    if ptEntry &&& pagePresent = pagePresent then
      return add64 (ptEntry &&& addressMask) (virt % pageSize)
    else
      throw ()

end PageTable

end Campix.Paging
