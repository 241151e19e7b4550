import Campix.Paging.PageTable

/-!
# The layout of the virtual address space

`get_address_space` and the bounds of `process/memory.rs`.
-/

namespace Campix.Process

open Paging

set_option autoImplicit false

inductive HigherHalfAddressSpace where
  | globalKernelMappedCode
  | globalKernelStack
  | globalDirectMemoryMapping
  | globalMemoryMappedIo
  | processKernelStack
  | none

inductive LowerHalfAddressSpace where
  | processStack
  | processCode
  | processHeap
  | none

inductive VirtualAddressSpace where
  | higherHalf (space : HigherHalfAddressSpace)
  | lowerHalf (space : LowerHalfAddressSpace)

def procKernelStackTop : Nat := 0xFFFF_D000_0000_0000
def globKernelMmioTop : Nat := 0xFFFF_C000_0000_0000
def globKernelDirectMappedTop : Nat := directMappingOffset + 0x0000_1000_0000_0000
def globKernelStackTop : Nat := 0xFFFF_A000_0000_0000
def globKernelCodeTop : Nat := 0xFFFF_9000_0000_0000
def higherHalfBegin : Nat := 0xFFFF_8000_0000_0000
def lowerHalfEnd : Nat := 0x0000_8000_0000_0000
def lowerHalfSafeguardEnd : Nat := 0x0000_1000_0000_0000
def procUserStackTop : Nat := 0x0000_2000_0000_0000
def procMappedCodeTop : Nat := 0x0000_3000_0000_0000
def procHeapTop : Nat := 0x0000_4000_0000_0000

def getAddressSpace (addr : Nat) : Option VirtualAddressSpace :=
  if addr ≥ higherHalfBegin then
    if addr < globKernelCodeTop then some (.higherHalf .globalKernelMappedCode)
    else if addr < globKernelStackTop then some (.higherHalf .globalKernelStack)
    else if addr < globKernelDirectMappedTop then some (.higherHalf .globalDirectMemoryMapping)
    else if addr < globKernelMmioTop then some (.higherHalf .globalMemoryMappedIo)
    else if addr < procKernelStackTop then some (.higherHalf .processKernelStack)
    else some (.higherHalf .none)
  else if addr < lowerHalfEnd then
    if addr < lowerHalfSafeguardEnd then some (.lowerHalf .none)
    else if addr < procUserStackTop then some (.lowerHalf .processStack)
    else if addr < procMappedCodeTop then some (.lowerHalf .processCode)
    else if addr < procHeapTop then some (.lowerHalf .processHeap)
    else some (.lowerHalf .none)
  else
    none

end Campix.Process
