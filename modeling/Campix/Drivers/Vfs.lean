import Campix.Lib.Word

/-!
# Block devices of the VFS

`VfsError`, the open modes, the `BlockDevice` trait and `SubBlockDevice` of
`drivers/vfs.rs`, and `fseek_helper` of `devfs.rs`. A device is a record of the trait's
functions over a state `δ`, which the `Arc<RwLock<..>>` of the source shares between
its users. A read fills the buffer it is given; its length is all that a device looks
at. The value that a `DriverError` carries is only ever printed.
-/

namespace Campix.Drivers

open Lib.Word

set_option autoImplicit false

inductive VfsError where
  | fileSystemMismatch
  | actionNotAllowed
  | pathNotFound
  | readOnly
  | fileSystemNotMounted
  | badBufferSize
  | notDirectory
  | notFile
  | notMountPoint
  | outOfBounds
  | unknownError
  | invalidOpenMode
  | invalidSeekPosition
  | badHandle
  | alreadyMounted
  | outOfSpace
  | invalidArgument
  | maximumSizeReached
  | entryNotFound
  | fileAlreadyExists
  | invalidDataStructure
  | directoryNotEmpty
  | nameTooLong
  | shortRead
  | done
  | wouldBlock
  | brokenPipe
  | driverError
  deriving Repr, DecidableEq

def openModeRead : Nat := 1 <<< 0

def openModeWrite : Nat := 1 <<< 1

def openModeAppend : Nat := 1 <<< 2

def openModeNoResize : Nat := 1 <<< 3

inductive SeekPosition where
  | fromStart (position : Nat)
  | fromCurrent (position : Int)
  | fromEnd (position : Nat)

def fseekHelper (seek : SeekPosition) (currentPosition len : Nat) : Option Nat :=
  match seek with
  | .fromStart position => if position > len then none else some position
  | .fromCurrent position =>
      if position < 0 then
        if position.natAbs > currentPosition then none else some (currentPosition - position.natAbs)
      else if currentPosition + position.toNat ≥ 2 ^ 64 ∨
        currentPosition + position.toNat > len then
        none
      else
        some (currentPosition + position.toNat)
  | .fromEnd position => if position > len then none else some (len - position)

structure BlockDevice (δ : Type) where
  getGeneration : δ → Nat
  getBlockSize : δ → Nat
  getBlockCount : δ → Nat
  readBlock : δ → Nat → List UInt8 → Except VfsError (Nat × List UInt8)
  writeBlock : Nat → List UInt8 → EStateM VfsError δ Nat
  flush : EStateM VfsError δ Unit

structure SubBlockDevice (δ : Type) where
  device : BlockDevice δ
  generation : Nat
  beginBlock : Nat
  endBlock : Nat

namespace SubBlockDevice

variable {δ : Type}

def new (device : BlockDevice δ) (disk : δ) (beginBlock endBlock : Nat) : SubBlockDevice δ where
  device := device
  generation := device.getGeneration disk
  beginBlock := beginBlock
  endBlock := endBlock

def getBlockCount (self : SubBlockDevice δ) : Nat := sub64 self.endBlock self.beginBlock

def readBlock (self : SubBlockDevice δ) (disk : δ) (lba : Nat) (buf : List UInt8) :
    Except VfsError (Nat × List UInt8) :=
  if lba ≥ self.getBlockCount then
    .error .outOfBounds
  else
    self.device.readBlock disk lba buf

def writeBlock (self : SubBlockDevice δ) (lba : Nat) (buf : List UInt8) : EStateM VfsError δ Nat :=
  fun disk =>
    if lba ≥ self.getBlockCount then
      .error .outOfBounds disk
    else if self.device.getGeneration disk ≠ self.generation then
      .error .actionNotAllowed disk
    else
      self.device.writeBlock lba buf disk

def flush (self : SubBlockDevice δ) : EStateM VfsError δ Unit := self.device.flush

def asBlockDevice (self : SubBlockDevice δ) : BlockDevice δ where
  getGeneration _ := self.generation
  getBlockSize := self.device.getBlockSize
  getBlockCount _ := self.getBlockCount
  readBlock := self.readBlock
  writeBlock := self.writeBlock
  flush := self.flush

end SubBlockDevice

end Campix.Drivers
