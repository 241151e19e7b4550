import Campix.Drivers.Vfs
import Campix.Lib.Outcome

/-!
# File handles on PATA disks

`fread`, `fwrite`, `fseek`, `ftruncate` and `fflush` of `PataDevfsDriver` on one open
handle, with the controller fields they read and `fseek_helper`. The drive behind the I/O ports is
a parameter. A session also logs every sector passed to `read_sector` and
`write_sector` and the operands of every subtraction. The table of open handles is
left out: it only turns a closed handle into `BadHandle`.
-/

namespace Campix.Drivers.Pata

open Lib.Word

set_option autoImplicit false

inductive PataErrtype where
  | deviceFault
  | deviceBusy
  | timeout
  | badSector
  | unknown
  | noDevice
  deriving Repr, DecidableEq

structure Drive (κ : Type) where
  readSector : Nat → EStateM PataErrtype κ (List UInt8)
  writeSector : Nat → List UInt8 → EStateM PataErrtype κ Unit

instance neZeroWords : NeZero 256 := ⟨by decide⟩

structure PataController where
  identifyData : Fin 256 → UInt16
  generation : Nat

namespace PataController

def words (self : PataController) (start stop : Nat) : List UInt16 :=
  ((List.finRange 256).map self.identifyData).extract start stop

def isPresent (self : PataController) : Bool :=
  if (self.words 0 256).all fun word => word = 0xFFFF ∨ word = 0 then
    false
  else if (self.words 10 20).all fun word => word = 0 then
    false
  else if (self.words 27 47).all fun word => word = 0 ∨ word = 0xFF then
    false
  else
    true

def sectorCount (self : PataController) : Nat :=
  (self.identifyData 61).toNat <<< 16 ||| (self.identifyData 60).toNat

def sizeBytes (self : PataController) : Nat := mul64 self.sectorCount 512

end PataController

/-- The sectors from `start` up to `stop`, which is not included. -/
structure BlockDeviceRange where
  start : Nat
  stop : Nat

structure PataFsFileHandle where
  mode : Nat
  position : Nat
  lastSector : Option Nat
  sectorCache : List UInt8
  generation : Nat
  diskRange : BlockDeviceRange

inductive Event where
  | sector (lba : Nat)
  | subtraction (left right : Nat)
  deriving DecidableEq

structure Session (κ : Type) where
  handle : PataFsFileHandle
  controller : PataController
  drive : κ
  events : List Event

abbrev Call (κ : Type) := EStateM VfsError (Session κ)

variable {κ : Type}

def Session.log (session : Session κ) (event : Event) : Session κ :=
  { session with events := event :: session.events }

def sub (left right : Nat) : Call κ Nat := fun session =>
  .ok (sub64 left right) (session.log (.subtraction left right))

def updateHandle (change : PataFsFileHandle → PataFsFileHandle) : Call κ Unit := fun session =>
  .ok () { session with handle := change session.handle }

def readSector (drive : Drive κ) (sector : Nat) : Call κ Unit := fun session =>
  match drive.readSector sector session.drive with
  | .ok data after =>
      .ok () { session.log (.sector sector) with
        handle := { session.handle with sectorCache := data }, drive := after }
  | .error _ after => .error .driverError { session.log (.sector sector) with drive := after }

def writeSector (drive : Drive κ) (sector : Nat) : Call κ Unit := fun session =>
  match drive.writeSector sector session.handle.sectorCache session.drive with
  | .ok _ after => .ok () { session.log (.sector sector) with drive := after }
  | .error _ after => .error .driverError { session.log (.sector sector) with drive := after }

/-- `target[at..at + data.len()].copy_from_slice(data)` -/
def splice (target : List UInt8) (at_ : Nat) (data : List UInt8) : List UInt8 :=
  target.take at_ ++ data ++ target.drop (at_ + data.length)

def loadSector (drive : Drive κ) (sector : Nat) : Call κ Unit := do
  let session ← get
  if session.handle.lastSector ≠ some sector then
    readSector drive sector
    updateHandle fun handle => { handle with lastSector := some sector }
  else
    pure ()

/-- The `while` loop of `fread`; a round copies at least one byte, so `to_read`
rounds are enough. -/
def freadLoop (drive : Drive κ) (toRead : Nat) :
    Nat → List UInt8 → Nat → Nat → Call κ (Nat × List UInt8)
  | 0, buf, bytesRead, _ => pure (bytesRead, buf)
  | rounds + 1, buf, bytesRead, sector =>
      if bytesRead < toRead then do
        loadSector drive sector
        let handle := (← get).handle
        let sectorOffset := handle.position % 512
        let remainingInSector ← sub 512 sectorOffset
        let remainingToRead ← sub toRead bytesRead
        let toCopy := min remainingInSector remainingToRead
        let position := add64 handle.position toCopy
        updateHandle fun handle => { handle with position := position }
        freadLoop drive toRead rounds
          (splice buf bytesRead ((handle.sectorCache.drop sectorOffset).take toCopy))
          (bytesRead + toCopy) (add64 (position / 512) handle.diskRange.start)
      else
        pure (bytesRead, buf)

def fread (drive : Drive κ) (buf : List UInt8) : Call κ (Nat × List UInt8) := do
  let session ← get
  if ¬session.controller.isPresent then
    throw .pathNotFound
  else if session.handle.mode &&& openModeRead = 0 then
    throw .actionNotAllowed
  else
    let sectors ← sub session.handle.diskRange.stop session.handle.diskRange.start
    let rangeSizeBytes := mul64 sectors 512
    let available ← sub rangeSizeBytes session.handle.position
    let toRead := min buf.length available
    let sector := add64 (session.handle.position / 512) session.handle.diskRange.start
    freadLoop drive toRead toRead buf 0 sector

def readBack (drive : Drive κ) (sector toCopy : Nat) : Call κ Unit :=
  if toCopy ≠ 512 then readSector drive sector else pure ()

def fwriteLoop (drive : Drive κ) (buf : List UInt8) (toWrite : Nat) :
    Nat → Nat → Nat → Call κ Nat
  | 0, bytesWritten, _ => pure bytesWritten
  | rounds + 1, bytesWritten, sector =>
      if bytesWritten < toWrite then do
        let handle := (← get).handle
        let sectorOffset := handle.position % 512
        let remainingInSector ← sub 512 sectorOffset
        let remainingToWrite ← sub toWrite bytesWritten
        let toCopy := min remainingInSector remainingToWrite
        readBack drive sector toCopy
        updateHandle fun handle => { handle with
          lastSector := some sector
          sectorCache := splice handle.sectorCache sectorOffset
            ((buf.drop bytesWritten).take toCopy) }
        writeSector drive sector
        let position := add64 handle.position toCopy
        updateHandle fun handle => { handle with position := position }
        fwriteLoop drive buf toWrite rounds (bytesWritten + toCopy)
          (add64 (position / 512) handle.diskRange.start)
      else
        pure bytesWritten

/-- The check of the open mode is the one for reading. -/
def fwrite (drive : Drive κ) (buf : List UInt8) : Call κ Nat := do
  let session ← get
  if session.handle.mode &&& openModeRead = 0 then
    throw .actionNotAllowed
  else if session.controller.generation ≠ session.handle.generation then
    throw .badHandle
  else if ¬session.controller.isPresent then
    throw .pathNotFound
  else
    let sectors ← sub session.handle.diskRange.stop session.handle.diskRange.start
    let rangeSizeBytes := mul64 sectors 512
    let available ← sub rangeSizeBytes session.handle.position
    let toWrite := min buf.length available
    let sector := add64 (session.handle.position / 512) session.handle.diskRange.start
    fwriteLoop drive buf toWrite toWrite 0 sector

def fseekHelper (seek : SeekPosition) (currentPosition len : Nat) : Call κ (Option Nat) :=
  match seek with
  | .fromStart position =>
      if position > len then pure none else pure (some position)
  | .fromCurrent position =>
      if position < 0 then
        if position.natAbs > currentPosition then
          pure none
        else do
          let moved ← sub currentPosition position.natAbs
          return some moved
      else if currentPosition + position.toNat ≥ 2 ^ 64 ∨
          add64 currentPosition position.toNat > len then
        pure none
      else
        pure (some (add64 currentPosition position.toNat))
  | .fromEnd position =>
      if position > len then
        pure none
      else do
        let moved ← sub len position
        return some moved

def fseek (position : SeekPosition) : Call κ Nat := do
  let session ← get
  if ¬session.controller.isPresent then
    throw .pathNotFound
  else
    let len := session.controller.sizeBytes
    match ← fseekHelper position session.handle.position len with
    | none => throw .invalidSeekPosition
    | some moved =>
        updateHandle fun handle => { handle with position := moved }
        return moved

def ftruncate : Call κ Nat := throw .actionNotAllowed

def fflush : Call κ Unit := do
  let session ← get
  if session.controller.generation ≠ session.handle.generation then
    throw .badHandle

end Campix.Drivers.Pata
