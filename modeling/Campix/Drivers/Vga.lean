import Campix.Drivers.Vfs
import Campix.Lib.Slice

/-!
# The frame buffer device

`VgaCharDevice` and the calls of `VgaDriver` on one open handle. Both buffers are given
by their bytes from the first one on; what lies behind the back buffer is the memory
there. The numbers of the mode fit `u16`, so that no product of them overflows.
-/

namespace Campix.Drivers.Vga

open Lib.Word Lib.Slice

set_option autoImplicit false

structure VesaModeInfoStructure where
  width : UInt16
  height : UInt16
  pitch : UInt16
  bpp : UInt8
  redPosition : UInt8
  greenPosition : UInt8
  bluePosition : UInt8

structure VgaCharDevice where
  modeInfo : VesaModeInfoStructure
  width : Nat
  height : Nat
  bpp : Nat
  pixelCount : Nat
  size : Nat
  framebuffer : Nat → UInt8
  bytesPerLine : Nat
  frameBufferIsXrgb : Bool
  doubleBufferSize : Nat
  doubleBuffer : Nat → UInt8

def copyNonoverlapping (source : Nat → UInt8) (start : Nat) (target : Nat → UInt8)
    (place count : Nat) :
    Nat → UInt8 :=
  fun addr =>
    if place ≤ addr ∧ addr < place + count then source (start + (addr - place)) else target addr

def poke (memory : Nat → UInt8) (addr : Nat) (bytes : List UInt8) : Nat → UInt8 :=
  copyNonoverlapping (fun place => bytes.getD place 0) 0 memory addr bytes.length

namespace VgaCharDevice

/-- A panic is `none`: a mode with another depth is not supported. What the frame buffer
shows at first is not known. -/
def new (modeInfo : VesaModeInfoStructure) (framebuffer : Nat → UInt8) : Option VgaCharDevice :=
  let width := modeInfo.width.toNat
  let height := modeInfo.height.toNat
  let bpp := modeInfo.bpp.toNat
  if bpp ≠ 32 ∧ bpp ≠ 24 then
    none
  else
    some {
      modeInfo, width, height, bpp
      pixelCount := width * height
      size := width * height * (bpp / 8)
      framebuffer
      bytesPerLine := modeInfo.pitch.toNat
      frameBufferIsXrgb := bpp = 32 ∧ modeInfo.redPosition = 16 ∧ modeInfo.greenPosition = 8 ∧
        modeInfo.bluePosition = 0
      doubleBufferSize := width * height * 4
      doubleBuffer := fun _ => 0 }

def pixel (self : VgaCharDevice) (x y : Nat) : Nat :=
  readLe ((List.range 4).map fun place => self.doubleBuffer ((y * self.width + x) * 4 + place)) 0 4

/-- A shift of a `u32` is by the last five bits of the distance. -/
def shl32 (value distance : Nat) : Nat := value <<< (distance % 32) % 2 ^ 32

def red (pixel : Nat) : Nat := pixel >>> 16 &&& 0xFF

def green (pixel : Nat) : Nat := pixel >>> 8 &&& 0xFF

def blue (pixel : Nat) : Nat := pixel &&& 0xFF

def convertXrgbToCustom (self : VgaCharDevice) (xrgb : Nat) : Nat :=
  shl32 (red xrgb) self.modeInfo.redPosition.toNat |||
    shl32 (green xrgb) self.modeInfo.greenPosition.toNat |||
    shl32 (blue xrgb) self.modeInfo.bluePosition.toNat

/-- The three bytes of a pixel; a position outside of them panics. -/
def reorder (self : VgaCharDevice) (pixel : Nat) : Option (List UInt8) :=
  let rPos := self.modeInfo.redPosition.toNat
  let gPos := self.modeInfo.greenPosition.toNat
  let bPos := self.modeInfo.bluePosition.toNat
  let r := UInt8.ofNat (red pixel)
  let g := UInt8.ofNat (green pixel)
  let b := UInt8.ofNat (blue pixel)
  if rPos = 16 ∧ gPos = 8 ∧ bPos = 0 then
    some [b, g, r]
  else if rPos / 8 < 3 ∧ gPos / 8 < 3 ∧ bPos / 8 < 3 then
    some ((([0, 0, 0].set (rPos / 8) r).set (gPos / 8) g).set (bPos / 8) b)
  else
    none

def copyRow (self : VgaCharDevice) (framebuffer : Nat → UInt8) (y : Nat) : Nat → UInt8 :=
  copyNonoverlapping self.doubleBuffer (y * self.width * 4) framebuffer (y * self.bytesPerLine)
    (self.width * 4)

def convertPixel (self : VgaCharDevice) (y : Nat) (framebuffer : Nat → UInt8) (x : Nat) : Nat →
    UInt8 :=
  poke framebuffer (y * self.bytesPerLine + x * 4)
    (toLe (self.convertXrgbToCustom (self.pixel x y)) 4)

def reorderPixel (self : VgaCharDevice) (y : Nat) (framebuffer : Nat → UInt8) (x : Nat) :
    Option (Nat → UInt8) := do
  let bytes ← self.reorder (self.pixel x y)
  return poke framebuffer (y * self.bytesPerLine + x * 3) bytes

/-- What the frame buffer shows after `swap_buffers`. -/
def swapped (self : VgaCharDevice) : Option (Nat → UInt8) :=
  if self.frameBufferIsXrgb then
    if self.bytesPerLine = self.width * 4 then
      some (copyNonoverlapping self.doubleBuffer 0 self.framebuffer 0 self.size)
    else
      some ((List.range self.height).foldl self.copyRow self.framebuffer)
  else if self.bpp = 32 then
    some ((List.range self.height).foldl (fun framebuffer y =>
      (List.range self.width).foldl (self.convertPixel y) framebuffer) self.framebuffer)
  else
    (List.range self.height).foldlM (fun framebuffer y =>
      (List.range self.width).foldlM (self.reorderPixel y) framebuffer) self.framebuffer

def swapBuffers (self : VgaCharDevice) : Option VgaCharDevice := do
  let framebuffer ← self.swapped
  return { self with framebuffer := framebuffer }

def readChars (self : VgaCharDevice) (offset : Nat) (buf : List UInt8) :
    Except VfsError (Nat × List UInt8) :=
  if offset ≥ self.doubleBufferSize then
    .error .outOfBounds
  else
    let maxRead := min (sub64 self.size offset) buf.length
    .ok (maxRead,
      (List.range maxRead).map (fun place => self.doubleBuffer (offset + place)) ++ buf.drop
        maxRead)

def writeChars (self : VgaCharDevice) (offset : Nat) (buf : List UInt8) :
    Except VfsError (Nat × VgaCharDevice) :=
  if offset ≥ self.doubleBufferSize then
    .error .outOfBounds
  else
    let maxWrite := min (sub64 self.size offset) buf.length
    .ok (maxWrite, { self with doubleBuffer := poke self.doubleBuffer offset (buf.take maxWrite) })

end VgaCharDevice

structure VgaFsFileHandle where
  mode : Nat
  position : Nat

/-- A handle, the device it shares with all others and the size that the driver
remembers. -/
structure Session where
  handle : VgaFsFileHandle
  device : VgaCharDevice
  size : Nat

inductive Failure where
  | error (error : VfsError)
  | panic
  deriving DecidableEq

abbrev Call := EStateM Failure Session

def fseek (position : SeekPosition) : Call Nat := do
  let session ← get
  match fseekHelper position session.handle.position session.size with
  | none => throw (.error .invalidSeekPosition)
  | some moved =>
      set { session with handle := { session.handle with position := moved } }
      return moved

def fread (buf : List UInt8) : Call (Nat × List UInt8) := do
  let session ← get
  if session.handle.mode &&& openModeRead = 0 then
    throw (.error .actionNotAllowed)
  else
    match session.device.readChars session.handle.position buf with
    | .error error => throw (.error error)
    | .ok (bytesRead, buf) =>
        let position := add64 session.handle.position bytesRead
        set { session with handle := { session.handle with position := position } }
        return (bytesRead, buf)

def fwrite (buf : List UInt8) : Call Nat := do
  let session ← get
  if session.handle.mode &&& openModeWrite = 0 then
    throw (.error .actionNotAllowed)
  else
    match session.device.writeChars session.handle.position buf with
    | .error error => throw (.error error)
    | .ok (bytesWritten, device) =>
        let position := add64 session.handle.position bytesWritten
        set { session with handle := { session.handle with position := position }, device := device }
        return bytesWritten

def ftruncate : Call Nat := throw (.error .actionNotAllowed)

def fflush : Call Unit := do
  let session ← get
  match session.device.swapBuffers with
  | none => throw .panic
  | some device => set { session with device := device }

end Campix.Drivers.Vga
