import Campix.Drivers.Vga

/-!
# Accesses to the back buffer

The back buffer has four bytes for each pixel, whatever the mode. `size` counts the bytes of the
frame buffer, three or four for each pixel, and `pixel_count` the pixels; the accesses to the back
buffer are checked against one or another of the three numbers. This module tells which accesses
stay inside.
-/

namespace Campix.Drivers.Vga

open Lib.Word Lib.Slice

set_option autoImplicit false

namespace VgaCharDevice

/-- The pixel of the back buffer that `read_pixel_at_offset` reads. -/
def readPlace (self : VgaCharDevice) (offset : Nat) : Option Nat :=
  if offset ≥ self.size then none else some offset

def readPixelAtOffset (self : VgaCharDevice) (offset : Nat) : Nat :=
  match self.readPlace offset with
  | none => 0
  | some place => readLe ((List.range 4).map fun byte => self.doubleBuffer (place * 4 + byte)) 0 4

/-- The pixel of the back buffer that `write_pixel_at_offset` writes. -/
def writePlace (self : VgaCharDevice) (offset : Nat) : Option Nat :=
  if offset < self.pixelCount then some offset else none

def writePixelAtOffset (self : VgaCharDevice) (offset color : Nat) : VgaCharDevice :=
  match self.writePlace offset with
  | none => self
  | some place => { self with doubleBuffer := poke self.doubleBuffer (place * 4) (toLe color 4) }

/-- `self.size - offset` is computed although it is less than nothing. -/
def Underflows (self : VgaCharDevice) (offset : Nat) : Prop :=
  offset < self.doubleBufferSize ∧ self.size < offset

/-- Reads and writes of this buffer at this offset copy bytes of the back buffer only, and the
byte at the offset if it is one of them. -/
structure CharsInside (device : VgaCharDevice) (offset : Nat) (buf : List UInt8) : Prop where
  computed : ¬device.Underflows offset
  read_inside : ∀ {count after}, device.readChars offset buf = .ok (count, after) →
    offset + count ≤ device.doubleBufferSize
  write_inside : ∀ {count after}, device.writeChars offset buf = .ok (count, after) →
    offset + count ≤ device.doubleBufferSize
  read_reaches : offset < device.doubleBufferSize → buf ≠ [] →
    ∃ count after, device.readChars offset buf = .ok (count, after) ∧ 0 < count
  write_reaches : offset < device.doubleBufferSize → buf ≠ [] →
    ∃ count after, device.writeChars offset buf = .ok (count, after) ∧ 0 < count

structure PixelInside (device : VgaCharDevice) (offset : Nat) : Prop where
  read_inside : ∀ place, device.readPlace offset = some place → place < device.width * device.height
  write_inside : ∀ place, device.writePlace offset = some place →
    place < device.width * device.height

structure Sized (device : VgaCharDevice) : Prop where
  pixels : device.pixelCount = device.width * device.height
  covered : device.pixelCount ≤ device.size
  fits : device.size ≤ device.doubleBufferSize

variable {device : VgaCharDevice} {offset : Nat} {buf : List UInt8}

theorem sized_new {modeInfo : VesaModeInfoStructure} {framebuffer : Nat → UInt8}
    (supported : new modeInfo framebuffer = some device) : device.Sized := by
  unfold new at supported
  dsimp only at supported
  split_ifs at supported with unsupported
  obtain rfl := Option.some.inj supported
  have depth : modeInfo.bpp.toNat / 8 = 4 ∨ modeInfo.bpp.toNat / 8 = 3 := by omega
  refine ⟨rfl, ?_, ?_⟩
  · rcases depth with deep | deep
    · simp only [deep]
      omega
    · simp only [deep]
      omega
  · rcases depth with deep | deep
    · simp only [deep]
      omega
    · simp only [deep]
      omega

theorem read_chars_eq (inside : offset < device.doubleBufferSize) (buf : List UInt8) :
    ∃ after, device.readChars offset buf = .ok
      (min (sub64 device.size offset) buf.length, after) := by
  rw [readChars, if_neg (by omega)]
  exact ⟨_, rfl⟩

theorem write_chars_eq (inside : offset < device.doubleBufferSize) (buf : List UInt8) :
    ∃ after, device.writeChars offset buf = .ok
      (min (sub64 device.size offset) buf.length, after) := by
  rw [writeChars, if_neg (by omega)]
  exact ⟨_, rfl⟩

theorem read_chars_beyond (beyond : device.doubleBufferSize ≤ offset) :
    device.readChars offset buf = .error .outOfBounds := by
  rw [readChars, if_pos beyond]

theorem write_chars_beyond (beyond : device.doubleBufferSize ≤ offset) :
    device.writeChars offset buf = .error .outOfBounds := by
  rw [writeChars, if_pos beyond]

theorem chars_inside_beyond (beyond : device.doubleBufferSize ≤ offset) :
    device.CharsInside offset buf where
  computed under := absurd under.1 (by omega)
  read_inside given := by
    rw [read_chars_beyond beyond] at given
    cases given
  write_inside given := by
    rw [write_chars_beyond beyond] at given
    cases given
  read_reaches inside := by omega
  write_reaches inside := by omega

/-- Behind `size` there is no room left; at `size` itself nothing is copied. -/
theorem chars_inside_up_to_size (sized : device.Sized) (reached : offset ≤ device.size)
    (below : buf ≠ [] → offset < device.size) : device.CharsInside offset buf := by
  have fits := sized.fits
  by_cases inside : offset < device.doubleBufferSize
  · have room : sub64 device.size offset = device.size - offset := sub64_of_le reached
    obtain ⟨readAfter, read⟩ := read_chars_eq inside buf
    obtain ⟨writeAfter, write⟩ := write_chars_eq inside buf
    rw [room] at read write
    have within : offset + min (device.size - offset)
        buf.length ≤ device.doubleBufferSize := by omega
    have copies : buf ≠ [] → 0 < min (device.size - offset) buf.length := by
      intro filled
      have length := List.length_pos_of_ne_nil filled
      have before := below filled
      omega
    refine ⟨fun under => absurd under.2 (by omega), ?_, ?_, ?_, ?_⟩
    · intro count after given
      rw [read] at given
      cases given
      exact within
    · intro count after given
      rw [write] at given
      cases given
      exact within
    · exact fun _ filled => ⟨_, _, read, copies filled⟩
    · exact fun _ filled => ⟨_, _, write, copies filled⟩
  · exact chars_inside_beyond (by omega)

theorem chars_inside_iff (sized : device.Sized) (offset : Nat) (buf : List UInt8) :
    device.CharsInside offset buf ↔
      offset < device.size ∨ device.doubleBufferSize ≤ offset ∨
        (offset = device.size ∧ buf = []) := by
  constructor
  · intro chars
    by_contra outside
    rw [not_or, not_or, not_and] at outside
    obtain ⟨notBelow, notBeyond, notEmpty⟩ := outside
    have inside : offset < device.doubleBufferSize := by omega
    by_cases edge : offset = device.size
    · obtain ⟨count, after, read, positive⟩ := chars.read_reaches inside (notEmpty edge)
      obtain ⟨other, result⟩ := read_chars_eq inside buf
      rw [result, Except.ok.injEq, Prod.mk.injEq, sub64_of_le (by omega)] at read
      omega
    · exact chars.computed ⟨inside, by omega⟩
  · rintro (below | beyond | ⟨edge, empty⟩)
    · exact chars_inside_up_to_size sized (by omega) fun _ => below
    · exact chars_inside_beyond beyond
    · exact chars_inside_up_to_size sized (by omega) fun filled => absurd empty filled

theorem pixel_inside_iff (sized : device.Sized) (offset : Nat) :
    device.PixelInside offset ↔ offset < device.pixelCount ∨ device.size ≤ offset := by
  have covered := sized.covered
  constructor
  · intro pixel
    by_contra outside
    rw [not_or] at outside
    have read : device.readPlace offset = some offset := by
      rw [readPlace, if_neg outside.2]
    have inside := pixel.read_inside offset read
    rw [← sized.pixels] at inside
    exact outside.1 inside
  · intro place
    refine ⟨?_, ?_⟩
    · intro pixel read
      unfold readPlace at read
      split_ifs at read with refused
      cases read
      have small := place.resolve_right refused
      rwa [sized.pixels] at small
    · intro pixel write
      unfold writePlace at write
      split_ifs at write with small
      cases write
      rwa [sized.pixels] at small

/-- `size` is not the size of the back buffer, nor is it the number of its pixels. -/
theorem frame_access_inside_iff (modeInfo : VesaModeInfoStructure)
    (framebuffer memory : Nat → UInt8)
    (made : VgaCharDevice) (supported : new modeInfo framebuffer = some made) (offset place : Nat)
    (buf : List UInt8) :
    let device := { made with doubleBuffer := memory }
    device.CharsInside offset buf ∧ device.PixelInside place ↔
      (offset < device.size ∨ device.doubleBufferSize ≤ offset ∨
        (offset = device.size ∧ buf = [])) ∧
        (place < device.pixelCount ∨ device.size ≤ place) := by
  intro device
  have fresh := sized_new supported
  have sized : device.Sized := ⟨fresh.pixels, fresh.covered, fresh.fits⟩
  exact and_congr (chars_inside_iff sized offset buf) (pixel_inside_iff sized place)

def shortLine : VesaModeInfoStructure where
  width := 2
  height := 1
  pitch := 6
  bpp := 24
  redPosition := 16
  greenPosition := 8
  bluePosition := 0

theorem first_pixel_accessed :
    ∃ made, new shortLine (fun _ => 0) = some made ∧
      (let device := { made with doubleBuffer := fun _ => 0 }
       device.CharsInside 0 [1] ∧ device.PixelInside 0 ↔
        (0 < device.size ∨ device.doubleBufferSize ≤ 0 ∨ (0 = device.size ∧ [(1 : UInt8)] = [])) ∧
          (0 < device.pixelCount ∨ device.size ≤ 0)) :=
  ⟨_, rfl, frame_access_inside_iff shortLine (fun _ => 0) (fun _ => 0) _ rfl 0 0 [1]⟩

/-- A read at the seventh of eight bytes takes all four bytes of the buffer from there, and the
pixel behind the second one is read. -/
theorem short_line_read_beyond :
    ∃ device, new shortLine (fun _ => 0) = some device ∧ device.doubleBufferSize = 8 ∧
      (∃ after, device.readChars 7 [0, 0, 0, 0] = .ok (4, after)) ∧
        ¬device.CharsInside 7 [0, 0, 0, 0] ∧
      device.readPlace 2 = some 2 ∧ ¬device.PixelInside 2 := by
  refine ⟨_, rfl, rfl, ⟨_, rfl⟩, ?_, rfl, ?_⟩
  · intro chars
    exact chars.computed ⟨by decide, by decide⟩
  · intro pixel
    exact absurd (pixel.read_inside 2 rfl) (by decide)

end VgaCharDevice

end Campix.Drivers.Vga
