import Campix.Drivers.Vfs
import Campix.Lib.Blocks
import Campix.Lib.Fallible
import Mathlib.Data.List.TakeDrop
import Mathlib.Logic.Function.Basic

/-!
# A block device read and written as bytes

`BlockDeviceAsCharacterDevice` of `drivers/vfs.rs`. Both loops go block by block through the
range that is asked for. A block that is written in part only is read first and written back with
the part in it; a block that is written whole is not read. An index out of range and a division by
zero are panics. Each round moves at least one byte, so there are at most as many rounds as bytes.
-/

namespace Campix.Drivers.ByteAccess

open Lib.Word Lib.Slice Lib.Blocks Lib.Fallible

set_option autoImplicit false

inductive Stop where
  | failed (error : VfsError)
  | panic
  deriving Repr, DecidableEq

variable {δ : Type}

/-- A call that changes the device, from a caller that can also panic. -/
def onDevice {Value : Type} (call : EStateM VfsError δ Value) : EStateM Stop δ Value := fun disk =>
  match call disk with
  | .ok value after => .ok value after
  | .error error after => .error (.failed error) after

/-- A call that only reads, made while a buffer is being filled. -/
def reading {State Value : Type} (call : Except VfsError Value) : EStateM Stop State Value :=
  fun state =>
    match call with
    | .ok value => .ok value state
    | .error error => .error (.failed error) state

def orPanic {State Value : Type} (value : Option Value) : EStateM Stop State Value := fun state =>
  match value with
  | some value => .ok value state
  | none => .error .panic state

/-- `buf[begin..end].copy_from_slice(source)` on the buffer of the caller. -/
def copyInto (begin_ end_ : Nat) (source : List UInt8) : EStateM Stop (List UInt8) Unit :=
  fun buf =>
    match copyFromSlice buf begin_ end_ source with
    | some buf => .ok () buf
    | none => .error .panic buf

namespace BlockDeviceAsCharacterDevice

variable (device : BlockDevice δ)

def getSize (disk : δ) : Nat := mul64 (device.getBlockCount disk) (device.getBlockSize disk)

def readRounds (disk : δ) (toRead blockSize : Nat) :
    Nat → Nat → Nat → List UInt8 → EStateM Stop (List UInt8) Nat
  | 0, read, _, _ => return read
  | rounds + 1, read, offset, block =>
      if read < toRead then
        if device.getBlockSize disk = 0 then
          throw .panic
        else do
          let lba := offset / device.getBlockSize disk
          let pos := offset % device.getBlockSize disk
          let toReadSector := min (toRead - read) (sub64 blockSize pos)
          let (_, block) ← reading (device.readBlock disk lba block)
          let part ← orPanic (getSlice block pos (pos + toReadSector))
          copyInto read (read + toReadSector) part
          readRounds disk toRead blockSize rounds (read + toReadSector) (add64 offset toReadSector)
            block
      else
        return read

def readChars (disk : δ) (offset : Nat) : EStateM Stop (List UInt8) Nat := fun buf =>
  let toRead := min buf.length (sub64 (getSize device disk) offset)
  let blockSize := device.getBlockSize disk
  readRounds device disk toRead blockSize toRead 0 offset (List.replicate blockSize 0) buf

def writeRounds (buf : List UInt8) (toWrite blockSize : Nat) :
    Nat → Nat → Nat → List UInt8 → EStateM Stop δ Nat
  | 0, write, _, _ => return write
  | rounds + 1, write, offset, block =>
      if write < toWrite then do
        let disk ← get
        if device.getBlockSize disk = 0 then
          throw .panic
        else
          let lba := offset / device.getBlockSize disk
          let pos := offset % device.getBlockSize disk
          let toWriteSector := min (toWrite - write) (sub64 blockSize pos)
          if toWriteSector ≠ blockSize then
            let (_, block) ← reading (device.readBlock disk lba block)
            let part ← orPanic (getSlice buf write (write + toWriteSector))
            let block ← orPanic (copyFromSlice block pos (pos + toWriteSector) part)
            let _ ← onDevice (device.writeBlock lba block)
            writeRounds buf toWrite blockSize rounds (write + toWriteSector)
              (add64 offset toWriteSector) block
          else
            let part ← orPanic (getSlice buf write (write + toWriteSector))
            let _ ← onDevice (device.writeBlock lba part)
            writeRounds buf toWrite blockSize rounds (write + toWriteSector)
              (add64 offset toWriteSector) block
      else
        return write

def writeChars (offset : Nat) (buf : List UInt8) : EStateM Stop δ Nat := fun disk =>
  let toWrite := min buf.length (sub64 (getSize device disk) offset)
  let blockSize := device.getBlockSize disk
  writeRounds device buf toWrite blockSize toWrite 0 offset (List.replicate blockSize 0) disk

end BlockDeviceAsCharacterDevice

section Calls

variable {State Value : Type}

theorem reading_ok {call : Except VfsError Value} {value : Value} (answer : call = .ok value)
    (state : State) : reading call state = .ok value state := by
  subst answer
  rfl

theorem or_panic_some {option : Option Value} {value : Value} (present : option = some value)
    (state : State) : orPanic option state = .ok value state := by
  subst present
  rfl

theorem on_device_ok {call : EStateM VfsError δ Value} {value : Value} {disk after : δ}
    (answer : call disk = .ok value after) : onDevice call disk = .ok value after := by
  rw [onDevice, answer]

end Calls

/-- `block` is what the device holds. A call gets a buffer of the size of a block. -/
structure Serviceable (device : BlockDevice δ) (block : δ → Nat → List UInt8) : Prop where
  sized : ∀ disk lba, (block disk lba).length = device.getBlockSize disk
  reads : ∀ disk lba (buf : List UInt8), lba < device.getBlockCount disk →
    buf.length = device.getBlockSize disk →
    ∃ count, device.readBlock disk lba buf = .ok (count, block disk lba)
  writes : ∀ disk lba (buf : List UInt8), lba < device.getBlockCount disk →
    buf.length = device.getBlockSize disk →
    ∃ count after, device.writeBlock lba buf disk = .ok count after ∧
      block after = Function.update (block disk) lba buf ∧
      device.getBlockSize after = device.getBlockSize disk ∧
      device.getBlockCount after = device.getBlockCount disk

def flat (device : BlockDevice δ) (block : δ → Nat → List UInt8) (disk : δ) : List UInt8 :=
  concat (block disk) (device.getBlockCount disk)

/-- What a round moves, of `left` bytes from `offset` on, lies in one block. -/
structure InBlock (size count offset left lba pos sector : Nat) : Prop where
  place : lba * size + pos = offset
  inside : lba < count
  some : 0 < sector
  enough : sector ≤ left
  fits : pos + sector ≤ size

theorem in_block {size count offset left : Nat} (positive : 0 < size) (more : 0 < left)
    (within : offset + left ≤ count * size) :
    InBlock size count offset left (offset / size) (offset % size)
      (min left (sub64 size (offset % size))) := by
  have below : offset % size < size := Nat.mod_lt _ positive
  rw [sub64_of_le (Nat.le_of_lt below)]
  refine ⟨?_, ?_, ?_, Nat.min_le_left _ _, ?_⟩
  · rw [Nat.mul_comm]
    exact Nat.div_add_mod _ _
  · apply Nat.div_lt_of_lt_mul
    rw [Nat.mul_comm]
    omega
  · omega
  · omega

theorem take_more {data : List UInt8} (start read sector : Nat) :
    (data.drop start).take read ++ (data.drop (start + read)).take sector =
      (data.drop start).take (read + sector) := by
  rw [List.take_add, List.drop_drop]

section Reads

variable {device : BlockDevice δ} {block : δ → Nat → List UInt8} {disk : δ}

open BlockDeviceAsCharacterDevice

theorem length_flat (serviceable : Serviceable device block) (disk : δ) :
    (flat device block disk).length = device.getBlockCount disk * device.getBlockSize disk :=
  length_concat (serviceable.sized disk)

theorem flat_part (serviceable : Serviceable device block) {offset left lba pos sector : Nat}
    (round : InBlock (device.getBlockSize disk) (device.getBlockCount disk) offset left lba pos
      sector) :
    getSlice (block disk lba) pos (pos + sector) =
      some (((flat device block disk).drop offset).take sector) := by
  rw [get_slice_eq (by omega) (by rw [serviceable.sized]; exact round.fits),
    Nat.add_sub_cancel_left, ← round.place, flat,
    concat_slice (serviceable.sized disk) round.inside round.fits]

theorem copy_into_next {buf done part : List UInt8} {read sector : Nat}
    (before : done.length = read)
    (length : part.length = sector) (room : read + sector ≤ buf.length) :
    copyInto read (read + sector) part (splice buf 0 done) = .ok ()
      (splice buf 0 (done ++ part)) := by
  have total : (splice buf 0 done).length = buf.length := length_splice (by omega)
  have joined : splice (splice buf 0 done) read part = splice buf 0 (done ++ part) := by
    have next : splice (splice buf 0 done) (0 + done.length) part = _ := splice_splice (by omega)
    rwa [Nat.zero_add, before] at next
  rw [copyInto, copy_from_slice_eq (by omega) (by omega) (by omega), joined]

/-- After so many bytes the buffer begins with the bytes of the device. -/
theorem read_rounds_spec (serviceable : Serviceable device block)
    (positive : 0 < device.getBlockSize disk) {start toRead : Nat} {buf : List UInt8}
    (within : start + toRead ≤ device.getBlockCount disk * device.getBlockSize disk)
    (small : start + toRead < 2 ^ 64) (room : toRead ≤ buf.length) (rounds : Nat) :
    ∀ {read : Nat} {scratch : List UInt8}, read ≤ toRead → toRead - read ≤ rounds →
      scratch.length = device.getBlockSize disk →
      readRounds device disk toRead (device.getBlockSize disk) rounds read (start + read) scratch
          (splice buf 0 (((flat device block disk).drop start).take read)) =
        .ok toRead (splice buf 0 (((flat device block disk).drop start).take toRead)) := by
  induction rounds with
  | zero =>
      intro read scratch ordered enough _
      obtain rfl : read = toRead := by omega
      rfl
  | succ rounds ih =>
      intro read scratch ordered enough scratchSized
      rw [readRounds]
      by_cases more : read < toRead
      · rw [if_pos more, if_neg (by omega)]
        have ahead : start + read + (toRead - read) ≤
            device.getBlockCount disk * device.getBlockSize disk := by omega
        have round := in_block positive (by omega) ahead
        generalize (start + read) / device.getBlockSize disk = lba at round ⊢
        generalize (start + read) % device.getBlockSize disk = pos at round ⊢
        simp only
        generalize min (toRead - read) (sub64 (device.getBlockSize disk) pos) = sector at round ⊢
        have moved := round.enough
        have progress := round.some
        obtain ⟨count, answer⟩ := serviceable.reads disk lba scratch round.inside scratchSized
        have part := flat_part serviceable round
        have length : (((flat device block disk).drop (start + read)).take sector).length =
            sector := by
          rw [List.length_take, List.length_drop, length_flat serviceable]
          omega
        have before : (((flat device block disk).drop start).take read).length = read := by
          rw [List.length_take, List.length_drop, length_flat serviceable]
          omega
        have copied : copyInto read _ _ (splice buf 0 _) = _ :=
          copy_into_next before length (by omega)
        rw [take_more] at copied
        rw [state_bind_ok (reading_ok answer _)]
        simp only
        rw [state_bind_ok (or_panic_some part _), state_bind_ok copied, add64_of_lt (by omega),
          Nat.add_assoc]
        exact ih (by omega) (by omega) (serviceable.sized disk lba)
      · obtain rfl : read = toRead := by omega
        rw [if_neg more]
        rfl

end Reads

section Writes

variable {device : BlockDevice δ} {block : δ → Nat → List UInt8} {disk current : δ}

open BlockDeviceAsCharacterDevice

/-- The device as `current` is the device as `disk` with a part of its bytes replaced. -/
structure Rewritten (device : BlockDevice δ) (block : δ → Nat → List UInt8) (disk : δ) (start : Nat)
    (part : List UInt8) (current : δ) : Prop where
  size : device.getBlockSize current = device.getBlockSize disk
  count : device.getBlockCount current = device.getBlockCount disk
  bytes : flat device block current = splice (flat device block disk) start part

/-- The block with a part of it replaced goes back, and this replaces that part of the bytes. -/
theorem write_part (serviceable : Serviceable device block) {offset left lba pos : Nat}
    {part : List UInt8}
    (round : InBlock (device.getBlockSize disk) (device.getBlockCount disk) offset left lba pos
      part.length) :
    ∃ count after,
      device.writeBlock lba (splice (block disk lba) pos part) disk = .ok count after ∧
        Rewritten device block disk offset part after := by
  have sized := serviceable.sized disk
  have length : (splice (block disk lba) pos part).length = device.getBlockSize disk := by
    rw [length_splice (by rw [sized]; exact round.fits), sized]
  obtain ⟨count, after, answer, blocks, size, total⟩ :=
    serviceable.writes disk lba _ round.inside length
  refine ⟨count, after, answer, size, total, ?_⟩
  rw [flat, total, blocks, concat_update sized round.inside round.fits, round.place]
  rfl

theorem rewritten_more {start : Nat} {first next : List UInt8} {after : δ}
    (one : Rewritten device block disk start first current)
    (two : Rewritten device block current (start + first.length) next after)
    (room : start + first.length + next.length ≤ (flat device block disk).length) :
    Rewritten device block disk start (first ++ next) after :=
  ⟨two.size.trans one.size, two.count.trans one.count, by
    rw [two.bytes, one.bytes, splice_splice room]⟩

theorem write_rounds_spec (serviceable : Serviceable device block)
    (positive : 0 < device.getBlockSize disk) {start toWrite : Nat} {buf : List UInt8}
    (within : start + toWrite ≤ device.getBlockCount disk * device.getBlockSize disk)
    (small : start + toWrite < 2 ^ 64) (room : toWrite ≤ buf.length) (rounds : Nat) :
    ∀ {write : Nat} {scratch : List UInt8} {current : δ}, write ≤ toWrite →
      toWrite - write ≤ rounds → scratch.length = device.getBlockSize disk →
      Rewritten device block disk start (buf.take write) current →
      ∃ after,
        writeRounds device buf toWrite (device.getBlockSize disk) rounds write (start + write)
            scratch current = .ok toWrite after ∧
          Rewritten device block disk start (buf.take toWrite) after := by
  induction rounds with
  | zero =>
      intro write scratch current ordered enough _ written
      obtain rfl : write = toWrite := by omega
      exact ⟨current, rfl, written⟩
  | succ rounds ih =>
      intro write scratch current ordered enough scratchSized written
      rw [writeRounds]
      by_cases more : write < toWrite
      · have ahead : start + write + (toWrite - write) ≤
            device.getBlockCount current * device.getBlockSize current := by
          rw [written.count, written.size]
          omega
        have round := in_block (written.size ▸ positive) (by omega) ahead
        have got : (get : EStateM Stop δ δ) current = .ok current current := rfl
        rw [if_pos more, state_bind_ok got, if_neg (by rw [written.size]; omega)]
        simp only
        generalize (start + write) / device.getBlockSize current = lba at round ⊢
        generalize (start + write) % device.getBlockSize current = pos at round ⊢
        rw [← written.size]
        generalize min (toWrite - write) (sub64 (device.getBlockSize current) pos) =
          sector at round ⊢
        have moved := round.enough
        have progress := round.some
        have part : getSlice buf write (write + sector) = some ((buf.drop write).take sector) := by
          rw [get_slice_eq (by omega) (by omega), Nat.add_sub_cancel_left]
        have length : ((buf.drop write).take sector).length = sector := by
          rw [List.length_take, List.length_drop]
          omega
        have before : (buf.take write).length = write := List.length_take_of_le (by omega)
        have joined : buf.take write ++ (buf.drop write).take sector = buf.take (write + sector) :=
          List.take_add.symm
        rw [← length] at round
        obtain ⟨count, after, answer, rewritten⟩ := write_part serviceable round
        have now : Rewritten device block disk start (buf.take (write + sector)) after := by
          rw [← joined]
          apply rewritten_more written
          · rw [before]
            exact rewritten
          · rw [before, length, length_flat serviceable]
            omega
        have sized := serviceable.sized current lba
        have fits := round.fits
        rw [length] at fits
        have advanced : add64 (start + write) sector = start + (write + sector) := by
          rw [add64_of_lt (by omega), Nat.add_assoc]
        by_cases whole : sector = device.getBlockSize current
        · obtain rfl : pos = 0 := by omega
          rw [splice_whole (by rw [sized, length, whole])] at answer
          rw [if_neg (not_not.mpr whole), state_bind_ok (or_panic_some part _),
            state_bind_ok (on_device_ok answer), advanced, written.size]
          exact ih (by omega) (by omega) scratchSized now
        · obtain ⟨readCount, found⟩ := serviceable.reads current lba scratch round.inside
            (scratchSized.trans written.size.symm)
          have copied : copyFromSlice (block current lba) pos (pos + sector)
              ((buf.drop write).take sector) =
                some (splice (block current lba) pos ((buf.drop write).take sector)) :=
            copy_from_slice_eq (by omega) (by omega) (by omega)
          have filled : (splice (block current lba) pos ((buf.drop write).take sector)).length =
              device.getBlockSize disk := by
            rw [length_splice (by omega), sized, written.size]
          rw [if_pos whole, state_bind_ok (reading_ok found _)]
          simp only
          rw [state_bind_ok (or_panic_some part _), state_bind_ok (or_panic_some copied _),
            state_bind_ok (on_device_ok answer), advanced, written.size]
          exact ih (by omega) (by omega) filled now
      · obtain rfl : write = toWrite := by omega
        rw [if_neg more]
        exact ⟨current, rfl, written⟩

end Writes

open BlockDeviceAsCharacterDevice

theorem get_size_le (device : BlockDevice δ) (disk : δ) :
    getSize device disk ≤ device.getBlockCount disk * device.getBlockSize disk :=
  Nat.mod_le _ _

theorem get_size_lt (device : BlockDevice δ) (disk : δ) : getSize device disk < 2 ^ 64 :=
  Nat.mod_lt _ (by decide)

section Flat

variable {device : BlockDevice δ} {block : δ → Nat → List UInt8} {disk : δ}
  (serviceable : Serviceable device block) {offset : Nat} (buf : List UInt8)
  (positive : 0 < device.getBlockSize disk) (inside : offset ≤ getSize device disk)

/-- The bytes that are transferred lie on the device and in the buffer. -/
theorem transfer_bounds {count : Nat} (inside : offset ≤ getSize device disk)
    (known : count = min buf.length (getSize device disk - offset)) :
    offset + count ≤ device.getBlockCount disk * device.getBlockSize disk ∧
      offset + count < 2 ^ 64 ∧ count ≤ buf.length := by
  have flatSize := get_size_le device disk
  have small := get_size_lt device disk
  omega

include serviceable positive inside

theorem read_chars_flat :
    readChars device disk offset buf =
      .ok (min buf.length (getSize device disk - offset))
        (splice buf 0 (((flat device block disk).drop offset).take
          (min buf.length (getSize device disk - offset)))) := by
  obtain ⟨count, known⟩ : ∃ count, count = min buf.length (getSize device disk - offset) := ⟨_, rfl⟩
  obtain ⟨within, fits, room⟩ := transfer_bounds buf inside known
  rw [readChars, sub64_of_le inside, ← known]
  have done := read_rounds_spec serviceable positive within fits room count (Nat.zero_le _)
    (Nat.sub_le _ _) (List.length_replicate (a := (0 : UInt8)))
  rw [List.take_zero, splice_nil] at done
  exact done

theorem write_chars_flat :
    ∃ after,
      writeChars device offset buf disk =
        .ok (min buf.length (getSize device disk - offset)) after ∧
      Rewritten device block disk offset
        (buf.take (min buf.length (getSize device disk - offset))) after := by
  obtain ⟨count, known⟩ : ∃ count, count = min buf.length (getSize device disk - offset) := ⟨_, rfl⟩
  obtain ⟨within, fits, room⟩ := transfer_bounds buf inside known
  rw [writeChars, sub64_of_le inside, ← known]
  have unchanged : Rewritten device block disk offset (buf.take 0) disk :=
    ⟨rfl, rfl, by rw [List.take_zero, splice_nil]⟩
  exact write_rounds_spec serviceable positive within fits room count (Nat.zero_le _)
    (Nat.sub_le _ _) (List.length_replicate (a := (0 : UInt8))) unchanged

end Flat

/-- The device is read and written as the bytes of its blocks one after the other. -/
theorem byte_access_is_flat (device : BlockDevice δ) (block : δ → Nat → List UInt8)
    (serviceable : Serviceable device block) (disk : δ) (offset : Nat) (buf : List UInt8)
    (positive : 0 < device.getBlockSize disk) (inside : offset ≤ getSize device disk) :
    readChars device disk offset buf =
        .ok (min buf.length (getSize device disk - offset))
          (splice buf 0 (((flat device block disk).drop offset).take
            (min buf.length (getSize device disk - offset)))) ∧
      ∃ after,
        writeChars device offset buf disk =
          .ok (min buf.length (getSize device disk - offset)) after ∧
        device.getBlockSize after = device.getBlockSize disk ∧
        device.getBlockCount after = device.getBlockCount disk ∧
        flat device block after =
          splice (flat device block disk) offset
            (buf.take (min buf.length (getSize device disk - offset))) := by
  refine ⟨read_chars_flat serviceable buf positive inside, ?_⟩
  obtain ⟨after, done, written⟩ := write_chars_flat serviceable buf positive inside
  exact ⟨after, done, written.size, written.count, written.bytes⟩

/-- A device of `count` blocks of `size` bytes, kept as a function. -/
def blockTable (size count : Nat) : BlockDevice (Nat → List UInt8) where
  getGeneration _ := 0
  getBlockSize _ := size
  getBlockCount _ := count
  readBlock disk lba buf :=
    if lba < count ∧ buf.length = size then .ok (size, (disk lba).takeD size 0)
    else .error .outOfBounds
  writeBlock lba buf disk :=
    if lba < count ∧ buf.length = size then .ok size (Function.update disk lba buf)
    else .error .outOfBounds disk
  flush := pure ()

theorem block_table_serviceable (size count : Nat) :
    Serviceable (blockTable size count) (fun disk lba => (disk lba).takeD size 0) where
  sized _ _ := List.takeD_length _ _ _
  reads disk lba buf inside length := ⟨size, if_pos ⟨inside, length⟩⟩
  writes disk lba buf inside length := by
    refine ⟨size, _, if_pos ⟨inside, length⟩, ?_, rfl, rfl⟩
    funext other
    by_cases same : other = lba
    · subst same
      have sized : buf.length = size := length
      rw [Function.update_self, Function.update_self, List.takeD_eq_take _ (le_of_eq sized.symm)]
      exact List.take_of_length_le (le_of_eq sized)
    · rw [Function.update_of_ne same, Function.update_of_ne same]

/-- The bytes 0 to 7 in two blocks of four. -/
def countedBlocks (lba : Nat) : List UInt8 :=
  (List.range 4).map fun place => UInt8.ofNat (4 * lba + place)

/-- Three bytes that lie in both blocks. -/
theorem byte_access_across_blocks :
    readChars (blockTable 4 2) countedBlocks 3 [9, 9, 9] = .ok 3 [3, 4, 5] ∧
      ∃ after, writeChars (blockTable 4 2) 3 [9, 9, 9] countedBlocks = .ok 3 after ∧
        flat (blockTable 4 2) (fun disk lba => (disk lba).takeD 4 0) after =
          [0, 1, 2, 9, 9, 9, 6, 7] := by
  obtain ⟨read, after, wrote, -, -, bytes⟩ := byte_access_is_flat (blockTable 4 2) _
    (block_table_serviceable 4 2) countedBlocks 3 [9, 9, 9] (by decide) (by decide)
  exact ⟨read, after, wrote, bytes⟩

end Campix.Drivers.ByteAccess
