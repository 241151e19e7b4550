import Campix.Drivers.PataCoherence
import Campix.Drivers.Vga
import Campix.Lib.Run

/-!
# Open files of a driver

One interface for the handles of all drivers: the calls on an open handle, what they
change and which of them are refused. Between two calls the other handles of the driver
may do anything but touch this one. A handle that was opened without `OPEN_MODE_WRITE`
must not change what it was opened on, and one that was opened with it must not be refused
to write. The handles of the PATA and of the VGA driver do so under a condition each.
-/

namespace Campix.Drivers

open Lib.Fallible Lib.Outcome Lib.Run Lib.Slice

set_option autoImplicit false

inductive FileCall where
  | fread (buf : List UInt8)
  | fwrite (buf : List UInt8)
  | fseek (position : SeekPosition)
  | ftruncate
  | fflush
  | fclose

structure OpenFile (Session : Type) where
  opened : Bool
  session : Session

namespace OpenFile

variable {Error Session Value : Type}

/-- The error that a call returns, and the state it leaves. -/
def outcome (errorOf : Error → Option VfsError) :
    EStateM.Result Error Session Value → Option VfsError × Session
  | .ok _ after => (none, after)
  | .error error after => (errorOf error, after)

/-- A call on a handle; a closed one is a `BadHandle`. -/
def perform (errorOf : Error → Option VfsError) (call : EStateM Error Session Value)
    (file : OpenFile Session) : Option VfsError × OpenFile Session :=
  if file.opened then
    let (error, after) := outcome errorOf (call file.session)
    (error, { file with session := after })
  else
    (some .badHandle, file)

def finish (errorOf : Error → Option VfsError) (call : EStateM Error Session Value)
    (session : Session) : Option VfsError × OpenFile Session :=
  match call session with
  | .ok _ after => (none, ⟨false, after⟩)
  | .error error after => (errorOf error, ⟨true, after⟩)

section Performed

variable {errorOf : Error → Option VfsError} {call : EStateM Error Session Value}
  {file : OpenFile Session} {Holds : Session → Prop} {Failed : Error → Session → Prop}

theorem perform_state (init : Holds file.session)
    (settles : Settles Holds (fun _ => Holds) call file.session) :
    Holds (perform errorOf call file).2.session := by
  unfold Settles at settles
  unfold perform
  split_ifs
  · generalize call file.session = result at settles ⊢
    cases settles with
    | ok kept => exact kept
    | error kept => exact kept
  · exact init

theorem perform_closed (closed : ¬file.opened = true) :
    perform errorOf call file = (some .badHandle, file) :=
  if_neg closed

theorem perform_error {error : VfsError} (settles : Settles Holds Failed call file.session)
    (other : ∀ found after, Failed found after → errorOf found ≠ some error)
    (open_ : error ≠ .badHandle) :
    (perform errorOf call file).1 ≠ some error := by
  unfold Settles at settles
  unfold perform
  split_ifs
  · generalize call file.session = result at settles ⊢
    cases settles with
    | ok kept => exact Option.some_ne_none error |>.symm
    | error failed => exact other _ _ failed
  · intro same
    exact open_ (Option.some.inj same).symm

theorem finish_state {session : Session} (settles : Settles Holds (fun _ => Holds) call session) :
    Holds (finish errorOf call session).2.session := by
  unfold Settles at settles
  unfold finish
  generalize call session = result at settles ⊢
  cases settles with
  | ok kept => exact kept
  | error kept => exact kept

end Performed

end OpenFile

/-- A driver as the user of one handle sees it. A file is locked when nobody can write to
it. -/
structure FileDriver (State : Type) where
  Contents : Type
  mode : State → Nat
  contents : State → Contents
  locked : State → Prop
  call : FileCall → State → Option VfsError × State
  others : State → State → Prop

namespace FileDriver

variable {State : Type} {driver : FileDriver State} {allowed : State → FileCall → Prop}

structure Respects (driver : FileDriver State) (mode : Nat) (state : State)
    (call : FileCall) : Prop where
  reads : mode &&& openModeWrite = 0 →
    driver.contents (driver.call call state).2 = driver.contents state
  writes : mode &&& openModeWrite ≠ 0 → ∀ buf, call = .fwrite buf → ¬driver.locked state →
    (driver.call call state).1 ≠ some .actionNotAllowed

def Sound (driver : FileDriver State) (allowed : State → FileCall → Prop) (start : State) : Prop :=
  ∀ state, Reaches (fun call state => (driver.call call state).2)
    allowed driver.others start state →
    ∀ call, allowed state call → driver.Respects (driver.mode start) state call

theorem sound_of_invariant {Inv : State → Prop} {start : State} (init : Inv start)
    (steps : ∀ state call, Inv state → allowed state call →
      Inv (driver.call call state).2 ∧ driver.Respects (driver.mode start) state call)
    (moves : ∀ state after, Inv state → driver.others state after → Inv after) :
    driver.Sound allowed start := by
  intro state reached call allow
  have inv := reaches_invariant reached init
    (fun state call inv allow => (steps state call inv allow).1) moves
  exact (steps state call inv allow).2

end FileDriver

namespace Pata

variable {bytes : Nat → Nat → UInt8} {mode number : Nat} {faults : Nat → Option PataErrtype}

/-- `fclose` does not look whether the handle is open. -/
def fileDriver (faults : Nat → Option PataErrtype) (number : Nat) :
    FileDriver (OpenFile (Session Disk)) where
  Contents := Nat → Nat → UInt8
  mode file := file.session.handle.mode
  contents file := file.session.drive.bytes
  locked _ := False
  call
    | .fread buf => OpenFile.perform some (fread (Disk.driveOf faults number) buf)
    | .fwrite buf => OpenFile.perform some (fwrite (Disk.driveOf faults number) buf)
    | .fseek position => OpenFile.perform some (fseek position)
    | .ftruncate => OpenFile.perform some ftruncate
    | .fflush => OpenFile.perform some fflush
    | .fclose => fun file => (none, { file with opened := false })
  others file after := after.opened = file.opened ∧ after.session.handle = file.session.handle

def Same (bytes : Nat → Nat → UInt8) (mode : Nat) (session : Session Disk) : Prop :=
  session.drive.bytes = bytes ∧ session.handle.mode = mode

theorem drive_read_bytes (disk : Disk) (sector : Nat) :
    (stateAfter ((Disk.driveOf faults number).readSector sector disk)).bytes = disk.bytes := by
  unfold Disk.driveOf
  cases found : faults disk.history.length with
  | none =>
      simp only [found]
      rfl
  | some error =>
      simp only [found]
      rfl

theorem read_sector_same (sector : Nat) :
    Maintains (Same bytes mode) (fun _ => Same bytes mode)
      (readSector (Disk.driveOf faults number) sector) := by
  intro session same
  have kept := @drive_read_bytes number faults session.drive sector
  unfold Settles readSector
  cases outcome : (Disk.driveOf faults number).readSector sector session.drive with
  | ok data after =>
      rw [outcome] at kept
      exact .ok ⟨kept.trans same.1, same.2⟩
  | error error after =>
      rw [outcome] at kept
      exact .error ⟨kept.trans same.1, same.2⟩

theorem update_handle_same {change : PataFsFileHandle → PataFsFileHandle}
    (keeps : ∀ handle, (change handle).mode = handle.mode) :
    Maintains (Same bytes mode) (fun _ => Same bytes mode)
      (updateHandle change : Call Disk Unit) := by
  intro session same
  exact .ok ⟨same.1, (keeps session.handle).trans same.2⟩

theorem sub_same (left right : Nat) :
    Maintains (Same bytes mode) (fun _ => Same bytes mode) (sub left right : Call Disk Nat) := by
  intro session same
  exact .ok same

theorem load_sector_same (sector : Nat) :
    Maintains (Same bytes mode) (fun _ => Same bytes mode)
      (loadSector (Disk.driveOf faults number) sector) := by
  apply maintains_get
  intro session same
  split_ifs
  · apply settles_bind (read_sector_same sector session same)
    intro _
    exact update_handle_same fun _ => rfl
  · exact .ok same

theorem fread_loop_same (toRead rounds : Nat) : ∀ buf bytesRead sector,
    Maintains (Same bytes mode) (fun _ => Same bytes mode)
      (freadLoop (Disk.driveOf faults number) toRead rounds buf bytesRead sector) := by
  induction rounds with
  | zero =>
      intro buf bytesRead sector
      exact maintains_pure _
  | succ rounds ih =>
      intro buf bytesRead sector
      unfold freadLoop
      split_ifs
      · apply maintains_bind (load_sector_same sector)
        intro _
        apply maintains_get
        intro session same
        apply settles_bind (sub_same _ _ session same)
        intro remainingInSector
        apply maintains_bind (sub_same _ _)
        intro remainingToRead
        apply maintains_bind
        · exact update_handle_same fun _ => rfl
        intro _
        exact ih _ _ _
      · exact maintains_pure _

theorem fread_same (buf : List UInt8) :
    Maintains (Same bytes mode) (fun _ => Same bytes mode)
      (fread (Disk.driveOf faults number) buf) := by
  apply maintains_get
  intro session same
  split_ifs
  · exact .error same
  · apply settles_bind (sub_same _ _ session same)
    intro sectors
    apply maintains_bind (sub_same _ _)
    intro available
    exact fread_loop_same _ _ _ _ _
  · exact .error same

theorem fseek_helper_same (seek : SeekPosition) (position len : Nat) :
    Maintains (Same bytes mode) (fun _ => Same bytes mode)
      (fseekHelper seek position len : Call Disk (Option Nat)) := by
  unfold fseekHelper
  cases seek with
  | fromStart target =>
      dsimp only
      split_ifs
      · exact maintains_pure _
      · exact maintains_pure _
  | fromCurrent target =>
      dsimp only
      split_ifs
      · exact maintains_pure _
      · exact maintains_bind (sub_same _ _) fun _ => maintains_pure _
      · exact maintains_pure _
      · exact maintains_pure _
  | fromEnd target =>
      dsimp only
      split_ifs
      · exact maintains_pure _
      · exact maintains_bind (sub_same _ _) fun _ => maintains_pure _

theorem fseek_same (position : SeekPosition) :
    Maintains (Same bytes mode) (fun _ => Same bytes mode) (fseek position : Call Disk Nat) := by
  apply maintains_get
  intro session same
  split_ifs
  · apply settles_bind (fseek_helper_same _ _ _ session same)
    intro moved
    split
    · exact maintains_throw fun _ same => same
    · apply maintains_bind
      · exact update_handle_same fun _ => rfl
      intro _
      exact maintains_pure _
  · exact .error same

theorem fflush_same :
    Maintains (Same bytes mode) (fun _ => Same bytes mode) (fflush : Call Disk Unit) := by
  apply maintains_get
  intro session same
  split_ifs
  · exact .error same
  · exact .ok same

def ModeKept (mode : Nat) (session : Session Disk) : Prop := session.handle.mode = mode

/-- Behind the check of the mode a write fails with other errors only. -/
def Admitted (mode : Nat) (error : VfsError) (session : Session Disk) : Prop :=
  session.handle.mode = mode ∧ error ≠ .actionNotAllowed

theorem read_back_admitted (sector toCopy : Nat) :
    Maintains (ModeKept mode) (Admitted mode)
      (readBack (Disk.driveOf faults number) sector toCopy) := by
  unfold readBack
  split_ifs
  · intro session kept
    unfold Settles readSector
    cases (Disk.driveOf faults number).readSector sector session.drive with
    | ok data after => exact .ok kept
    | error error after => exact .error ⟨kept, by decide⟩
  · exact maintains_pure _

theorem write_sector_admitted (sector : Nat) :
    Maintains (ModeKept mode) (Admitted mode)
      (writeSector (Disk.driveOf faults number) sector) := by
  intro session kept
  unfold Settles writeSector
  cases (Disk.driveOf faults number).writeSector sector session.handle.sectorCache
    session.drive with
  | ok data after => exact .ok kept
  | error error after => exact .error ⟨kept, by decide⟩

theorem update_handle_admitted {change : PataFsFileHandle → PataFsFileHandle}
    (keeps : ∀ handle, (change handle).mode = handle.mode) :
    Maintains (ModeKept mode) (Admitted mode) (updateHandle change : Call Disk Unit) := by
  intro session kept
  exact .ok ((keeps session.handle).trans kept)

theorem sub_admitted (left right : Nat) :
    Maintains (ModeKept mode) (Admitted mode) (sub left right : Call Disk Nat) := by
  intro session kept
  exact .ok kept

theorem fwrite_loop_admitted (buf : List UInt8) (toWrite rounds : Nat) : ∀ bytesWritten sector,
    Maintains (ModeKept mode) (Admitted mode)
      (fwriteLoop (Disk.driveOf faults number) buf toWrite rounds bytesWritten sector) := by
  induction rounds with
  | zero =>
      intro bytesWritten sector
      exact maintains_pure _
  | succ rounds ih =>
      intro bytesWritten sector
      unfold fwriteLoop
      split_ifs
      · apply maintains_get
        intro session kept
        apply settles_bind (sub_admitted _ _ session kept)
        intro remainingInSector
        apply maintains_bind (sub_admitted _ _)
        intro remainingToWrite
        apply maintains_bind (read_back_admitted _ _)
        intro _
        apply maintains_bind
        · exact update_handle_admitted fun _ => rfl
        intro _
        apply maintains_bind (write_sector_admitted _)
        intro _
        apply maintains_bind
        · exact update_handle_admitted fun _ => rfl
        intro _
        exact ih _ _
      · exact maintains_pure _

theorem fwrite_admitted (buf : List UInt8) (readable : mode &&& openModeRead ≠ 0) :
    Maintains (ModeKept mode) (Admitted mode) (fwrite (Disk.driveOf faults number) buf) := by
  apply maintains_get
  intro session kept
  have passes : session.handle.mode &&& openModeRead ≠ 0 := by
    rw [show session.handle.mode = mode from kept]
    exact readable
  rw [if_neg passes]
  split_ifs
  · exact .error ⟨kept, by decide⟩
  · apply settles_bind (sub_admitted _ _ session kept)
    intro sectors
    apply maintains_bind (sub_admitted _ _)
    intro available
    exact fwrite_loop_admitted _ _ _ _ _
  · exact .error ⟨kept, by decide⟩

/-- Only with both flags or with none of them does the check of `fwrite` do what it
should. -/
def FlagsAgree (file : OpenFile (Session Disk)) (call : FileCall) : Prop :=
  file.opened = true → ∀ buf, call = .fwrite buf →
    (file.session.handle.mode &&& openModeRead = 0 ↔ file.session.handle.mode &&& openModeWrite = 0)

theorem fwrite_refused {buf : List UInt8} {session : Session Disk}
    (unreadable : session.handle.mode &&& openModeRead = 0) :
    fwrite (Disk.driveOf faults number) buf session = .error .actionNotAllowed session := by
  change (if session.handle.mode &&& openModeRead = 0 then _ else _ : Call Disk Nat) session = _
  rw [if_pos unreadable]
  rfl

theorem respects_same {file : OpenFile (Session Disk)} {call : FileCall}
    (same : Same file.session.drive.bytes mode
      ((fileDriver faults number).call call file).2.session)
    (other : ∀ buf, call ≠ .fwrite buf) :
    ((fileDriver faults number).call call file).2.session.handle.mode = mode ∧
      (fileDriver faults number).Respects mode file call :=
  ⟨same.2, fun _ => same.1, fun _ buf write => absurd write (other buf)⟩

theorem fwrite_respects {file : OpenFile (Session Disk)} {buf : List UInt8}
    (same : file.session.handle.mode = mode) (agree : FlagsAgree file (.fwrite buf)) :
    ((fileDriver faults number).call (.fwrite buf) file).2.session.handle.mode = mode ∧
      (fileDriver faults number).Respects mode file (.fwrite buf) := by
  by_cases opened : file.opened = true
  swap
  · have refused : (fileDriver faults number).call (.fwrite buf) file = (some .badHandle, file) :=
      OpenFile.perform_closed opened
    refine ⟨by rw [refused]; exact same, fun _ => by rw [refused], fun _ _ _ _ => ?_⟩
    rw [refused]
    exact show some VfsError.badHandle ≠ some .actionNotAllowed by decide
  have flags := agree opened buf rfl
  rw [same] at flags
  by_cases writable : mode &&& openModeWrite = 0
  · -- the handle was not opened for reading either
    have refused := @fwrite_refused number faults buf file.session
      (by rw [same]; exact flags.mpr writable)
    have unchanged : Same file.session.drive.bytes mode
        ((fileDriver faults number).call (.fwrite buf) file).2.session := by
      apply @OpenFile.perform_state _ _ _ some _ _ (Same file.session.drive.bytes mode) ⟨rfl, same⟩
      unfold Settles
      rw [refused]
      exact .error ⟨rfl, same⟩
    exact ⟨unchanged.2, fun _ => unchanged.1, fun impossible => absurd writable impossible⟩
  · have admitted := @fwrite_admitted mode number faults buf (fun zero => writable (flags.mp zero))
      file.session same
    refine ⟨?_, fun impossible => absurd impossible writable, ?_⟩
    · apply @OpenFile.perform_state _ _ _ some _ _ (ModeKept mode) same
      exact settles_weaken admitted (fun _ kept => kept) fun _ _ failed => failed.1
    · intro _ other found _
      cases found
      apply OpenFile.perform_error admitted
      · intro error after failed refused
        exact failed.2 (Option.some.inj refused)
      · decide

theorem file_driver_sound (start : OpenFile (Session Disk)) :
    (fileDriver faults number).Sound FlagsAgree start := by
  apply @FileDriver.sound_of_invariant _ _ _
    (fun file => file.session.handle.mode = start.session.handle.mode)
  · rfl
  · intro file call same agree
    have unchanged : Same file.session.drive.bytes start.session.handle.mode file.session :=
      ⟨rfl, same⟩
    cases call with
    | fread buf =>
        exact respects_same (OpenFile.perform_state unchanged (fread_same buf _ unchanged))
          fun _ => nofun
    | fwrite buf => exact fwrite_respects same agree
    | fseek position =>
        exact respects_same (OpenFile.perform_state unchanged (fseek_same position _ unchanged))
          fun _ => nofun
    | ftruncate =>
        exact respects_same (OpenFile.perform_state unchanged (.error unchanged)) fun _ => nofun
    | fflush =>
        exact respects_same (OpenFile.perform_state unchanged (fflush_same _ unchanged))
          fun _ => nofun
    | fclose => exact respects_same unchanged fun _ => nofun
  · intro file after same others
    rw [others.2]
    exact same

def eightSectorsFile (mode : Nat) : OpenFile (Session Disk) where
  opened := true
  session := {
    handle := { openedHandle with mode := mode }
    controller := smallController
    drive := ⟨fun _ _ => 0, []⟩
    events := [] }

end Pata

namespace Vga

variable {mode : Nat}

def errorOf : Failure → Option VfsError
  | .error error => some error
  | .panic => none

/-- What a handle can be read from is the back buffer. -/
def fileDriver : FileDriver (OpenFile Session) where
  Contents := (Nat → UInt8) × (Nat → UInt8)
  mode file := file.session.handle.mode
  contents file := (file.session.device.framebuffer, file.session.device.doubleBuffer)
  locked _ := False
  call
    | .fread buf => OpenFile.perform errorOf (fread buf)
    | .fwrite buf => OpenFile.perform errorOf (fwrite buf)
    | .fseek position => OpenFile.perform errorOf (fseek position)
    | .ftruncate => OpenFile.perform errorOf ftruncate
    | .fflush => OpenFile.perform errorOf fflush
    | .fclose => fun file =>
        if file.opened then OpenFile.finish errorOf fflush file.session else
          (some .actionNotAllowed, file)
  others file after := after.opened = file.opened ∧ after.session.handle = file.session.handle

def Shows (memory : Nat → UInt8) (addr : Nat) (bytes : List UInt8) : Prop :=
  ∀ place < bytes.length, memory (addr + place) = bytes.getD place 0

namespace VgaCharDevice

def Shown (self : VgaCharDevice) : Prop :=
  if self.frameBufferIsXrgb then
    if self.bytesPerLine = self.width * 4 then
      ∀ place < self.size, self.framebuffer place = self.doubleBuffer place
    else
      ∀ y < self.height, ∀ place < self.width * 4,
        self.framebuffer (y * self.bytesPerLine + place) = self.doubleBuffer
          (y * self.width * 4 + place)
  else if self.bpp = 32 then
    ∀ y < self.height, ∀ x < self.width, Shows self.framebuffer (y * self.bytesPerLine + x * 4)
      (toLe (self.convertXrgbToCustom (self.pixel x y)) 4)
  else
    ∀ y < self.height, ∀ x < self.width, ∀ bytes, self.reorder (self.pixel x y) = some bytes →
      Shows self.framebuffer (y * self.bytesPerLine + x * 3) bytes

end VgaCharDevice

theorem copy_shown {source target : Nat → UInt8} {start place count : Nat}
    (shown : ∀ offset < count, target (place + offset) = source (start + offset)) :
    copyNonoverlapping source start target place count = target := by
  funext addr
  unfold copyNonoverlapping
  split_ifs with inside
  · rw [← shown (addr - place) (by omega), Nat.add_sub_cancel' inside.1]
  · rfl

theorem poke_shown {memory : Nat → UInt8} {addr : Nat} {bytes : List UInt8}
    (shows_ : Shows memory addr bytes) : poke memory addr bytes = memory := by
  apply copy_shown
  intro offset inside
  rw [Nat.zero_add]
  exact shows_ offset inside

theorem swapped_shown {device : VgaCharDevice} {framebuffer : Nat → UInt8} (shown : device.Shown)
    (swapped : device.swapped = some framebuffer) : framebuffer = device.framebuffer := by
  unfold VgaCharDevice.Shown at shown
  unfold VgaCharDevice.swapped at swapped
  split_ifs at shown swapped
  · rw [← Option.some.inj swapped]
    apply copy_shown
    intro offset inside
    rw [Nat.zero_add]
    exact shown offset inside
  · rw [← Option.some.inj swapped]
    apply foldl_of_fixed
    intro y row
    exact copy_shown fun offset inside => shown y (List.mem_range.mp row) offset inside
  · rw [← Option.some.inj swapped]
    apply foldl_of_fixed
    intro y row
    apply foldl_of_fixed
    intro x column
    exact poke_shown (shown y (List.mem_range.mp row) x (List.mem_range.mp column))
  · apply foldlM_of_fixed _ _ _ swapped
    intro y row
    apply foldlM_of_fixed
    intro x column after stepped
    obtain ⟨bytes, reordered, poked⟩ := Option.bind_eq_some_iff.mp stepped
    rw [← Option.some.inj poked]
    exact poke_shown (shown y (List.mem_range.mp row) x (List.mem_range.mp column) bytes reordered)

def Same (buffers : (Nat → UInt8) × (Nat → UInt8)) (mode : Nat) (session : Session) : Prop :=
  (session.device.framebuffer, session.device.doubleBuffer) = buffers ∧ session.handle.mode = mode

variable {buffers : (Nat → UInt8) × (Nat → UInt8)}

theorem fread_same (buf : List UInt8) :
    Maintains (Same buffers mode) (fun _ => Same buffers mode) (fread buf) := by
  apply maintains_get
  intro session same
  split_ifs
  · exact .error same
  · split
    · exact .error same
    · exact .ok same

theorem fseek_same (position : SeekPosition) :
    Maintains (Same buffers mode) (fun _ => Same buffers mode) (fseek position) := by
  apply maintains_get
  intro session same
  split
  · exact .error same
  · exact .ok same

theorem fflush_same {session : Session} (same : Same buffers mode session)
    (shown : session.device.Shown) :
    Settles (Same buffers mode) (fun _ => Same buffers mode) fflush session := by
  apply settles_get
  cases swapped : session.device.swapBuffers with
  | none => exact .error same
  | some device =>
      obtain ⟨framebuffer, found, moved⟩ := Option.bind_eq_some_iff.mp swapped
      obtain rfl := Option.some.inj moved
      apply Settled.ok
      have still := swapped_shown shown found
      rw [still]
      exact same

def ModeKept (mode : Nat) (session : Session) : Prop := session.handle.mode = mode

theorem fflush_mode {session : Session} (same : session.handle.mode = mode) :
    Settles (ModeKept mode) (fun _ => ModeKept mode) fflush session := by
  apply settles_get
  split
  · exact .error same
  · exact .ok same

theorem fwrite_refused {buf : List UInt8} {session : Session}
    (unwritable : session.handle.mode &&& openModeWrite = 0) :
    fwrite buf session = .error (.error .actionNotAllowed) session := by
  change (if session.handle.mode &&& openModeWrite = 0 then _ else _ : Call Nat) session = _
  rw [if_pos unwritable]
  rfl

/-- Behind the check of the mode a write fails with other errors only. -/
def Admitted (mode : Nat) (failure : Failure) (session : Session) : Prop :=
  session.handle.mode = mode ∧ failure ≠ .error .actionNotAllowed

theorem fwrite_admitted {buf : List UInt8} {session : Session} (same : session.handle.mode = mode)
    (writable : mode &&& openModeWrite ≠ 0) :
    Settles (ModeKept mode) (Admitted mode) (fwrite buf) session := by
  apply settles_get
  rw [if_neg (by rw [same]; exact writable)]
  unfold VgaCharDevice.writeChars
  split_ifs
  · exact .error ⟨same, by decide⟩
  · exact .ok same

/-- A handle that may not write flushes only what is shown already. -/
def FlushesShown (file : OpenFile Session) (call : FileCall) : Prop :=
  file.opened = true → call = .fflush ∨ call = .fclose → file.session.handle.mode &&& openModeWrite = 0 →
    file.session.device.Shown

theorem respects_same {file : OpenFile Session} {call : FileCall}
    (same : Same (fileDriver.contents file) mode (fileDriver.call call file).2.session)
    (other : ∀ buf, call ≠ .fwrite buf) :
    (fileDriver.call call file).2.session.handle.mode = mode ∧ fileDriver.Respects mode file call :=
  ⟨same.2, fun _ => same.1, fun _ buf write => absurd write (other buf)⟩

theorem fwrite_respects {file : OpenFile Session} {buf : List UInt8}
    (same : file.session.handle.mode = mode) :
    (fileDriver.call (.fwrite buf) file).2.session.handle.mode = mode ∧
      fileDriver.Respects mode file (.fwrite buf) := by
  by_cases writable : mode &&& openModeWrite = 0
  · have refused := @fwrite_refused buf file.session (by rw [same]; exact writable)
    have unchanged : Same (fileDriver.contents file) mode
        (fileDriver.call (.fwrite buf) file).2.session := by
      apply @OpenFile.perform_state _ _ _ errorOf _ _ (Same (fileDriver.contents file) mode)
        ⟨rfl, same⟩
      unfold Settles
      rw [refused]
      exact .error ⟨rfl, same⟩
    exact ⟨unchanged.2, fun _ => unchanged.1, fun impossible => absurd writable impossible⟩
  · have admitted := @fwrite_admitted mode buf file.session same writable
    refine ⟨?_, fun impossible => absurd impossible writable, ?_⟩
    · apply @OpenFile.perform_state _ _ _ errorOf _ _ (ModeKept mode) same
      exact settles_weaken admitted (fun _ kept => kept) fun _ _ failed => failed.1
    · intro _ other found _
      cases found
      apply OpenFile.perform_error admitted
      · intro failure after failed refused
        cases failure with
        | error error => exact failed.2 (congrArg Failure.error (Option.some.inj refused))
        | panic => cases refused
      · decide

theorem fclose_state {Holds : Session → Prop} {file : OpenFile Session} (init : Holds file.session)
    (settles : Settles Holds (fun _ => Holds) fflush file.session) :
    Holds (fileDriver.call .fclose file).2.session := by
  change Holds (if file.opened then OpenFile.finish errorOf fflush file.session
    else (some VfsError.actionNotAllowed, file)).2.session
  split_ifs
  · exact OpenFile.finish_state settles
  · exact init

/-- A handle that may write can show what it has written. -/
theorem flush_respects {file : OpenFile Session} {call : FileCall}
    (same : file.session.handle.mode = mode) (flushes : FlushesShown file call)
    (kind : call = .fflush ∨ call = .fclose) :
    (fileDriver.call call file).2.session.handle.mode = mode ∧
      fileDriver.Respects mode file call := by
  have other : ∀ buf, call ≠ .fwrite buf := by
    rintro buf rfl
    rcases kind with impossible | impossible
    · cases impossible
    · cases impossible
  have state : ∀ {Holds : Session → Prop}, Holds file.session →
      Settles Holds (fun _ => Holds) fflush file.session →
        Holds (fileDriver.call call file).2.session := by
    intro Holds init settles
    rcases kind with rfl | rfl
    · exact OpenFile.perform_state init settles
    · exact fclose_state init settles
  by_cases opened : file.opened = true
  swap
  · have still : (fileDriver.call call file).2 = file := by
      rcases kind with rfl | rfl
      · exact congrArg Prod.snd (OpenFile.perform_closed opened)
      · exact congrArg Prod.snd (if_neg opened)
    exact respects_same (by rw [still]; exact ⟨rfl, same⟩) other
  by_cases writable : mode &&& openModeWrite = 0
  · have shown := flushes opened kind (by rw [same]; exact writable)
    exact respects_same (state ⟨rfl, same⟩ (fflush_same ⟨rfl, same⟩ shown)) other
  · exact ⟨@state (ModeKept mode)
      same (fflush_mode same), fun impossible => absurd impossible writable,
      fun _ buf write => absurd write (other buf)⟩

theorem file_driver_sound (start : OpenFile Session) : fileDriver.Sound FlushesShown start := by
  apply @FileDriver.sound_of_invariant _ _ _
    (fun file => file.session.handle.mode = start.session.handle.mode)
  · rfl
  · intro file call same flushes
    have unchanged : Same (fileDriver.contents file) start.session.handle.mode file.session :=
      ⟨rfl, same⟩
    cases call with
    | fread buf =>
        exact respects_same (OpenFile.perform_state unchanged (fread_same buf _ unchanged))
          fun _ => nofun
    | fwrite buf => exact fwrite_respects same
    | fseek position =>
        exact respects_same (OpenFile.perform_state unchanged (fseek_same position _ unchanged))
          fun _ => nofun
    | ftruncate =>
        exact respects_same (OpenFile.perform_state unchanged (.error unchanged)) fun _ => nofun
    | fflush => exact flush_respects same flushes (.inl rfl)
    | fclose => exact flush_respects same flushes (.inr rfl)
  · intro file after same others
    rw [others.2]
    exact same

end Vga

end Campix.Drivers
