import Campix.Drivers.FileDriver
import Campix.Ext2.AppendedBlocks
import Campix.Ext2.OpenHandles

/-!
# Open modes

The handles of the ext2 driver respect their open mode whatever is called, so the three
drivers do so wherever the conditions on the other two hold.
-/

namespace Campix.Ext2.Handle

open Drivers Lib.Outcome

set_option autoImplicit false

def errorOf : Failure → Option VfsError
  | .error error => some error
  | .panic => none
  | .running => none

/-- The file is part of the blocks of the volume; the other handles work on the volume, but
not on this handle. -/
def fileDriver : FileDriver (OpenFile Handle) where
  Contents := (Nat → Block) × (Nat → List UInt8)
  mode file := file.session.openMode
  contents file := (file.session.cursor.volume.device, file.session.cursor.volume.bitmaps)
  locked file := file.session.cursor.volume.readOnly = true
  call
    | .fread buf => OpenFile.perform errorOf (fread buf)
    | .fwrite buf => OpenFile.perform errorOf (fwrite buf)
    | .fseek position => OpenFile.perform errorOf (fseek position)
    | .ftruncate => OpenFile.perform errorOf ftruncate
    | .fflush => OpenFile.perform errorOf fflush
    | .fclose => fun file =>
        if file.opened then OpenFile.finish errorOf fclose file.session else (some .badHandle, file)
  others file after := after.opened = file.opened ∧ ∃ volume, after.session =
    { file.session with cursor := { file.session.cursor with volume := volume } }

variable {Value : Type} {device : Nat → Block} {bitmaps : Nat → List UInt8} {mode : Nat}
  {handle : Handle}

def Faithful (device : Nat → Block) (bitmaps : Nat → List UInt8) (mode : Nat) (handle : Handle) :
    Prop :=
  handle.openMode = mode ∧ (mode &&& openModeWrite = 0 → handle.Still device bitmaps) ∧
    (mode &&& openModeNoResize = openModeNoResize → handle.Bounded)

theorem faithful_settles {operation : OnHandle Value}
    (modes : Settles (fun handle => handle.openMode = mode) (fun _ handle => handle.openMode = mode)
      operation handle)
    (still : mode &&& openModeWrite = 0 →
      Settles (Still device bitmaps) (fun _ => Still device bitmaps) operation handle)
    (bounded : mode &&& openModeNoResize = openModeNoResize →
      Settles Bounded (fun _ => Bounded) operation handle) :
    Settles (Faithful device bitmaps mode) (fun _ => Faithful device bitmaps mode)
      operation handle :=
  settles_conj modes (settles_conj (settles_if still) (settles_if bounded))

theorem settles_refused {operation : OnHandle Value} {Holds : Handle → Prop} (holds : Holds handle)
    (refused : operation handle = .error notAllowed handle) :
    Settles Holds (fun _ => Holds) operation handle := by
  unfold Settles
  rw [refused]
  exact .error holds

section Calls

variable (faithful : handle.Faithful device bitmaps mode)

include faithful

theorem flush_bounded (fixed : mode &&& openModeNoResize = openModeNoResize) :
    Settles Bounded (fun _ => Bounded) flush handle := by
  have room : Room handle.size 0 handle := ⟨faithful.2.2 fixed, rfl⟩
  exact settles_weaken (maintains_flush room_stable handle room) (fun _ => bounded_of_room)
    fun _ _ bounded => bounded

theorem fread_faithful (buf : Block) :
    Settles (Faithful device bitmaps mode) (fun _ => Faithful device bitmaps mode) (fread buf)
      handle := by
  apply faithful_settles
  · apply settles_get
    split_ifs
    · exact .error faithful.1
    · exact maintains_read (mode_durable mode).toStable (mode_durable mode).offset buf handle
        faithful.1
  · intro unwritable
    exact still_fread buf handle (faithful.2.1 unwritable)
  · intro fixed
    apply settles_get
    split_ifs
    · exact .error (faithful.2.2 fixed)
    · exact read_bounded buf handle (faithful.2.2 fixed)

theorem fseek_faithful (position : SeekPosition) :
    Settles (Faithful device bitmaps mode) (fun _ => Faithful device bitmaps mode) (fseek position)
      handle := by
  apply faithful_settles
  · apply settles_bind
    · exact maintains_seek (mode_durable mode).toStable (mode_durable mode).offset position handle
        faithful.1
    intro _
    exact maintains_get fun _ same => .ok same
  · intro unwritable
    exact still_fseek position handle (faithful.2.1 unwritable)
  · intro fixed
    apply settles_bind (seek_bounded position handle (faithful.2.2 fixed))
    intro _
    exact maintains_get fun _ bounded => .ok bounded

theorem fwrite_faithful (buf : Block) :
    Settles (Faithful device bitmaps mode) (fun _ => Faithful device bitmaps mode) (fwrite buf)
      handle := by
  apply faithful_settles (mode_fwrite buf handle faithful.1)
  · intro unwritable
    rw [← faithful.1] at unwritable
    exact settles_refused (faithful.2.1 (faithful.1 ▸ unwritable)) (fwrite_refused unwritable buf)
  · intro fixed
    exact fwrite_bounded buf (by rw [faithful.1]; exact fixed) (faithful.2.2 fixed)

theorem ftruncate_faithful :
    Settles (Faithful device bitmaps mode) (fun _ => Faithful device bitmaps mode)
      ftruncate handle := by
  apply faithful_settles (mode_ftruncate handle faithful.1)
  · intro unwritable
    rw [← faithful.1] at unwritable
    exact settles_refused (faithful.2.1 (faithful.1 ▸ unwritable)) (ftruncate_refused unwritable)
  · intro fixed
    apply settles_get
    rw [faithful.1, if_pos fixed]
    split_ifs
    · exact .error (faithful.2.2 fixed)
    · exact .error (faithful.2.2 fixed)

theorem flush_faithful :
    Settles (Faithful device bitmaps mode) (fun _ => Faithful device bitmaps mode)
      flush handle := by
  apply faithful_settles
  · exact maintains_flush (mode_durable mode).toStable handle faithful.1
  · intro unwritable
    exact still_fclose handle (faithful.2.1 unwritable)
  · exact flush_bounded faithful

theorem fflush_faithful :
    Settles (Faithful device bitmaps mode) (fun _ => Faithful device bitmaps mode)
      fflush handle := by
  apply settles_get
  split_ifs
  · exact .error faithful
  · exact flush_faithful faithful

end Calls

variable {file : OpenFile Handle}

theorem call_faithful (faithful : file.session.Faithful device bitmaps mode) (call : FileCall) :
    (fileDriver.call call file).2.session.Faithful device bitmaps mode := by
  cases call with
  | fread buf => exact OpenFile.perform_state faithful (fread_faithful faithful buf)
  | fwrite buf => exact OpenFile.perform_state faithful (fwrite_faithful faithful buf)
  | fseek position => exact OpenFile.perform_state faithful (fseek_faithful faithful position)
  | ftruncate => exact OpenFile.perform_state faithful (ftruncate_faithful faithful)
  | fflush => exact OpenFile.perform_state faithful (fflush_faithful faithful)
  | fclose =>
      change (if file.opened then OpenFile.finish errorOf fclose file.session
        else (some VfsError.badHandle, file)).2.session.Faithful device bitmaps mode
      split_ifs
      · exact OpenFile.finish_state (flush_faithful faithful)
      · exact faithful

/-- The volume may be another one before the next call. -/
theorem faithful_on (faithful : handle.Faithful device bitmaps mode) (volume : Ext2Volume) :
    Faithful volume.device volume.bitmaps mode
      { handle with cursor := { handle.cursor with volume := volume } } := by
  refine ⟨faithful.1, fun unwritable => ?_, faithful.2.2⟩
  obtain ⟨still, clean⟩ := faithful.2.1 unwritable
  exact ⟨⟨rfl, rfl, still.tables, still.inode⟩, clean⟩

theorem fwrite_admitted {buf : Block} (faithful : file.session.Faithful device bitmaps mode)
    (writable : mode &&& openModeWrite ≠ 0) (unlocked : ¬fileDriver.locked file) :
    (fileDriver.call (.fwrite buf) file).1 ≠ some .actionNotAllowed := by
  have allowed := @fwrite_allowed file.session buf (by rw [faithful.1]; exact writable)
    (fun fixed => faithful.2.2 (by rw [← faithful.1]; exact fixed)) (Bool.eq_false_iff.mpr unlocked)
  apply OpenFile.perform_error allowed
  · intro failure _ different refused
    cases failure with
    | error error => exact different (congrArg Failure.error (Option.some.inj refused))
    | panic => cases refused
    | running => cases refused
  · decide

theorem file_driver_sound {volume : Ext2Volume} {inode : Inode}
    {table1 table2 table3 blockCache : Block}
    (opened : new volume inode mode table1 table2 table3 blockCache = some handle) :
    fileDriver.Sound (fun _ _ => True) ⟨true, handle⟩ := by
  have start : handle.Faithful handle.cursor.volume.device handle.cursor.volume.bitmaps
      handle.openMode := by
    unfold new at opened
    obtain ⟨location, _, made⟩ := Option.bind_eq_some_iff.mp opened
    obtain rfl := Option.some.inj made
    exact ⟨rfl, fun _ => ⟨⟨rfl, rfl, fun _ => rfl, rfl⟩, fun _ impossible => by cases impossible⟩,
      fun _ => Nat.zero_le _⟩
  apply @FileDriver.sound_of_invariant _ _ _ (fun file => file.session.Faithful
    file.session.cursor.volume.device file.session.cursor.volume.bitmaps handle.openMode)
  · exact start
  · intro file call faithful _
    have after := call_faithful faithful call
    refine ⟨faithful_on after _, ?_, ?_⟩
    · intro unwritable
      obtain ⟨still, -⟩ := after.2.1 unwritable
      exact Prod.ext still.device still.bitmaps
    · rintro writable buf rfl unlocked
      exact fwrite_admitted faithful writable unlocked
  · intro file after faithful others
    obtain ⟨-, volume, same⟩ := others
    rw [same]
    exact faithful_on faithful volume

end Campix.Ext2.Handle

namespace Campix.Drivers

set_option autoImplicit false

theorem open_modes_respected (faults : Nat → Option Pata.PataErrtype) (number : Nat)
    (file : OpenFile (Pata.Session Pata.Disk)) :
    (Pata.fileDriver faults number).Sound Pata.FlagsAgree file ∧
    (∀ file : OpenFile Vga.Session, Vga.fileDriver.Sound Vga.FlushesShown file) ∧
    ∀ volume inode mode table1 table2 table3 blockCache handle,
      Ext2.Handle.new volume inode mode table1 table2 table3 blockCache = some handle →
        Ext2.Handle.fileDriver.Sound (fun _ _ => True) ⟨true, handle⟩ :=
  ⟨Pata.file_driver_sound file, Vga.file_driver_sound,
    fun _ _ _ _ _ _ _ _ => Ext2.Handle.file_driver_sound⟩

/-- Handles of both flags respect their mode, and so does any handle on an ext2 volume. -/
theorem opened_files_respected :
    (∀ call, Pata.FlagsAgree (Pata.eightSectorsFile 3) call) ∧
    (Pata.fileDriver (fun _ => none) 0).Sound Pata.FlagsAgree (Pata.eightSectorsFile 3) ∧
    ∃ handle, Ext2.Handle.new (Ext2.Cursor.twelveBlocks 0).volume
      (Ext2.Cursor.twelveBlocks 0).location.inode
        openModeRead [] [] [] [] = some handle ∧
      Ext2.Handle.fileDriver.Sound (fun _ _ => True) ⟨true, handle⟩ := by
  refine ⟨?_, (open_modes_respected _ _ _).1, _, rfl,
    (open_modes_respected (fun _ => none) 0 (Pata.eightSectorsFile 3)).2.2 _ _ _ _ _ _ _ _ rfl⟩
  intro call _ buf _
  decide

/-- A handle that was opened for reading changes the disk, and one that was opened for
writing is refused. -/
theorem pata_modes_confused :
    ¬(Pata.fileDriver (fun _ => none) 0).Sound (fun _ _ => True)
      (Pata.eightSectorsFile openModeRead) ∧
      ¬(Pata.fileDriver (fun _ => none) 0).Sound (fun _ _ => True)
        (Pata.eightSectorsFile openModeWrite) := by
  constructor
  · intro sound
    have respects := sound _ .start (.fwrite [7]) trivial
    have same := congrFun (congrFun (respects.reads (by decide)) 0) 0
    exact absurd same (by decide +kernel)
  · intro sound
    have respects := sound _ .start (.fwrite [7]) trivial
    exact respects.writes (by decide) [7] rfl id (by decide +kernel)

end Campix.Drivers
