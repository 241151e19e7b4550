import Campix.Drivers.Pata

/-!
# Runs on a handle of a PATA partition

`fread` and `fwrite` keep a handle inside its range. `fseek` bounds the new
position by the size of the whole disk, so a run stays inside exactly when none of
its seeks aims past the end of the range.
-/

namespace Campix.Drivers.Pata

open Lib.Word Lib.Outcome

set_option autoImplicit false

variable {κ : Type} {drive : Drive κ} {range : BlockDeviceRange} {controller : PataController}
variable {session : Session κ}

def BlockDeviceRange.bytes (range : BlockDeviceRange) : Nat := 512 * (range.stop - range.start)

def Event.Inside (range : BlockDeviceRange) : Event → Prop
  | .sector lba => range.start ≤ lba ∧ lba < range.stop
  | .subtraction left right => right ≤ left

structure Inside (session : Session κ) : Prop where
  position : session.handle.position ≤ session.handle.diskRange.bytes
  events : ∀ event ∈ session.events, event.Inside session.handle.diskRange

structure OnDisk (range : BlockDeviceRange) (controller : PataController) : Prop where
  ordered : range.start ≤ range.stop
  fits : range.stop ≤ controller.sectorCount

structure Sound (range : BlockDeviceRange) (controller : PataController) (session : Session κ) :
    Prop where
  inside : Inside session
  sameRange : session.handle.diskRange = range
  sameController : session.controller = controller

theorem sector_count_lt (controller : PataController) : controller.sectorCount < 2 ^ 32 := by
  have high := (controller.identifyData 61).toNat_lt
  have low := (controller.identifyData 60).toNat_lt
  apply Nat.or_lt_two_pow
  · rw [Nat.shiftLeft_eq]
    omega
  · omega

theorem size_bytes_eq (controller : PataController) :
    controller.sizeBytes = 512 * controller.sectorCount := by
  have bound := sector_count_lt controller
  rw [PataController.sizeBytes, mul64_of_lt (by omega), Nat.mul_comm]

theorem log_sound (sound : Sound range controller session) {event : Event}
    (inside : event.Inside range) : Sound range controller (session.log event) := by
  refine ⟨⟨sound.inside.position, ?_⟩, sound.sameRange, sound.sameController⟩
  intro other member
  rcases List.mem_cons.mp member with rfl | earlier
  · exact sound.sameRange ▸ inside
  · exact sound.inside.events other earlier

def At (range : BlockDeviceRange) (controller : PataController) (position : Nat)
    (session : Session κ) : Prop :=
  Sound range controller session ∧ session.handle.position = position

variable {position : Nat} {failed : Session κ → Prop}

theorem sub_at {left right : Nat} (standing : At range controller position session)
    (ordered : right ≤ left) :
    Yields (fun value after => value = left - right ∧ At range controller position after)
      failed (sub left right session) :=
  .ok ⟨sub64_of_le ordered, log_sound standing.1 ordered, standing.2⟩

theorem sector_sound {sector : Nat} (sound : Sound range controller session)
    (inside : range.start ≤ sector ∧ sector < range.stop) (cache : List UInt8) (drive : κ) :
    Sound range controller { session.log (.sector sector) with
      handle := { session.handle with sectorCache := cache }, drive := drive } := by
  have logged : Sound range controller (session.log (.sector sector)) := log_sound sound inside
  exact ⟨⟨logged.inside.position, logged.inside.events⟩, logged.sameRange, logged.sameController⟩

theorem read_sector_at {sector : Nat} (standing : At range controller position session)
    (inside : range.start ≤ sector ∧ sector < range.stop) :
    Yields (fun _ => At range controller position) (Sound range controller)
      (readSector drive sector session) := by
  unfold readSector
  cases drive.readSector sector session.drive with
  | ok data after => exact .ok ⟨sector_sound standing.1 inside data after, standing.2⟩
  | error reason after => exact .error (sector_sound standing.1 inside _ after)

theorem write_sector_at {sector : Nat} (standing : At range controller position session)
    (inside : range.start ≤ sector ∧ sector < range.stop) :
    Yields (fun _ => At range controller position) (Sound range controller)
      (writeSector drive sector session) := by
  unfold writeSector
  cases drive.writeSector sector session.handle.sectorCache session.drive with
  | ok nothing after => exact .ok ⟨sector_sound standing.1 inside _ after, standing.2⟩
  | error reason after => exact .error (sector_sound standing.1 inside _ after)

theorem update_handle_at {change : PataFsFileHandle → PataFsFileHandle} {moved : Nat}
    (sound : Sound range controller session)
    (keeps : (change session.handle).diskRange = session.handle.diskRange)
    (lands : (change session.handle).position = moved) (bound : moved ≤ range.bytes) :
    Yields (fun _ => At range controller moved) failed (updateHandle change session) := by
  refine .ok ⟨⟨⟨?_, ?_⟩, keeps.trans sound.sameRange, sound.sameController⟩, lands⟩
  · change (change session.handle).position ≤ (change session.handle).diskRange.bytes
    rw [lands, keeps, sound.sameRange]
    exact bound
  · intro event member
    change event.Inside (change session.handle).diskRange
    rw [keeps]
    exact sound.inside.events event member

theorem get_at (standing : At range controller position session) :
    Yields (fun value after => value = after ∧ At range controller position after)
      failed ((get : Call κ (Session κ)) session) :=
  .ok ⟨rfl, standing⟩

theorem load_sector_at {sector : Nat} (standing : At range controller position session)
    (inside : range.start ≤ sector ∧ sector < range.stop) :
    Yields (fun _ => At range controller position) (Sound range controller)
      (loadSector drive sector session) := by
  unfold loadSector
  apply yields_bind (get_at standing)
  rintro value after ⟨rfl, standing⟩
  split_ifs with missing
  · apply yields_bind (read_sector_at standing inside)
    intro _ loaded standing
    have bound := standing.1.inside.position
    rw [standing.1.sameRange, standing.2] at bound
    exact update_handle_at standing.1 rfl standing.2 bound
  · exact .ok standing

theorem sector_inside {position : Nat} (left : position < range.bytes) :
    range.start ≤ position / 512 + range.start ∧ position / 512 + range.start < range.stop := by
  unfold BlockDeviceRange.bytes at left
  omega

/-- The position and the sector after a round that copies `toCopy` bytes. -/
theorem round_moves {position toCopy : Nat} (onDisk : OnDisk range controller)
    (room : position + toCopy ≤ range.bytes) :
    add64 position toCopy = position + toCopy ∧
      add64 ((position + toCopy) / 512) range.start = (position + toCopy) / 512 + range.start := by
  have small := sector_count_lt controller
  have ordered := onDisk.ordered
  have fits := onDisk.fits
  unfold BlockDeviceRange.bytes at room
  exact ⟨add64_of_lt (by omega), add64_of_lt (by omega)⟩

theorem fread_loop_sound (onDisk : OnDisk range controller) {toRead : Nat} (rounds : Nat) :
    ∀ {session : Session κ} {position bytesRead : Nat} (buf : List UInt8),
      At range controller position session → bytesRead ≤ toRead →
      position + (toRead - bytesRead) ≤ range.bytes →
      Yields (fun _ => Sound range controller) (Sound range controller)
        (freadLoop drive toRead rounds buf bytesRead (position / 512 + range.start) session) := by
  induction rounds with
  | zero =>
      intro session position bytesRead buf standing _ _
      exact .ok standing.1
  | succ rounds ih =>
      intro session position bytesRead buf standing counted room
      rw [freadLoop]
      split_ifs with more
      · have left : position < range.bytes := by omega
        apply yields_bind (load_sector_at standing (sector_inside left))
        intro _ loaded standing
        apply yields_bind (get_at standing)
        rintro value second ⟨rfl, standing⟩
        dsimp only
        rw [standing.2, standing.1.sameRange]
        apply yields_bind (sub_at standing (by omega : position % 512 ≤ 512))
        rintro remainingInSector third ⟨rfl, standing⟩
        apply yields_bind (sub_at standing more.le)
        rintro remainingToRead fourth ⟨rfl, standing⟩
        have bound : position + min (512 - position % 512) (toRead - bytesRead) ≤ range.bytes := by
          omega
        obtain ⟨moved, sector⟩ := round_moves onDisk bound
        rw [moved, sector]
        apply yields_bind (update_handle_at standing.1 rfl rfl bound)
        intro _ fifth standing
        exact ih _ standing (by omega) (by omega)
      · exact .ok standing.1

theorem read_back_at {sector : Nat} (toCopy : Nat) (standing : At range controller position session)
    (inside : range.start ≤ sector ∧ sector < range.stop) :
    Yields (fun _ => At range controller position) (Sound range controller)
      (readBack drive sector toCopy session) := by
  unfold readBack
  split_ifs with part
  · exact read_sector_at standing inside
  · exact .ok standing

theorem fwrite_loop_sound (onDisk : OnDisk range controller) (buf : List UInt8) {toWrite : Nat}
    (rounds : Nat) :
    ∀ {session : Session κ} {position bytesWritten : Nat},
      At range controller position session → bytesWritten ≤ toWrite →
      position + (toWrite - bytesWritten) ≤ range.bytes →
      Yields (fun _ => Sound range controller) (Sound range controller)
        (fwriteLoop drive buf toWrite rounds bytesWritten (position / 512 + range.start)
          session) := by
  induction rounds with
  | zero =>
      intro session position bytesWritten standing _ _
      exact .ok standing.1
  | succ rounds ih =>
      intro session position bytesWritten standing counted room
      rw [fwriteLoop]
      split_ifs with more
      · have left : position < range.bytes := by omega
        have inside := sector_inside left
        apply yields_bind (get_at standing)
        rintro value first ⟨rfl, standing⟩
        dsimp only
        rw [standing.2, standing.1.sameRange]
        apply yields_bind (sub_at standing (by omega : position % 512 ≤ 512))
        rintro remainingInSector second ⟨rfl, standing⟩
        apply yields_bind (sub_at standing more.le)
        rintro remainingToWrite third ⟨rfl, standing⟩
        have bound : position + min (512 - position % 512) (toWrite - bytesWritten) ≤
            range.bytes := by
          omega
        obtain ⟨moved, sector⟩ := round_moves onDisk bound
        rw [moved, sector]
        apply yields_bind (read_back_at _ standing inside)
        intro _ fourth standing
        apply yields_bind (update_handle_at standing.1 rfl standing.2 left.le)
        intro _ fifth standing
        apply yields_bind (write_sector_at standing inside)
        intro _ sixth standing
        apply yields_bind (update_handle_at standing.1 rfl rfl bound)
        intro _ seventh standing
        exact ih standing (by omega) (by omega)
      · exact .ok standing.1

/-- What `fread` and `fwrite` compute before their loop. -/
theorem transfer_bounds (onDisk : OnDisk range controller) {position : Nat}
    (bound : position ≤ range.bytes) (length : Nat) :
    mul64 (range.stop - range.start) 512 = range.bytes ∧
      add64 (position / 512) range.start = position / 512 + range.start ∧
      position + (min length (range.bytes - position) - 0) ≤ range.bytes := by
  have small := sector_count_lt controller
  have ordered := onDisk.ordered
  have fits := onDisk.fits
  unfold BlockDeviceRange.bytes at bound ⊢
  refine ⟨?_, add64_of_lt (by omega), by omega⟩
  rw [mul64_of_lt (by omega), Nat.mul_comm]

theorem fread_sound (onDisk : OnDisk range controller) (buf : List UInt8)
    (sound : Sound range controller session) :
    Yields (fun _ => Sound range controller) (Sound range controller)
      (fread drive buf session) := by
  have standing : At range controller session.handle.position session := ⟨sound, rfl⟩
  have bound := sound.inside.position
  rw [sound.sameRange] at bound
  obtain ⟨bytes, sector, room⟩ := transfer_bounds onDisk bound buf.length
  unfold fread
  apply yields_bind (get_at standing)
  rintro value first ⟨rfl, standing⟩
  split_ifs with present unreadable
  · exact .error standing.1
  · rw [standing.1.sameRange, standing.2]
    apply yields_bind (sub_at standing onDisk.ordered)
    rintro sectors second ⟨rfl, standing⟩
    dsimp only
    rw [bytes, sector]
    apply yields_bind (sub_at standing bound)
    rintro available third ⟨rfl, standing⟩
    exact fread_loop_sound onDisk _ buf standing (Nat.zero_le _) room
  · exact .error standing.1

theorem fwrite_sound (onDisk : OnDisk range controller) (buf : List UInt8)
    (sound : Sound range controller session) :
    Yields (fun _ => Sound range controller) (Sound range controller)
      (fwrite drive buf session) := by
  have standing : At range controller session.handle.position session := ⟨sound, rfl⟩
  have bound := sound.inside.position
  rw [sound.sameRange] at bound
  obtain ⟨bytes, sector, room⟩ := transfer_bounds onDisk bound buf.length
  unfold fwrite
  apply yields_bind (get_at standing)
  rintro value first ⟨rfl, standing⟩
  split_ifs with unreadable stale present
  · exact .error standing.1
  · exact .error standing.1
  · rw [standing.1.sameRange, standing.2]
    apply yields_bind (sub_at standing onDisk.ordered)
    rintro sectors second ⟨rfl, standing⟩
    dsimp only
    rw [bytes, sector]
    apply yields_bind (sub_at standing bound)
    rintro available third ⟨rfl, standing⟩
    exact fwrite_loop_sound onDisk buf _ standing (Nat.zero_le _) room
  · exact .error standing.1

def seekTarget (position len : Nat) : SeekPosition → Option Nat
  | .fromStart target => if len < target then none else some target
  | .fromCurrent offset =>
      if offset < 0 then
        if position < offset.natAbs then none else some (position - offset.natAbs)
      else if len < position + offset.toNat then none else some (position + offset.toNat)
  | .fromEnd target => if len < target then none else some (len - target)

theorem fseek_helper_at {len : Nat} (small : len < 2 ^ 64) (seek : SeekPosition)
    (standing : At range controller position session) :
    Yields (fun value after => value = seekTarget position len seek ∧
        At range controller position after) failed (fseekHelper seek position len session) := by
  cases seek with
  | fromStart target =>
      unfold fseekHelper seekTarget
      dsimp only
      split_ifs with outside
      · exact .ok ⟨rfl, standing⟩
      · exact .ok ⟨rfl, standing⟩
  | fromCurrent offset =>
      unfold fseekHelper seekTarget
      dsimp only
      by_cases backward : offset < 0
      · rw [if_pos backward, if_pos backward]
        split_ifs with outside
        · exact .ok ⟨rfl, standing⟩
        · apply yields_bind (sub_at standing (by omega))
          rintro moved after ⟨rfl, standing⟩
          exact .ok ⟨rfl, standing⟩
      · have rejected : (position + offset.toNat ≥ 2 ^ 64 ∨ add64 position offset.toNat > len) ↔
            len < position + offset.toNat := by
          by_cases overflow : position + offset.toNat < 2 ^ 64
          · rw [add64_of_lt overflow]
            omega
          · omega
        simp only [if_neg backward, rejected]
        split_ifs with outside
        · exact .ok ⟨rfl, standing⟩
        · rw [add64_of_lt (by omega)]
          exact .ok ⟨rfl, standing⟩
  | fromEnd target =>
      unfold fseekHelper seekTarget
      dsimp only
      split_ifs with outside
      · exact .ok ⟨rfl, standing⟩
      · apply yields_bind (sub_at standing (by omega))
        rintro moved after ⟨rfl, standing⟩
        exact .ok ⟨rfl, standing⟩

def SeekInside (range : BlockDeviceRange) (controller : PataController) (position : Nat) :
    SeekPosition → Prop
  | .fromStart target => target ≤ controller.sizeBytes → target ≤ range.bytes
  | .fromCurrent offset => 0 ≤ offset → position + offset.toNat ≤ controller.sizeBytes →
      position + offset.toNat ≤ range.bytes
  | .fromEnd target => target ≤ controller.sizeBytes → controller.sizeBytes - target ≤ range.bytes

theorem seek_inside_iff {position : Nat} (bound : position ≤ range.bytes) (seek : SeekPosition) :
    SeekInside range controller position seek ↔
      ∀ target, seekTarget position controller.sizeBytes seek = some target →
        target ≤ range.bytes := by
  cases seek with
  | fromStart target =>
      unfold SeekInside seekTarget
      grind
  | fromCurrent offset =>
      unfold SeekInside seekTarget
      grind
  | fromEnd target =>
      unfold SeekInside seekTarget
      grind

theorem size_bytes_lt (controller : PataController) : controller.sizeBytes < 2 ^ 64 := by
  have bound := sector_count_lt controller
  rw [size_bytes_eq]
  omega

theorem fseek_sound {seek : SeekPosition} (sound : Sound range controller session)
    (aims : controller.isPresent → SeekInside range controller session.handle.position seek) :
    Yields (fun _ => Sound range controller) (Sound range controller) (fseek seek session) := by
  have standing : At range controller session.handle.position session := ⟨sound, rfl⟩
  have bound := sound.inside.position
  rw [sound.sameRange] at bound
  unfold fseek
  apply yields_bind (get_at standing)
  rintro value first ⟨rfl, standing⟩
  rw [standing.1.sameController, standing.2]
  split_ifs with present
  · have lands := (seek_inside_iff bound seek).mp (aims present)
    apply yields_bind (fseek_helper_at (size_bytes_lt controller) seek standing)
    rintro target second ⟨rfl, standing⟩
    cases found : seekTarget session.handle.position controller.sizeBytes seek with
    | none => exact .error standing.1
    | some moved =>
        apply yields_bind (update_handle_at standing.1 rfl rfl (lands moved found))
        intro _ third standing
        exact .ok standing.1
  · exact .error standing.1

theorem fseek_escapes {seek : SeekPosition} (sound : Sound range controller session)
    (present : controller.isPresent)
    (aims : ¬SeekInside range controller session.handle.position seek) :
    ¬Inside (stateAfter (fseek seek session)) := by
  have standing : At range controller session.handle.position session := ⟨sound, rfl⟩
  have bound := sound.inside.position
  rw [sound.sameRange] at bound
  rw [seek_inside_iff bound] at aims
  push Not at aims
  obtain ⟨moved, found, outside⟩ := aims
  have escapes : Yields (fun _ after => after.handle.position = moved ∧
      after.handle.diskRange = range) (fun _ => False) (fseek seek session) := by
    unfold fseek
    apply yields_bind (get_at standing)
    rintro value first ⟨rfl, standing⟩
    rw [standing.1.sameController, standing.2, if_neg (by simpa using present)]
    apply yields_bind (fseek_helper_at (size_bytes_lt controller) seek standing)
    rintro target second ⟨rfl, standing⟩
    rw [found]
    exact .ok ⟨rfl, standing.1.sameRange⟩
  revert escapes
  generalize fseek seek session = result
  intro escapes inside
  cases escapes with
  | ok holds =>
      have bounded := inside.position
      change _ ≤ _ at bounded
      rw [stateAfter, holds.1, holds.2] at bounded
      omega
  | error never => exact never

inductive Op where
  | fseek (seek : SeekPosition)
  | fread (buf : List UInt8)
  | fwrite (buf : List UInt8)

def step (drive : Drive κ) (session : Session κ) : Op → Session κ
  | .fseek seek => stateAfter (fseek seek session)
  | .fread buf => stateAfter (fread drive buf session)
  | .fwrite buf => stateAfter (fwrite drive buf session)

def Always (drive : Drive κ) (Holds : Session κ → Prop) : Session κ → List Op → Prop
  | session, [] => Holds session
  | session, op :: ops => Holds session ∧ Always drive Holds (step drive session op) ops

def SeeksInside (drive : Drive κ) : Session κ → List Op → Prop
  | _, [] => True
  | session, op :: ops =>
      (∀ seek, op = .fseek seek → session.controller.isPresent →
        SeekInside session.handle.diskRange session.controller session.handle.position seek) ∧
      SeeksInside drive (step drive session op) ops

theorem step_sound (drive : Drive κ) (onDisk : OnDisk range controller)
    (sound : Sound range controller session) (op : Op)
    (aims : ∀ seek, op = .fseek seek → session.controller.isPresent →
      SeekInside session.handle.diskRange session.controller session.handle.position seek) :
    Sound range controller (step drive session op) := by
  cases op with
  | fread buf => exact yields_state (fread_sound onDisk buf sound)
  | fwrite buf => exact yields_state (fwrite_sound onDisk buf sound)
  | fseek seek =>
      have aimed := aims seek rfl
      rw [sound.sameRange, sound.sameController] at aimed
      exact yields_state (fseek_sound sound aimed)

theorem always_holds {Holds : Session κ → Prop} {ops : List Op}
    (always : Always drive Holds session ops) : Holds session := by
  cases ops with
  | nil => exact always
  | cons op ops => exact always.1

/-- A run stays inside the partition exactly when its seeks do. -/
theorem run_inside_iff_seeks_inside (drive : Drive κ) (session : Session κ)
    (onDisk : OnDisk session.handle.diskRange session.controller) (inside : Inside session)
    (ops : List Op) : Always drive Inside session ops ↔ SeeksInside drive session ops := by
  have start : Sound session.handle.diskRange session.controller session := ⟨inside, rfl, rfl⟩
  revert start onDisk
  generalize session.handle.diskRange = range
  generalize session.controller = controller
  intro onDisk start
  induction ops generalizing session with
  | nil => exact ⟨fun _ => trivial, fun _ => inside⟩
  | cons op ops ih =>
      constructor
      · intro always
        have aims : ∀ seek, op = .fseek seek → session.controller.isPresent →
            SeekInside session.handle.diskRange session.controller session.handle.position
              seek := by
          rintro seek rfl present
          by_contra outside
          rw [start.sameRange, start.sameController] at outside
          rw [start.sameController] at present
          exact fseek_escapes start present outside (always_holds always.2)
        have next := step_sound drive onDisk start op aims
        exact ⟨aims, (ih _ next.inside next).mp always.2⟩
      · intro seeks
        have next := step_sound drive onDisk start op seeks.1
        exact ⟨inside, (ih _ next.inside next).mpr seeks.2⟩

def blankDrive : Drive Unit where
  readSector _ := pure (List.replicate 512 0)
  writeSector _ _ := pure ()

def smallController : PataController where
  identifyData word := if word = 60 then 8 else if word = 61 then 0 else 1
  generation := 0

def smallPartition : Session Unit where
  handle := ⟨openModeRead, 0, none, List.replicate 512 0, 0, ⟨2, 4⟩⟩
  controller := smallController
  drive := ()
  events := []

theorem small_partition_on_disk :
    OnDisk smallPartition.handle.diskRange smallPartition.controller ∧ Inside smallPartition :=
  ⟨⟨by decide, by decide⟩, by decide, fun _ member => absurd member List.not_mem_nil⟩

theorem seek_within_small_partition :
    Always blankDrive Inside smallPartition
      [.fseek (.fromStart 1000), .fread [0, 0], .fwrite [1, 2, 3]] ↔
    SeeksInside blankDrive smallPartition
      [.fseek (.fromStart 1000), .fread [0, 0], .fwrite [1, 2, 3]] :=
  run_inside_iff_seeks_inside blankDrive smallPartition small_partition_on_disk.1
    small_partition_on_disk.2 _

/-- A seek to byte 2048 of the disk passes the end of the partition at byte 1024. -/
theorem seek_past_small_partition :
    ¬Always blankDrive Inside smallPartition [.fseek (.fromStart 2048), .fread [0]] := by
  intro always
  have inside := always.2.1.position
  exact absurd inside (by decide +kernel)

end Campix.Drivers.Pata
