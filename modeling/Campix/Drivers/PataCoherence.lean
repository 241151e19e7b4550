import Campix.Drivers.PataRuns
import Campix.Lib.Slice

/-!
# Several handles on one PATA disk

Each handle keeps a copy of the last sector it touched, under nothing but the
number of that sector. The handles here share a disk whose commands may fail, and
the history of the commands says which copies are outdated: another handle wrote
the sector since, or the write of the handle's own copy failed. As long as no
`fread` starts in an outdated copy, every byte read is the byte on the disk.
-/

namespace Campix.Drivers.Pata

open Lib.Word Lib.Outcome Lib.Fallible Lib.Slice

set_option autoImplicit false

inductive Command where
  | read (lba : Nat) (done : Bool)
  | write (lba : Nat) (done : Bool)
  deriving DecidableEq

/-- The bytes of each sector, and the commands of every handle, the latest first. -/
structure Disk where
  bytes : Nat → Nat → UInt8
  history : List (Nat × Command)

namespace Disk

def sector (self : Disk) (lba : Nat) : List UInt8 := (List.range 512).map (self.bytes lba)

def log (self : Disk) (handle : Nat) (command : Command) : Disk :=
  { self with history := (handle, command) :: self.history }

/-- The disk as one handle reaches it. A command that fails moves no data, and which
commands fail is left open. -/
def driveOf (faults : Nat → Option PataErrtype) (handle : Nat) : Drive Disk where
  readSector lba self :=
    match faults self.history.length with
    | some error => .error error (self.log handle (.read lba false))
    | none => .ok (self.sector lba) (self.log handle (.read lba true))
  writeSector lba data self :=
    match faults self.history.length with
    | some error => .error error (self.log handle (.write lba false))
    | none =>
        .ok () { self.log handle (.write lba true) with
          bytes := Function.update self.bytes lba fun offset => data.getD offset 0 }

/-- The byte behind a position of a handle on the sectors from `start`. -/
def byteAt (self : Disk) (start position : Nat) : UInt8 :=
  self.bytes (add64 (position / 512) start) (position % 512)

end Disk

def outdated (handle sector : Nat) : List (Nat × Command) → Bool
  | [] => false
  | (issuer, .read lba done) :: older =>
      if issuer = handle ∧ lba = sector ∧ done then false else outdated handle sector older
  | (issuer, .write lba done) :: older =>
      if lba = sector then
        if issuer = handle then !done else done || outdated handle sector older
      else
        outdated handle sector older

/-- The open handles of one disk, over the whole disk or over partitions of it. -/
structure System where
  handles : Nat → PataFsFileHandle
  controller : PataController
  disk : Disk

namespace System

def session (self : System) (handle : Nat) : Session Disk :=
  ⟨self.handles handle, self.controller, self.disk, []⟩

def store (self : System) (handle : Nat) (after : Session Disk) : System where
  handles := Function.update self.handles handle after.handle
  controller := after.controller
  disk := after.drive

end System

structure HandleCall where
  handle : Nat
  op : Op

def systemStep (faults : Nat → Option PataErrtype) (system : System) (call : HandleCall) : System :=
  system.store call.handle
    (step (Disk.driveOf faults call.handle) (system.session call.handle) call.op)

def Throughout (faults : Nat → Option PataErrtype) (Holds : System → HandleCall → Prop) :
    System → List HandleCall → Prop
  | _, [] => True
  | system, call :: calls =>
      Holds system call ∧ Throughout faults Holds (systemStep faults system call) calls

/-- The bytes that a successful `fread` returns are those on the disk. -/
def ReadsDisk (faults : Nat → Option PataErrtype) (system : System) (call : HandleCall) : Prop :=
  ∀ buf count filled after, call.op = .fread buf →
    fread (Disk.driveOf faults call.handle) buf (system.session call.handle) =
      .ok (count, filled) after →
    ∀ place < count, filled[place]? =
      some (after.drive.byteAt (system.handles call.handle).diskRange.start
        (add64 (system.handles call.handle).position place))

/-- How many bytes an `fread` transfers. -/
def readable (controller : PataController) (handle : PataFsFileHandle) (buf : List UInt8) : Nat :=
  if ¬controller.isPresent ∨ handle.mode &&& openModeRead = 0 then
    0
  else
    min buf.length
      (sub64 (mul64 (sub64 handle.diskRange.stop handle.diskRange.start) 512) handle.position)

/-- No `fread` starts in a sector of which its handle has an outdated copy. -/
def StartsUpToDate (system : System) (call : HandleCall) : Prop :=
  ∀ buf, call.op = .fread buf → readable system.controller (system.handles call.handle) buf ≠ 0 →
    (system.handles call.handle).lastSector =
      some (add64 ((system.handles call.handle).position / 512)
        (system.handles call.handle).diskRange.start) →
    outdated call.handle
      (add64 ((system.handles call.handle).position / 512)
        (system.handles call.handle).diskRange.start) system.disk.history = false

/-- A handle as `fopen` returns it. -/
structure Fresh (handle : PataFsFileHandle) : Prop where
  position : handle.position = 0
  lastSector : handle.lastSector = none
  sectorCache : handle.sectorCache = List.replicate 512 0

structure Coherent (number : Nat) (handle : PataFsFileHandle) (disk : Disk) : Prop where
  sized : handle.sectorCache.length = 512
  position : handle.position < 2 ^ 64
  copy : ∀ sector, handle.lastSector = some sector →
    outdated number sector disk.history = false → handle.sectorCache = disk.sector sector

variable {faults : Nat → Option PataErrtype} {number : Nat} {others : Nat → PataFsFileHandle}
variable {handle : PataFsFileHandle} {disk : Disk} {session : Session Disk}

theorem length_sector (disk : Disk) (lba : Nat) : (disk.sector lba).length = 512 := by
  rw [Disk.sector, List.length_map, List.length_range]

theorem sector_congr {first second : Disk} (same : first.bytes = second.bytes) (lba : Nat) :
    first.sector lba = second.sector lba := by
  rw [Disk.sector, Disk.sector, same]

theorem coherent_fresh (fresh : Fresh handle) : Coherent number handle disk := by
  constructor
  · rw [fresh.sectorCache, List.length_replicate]
  · rw [fresh.position]
    omega
  · intro sector cached
    rw [fresh.lastSector] at cached
    cases cached

/-- The commands that leave every byte, and every judgement of the copy, as they were. -/
theorem coherent_log {issuer : Nat} {command : Command} (coherent : Coherent number handle disk)
    (same : ∀ sector, outdated number sector ((issuer, command) :: disk.history) =
      outdated number sector disk.history) :
    Coherent number handle (disk.log issuer command) := by
  constructor
  · exact coherent.sized
  · exact coherent.position
  · intro sector cached upToDate
    rw [Disk.log, same] at upToDate
    exact coherent.copy sector cached upToDate

theorem outdated_read_of_other {issuer lba sector : Nat} {done : Bool}
    {history : List (Nat × Command)} (other : issuer ≠ number) :
    outdated number sector ((issuer, .read lba done) :: history) =
      outdated number sector history := by
  rw [outdated, if_neg fun own => other own.1]

theorem outdated_failed_read {issuer lba sector : Nat} {history : List (Nat × Command)} :
    outdated number sector ((issuer, .read lba false) :: history) =
      outdated number sector history := by
  rw [outdated, if_neg fun own => Bool.false_ne_true own.2.2]

theorem outdated_failed_write_of_other {issuer lba sector : Nat} {history : List (Nat × Command)}
    (other : issuer ≠ number) :
    outdated number sector ((issuer, .write lba false) :: history) =
      outdated number sector history := by
  rw [outdated, if_neg other, Bool.false_or, ite_self]

theorem sector_written (disk : Disk) (number lba : Nat) {data : List UInt8}
    (sized : data.length = 512) :
    ({ disk.log number (.write lba true) with
      bytes := Function.update disk.bytes lba fun offset => data.getD offset 0 } :
        Disk).sector lba =
      data := by
  apply List.ext_getElem
  · rw [length_sector, sized]
  · intro place inside bound
    simp [Disk.sector, List.getD_eq_getElem?_getD, List.getElem?_eq_getElem bound]

/-- Another handle's write makes the copies of that sector outdated, and no other copy. -/
theorem coherent_write_of_other {issuer lba : Nat} {data : List UInt8} (other : issuer ≠ number)
    (coherent : Coherent number handle disk) :
    Coherent number handle { disk.log issuer (.write lba true) with
      bytes := Function.update disk.bytes lba fun offset => data.getD offset 0 } := by
  constructor
  · exact coherent.sized
  · exact coherent.position
  · intro sector cached upToDate
    have elsewhere : lba ≠ sector := by
      intro here
      simp [Disk.log, outdated, here, other] at upToDate
    have earlier : outdated number sector disk.history = false := by
      simpa [Disk.log, outdated, elsewhere] using upToDate
    have same : disk.bytes sector = Function.update disk.bytes lba
        (fun offset => data.getD offset 0) sector :=
      (Function.update_of_ne (Ne.symm elsewhere) _ _).symm
    rw [coherent.copy sector cached earlier, Disk.sector, Disk.sector, same]

theorem get_session (session : Session Disk) :
    (get : Call Disk (Session Disk)) session = .ok session session :=
  rfl

/-- The copy of this handle and those of the others, between two calls. -/
structure Kept (number : Nat) (others : Nat → PataFsFileHandle) (session : Session Disk) :
    Prop where
  own : Coherent number session.handle session.drive
  rest : ∀ other, other ≠ number → Coherent other (others other) session.drive

theorem rest_read {lba : Nat} {done : Bool}
    (rest : ∀ other, other ≠ number → Coherent other (others other) disk) :
    ∀ other, other ≠ number →
      Coherent other (others other) (disk.log number (.read lba done)) := by
  intro other differs
  apply coherent_log (rest other differs)
  intro sector
  exact outdated_read_of_other (Ne.symm differs)

structure SectorRead (number sector : Nat) (before after : Session Disk) : Prop where
  data : after.handle.sectorCache = before.drive.sector sector
  handle : after.handle = { before.handle with sectorCache := after.handle.sectorCache }
  drive : after.drive = before.drive.log number (.read sector true)

theorem read_sector_yields (sector : Nat) (kept : Kept number others session) :
    Yields (fun _ => SectorRead number sector session) (Kept number others)
      (readSector (Disk.driveOf faults number) sector session) := by
  unfold readSector Disk.driveOf
  dsimp only
  generalize data : session.drive.sector sector = found
  cases faults session.drive.history.length with
  | none => exact .ok ⟨data.symm, rfl, rfl⟩
  | some reason =>
      apply Yields.error
      constructor
      · apply coherent_log kept.own
        intro other
        exact outdated_failed_read
      · exact rest_read kept.rest

structure Loaded (number : Nat) (others : Nat → PataFsFileHandle) (before : Session Disk)
    (sector : Nat) (after : Session Disk) : Prop where
  kept : Kept number others after
  cached : after.handle.lastSector = some sector
  exact_ : after.handle.sectorCache = before.drive.sector sector
  bytes : after.drive.bytes = before.drive.bytes
  position : after.handle.position = before.handle.position
  range : after.handle.diskRange = before.handle.diskRange

theorem coherent_loaded {sector : Nat} {data : List UInt8} (loaded : data = disk.sector sector)
    (position : handle.position < 2 ^ 64) :
    Coherent number { handle with lastSector := some sector, sectorCache := data }
      (disk.log number (.read sector true)) := by
  constructor
  · rw [loaded, length_sector]
  · exact position
  · intro other cached _
    rw [loaded, ← Option.some.inj cached, Disk.sector, Disk.sector, Disk.log]

theorem load_sector_yields (sector : Nat) (kept : Kept number others session)
    (upToDate : session.handle.lastSector = some sector →
      session.handle.sectorCache = session.drive.sector sector) :
    Yields (fun _ => Loaded number others session sector) (Kept number others)
      (loadSector (Disk.driveOf faults number) sector session) := by
  unfold loadSector
  rw [state_bind_ok (get_session session)]
  split_ifs with missing
  · apply yields_bind (read_sector_yields sector kept)
    intro _ after read
    have own : Coherent number { session.handle with
        lastSector := some sector, sectorCache := after.handle.sectorCache } after.drive := by
      rw [read.drive]
      exact coherent_loaded read.data kept.own.position
    have rest : ∀ other, other ≠ number → Coherent other (others other) after.drive := by
      rw [read.drive]
      exact rest_read kept.rest
    have updated : { after.handle with lastSector := some sector } =
        { session.handle with
          lastSector := some sector, sectorCache := after.handle.sectorCache } := by
      rw [read.handle]
    apply Yields.ok
    dsimp only
    rw [updated]
    refine ⟨⟨own, rest⟩, rfl, read.data, ?_, rfl, rfl⟩
    change after.drive.bytes = session.drive.bytes
    rw [read.drive, Disk.log]
  · have cached : session.handle.lastSector = some sector := not_not.mp missing
    apply Yields.ok
    exact ⟨kept, cached, upToDate cached, rfl, rfl, rfl⟩

theorem write_sector_yields (sector : Nat) (sized : session.handle.sectorCache.length = 512)
    (position : session.handle.position < 2 ^ 64)
    (cached : session.handle.lastSector = some sector)
    (rest : ∀ other, other ≠ number → Coherent other (others other) session.drive) :
    Yields (fun _ => Kept number others) (Kept number others)
      (writeSector (Disk.driveOf faults number) sector session) := by
  unfold writeSector Disk.driveOf
  dsimp only
  cases faults session.drive.history.length with
  | none =>
      apply Yields.ok
      refine ⟨⟨sized, position, ?_⟩, ?_⟩
      · intro other here _
        change session.handle.lastSector = some other at here
        have same : sector = other := Option.some.inj (cached.symm.trans here)
        subst same
        exact (sector_written session.drive number sector sized).symm
      · intro other differs
        exact coherent_write_of_other (Ne.symm differs) (rest other differs)
  | some reason =>
      apply Yields.error
      constructor
      · constructor
        · exact sized
        · exact position
        · intro other here upToDate
          change session.handle.lastSector = some other at here
          have same : sector = other := Option.some.inj (cached.symm.trans here)
          subst same
          -- the failed write is the latest command on this sector
          simp [Disk.log, outdated] at upToDate
      · intro other differs
        apply coherent_log (rest other differs)
        intro lba
        exact outdated_failed_write_of_other (Ne.symm differs)

theorem sub_yields {failed : Session Disk → Prop} (left right : Nat) :
    Yields (fun value after => value = sub64 left right ∧
        after = session.log (.subtraction left right)) failed (sub left right session) :=
  .ok ⟨rfl, rfl⟩

theorem update_handle_yields {failed : Session Disk → Prop}
    (change : PataFsFileHandle → PataFsFileHandle) :
    Yields (fun _ after => after = { session with handle := change session.handle }) failed
      (updateHandle change session) :=
  .ok rfl

theorem within_sector {position offset : Nat} (small : position < 2 ^ 64)
    (inside : position % 512 + offset < 512) :
    add64 position offset / 512 = position / 512 ∧
      add64 position offset % 512 = position % 512 + offset := by
  have bound : position + offset < 2 ^ 64 := by omega
  rw [add64_of_lt bound]
  constructor
  · omega
  · omega

theorem add64_add64 (position first second : Nat) :
    add64 (add64 position first) second = add64 position (first + second) := by
  unfold add64
  omega

theorem round_bytes {position start toCopy place : Nat} (small : position < 2 ^ 64)
    (fits : toCopy ≤ 512 - position % 512) (inside : place < toCopy) :
    (((disk.sector (add64 (position / 512) start)).drop (position % 512)).take toCopy)[place]? =
      some (disk.byteAt start (add64 position place)) := by
  have below : position % 512 + place < 512 := by omega
  obtain ⟨quotient, remainder⟩ := within_sector small below
  rw [List.getElem?_take_of_lt inside, List.getElem?_drop, Disk.sector, List.getElem?_map,
    List.getElem?_range below, Disk.byteAt, quotient, remainder]
  rfl

/-- What the loop of `fread` leaves in the buffer from `done` on. -/
structure Filled (number : Nat) (others : Nat → PataFsFileHandle) (disk : Disk)
    (start position done toRead : Nat) (buf : List UInt8) (result : Nat × List UInt8)
    (after : Session Disk) : Prop where
  kept : Kept number others after
  bytes : after.drive.bytes = disk.bytes
  count : result.1 = toRead
  front : ∀ place < done, result.2[place]? = buf[place]?
  filled : ∀ place, done ≤ place → place < toRead →
    result.2[place]? = some (disk.byteAt start (add64 position (place - done)))

theorem filled_round {later : Disk} {start position done toCopy toRead : Nat} {buf : List UInt8}
    {result : Nat × List UInt8} {after : Session Disk} (small : position < 2 ^ 64)
    (fits : toCopy ≤ 512 - position % 512) (room : done + toCopy ≤ buf.length)
    (same : later.bytes = disk.bytes)
    (filled : Filled number others later start (add64 position toCopy) (done + toCopy) toRead
      (splice buf done (((disk.sector (add64 (position / 512) start)).drop
        (position % 512)).take toCopy)) result after) :
    Filled number others disk start position done toRead buf result after := by
  have length : (((disk.sector (add64 (position / 512) start)).drop (position % 512)).take
      toCopy).length = toCopy := by
    rw [List.length_take, List.length_drop, length_sector]
    omega
  have spliced := @getElem?_splice UInt8 buf _ done (show done +
    (((disk.sector (add64 (position / 512) start)).drop (position % 512)).take
      toCopy).length ≤ buf.length by omega)
  rw [length] at spliced
  constructor
  · exact filled.kept
  · rw [filled.bytes, same]
  · exact filled.count
  · intro place before
    rw [filled.front place (by omega)]
    exact (spliced place).trans (if_neg (by omega))
  · intro place behind inside
    by_cases now : place < done + toCopy
    · rw [filled.front place now]
      refine ((spliced place).trans (if_pos ⟨behind, now⟩)).trans ?_
      exact round_bytes small fits (by omega)
    · have onward : toCopy + (place - (done + toCopy)) = place - done := by omega
      rw [filled.filled place (by omega) inside,
        add64_add64, onward, Disk.byteAt, Disk.byteAt, same]

theorem fread_loop_filled {toRead : Nat} (rounds : Nat) :
    ∀ {session : Session Disk} {position start bytesRead : Nat} (buf : List UInt8),
      Kept number others session → session.handle.position = position →
      session.handle.diskRange.start = start →
      (bytesRead < toRead →
        session.handle.lastSector = some (add64 (position / 512) start) →
        session.handle.sectorCache = session.drive.sector (add64 (position / 512) start)) →
      bytesRead ≤ toRead → toRead ≤ buf.length → toRead - bytesRead ≤ rounds →
      Yields (Filled number others session.drive start position bytesRead toRead buf)
        (Kept number others)
        (freadLoop (Disk.driveOf faults number) toRead rounds buf bytesRead
          (add64 (position / 512) start) session) := by
  induction rounds with
  | zero =>
      intro session position start bytesRead buf kept _ _ _ counted _ enough
      apply Yields.ok
      refine ⟨kept, rfl, by dsimp only; omega, fun _ _ => rfl, ?_⟩
      intro place behind inside
      omega
  | succ rounds ih =>
      intro session position start bytesRead buf kept standing starts upToDate counted room enough
      rw [freadLoop]
      split_ifs with more
      · apply yields_bind (load_sector_yields _ kept (upToDate more))
        intro _ after loaded
        have small : position < 2 ^ 64 := standing ▸ kept.own.position
        have here : after.handle.position = position := loaded.position.trans standing
        have range : after.handle.diskRange.start = start := by
          rw [loaded.range]
          exact starts
        have bytes : after.drive.bytes = session.drive.bytes := loaded.bytes
        rw [state_bind_ok (get_session after)]
        dsimp only
        rw [here, range, loaded.exact_]
        apply yields_bind (sub_yields _ _)
        rintro remainingInSector second ⟨rfl, rfl⟩
        apply yields_bind (sub_yields _ _)
        rintro remainingToRead third ⟨rfl, rfl⟩
        rw [sub64_of_le (by omega : position % 512 ≤ 512), sub64_of_le more.le]
        apply yields_bind (update_handle_yields _)
        rintro _ fourth rfl
        generalize copies : min (512 - position % 512) (toRead - bytesRead) = toCopy
        have moved : Coherent number { after.handle with position := add64 position toCopy }
            after.drive :=
          ⟨loaded.kept.own.sized, add64_lt _ _, loaded.kept.own.copy⟩
        have length : (splice buf bytesRead
            (((session.drive.sector (add64 (position / 512) start)).drop (position % 512)).take
              toCopy)).length = buf.length := by
          apply length_splice
          rw [List.length_take]
          omega
        refine yields_weaken (ih _ ?_ rfl range ?_ (by omega) ?_ (by omega)) ?_ ?_
        · exact ⟨moved, loaded.kept.rest⟩
        · intro _ cached
          have same : add64 (position / 512) start = add64 (add64 position toCopy / 512) start :=
            Option.some.inj (loaded.cached.symm.trans cached)
          change after.handle.sectorCache = after.drive.sector _
          rw [loaded.exact_, same]
          exact sector_congr bytes.symm _
        · omega
        · intro result final filled
          exact filled_round small (by omega) (by omega) bytes filled
        · intro final holds
          exact holds
      · apply Yields.ok
        refine ⟨kept, rfl, by dsimp only; omega, fun _ _ => rfl, ?_⟩
        intro place behind inside
        omega

structure Between (others : Nat → PataFsFileHandle) (number position : Nat)
    (session : Session Disk) : Prop where
  sized : session.handle.sectorCache.length = 512
  position : session.handle.position = position
  rest : ∀ other, other ≠ number → Coherent other (others other) session.drive

theorem read_back_yields (sector toCopy : Nat) (kept : Kept number others session) :
    Yields (fun _ => Between others number session.handle.position) (Kept number others)
      (readBack (Disk.driveOf faults number) sector toCopy session) := by
  unfold readBack
  split_ifs with part
  · apply yields_weaken (read_sector_yields sector kept)
    · intro _ after read
      constructor
      · rw [read.data, length_sector]
      · rw [read.handle]
      · rw [read.drive]
        exact rest_read kept.rest
    · intro after holds
      exact holds
  · exact .ok ⟨kept.own.sized, rfl, kept.rest⟩

theorem fwrite_loop_kept (buf : List UInt8) (toWrite rounds : Nat) :
    ∀ {session : Session Disk} (bytesWritten sector : Nat), Kept number others session →
      Yields (fun _ => Kept number others) (Kept number others)
        (fwriteLoop (Disk.driveOf faults number) buf toWrite rounds bytesWritten sector
          session) := by
  induction rounds with
  | zero =>
      intro session bytesWritten sector kept
      exact .ok kept
  | succ rounds ih =>
      intro session bytesWritten sector kept
      rw [fwriteLoop]
      split_ifs with more
      · rw [state_bind_ok (get_session session)]
        dsimp only
        apply yields_bind (sub_yields _ _)
        rintro remainingInSector second ⟨rfl, rfl⟩
        apply yields_bind (sub_yields _ _)
        rintro remainingToWrite third ⟨rfl, rfl⟩
        rw [sub64_of_le (by omega : session.handle.position % 512 ≤ 512)]
        generalize copies : min (512 - session.handle.position % 512) _ = toCopy
        have same : Kept number others ((session.log (.subtraction 512
            (session.handle.position % 512))).log (.subtraction toWrite bytesWritten)) :=
          ⟨kept.own, kept.rest⟩
        apply yields_bind (read_back_yields sector toCopy same)
        intro _ fourth between
        have there : fourth.handle.position = session.handle.position := between.position
        apply yields_bind (update_handle_yields _)
        rintro _ fifth rfl
        have sized : (splice fourth.handle.sectorCache (session.handle.position % 512)
            ((buf.drop bytesWritten).take toCopy)).length = 512 := by
          rw [← between.sized]
          apply length_splice
          rw [between.sized, List.length_take]
          omega
        have small : fourth.handle.position < 2 ^ 64 := by
          rw [there]
          exact kept.own.position
        refine yields_bind (write_sector_yields sector ?_ ?_ ?_ ?_) ?_
        · exact sized
        · exact small
        · rfl
        · exact between.rest
        · intro _ sixth written
          apply yields_bind (update_handle_yields _)
          rintro _ seventh rfl
          apply ih
          exact ⟨⟨written.own.sized, add64_lt _ _, written.own.copy⟩, written.rest⟩
      · exact .ok kept

theorem fwrite_kept (buf : List UInt8) (kept : Kept number others session) :
    Yields (fun _ => Kept number others) (Kept number others)
      (fwrite (Disk.driveOf faults number) buf session) := by
  unfold fwrite
  rw [state_bind_ok (get_session session)]
  split_ifs with unreadable stale present
  · exact .error kept
  · exact .error kept
  · apply yields_bind (sub_yields _ _)
    rintro sectors second ⟨rfl, rfl⟩
    apply yields_bind (sub_yields _ _)
    rintro available third ⟨rfl, rfl⟩
    exact fwrite_loop_kept buf _ _ 0 _ ⟨kept.own, kept.rest⟩
  · exact .error kept

theorem sub64_lt {left right : Nat} (bound : left < 2 ^ 64) (ordered : right ≤ left) :
    sub64 left right < 2 ^ 64 := by
  rw [sub64_of_le ordered]
  omega

theorem fseek_helper_kept {failed : Session Disk → Prop} (seek : SeekPosition) {position len : Nat}
    (bound : len < 2 ^ 64) (small : position < 2 ^ 64) (kept : Kept number others session) :
    Yields (fun target after => Kept number others after ∧
        ∀ moved, target = some moved → moved < 2 ^ 64) failed
      (fseekHelper seek position len session) := by
  have refused : ∀ moved : Nat, (none : Option Nat) = some moved → moved < 2 ^ 64 := by
    intro moved impossible
    cases impossible
  cases seek with
  | fromStart target =>
      unfold fseekHelper
      dsimp only
      split_ifs with outside
      · exact .ok ⟨kept, refused⟩
      · apply Yields.ok
        refine ⟨kept, ?_⟩
        intro moved lands
        cases lands
        omega
  | fromCurrent offset =>
      unfold fseekHelper
      dsimp only
      split_ifs with backward outside above
      · exact .ok ⟨kept, refused⟩
      · apply yields_bind (sub_yields _ _)
        rintro moved after ⟨rfl, rfl⟩
        apply Yields.ok
        refine ⟨⟨kept.own, kept.rest⟩, ?_⟩
        intro moved lands
        cases lands
        exact sub64_lt small (by omega)
      · exact .ok ⟨kept, refused⟩
      · apply Yields.ok
        refine ⟨kept, ?_⟩
        intro moved lands
        cases lands
        exact add64_lt _ _
  | fromEnd target =>
      unfold fseekHelper
      dsimp only
      split_ifs with outside
      · exact .ok ⟨kept, refused⟩
      · apply yields_bind (sub_yields _ _)
        rintro moved after ⟨rfl, rfl⟩
        apply Yields.ok
        refine ⟨⟨kept.own, kept.rest⟩, ?_⟩
        intro moved lands
        cases lands
        exact sub64_lt bound (by omega)

theorem fseek_kept (seek : SeekPosition) (kept : Kept number others session) :
    Yields (fun _ => Kept number others) (Kept number others) (fseek seek session) := by
  unfold fseek
  rw [state_bind_ok (get_session session)]
  split_ifs with present
  · apply yields_bind (fseek_helper_kept seek (size_bytes_lt session.controller)
      kept.own.position kept)
    rintro target second ⟨standing, lands⟩
    cases target with
    | none => exact .error standing
    | some moved =>
        apply yields_bind (update_handle_yields _)
        rintro _ third rfl
        exact .ok ⟨⟨standing.own.sized, lands moved rfl, standing.own.copy⟩, standing.rest⟩
  · exact .error kept

/-- An `fread` that does not start in an outdated copy. -/
theorem fread_filled (buf : List UInt8) (kept : Kept number others session)
    (starts : readable session.controller session.handle buf ≠ 0 →
      session.handle.lastSector =
        some (add64 (session.handle.position / 512) session.handle.diskRange.start) →
      outdated number (add64 (session.handle.position / 512) session.handle.diskRange.start)
        session.drive.history = false) :
    Yields (fun result after => Kept number others after ∧
        ∀ place < result.1, result.2[place]? = some (after.drive.byteAt
          session.handle.diskRange.start (add64 session.handle.position place)))
      (Kept number others) (fread (Disk.driveOf faults number) buf session) := by
  unfold fread
  rw [state_bind_ok (get_session session)]
  split_ifs with present unreadable
  · exact .error kept
  · apply yields_bind (sub_yields _ _)
    rintro sectors second ⟨rfl, rfl⟩
    apply yields_bind (sub_yields _ _)
    rintro available third ⟨rfl, rfl⟩
    have transferred : readable session.controller session.handle buf = min buf.length
        (sub64 (mul64 (sub64 session.handle.diskRange.stop session.handle.diskRange.start) 512)
          session.handle.position) := by
      rw [readable, if_neg (by simp [present, unreadable])]
    rw [← transferred]
    refine yields_weaken (fread_loop_filled _ buf ⟨kept.own, kept.rest⟩ rfl rfl ?_ (Nat.zero_le _)
      ?_ (Nat.sub_le _ _)) ?_ ?_
    · intro some_ cached
      exact kept.own.copy _ cached (starts (by omega) cached)
    · rw [transferred]
      exact Nat.min_le_left _ _
    · intro result after filled
      refine ⟨filled.kept, ?_⟩
      intro place inside
      rw [filled.filled place (Nat.zero_le _) (filled.count ▸ inside), Nat.sub_zero, Disk.byteAt,
        Disk.byteAt, filled.bytes]
    · intro after holds
      exact holds
  · exact .error kept

def AllCoherent (system : System) : Prop :=
  ∀ number, Coherent number (system.handles number) system.disk

theorem kept_session {system : System} (coherent : AllCoherent system) (number : Nat) :
    Kept number system.handles (system.session number) :=
  ⟨coherent number, fun other _ => coherent other⟩

theorem coherent_store {system : System} {after : Session Disk}
    (kept : Kept number system.handles after) : AllCoherent (system.store number after) := by
  intro other
  by_cases own : other = number
  · subst own
    change Coherent other (Function.update system.handles other after.handle other) after.drive
    rw [Function.update_self]
    exact kept.own
  · change Coherent other (Function.update system.handles number after.handle other) after.drive
    rw [Function.update_of_ne own]
    exact kept.rest other own

/-- A call leaves the copies coherent and, if it is an `fread`, returns the bytes of the disk. -/
theorem call_coherent {system : System} (coherent : AllCoherent system) (call : HandleCall)
    (starts : StartsUpToDate system call) :
    AllCoherent (systemStep faults system call) ∧ ReadsDisk faults system call := by
  have kept := kept_session coherent call.handle
  unfold systemStep ReadsDisk step
  cases called : call.op with
  | fseek seek =>
      constructor
      · exact coherent_store (yields_state (fseek_kept seek kept))
      · intro buf count filled after other
        cases other
  | fwrite data =>
      constructor
      · exact coherent_store (yields_state (fwrite_kept data kept))
      · intro buf count filled after other
        cases other
  | fread data =>
      have reads := @fread_filled faults _ _ _ data kept (starts data called)
      constructor
      · apply coherent_store
        apply yields_state
        exact yields_weaken reads (fun _ _ holds => holds.1) fun _ holds => holds
      · intro buf count filled after same returned
        cases same
        rw [returned] at reads
        cases reads with
        | ok holds => exact holds.2

/-- Nothing read is stale in a run in which no `fread` starts in an outdated copy. -/
theorem reads_up_to_date (faults : Nat → Option PataErrtype) (system : System)
    (fresh : ∀ number, Fresh (system.handles number)) (calls : List HandleCall)
    (starts : Throughout faults StartsUpToDate system calls) :
    Throughout faults (ReadsDisk faults) system calls := by
  have coherent : AllCoherent system := fun number => coherent_fresh (fresh number)
  clear fresh
  induction calls generalizing system with
  | nil => trivial
  | cons call calls ih =>
      obtain ⟨next, reads⟩ := @call_coherent faults _ coherent call starts.1
      exact ⟨reads, ih _ starts.2 next⟩

def openedHandle : PataFsFileHandle :=
  ⟨openModeRead, 0, none, List.replicate 512 0, 0, ⟨0, 8⟩⟩

def eightSectors : System where
  handles _ := openedHandle
  controller := smallController
  disk := ⟨fun _ _ => 0, []⟩

theorem eight_sectors_up_to_date :
    Throughout (fun _ => none) (ReadsDisk fun _ => none) eightSectors
      [⟨0, .fwrite [7]⟩, ⟨1, .fread [0]⟩] := by
  refine reads_up_to_date _ _ (fun _ => ⟨rfl, rfl, rfl⟩) _ ⟨?_, ?_, trivial⟩
  · intro buf other
    cases other
  · intro buf same _ cached
    exact absurd cached (by decide +kernel)

def firstByteStale (faults : Nat → Option PataErrtype) (system : System) (handle : Nat)
    (buf : List UInt8) : Bool :=
  match fread (Disk.driveOf faults handle) buf (system.session handle) with
  | .ok (count, filled) after =>
      0 < count ∧ filled[0]? ≠ some (after.drive.byteAt (system.handles handle).diskRange.start
        (add64 (system.handles handle).position 0))
  | .error _ _ => false

theorem first_byte_stale {system : System} {buf : List UInt8}
    (stale : firstByteStale faults system number buf = true) :
    ¬ReadsDisk faults system ⟨number, .fread buf⟩ := by
  intro reads
  unfold firstByteStale at stale
  cases returned : fread (Disk.driveOf faults number) buf (system.session number) with
  | error reason after =>
      rw [returned] at stale
      cases stale
  | ok result after =>
      rw [returned] at stale
      have differs := of_decide_eq_true stale
      exact differs.2 (reads buf result.1 result.2 after rfl returned 0 differs.1)

/-- The first handle keeps its copy when the second writes the sector, and a handle
whose write failed keeps what it could not write. -/
theorem stale_bytes_read :
    ¬Throughout (fun _ => none) (ReadsDisk fun _ => none) eightSectors
        [⟨0, .fread [0]⟩, ⟨1, .fwrite [7]⟩, ⟨0, .fseek (.fromStart 0)⟩, ⟨0, .fread [0]⟩] ∧
      ¬Throughout (fun command => if command = 1 then some .timeout else none)
        (ReadsDisk fun command => if command = 1 then some .timeout else none) eightSectors
        [⟨0, .fwrite [7]⟩, ⟨0, .fread [0]⟩] := by
  constructor
  · exact mt (fun reads => reads.2.2.2.1) (first_byte_stale (by decide +kernel))
  · exact mt (fun reads => reads.2.1) (first_byte_stale (by decide +kernel))

end Campix.Drivers.Pata
