import Campix.Ext2.Catalogue
import Campix.Lib.Service

/-!
# The parts of a call

What lookups, updates, allocations and changes of the directory do to the catalogue. A
call is one part after the other, so what it does is what its parts do in turn.
-/

namespace Campix.Ext2.Namespace

open Lib.Fallible Lib.FirstFit Lib.Service Lib.Word
open Drivers Ext2Volume

set_option autoImplicit false

section Parts

variable {First Second : Type}

def Ends (names : Namespace) (answer : Except Stop First) (later : Catalogue)
    (result : EStateM.Result Stop Namespace First) : Prop :=
  ∃ after, result = returning answer after ∧ Houses after later ∧ after.frame = names.frame

variable {names : Namespace} {first : OnNamespace First} {rest : First → OnNamespace Second}
  {value : First}
  {answer : Except Stop Second} {middle later : Catalogue}

theorem ends_bind (one : Ends names (.ok value) middle (first names))
    (next : ∀ after, Houses after middle →
      after.frame = names.frame → Ends after answer later (rest value after)) :
    Ends names answer later ((first >>= rest) names) := by
  obtain ⟨between, returned, houses, frame⟩ := one
  obtain ⟨after, ended, still, same⟩ := next between houses frame
  exact ⟨after, (state_bind_ok returned).trans ended, still, same.trans frame⟩

theorem ends_bind_error {stop : Stop} (one : Ends names (.error stop) later (first names)) :
    Ends names (.error stop) later ((first >>= rest) names) := by
  obtain ⟨after, failed, houses, frame⟩ := one
  exact ⟨after, state_bind_error failed, houses, frame⟩

theorem ends_pure (houses : Houses names later) : Ends names (.ok value) later (.ok value names) :=
  ⟨names, rfl, houses, rfl⟩

end Parts

variable {names : Namespace} {catalogue : Catalogue} {number : Nat} {parentInode : Option Nat}
  {found : FoundInode}
  {inode : Inode} {raw : RawInode}

theorem frame_with_volume {after : Ext2Volume} (frame : after.frame = names.volume.frame) :
    (names.withVolume after).frame = names.frame := by
  rw [Namespace.frame, withVolume, frame, Namespace.frame]

section Inodes

variable (houses : Houses names catalogue)

include houses

theorem get_inode_part (first : 1 ≤ number) (last : number ≤ catalogue.inodesCount)
    (known : Inode.fromRaw (catalogue.records number) number parentInode = some found) :
    Ends names (.ok found) catalogue (Namespace.getInode number parentInode names) := by
  rw [← houses.count] at last
  obtain ⟨lba, offset, place⟩ := place_of_number houses.numbered houses.tables first last
  rw [← houses.records number first] at known
  obtain ⟨after, returned, reads⟩ :=
    get_inode_stored houses.tables houses.stores place first last parentInode known
  refine ⟨names.withVolume after, ?_, houses_reads houses reads, frame_with_volume reads.frame⟩
  rw [Namespace.getInode, state_bind_get]
  unfold onBlocks
  rw [returned]
  rfl

theorem update_raw_part (first : 1 ≤ number) (last : number ≤ catalogue.inodesCount)
    (other : number ≠ catalogue.number) (raw : RawInode) :
    Ends names (.ok ()) (catalogue.withRecord number raw)
      (onBlocks (updateInodeRaw number raw) names) := by
  rw [← houses.count] at last
  obtain ⟨lba, offset, place⟩ := place_of_number houses.numbered houses.tables first last
  obtain ⟨after, returned, records⟩ :=
    update_raw_stored houses.tables houses.stores place houses.numbered.writable first raw
  refine ⟨names.withVolume after, ?_, houses_records houses records fun same => absurd same other,
    frame_with_volume records.frame⟩
  unfold onBlocks
  rw [returned]
  rfl

theorem update_inode_part (first : 1 ≤ inode.inodeI) (last : inode.inodeI ≤ catalogue.inodesCount)
    (complete : inode.ossv2.length = 12)
    (same : { inode with generationNumber := add32 inode.generationNumber 1 }.toRawInode = raw)
    (linked : inode.inodeI = catalogue.number →
      ∃ linksCount, raw = (catalogue.records inode.inodeI).linked linksCount) :
    Ends names (.ok ()) (catalogue.withRecord inode.inodeI raw)
      (Namespace.updateInode inode names) := by
  rw [← houses.count] at last
  obtain ⟨lba, offset, place⟩ := place_of_number houses.numbered houses.tables first last
  obtain ⟨after, returned, records⟩ :=
    update_inode_stored houses.tables houses.stores place houses.numbered.writable first
      complete rfl
  rw [same] at records
  refine ⟨names.withVolume after, ?_,
    houses_records houses records linked, frame_with_volume records.frame⟩
  unfold Namespace.updateInode onBlocks
  rw [returned]
  rfl

theorem relink_part (first : 1 ≤ number) (last : number ≤ catalogue.inodesCount)
    (change : Nat → Nat)
    (known : Inode.fromRaw (catalogue.records number) number none = some found) :
    Ends names (.ok ()) (catalogue.relinked number change) (changeLinks number change names) := by
  obtain ⟨numberIs, -, links⟩ := number_found known
  refine ends_bind (get_inode_part houses first last known) fun after still frame => ?_
  have record : { found.toInode with
      linksCount := change found.linksCount
      generationNumber := add32 found.generationNumber 1 }.toRawInode =
        (catalogue.records number).linked (change (catalogue.records number).linksCount.toNat) := by
    have linked := to_raw_linked known found.dtime (change found.linksCount)
    have deletion : UInt32.ofNat found.dtime = (catalogue.records number).dtime :=
      congrArg RawInode.dtime (Inode.to_raw_from_raw known)
    rw [deletion, links] at linked
    rw [links]
    exact linked
  have firstAt : 1 ≤ { found.toInode with linksCount := change found.linksCount }.inodeI :=
    numberIs.symm ▸ first
  have updated := update_inode_part still firstAt (numberIs.symm ▸ last)
    (complete_found known) record
    fun _ => ⟨_, by rw [numberIs]⟩
  change Ends after _ (catalogue.withRecord found.inodeI _) _ at updated
  rw [numberIs] at updated
  exact updated

end Inodes

theorem free_inode_spec {used : Nat → Bool} {count : Nat}
    (free : freeInode used count = some number) :
    1 ≤ number ∧ number < count ∧ used number = false := by
  have first := free_inode_first used count
  rw [free] at first
  obtain ⟨below, ⟨least, unused⟩, -⟩ := first
  exact ⟨least, below, unused⟩

def newFile (time : Nat) : RawInode :=
  { RawInode.empty with
    typeAndPermissions := UInt16.ofNat (InodeType.file.toRaw ||| childPermissions)
    ctime := UInt32.ofNat time
    mtime := UInt32.ofNat time
    atime := UInt32.ofNat time }

section Numbers

variable (houses : Houses names catalogue)

include houses

theorem free_inode_housed :
    freeInode names.inUse names.inodesCount = freeInode catalogue.used catalogue.inodesCount := by
  unfold freeInode
  rw [houses.count]
  refine List.find?_congr fun number member => ?_
  rw [houses.used number (List.mem_range'_1.mp member).1]

theorem no_inode_part (none_ : freeInode catalogue.used catalogue.inodesCount = none) :
    Ends names (.error (.failure (.error .outOfSpace))) catalogue (allocInodeAny names) := by
  refine ⟨names, ?_, houses, rfl⟩
  rw [alloc_inode_any_eq houses.numbered, free_inode_housed houses, none_]
  rfl

theorem alloc_inode_part (free : freeInode catalogue.used catalogue.inodesCount = some number) :
    Ends names (.ok number) (catalogue.withMark number true) (allocInodeAny names) := by
  obtain ⟨first, last, -⟩ := free_inode_spec free
  refine ⟨names.marked number true, ?_,
    houses_marked houses first last true fun impossible => ?_, rfl⟩
  · rw [alloc_inode_any_eq houses.numbered, free_inode_housed houses, free]
    rfl
  · exact absurd impossible (by decide)

theorem allocate_part (around : Surroundings)
    (free : freeInode catalogue.used catalogue.inodesCount = some number) :
    Ends names (.ok number) ((catalogue.withMark number true).withRecord number
      (newFile around.time))
      (allocateInode around 0 0 .file childPermissions 0 none names) := by
  obtain ⟨first, last, unused⟩ := free_inode_spec free
  have other : number ≠ catalogue.number := by
    rintro rfl
    exact Bool.noConfusion (unused.symm.trans houses.busy)
  refine ends_bind (alloc_inode_part houses free) fun after still frame => ?_
  exact ends_bind (update_raw_part still first last.le other (newFile around.time))
    fun _ written _ =>
    ends_pure written

theorem release_part (first : 1 ≤ number) (last : number < catalogue.inodesCount)
    (other : number ≠ catalogue.number) (used : catalogue.used number = true) :
    Ends names (.ok ()) (catalogue.withMark number false) (releaseInode number names) := by
  obtain ⟨allocator, freed, found, returned, marked⟩ := dealloc_inode_eq houses.numbered first
    (houses.count.symm ▸ last) ((houses.used number first).trans used)
  refine ⟨names.marked number false, ?_, houses_marked houses first last false fun _ => other, rfl⟩
  rw [releaseInode, state_bind_get, found]
  dsimp only
  rw [returned]
  exact congrArg (EStateM.Result.ok ()) marked

end Numbers

section Directory

variable (houses : Houses names catalogue)

include houses

theorem directory_known (parentInode : Option Nat) :
    ∃ found, Inode.fromRaw (catalogue.records catalogue.number)
      catalogue.number parentInode = some found ∧
      found.inodeType = .directory := by
  obtain ⟨found, known, laid, -⟩ := houses.directory
  exact ⟨_, found_of_parent known parentInode, laid.on.directory⟩

theorem directory_of_known
    (known : Inode.fromRaw (catalogue.records catalogue.number)
      catalogue.number parentInode = some found) :
    ∃ directory, IsDirectory names.haveTypeField names.volume (catalogue.records catalogue.number)
      catalogue.number
      catalogue.row directory ∧ directory.toInode = found.toInode := by
  obtain ⟨directory, isDirectory⟩ := houses.directory
  have same := found_of_parent isDirectory.known parentInode
  rw [known] at same
  cases Option.some.inj same
  exact ⟨directory, isDirectory, rfl⟩

theorem insert_part (around : Surroundings) {place : Nat}
    (sized : (around.heap place).Sized names.volume.blockSize)
    (rounds : names.volume.blockSize ≤ around.rounds) (nonzero : number ≠ 0)
    (word : number < 2 ^ 32)
    {name : List UInt8} (short : name.length ≤ 255) (entryType : DirectoryEntryType)
    {row : Row DirectoryEntry}
    (placed : catalogue.row.insert entryNeed (newEntry number name) = some row)
    (known : Inode.fromRaw (catalogue.records catalogue.number)
      catalogue.number parentInode = some found) :
    ∃ entry, Ends names (.ok entry) (catalogue.withRow row)
      (onIterator found.toInode (around.heap place)
      (DirectoryIterator.insertEntry around.rounds number name entryType) names) := by
  obtain ⟨directory, isDirectory, same⟩ := directory_of_known houses known
  obtain ⟨entry, after, inserted, -, relaid⟩ := DirectoryIterator.insert_row isDirectory.laid
    (openModeRead ||| openModeWrite) around.rounds sized rounds nonzero word short entryType placed
  refine ⟨entry, names.withVolume after, ?_,
    houses_row houses isDirectory relaid, frame_with_volume relaid.frame⟩
  rw [onIterator, state_bind_get, ← same]
  unfold onDirectory
  rw [inserted]
  rfl

theorem refused_part (around : Surroundings) {place : Nat}
    (sized : (around.heap place).Sized names.volume.blockSize)
    {name : List UInt8} (long : name.length > 255) (entryType : DirectoryEntryType)
    (known : Inode.fromRaw (catalogue.records catalogue.number)
      catalogue.number parentInode = some found) :
    Ends names (.error (.failure (.error .nameTooLong)))
      catalogue (onIterator found.toInode (around.heap place)
      (DirectoryIterator.insertEntry around.rounds number name entryType) names) := by
  obtain ⟨directory, isDirectory, same⟩ := directory_of_known houses known
  refine ⟨names, ?_, houses, rfl⟩
  rw [onIterator, state_bind_get, ← same]
  unfold onDirectory
  rw [DirectoryIterator.long_name_refused isDirectory.laid sized entryType long]
  rfl

theorem delete_part (around : Surroundings) {place entryInode : Nat}
    (sized : (around.heap place).Sized names.volume.blockSize)
    (rounds : names.volume.blockSize ≤ around.rounds)
    {row : Row DirectoryEntry} (removed : catalogue.row.remove (hasNumber entryInode) = some row)
    (known : Inode.fromRaw (catalogue.records catalogue.number)
      catalogue.number parentInode = some found) :
    Ends names (.ok ()) (catalogue.withRow row) (onDirectory
      (Directory.deleteEntry names.haveTypeField found.toInode entryInode (around.heap place)
        around.rounds)
        names) := by
  obtain ⟨directory, isDirectory, same⟩ := directory_of_known houses known
  obtain ⟨after, deleted, relaid⟩ :=
    DirectoryIterator.delete_row isDirectory.laid sized rounds removed
  refine ⟨names.withVolume after, ?_,
    houses_row houses isDirectory relaid, frame_with_volume relaid.frame⟩
  rw [← same]
  unfold onDirectory
  rw [deleted]
  rfl

theorem list_part (around : Surroundings) {place : Nat}
    (sized : (around.heap place).Sized names.volume.blockSize)
    (rounds : names.volume.blockSize < around.rounds)
    (known : Inode.fromRaw (catalogue.records catalogue.number)
      catalogue.number parentInode = some found) :
    Ends names (.ok { entries := catalogue.row.items, inode := found }) catalogue
      (newDirectory around (around.heap place) found names) := by
  obtain ⟨directory, isDirectory, same⟩ := directory_of_known houses known
  obtain ⟨more, isMore⟩ : ∃ more, around.rounds = more + 1 := ⟨around.rounds - 1, by omega⟩
  obtain ⟨after, listed, relaid⟩ :=
    DirectoryIterator.list_row isDirectory.laid openModeRead more sized (by omega)
  refine ⟨names.withVolume after, ?_,
    houses_row houses isDirectory relaid, frame_with_volume relaid.frame⟩
  have read : onDirectory (Directory.new names.haveTypeField found.toInode openModeRead
      (around.heap place)
      around.rounds) names = .ok ⟨catalogue.row.items, directory.toInode⟩
        (names.withVolume after) := by
    rw [← same]
    unfold onDirectory
    rw [isMore, listed]
    rfl
  rw [newDirectory, state_bind_get, state_bind_ok read]
  rfl

end Directory

theorem size_of_empty (empty : raw.IsEmpty)
    (known : Inode.fromRaw raw number parentInode = some found)
    (fileSize64 : Bool) : found.getSize fileSize64 = 0 ∧ found.directBlockPointers 0 = 0 := by
  obtain ⟨low, high, first⟩ := empty
  unfold Inode.fromRaw at known
  split at known
  · cases known
  · cases known
    unfold Inode.getSize
    dsimp only
    rw [low, high, first]
    split_ifs <;> decide

/-- The file of the inode is truncated to nothing: the inode is updated, and nothing else. -/
theorem empty_part (houses : Houses names catalogue) (around : Surroundings) {place : Nat}
    (sized : (around.heap place).Sized names.volume.blockSize) (first : 1 ≤ inode.inodeI)
    (last : inode.inodeI ≤ catalogue.inodesCount) (other : inode.inodeI ≠ catalogue.number)
    (complete : inode.ossv2.length = 12) (empty : inode.getSize names.volume.fileSize64 = 0)
    (hole : inode.directBlockPointers 0 = 0)
    (same : { inode with generationNumber := add32 inode.generationNumber 1 }.toRawInode = raw) :
    Ends names (.ok ()) (catalogue.withRecord inode.inodeI raw)
      (withHandle inode (openModeRead ||| openModeWrite) (around.heap place) (do
        Handle.truncate 0
        Handle.flush) names) := by
  rw [← houses.count] at last
  obtain ⟨lba, offset, place⟩ := place_of_number houses.numbered houses.tables first last
  obtain ⟨inside, -⟩ := place_inside houses.tables place
  obtain ⟨handle, made, blank⟩ :=
    Handle.blank_new houses.stores.positive empty (openModeRead ||| openModeWrite) sized
  obtain ⟨after, truncated, records⟩ :=
    Handle.truncate_empty blank empty houses.tables houses.stores place
    houses.numbered.writable first complete (by rw [hole]; omega)
  rw [same] at records
  refine ⟨names.withVolume after.cursor.volume,
    ?_, houses_records houses records fun same => absurd same other,
    frame_with_volume records.frame⟩
  rw [withHandle, state_bind_get, made]
  dsimp only
  rw [truncated]
  rfl

end Campix.Ext2.Namespace
