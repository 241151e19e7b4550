import Campix.Ext2.NamespaceSteps

/-!
# Calls on the files of a directory

Files are created, deleted and looked up by name in a directory of one block. The answers
and the volume behind a call are those of the catalogue. A creation takes the lowest number
that is not in use, and keeps it even when it then refuses the name; a deletion takes a link
from the directory as well as from the file.
-/

namespace Campix.Ext2

open Lib.Fallible Lib.FirstFit Lib.Service Lib.Word Drivers

set_option autoImplicit false

inductive FileCall where
  | create (name : List Char)
  | find (name : List Char)
  | delete (name : List Char)
  | list

inductive FileAnswer where
  | file (number : Nat)
  | deleted
  | listed (entries : List DirectoryEntry)
  deriving DecidableEq

namespace Namespace

def numberOf (file : Ext2File) : Nat :=
  match file.fsSpecific with
  | none => 0
  | some (.inode inode) => inode.inodeI
  | some (.directory directory) => directory.inode.inodeI

def entriesOf (file : Ext2File) : List DirectoryEntry :=
  match file.fsSpecific with
  | some (.directory directory) => directory.entries
  | _ => []

/-- The directory as its callers have it: the root is kept, another one is read. -/
def openDirectory (around : Surroundings) (number : Nat) (path : List Char) :
    OnNamespace Ext2File :=
  if number = 2 then getRoot else getFileForInode around (around.heap 0) number none path

end Namespace

namespace FileCall

open Namespace

def run (number : Nat) (path : List Char) (around : Surroundings) : FileCall →
    OnNamespace FileAnswer
  | create name => do
      let directory ← openDirectory around number path
      let file ← createChild around directory name .file
      return .file (numberOf file)
  | find name => do
      let directory ← openDirectory around number path
      let file ← getChild around directory name
      return .file (numberOf file)
  | delete name => do
      let directory ← openDirectory around number path
      let file ← getChild around directory name
      deleteFile around file
      return .deleted
  | list => do
      let directory ← openDirectory around number path
      return .listed (entriesOf directory)

end FileCall

namespace Catalogue

def find (self : Catalogue) (name : List Char) : Option DirectoryEntry :=
  self.row.items.find? fun entry => entry.hasName name

def Opens (self : Catalogue) (number : Nat) : Prop :=
  1 ≤ number ∧ number ≤ self.inodesCount ∧ (self.records number).IsFile

/-- A number loses its last link only when it is in use and its file is empty. -/
def Deletes (self : Catalogue) (number : Nat) : Prop :=
  self.Opens number ∧ (sub16 (self.records number).linksCount.toNat 1 = 0 →
    number < self.inodesCount ∧ self.used number = true ∧ (self.records number).IsEmpty)

instance (self : Catalogue) (number : Nat) : Decidable (self.Opens number) :=
  inferInstanceAs (Decidable (1 ≤ number ∧
    number ≤ self.inodesCount ∧ (self.records number).IsFile))

instance (self : Catalogue) (number : Nat) : Decidable (self.Deletes number) :=
  inferInstanceAs (Decidable (self.Opens number ∧
    (sub16 (self.records number).linksCount.toNat 1 = 0 →
    number < self.inodesCount ∧ self.used number = true ∧ (self.records number).IsEmpty)))

/-- The number is in use, and its record is that of a new file with one link. -/
def taken (self : Catalogue) (number time : Nat) : Catalogue :=
  ((self.withMark number true).withRecord number (Namespace.newFile time)).relinked number
    fun count => add16 count 1

def withoutLink (self : Catalogue) (number time : Nat) : Catalogue :=
  let links := sub16 (self.records number).linksCount.toNat 1
  let deleted := self.withRecord number
    { (self.records number).linked links with dtime := UInt32.ofNat (Namespace.deletionTime time) }
  if links = 0 then deleted.withMark number false else deleted

/-- The directory loses a link as well as the file. -/
def dropped (self : Catalogue) (number time : Nat) : Catalogue :=
  (self.relinked self.number fun count => sub16 count 1).withoutLink number time

theorem deletes_congr {self later : Catalogue} {number : Nat}
    (record : later.records number = self.records number)
    (count : later.inodesCount = self.inodesCount) (used : later.used = self.used)
    (deletes : self.Deletes number) :
    later.Deletes number := by
  unfold Deletes Opens
  rw [record, count, used]
  exact deletes

theorem without_link_row (self : Catalogue) (number time : Nat) (row : Row DirectoryEntry) :
    (self.withRow row).withoutLink number time = (self.withoutLink number time).withRow row := by
  unfold withoutLink
  dsimp only [withRow]
  split_ifs <;> rfl

theorem dropped_number (self : Catalogue) (number time : Nat) :
    (self.dropped number time).number = self.number := by
  unfold dropped withoutLink
  dsimp only
  split_ifs <;> rfl

def answer (time : Nat) (self : Catalogue) : FileCall →
    Option (Except VfsError FileAnswer × Catalogue)
  | .create name =>
      match Namespace.freeInode self.used self.inodesCount with
      | none => some (.error .outOfSpace, self)
      | some number =>
          if name.length > 255 then
            some (.error .nameTooLong, self.taken number time)
          else
            (self.row.insert entryNeed (newEntry number (name.map Namespace.charByte))).map
              fun row =>
              (.ok (.file number), (self.taken number time).withRow row)
  | .find name =>
      match self.find name with
      | none => some (.error .pathNotFound, self)
      | some entry => if self.Opens entry.inode then some (.ok (.file entry.inode), self) else none
  | .delete name =>
      match self.find name with
      | none => some (.error .pathNotFound, self)
      | some entry =>
          if self.Deletes entry.inode then
            (self.row.remove (hasNumber entry.inode)).map fun row =>
              (.ok .deleted, (self.dropped entry.inode time).withRow row)
          else
            none
  | .list => some (.ok (.listed self.row.items), self)

end Catalogue

section Answers

variable {catalogue later : Catalogue} {time : Nat} {name : List Char}
  {answer : Except VfsError FileAnswer}

open Namespace

theorem create_cases (given : catalogue.answer time (.create name) = some (answer, later)) :
    (freeInode catalogue.used catalogue.inodesCount = none ∧ answer = .error .outOfSpace ∧
      later = catalogue) ∨
      ∃ number, freeInode catalogue.used catalogue.inodesCount = some number ∧
        (name.length > 255 ∧ answer = .error .nameTooLong ∧ later = catalogue.taken number time ∨
          ∃ row, name.length ≤ 255 ∧ catalogue.row.insert entryNeed
            (newEntry number (name.map charByte)) = some row ∧
            answer = .ok (.file number) ∧ later = (catalogue.taken number time).withRow row) := by
  rw [Catalogue.answer] at given
  cases free : freeInode catalogue.used catalogue.inodesCount with
  | none =>
      rw [free] at given
      cases given
      exact .inl ⟨rfl, rfl, rfl⟩
  | some number =>
      rw [free] at given
      dsimp only at given
      split_ifs at given with long
      · cases given
        exact .inr ⟨number, rfl, .inl ⟨long, rfl, rfl⟩⟩
      · obtain ⟨row, placed, same⟩ := Option.map_eq_some_iff.mp given
        cases same
        exact .inr ⟨number, rfl, .inr ⟨row, Nat.not_lt.mp long, placed, rfl, rfl⟩⟩

theorem find_cases (given : catalogue.answer time (.find name) = some (answer, later)) :
    later = catalogue ∧ (catalogue.find name = none ∧ answer = .error .pathNotFound ∨
      ∃ entry, catalogue.find name = some entry ∧ catalogue.Opens entry.inode ∧
        answer = .ok (.file entry.inode)) := by
  rw [Catalogue.answer] at given
  cases present : catalogue.find name with
  | none =>
      rw [present] at given
      cases given
      exact ⟨rfl, .inl ⟨rfl, rfl⟩⟩
  | some entry =>
      rw [present] at given
      dsimp only at given
      split_ifs at given with opens
      cases given
      exact ⟨rfl, .inr ⟨entry, rfl, opens, rfl⟩⟩

theorem delete_cases (given : catalogue.answer time (.delete name) = some (answer, later)) :
    (catalogue.find name = none ∧ answer = .error .pathNotFound ∧ later = catalogue) ∨
      ∃ entry row, catalogue.find name = some entry ∧ catalogue.Deletes entry.inode ∧
        catalogue.row.remove (hasNumber entry.inode) = some row ∧ answer = .ok .deleted ∧
        later = (catalogue.dropped entry.inode time).withRow row := by
  rw [Catalogue.answer] at given
  cases present : catalogue.find name with
  | none =>
      rw [present] at given
      cases given
      exact .inl ⟨rfl, rfl, rfl⟩
  | some entry =>
      rw [present] at given
      dsimp only at given
      split_ifs at given with deletes
      obtain ⟨row, removed, same⟩ := Option.map_eq_some_iff.mp given
      cases same
      exact .inr ⟨entry, row, rfl, deletes, removed, rfl, rfl⟩

end Answers

/-- The heap has buffers of the size of a block, and there are rounds for all records of one. -/
def Surroundings.Enough (around : Surroundings) (blockSize : Nat) : Prop :=
  (∀ place, (around.heap place).Sized blockSize) ∧ blockSize < around.rounds

namespace Namespace

/-- The entries that are kept of the root are those that it has. -/
def Coherent (names : Namespace) (catalogue : Catalogue) : Prop :=
  catalogue.number = 2 → ∃ kept, names.rootDirFsData = some kept ∧
    kept.entries = catalogue.row.items ∧
    kept.inode.inodeI = catalogue.number

def settings (self : Namespace) : Namespace := { self.frame with rootDirFsData := none }

section Serves

variable {First Second : Type}

/-- The call ends with the answer, and the volume is what the catalogue behind it says. -/
def Serves (names : Namespace) (answer : Except Stop First) (later : Catalogue)
    (result : EStateM.Result Stop Namespace First) : Prop :=
  ∃ after, result = returning answer after ∧ Houses after later ∧ Coherent after later ∧
    after.settings = names.settings

variable {names after : Namespace} {first : OnNamespace First} {rest : First → OnNamespace Second}
  {value : First}
  {answer : Except Stop Second} {catalogue middle later : Catalogue}

theorem settings_of_frame (frame : after.frame = names.frame) :
    after.settings = names.settings := by
  rw [settings, frame, settings]

theorem coherent_of_frame (frame : after.frame = names.frame) (coherent : Coherent names catalogue)
    (row : later.row.items = catalogue.row.items) (number : later.number = catalogue.number) :
    Coherent after later := by
  intro isRoot
  have same : after.rootDirFsData = names.rootDirFsData :=
    show after.frame.rootDirFsData = names.frame.rootDirFsData by rw [frame]
  obtain ⟨kept, found, entries, isNumber⟩ := coherent (number ▸ isRoot)
  exact ⟨kept, same.trans found, entries.trans row.symm, isNumber.trans number.symm⟩

/-- A part that leaves the entries is a call of its own. -/
theorem serves_of_ends {answer : Except Stop First} {result : EStateM.Result Stop Namespace First}
    (ends : Ends names answer later result) (coherent : Coherent names catalogue)
    (row : later.row.items = catalogue.row.items) (number : later.number = catalogue.number) :
    Serves names answer later result := by
  obtain ⟨after, ended, houses, frame⟩ := ends
  exact ⟨after, ended, houses, coherent_of_frame frame coherent row number, settings_of_frame frame⟩

theorem serves_bind (one : Ends names (.ok value) middle (first names))
    (next : ∀ after, Houses after middle →
      after.frame = names.frame → Serves after answer later (rest value after)) :
    Serves names answer later ((first >>= rest) names) := by
  obtain ⟨between, returned, houses, frame⟩ := one
  obtain ⟨after, ended, still, coherent, same⟩ := next between houses frame
  exact ⟨after, (state_bind_ok returned).trans ended, still, coherent,
    same.trans (settings_of_frame frame)⟩

theorem serves_bind_ends (one : Serves names (.ok value) middle (first names))
    (next : ∀ after, Houses after middle → after.settings = names.settings →
      Ends after answer middle (rest value after)) :
    Serves names answer middle ((first >>= rest) names) := by
  obtain ⟨between, returned, houses, coherent, settings⟩ := one
  obtain ⟨after, ended, still, frame⟩ := next between houses settings
  exact ⟨after, (state_bind_ok returned).trans ended, still,
    coherent_of_frame frame coherent rfl rfl,
    (settings_of_frame frame).trans settings⟩

theorem serves_bind_error {stop : Stop} (one : Serves names (.error stop) later (first names)) :
    Serves names (.error stop) later ((first >>= rest) names) := by
  obtain ⟨after, failed, houses, coherent, settings⟩ := one
  exact ⟨after, state_bind_error failed, houses, coherent, settings⟩

end Serves

variable {names : Namespace} {catalogue : Catalogue} {number : Nat} {around : Surroundings}
  {file : Ext2File}
  {kept : FoundDirectory} {name : List Char}

theorem enough_kept {after : Namespace} (frame : after.settings = names.settings)
    (enough : around.Enough names.volume.blockSize) : around.Enough after.volume.blockSize := by
  have same : after.volume.frame = names.volume.frame := congrArg Namespace.volume frame
  rw [Ext2Volume.block_size_of_frame same]
  exact enough

theorem found_of_file {raw : RawInode} (file : raw.IsFile) (number : Nat)
    (parentInode : Option Nat) :
    ∃ found, Inode.fromRaw raw number parentInode = some found ∧ found.inodeType = .file := by
  unfold Inode.fromRaw
  rw [show InodeType.ofRaw (raw.typeAndPermissions &&& 0xF000).toNat = some .file from file]
  exact ⟨_, rfl, rfl⟩

def fileOf (names : Namespace) (name : List Char) (number : Nat) (found : FoundInode) : Ext2File :=
  ⟨.file, name, found.getSize names.volume.fileSize64,
    if number = 2 then names.parentOsId else names.osId,
    names.osId, some (.inode found)⟩

theorem file_of_settings {after : Namespace} (frame : after.settings = names.settings)
    (found : FoundInode) :
    fileOf after name number found = fileOf names name number found := by
  have os : after.osId = names.osId := show after.settings.osId = names.settings.osId by rw [frame]
  have parent : after.parentOsId = names.parentOsId :=
    show after.settings.parentOsId = names.settings.parentOsId by rw [frame]
  have wide : after.volume.fileSize64 = names.volume.fileSize64 :=
    show after.settings.volume.fileSize64 = names.settings.volume.fileSize64 by rw [frame]
  rw [fileOf, os, parent, wide, fileOf]

theorem file_part (houses : Houses names catalogue) (first : 1 ≤ number)
    (last : number ≤ catalogue.inodesCount)
    {parentInode : Option Nat} {found : FoundInode}
    (known : Inode.fromRaw (catalogue.records number) number parentInode = some found)
    (file : found.inodeType = .file) (heap : Buffers) (name : List Char) :
    Ends names (.ok (fileOf names name number found)) catalogue
      (getFileForInode around heap number parentInode name names) := by
  refine ends_bind (get_inode_part houses first last known) fun after still frame => ?_
  rw [← file_of_settings (settings_of_frame frame), state_bind_get, file]
  exact ends_pure still

structure Opened (names : Namespace) (catalogue : Catalogue) (file : Ext2File)
    (kept : FoundDirectory) : Prop where
  fs : file.fs = names.osId
  kind : file.kind = .directory
  data : file.fsSpecific = some (.directory kept)
  root : file.name = ['/'] ↔ catalogue.number = 2
  entries : kept.entries = catalogue.row.items
  number : kept.inode.inodeI = catalogue.number

theorem opened_of_settings {after : Namespace} (frame : after.settings = names.settings)
    (opened : Opened names catalogue file kept) : Opened after catalogue file kept := by
  have os : after.osId = names.osId := show after.settings.osId = names.settings.osId by rw [frame]
  exact { opened with fs := opened.fs.trans os.symm }

theorem data_of_opened (opened : Opened names catalogue file kept) :
    dataOf file names = .ok (.directory kept) names := by
  rw [dataOf, state_bind_get, if_neg (not_not.mpr opened.fs), opened.data]
  rfl

theorem open_part (houses : Houses names catalogue) (coherent : Coherent names catalogue)
    (enough : around.Enough names.volume.blockSize) {path : List Char}
    (named : catalogue.number ≠ 2 → path ≠ ['/']) :
    ∃ file kept, Opened names catalogue file kept ∧
      Ends names (.ok file) catalogue (openDirectory around catalogue.number path names) := by
  unfold openDirectory
  by_cases isRoot : catalogue.number = 2
  · obtain ⟨kept, found, entries, number⟩ := coherent isRoot
    refine ⟨⟨.directory, ['/'], 0, names.parentOsId, names.osId, some (.directory kept)⟩, kept,
      ⟨rfl, rfl, rfl, iff_of_true rfl isRoot, entries, number⟩, ?_⟩
    rw [if_pos isRoot, getRoot, state_bind_get, found]
    exact ends_pure houses
  · obtain ⟨found, known, type⟩ := directory_known houses none
    obtain ⟨isNumber, -, -⟩ := number_found known
    refine ⟨⟨.directory, path, found.getSize names.volume.fileSize64, names.osId, names.osId,
      some (.directory ⟨catalogue.row.items, found⟩)⟩, _,
      ⟨rfl, rfl, rfl, iff_of_false (named isRoot) isRoot, rfl, isNumber⟩, ?_⟩
    rw [if_neg isRoot]
    refine ends_bind (get_inode_part houses houses.first houses.last.le known)
      fun after still frame => ?_
    have os : after.osId = names.osId := show after.frame.osId = names.frame.osId by rw [frame]
    have wide : after.volume.fileSize64 = names.volume.fileSize64 :=
      show after.frame.volume.fileSize64 = names.frame.volume.fileSize64 by rw [frame]
    obtain ⟨sized, rounds⟩ := enough_kept (settings_of_frame frame) enough
    rw [state_bind_get, type, ← os, ← wide]
    refine ends_bind (list_part still around (sized 0) rounds known) fun last housed _ => ?_
    rw [if_neg isRoot]
    exact ends_pure housed

theorem houses_with_root {catalogue : Catalogue} (houses : Houses names catalogue)
    (root : Option FoundDirectory) :
    Houses { names with rootDirFsData := root } catalogue := by
  obtain ⟨⟨writable, groupCount, perGroup, word, reaches, ends, stored⟩, tables, stores, count,
    used, records, first,
    last, busy, directory⟩ := houses
  exact ⟨⟨writable, groupCount, perGroup, word, reaches, ends, stored⟩, tables, stores, count, used,
    records, first,
    last, busy, directory⟩

/-- The entries of the root are kept as they are behind the call. -/
theorem refresh_part (houses : Houses names catalogue)
    (enough : around.Enough names.volume.blockSize) {isRoot : Bool}
    (root : isRoot = true ↔ catalogue.number = 2) :
    Serves names (.ok ()) catalogue (refreshRoot around isRoot names) := by
  cases isRoot with
  | false =>
      refine ⟨names, rfl, houses, fun isRoot => ?_, rfl⟩
      exact absurd (root.mpr isRoot) (by decide)
  | true =>
      have number := root.mp rfl
      obtain ⟨found, known, -⟩ := directory_known houses none
      obtain ⟨isNumber, -, -⟩ := number_found known
      have inode := get_inode_part houses houses.first houses.last.le known
      rw [number] at inode
      obtain ⟨between, returned, housed, frame⟩ := inode
      obtain ⟨sized, rounds⟩ := enough_kept (settings_of_frame frame) enough
      obtain ⟨after, listed, still, same⟩ := list_part housed around (sized 4) rounds known
      refine ⟨{ after with rootDirFsData := some ⟨catalogue.row.items, found⟩ }, ?_,
        houses_with_root still _,
        fun _ => ⟨_, rfl, rfl, isNumber⟩,
        show after.settings = names.settings from settings_of_frame (same.trans frame)⟩
      change initRootInodeCache around names = _
      rw [initRootInodeCache, state_bind_ok returned, state_bind_ok listed]
      rfl

section Links

variable (houses : Houses names catalogue)

include houses

/-- A number is linked to the directory: the inode of the directory is read behind the change. -/
theorem link_part (first : 1 ≤ number) (last : number < catalogue.inodesCount)
    (isFile : (catalogue.records number).IsFile) {answer : Except Stop Unit} {later : Catalogue}
    (next : ∀ after found, Houses after (catalogue.relinked number fun count => add16 count 1) →
      after.frame = names.frame →
      Inode.fromRaw ((catalogue.relinked number fun count => add16 count 1).records
        catalogue.number)
        catalogue.number (some catalogue.number) = some found →
      Ends after answer later ((onIterator found.toInode (around.heap 1)
        (DirectoryIterator.insertEntry around.rounds number (name.map charByte) .file) >>= fun _ =>
          pure ()) after)) :
    Ends names answer later
      (addInodeToDirectory around (around.heap 1) catalogue.number number name .file names) := by
  obtain ⟨found, known, -⟩ := found_of_file isFile number none
  refine ends_bind (relink_part houses first last.le _ known) fun after still frame => ?_
  obtain ⟨directory, knownDirectory, -⟩ := directory_known still (some catalogue.number)
  refine ends_bind (get_inode_part still houses.first houses.last.le knownDirectory)
    fun between housed same => ?_
  exact next between directory housed (same.trans frame) knownDirectory

variable (enough : around.Enough names.volume.blockSize)

include enough

theorem add_inode_part (first : 1 ≤ number) (last : number < catalogue.inodesCount)
    (word : number < 2 ^ 32)
    (isFile : (catalogue.records number).IsFile) (short : name.length ≤ 255)
    {row : Row DirectoryEntry}
    (placed : catalogue.row.insert entryNeed (newEntry number (name.map charByte)) = some row) :
    Ends names (.ok ()) ((catalogue.relinked number fun count => add16 count 1).withRow row)
      (addInodeToDirectory around (around.heap 1) catalogue.number number name .file names) := by
  refine link_part houses first last isFile fun after found still frame known => ?_
  obtain ⟨sized, rounds⟩ := enough_kept (settings_of_frame frame) enough
  obtain ⟨entry, inserted⟩ := insert_part still around (sized 1) rounds.le (by omega) word
    (by rw [List.length_map]; exact short) .file placed known
  exact ends_bind inserted fun _ written _ => ends_pure written

theorem add_refused_part (first : 1 ≤ number) (last : number < catalogue.inodesCount)
    (isFile : (catalogue.records number).IsFile) (long : name.length > 255) :
    Ends names (.error (.failure (.error .nameTooLong)))
      (catalogue.relinked number fun count => add16 count 1)
      (addInodeToDirectory around (around.heap 1) catalogue.number number name .file names) := by
  refine link_part houses first last isFile fun after found still frame known => ?_
  obtain ⟨sized, -⟩ := enough_kept (settings_of_frame frame) enough
  exact ends_bind_error (refused_part still around (sized 1) (by rw [List.length_map]; exact long)
    .file known)

end Links

theorem create_child_eq (opened : Opened names catalogue file kept) :
    createChild around file name .file names = (do
      let inode ← allocateInode around 0 0 .file childPermissions 0 none
      addInodeToDirectory around (around.heap 1) catalogue.number inode name .file
      refreshRoot around (file.name == ['/'])
      getFileForInode around (around.heap 5) inode (some catalogue.number)
        name : OnNamespace Ext2File) names := by
  rw [createChild, state_bind_get, if_neg (not_not.mpr opened.fs), if_neg (not_not.mpr opened.kind),
    state_bind_ok (data_of_opened opened)]
  dsimp only
  rw [opened.number]

theorem is_file_new (catalogue : Catalogue) (number time : Nat) :
    ((catalogue.withRecord number (newFile time)).records number).IsFile := by
  rw [Catalogue.record_self]
  change InodeType.ofRaw (UInt16.ofNat (InodeType.file.toRaw ||| childPermissions) &&&
    0xF000).toNat = some .file
  decide

theorem is_file_taken (catalogue : Catalogue) (number time : Nat) :
    ((catalogue.taken number time).records number).IsFile := by
  rw [Catalogue.taken, Catalogue.relinked, Catalogue.record_self]
  exact is_file_new (catalogue.withMark number true) number time

theorem create_full (houses : Houses names catalogue) (coherent : Coherent names catalogue)
    (opened : Opened names catalogue file kept)
    (full : freeInode catalogue.used catalogue.inodesCount = none) :
    Serves names (.error (.failure (.error .outOfSpace)))
      catalogue (createChild around file name .file names) := by
  rw [create_child_eq opened]
  exact serves_of_ends (ends_bind_error (ends_bind_error (no_inode_part houses full)))
    coherent rfl rfl

section Create

variable (houses : Houses names catalogue) (enough : around.Enough names.volume.blockSize)
  (opened : Opened names catalogue file kept)
    (free : freeInode catalogue.used catalogue.inodesCount = some number)

include houses enough opened free

theorem create_refused (coherent : Coherent names catalogue) (long : name.length > 255) :
    Serves names (.error (.failure (.error .nameTooLong))) (catalogue.taken number around.time)
      (createChild around file name .file names) := by
  obtain ⟨first, last, -⟩ := free_inode_spec free
  rw [create_child_eq opened]
  refine serves_of_ends (ends_bind (allocate_part houses around free) fun after still frame => ?_)
    coherent rfl rfl
  refine ends_bind_error (add_refused_part still (enough_kept (settings_of_frame frame) enough)
    first last ?_ long)
  exact is_file_new (catalogue.withMark number true) number around.time

theorem create_placed (short : name.length ≤ 255) {row : Row DirectoryEntry}
    (placed : catalogue.row.insert entryNeed (newEntry number (name.map charByte)) = some row) :
    ∃ created, numberOf created = number ∧ Serves names (.ok created)
      ((catalogue.taken number around.time).withRow row)
        (createChild around file name .file names) := by
  obtain ⟨first, last, -⟩ := free_inode_spec free
  have ends := houses.numbered.ends
  have word := houses.numbered.word
  have count := houses.count
  obtain ⟨found, known, type⟩ :=
    found_of_file (is_file_taken catalogue number around.time) number (some catalogue.number)
  obtain ⟨isNumber, -, -⟩ := number_found known
  refine ⟨fileOf names name number found, isNumber, ?_⟩
  rw [create_child_eq opened]
  refine serves_bind (allocate_part houses around free) fun allocated still frame => ?_
  have here := enough_kept (settings_of_frame frame) enough
  refine serves_bind (add_inode_part still here first last (by omega) ?_ short placed)
    fun linked housed same => ?_
  · exact is_file_new (catalogue.withMark number true) number around.time
  · have sameSettings := (settings_of_frame same).trans (settings_of_frame frame)
    refine serves_bind_ends (refresh_part housed (enough_kept sameSettings enough) ?_)
      fun after lists settings => ?_
    · rw [beq_iff_eq]
      exact opened.root
    · rw [← file_of_settings (settings.trans sameSettings)]
      exact file_part lists first last.le known type _ _

end Create

section Children

variable (houses : Houses names catalogue) (opened : Opened names catalogue file kept)

include houses opened

theorem child_missing (missing : catalogue.find name = none) :
    Ends names (.error (.failure (.error .pathNotFound)))
      catalogue (getChild around file name names) := by
  refine ⟨names, ?_, houses, rfl⟩
  rw [getChild, state_bind_ok (data_of_opened opened)]
  dsimp only
  rw [opened.entries]
  rw [Catalogue.find] at missing
  rw [missing]
  rfl

theorem child_part (around : Surroundings) {entry : DirectoryEntry}
    (present : catalogue.find name = some entry)
    (opens : catalogue.Opens entry.inode) :
    ∃ found path, Inode.fromRaw (catalogue.records entry.inode)
      entry.inode (some catalogue.number) = some found ∧
      found.inodeType = .file ∧ Ends names (.ok (fileOf names path entry.inode found)) catalogue
        (getChild around file name names) := by
  obtain ⟨first, last, isFile⟩ := opens
  obtain ⟨found, known, type⟩ := found_of_file isFile entry.inode (some catalogue.number)
  refine ⟨found, file.name ++ entry.name, known, type, ?_⟩
  rw [getChild, state_bind_ok (data_of_opened opened)]
  dsimp only
  rw [opened.entries, opened.number]
  rw [Catalogue.find] at present
  rw [present]
  exact file_part houses first last known type _ _

end Children

theorem drop_inode_part (houses : Houses names catalogue)
    (enough : around.Enough names.volume.blockSize)
    {inode : Inode} {raw : RawInode} {links : Nat} (isNumber : inode.inodeI = number)
    (complete : inode.ossv2.length = 12)
    (record : { inode with generationNumber := add32 inode.generationNumber 1 }.toRawInode = raw)
    (apart : number ≠ catalogue.number) (first : 1 ≤ number) (last : number ≤ catalogue.inodesCount)
    (lastLink : links = 0 → number < catalogue.inodesCount ∧ catalogue.used number = true ∧
      inode.getSize names.volume.fileSize64 = 0 ∧ inode.directBlockPointers 0 = 0) :
    Ends names (.ok ())
      (if links = 0 then (catalogue.withRecord number raw).withMark number false else
        catalogue.withRecord number raw)
      ((if links = 0 then deallocInode (around.heap 3) inode else Namespace.updateInode inode)
        names) := by
  subst isNumber
  split_ifs with none_
  · obtain ⟨below, used, size, hole⟩ := lastLink none_
    refine ends_bind (empty_part houses around (enough.1 3)
      first last apart complete size hole record)
      fun after still frame => ?_
    exact release_part still first below apart used
  · exact update_inode_part houses first last complete record fun same => absurd same apart

section Delete

variable {found : FoundInode} {row : Row DirectoryEntry}
  (known : Inode.fromRaw (catalogue.records number) number (some catalogue.number) = some found)
  (isFile : found.inodeType = .file)

include known

theorem file_apart (isFile : found.inodeType = .file) (houses : Houses names catalogue) :
    number ≠ catalogue.number := by
  rintro rfl
  obtain ⟨directory, isDirectory, type⟩ := directory_known houses (some catalogue.number)
  rw [known] at isDirectory
  cases isDirectory
  cases isFile.symm.trans type

/-- The inode is updated with a link less; without links its number is given back. -/
theorem drop_part (houses : Houses names catalogue) (enough : around.Enough names.volume.blockSize)
    (apart : number ≠ catalogue.number) (deletes : catalogue.Deletes number) :
    Ends names (.ok ()) (catalogue.withoutLink number around.time)
      ((if sub16 found.linksCount 1 = 0 then
        deallocInode (around.heap 3)
          { found.toInode with dtime := deletionTime around.time, linksCount := sub16 found.linksCount 1 }
      else
        Namespace.updateInode
          { found.toInode with
            dtime := deletionTime around.time, linksCount := sub16 found.linksCount 1 })
              names) := by
  obtain ⟨⟨first, last, -⟩, lastLink⟩ := deletes
  obtain ⟨isNumber, -, links⟩ := number_found known
  have record := to_raw_linked known (deletionTime around.time) (sub16 found.linksCount 1)
  rw [← links] at lastLink
  rw [Catalogue.withoutLink, ← links]
  refine drop_inode_part houses enough isNumber (complete_found known)
    record apart first last fun none_ => ?_
  obtain ⟨below, used, empty⟩ := lastLink none_
  exact ⟨below, used, size_of_empty empty known names.volume.fileSize64⟩

variable (removed : catalogue.row.remove (hasNumber number) = some row)
  (deletes : catalogue.Deletes number)

include isFile removed deletes

theorem delete_inode_part (houses : Houses names catalogue)
    (enough : around.Enough names.volume.blockSize) :
    Ends names (.ok ()) ((catalogue.dropped number around.time).withRow row)
      (deleteInode around found names) := by
  obtain ⟨isNumber, parent, -⟩ := number_found known
  have apart := file_apart known isFile houses
  have type : ¬(found.inodeType ≠ .file ∧ found.inodeType ≠ .directory) := fun other =>
    other.1 isFile
  obtain ⟨directory, isDirectory, -⟩ := directory_known houses none
  rw [deleteInode, if_neg type, parent]
  refine ends_bind (relink_part houses houses.first houses.last.le (fun count => sub16 count 1)
    isDirectory)
    fun relinked still frame => ?_
  obtain ⟨inode, isInode, -⟩ := directory_known still none
  refine ends_bind (get_inode_part still houses.first houses.last.le isInode)
    fun read housed same => ?_
  have settings := settings_of_frame (same.trans frame)
  obtain ⟨sized, rounds⟩ := enough_kept settings enough
  rw [state_bind_get, isNumber]
  refine ends_bind (delete_part housed around (sized 2) rounds.le removed isInode)
    fun shorter houses_ cut => ?_
  have links : dropLinks found.toInode catalogue.number shorter = .ok (sub16 found.linksCount 1)
      shorter := by
    rw [dropLinks, if_neg (by rw [isFile]; decide)]
    rfl
  rw [state_bind_ok links]
  have record : (((catalogue.relinked catalogue.number fun count => sub16 count 1).withRow
      row).records number) =
      catalogue.records number := Catalogue.record_other catalogue apart _
  have still_ := Catalogue.deletes_congr record rfl rfl deletes
  rw [Catalogue.dropped, ← Catalogue.without_link_row]
  exact drop_part (by rw [record]; exact known)
    houses_ (enough_kept ((settings_of_frame cut).trans settings) enough)
    apart still_

theorem delete_serves (houses : Houses names catalogue)
    (enough : around.Enough names.volume.blockSize)
    (path : List Char) :
    Serves names (.ok ()) ((catalogue.dropped number around.time).withRow row)
      (deleteFile around (fileOf names path number found) names) := by
  obtain ⟨-, parent, -⟩ := number_found known
  have data : dataOf (fileOf names path number found) names = .ok (.inode found) names := by
    have fs : (fileOf names path number found).fs = names.osId := rfl
    rw [dataOf, state_bind_get, if_neg (not_not.mpr fs)]
    rfl
  rw [deleteFile, state_bind_ok data]
  refine serves_bind (delete_inode_part known isFile removed deletes houses enough)
    fun after still frame => ?_
  refine refresh_part still (enough_kept (settings_of_frame frame) enough) ?_
  rw [beq_iff_eq, parent, Option.some_inj, ← Catalogue.dropped_number catalogue number around.time]
  rfl

end Delete

section Calls

variable {call : FileCall} {answer : Except VfsError FileAnswer} {later : Catalogue}
  {path : List Char}
  (houses : Houses names catalogue) (coherent : Coherent names catalogue)
  (enough : around.Enough names.volume.blockSize) (named : catalogue.number ≠ 2 → path ≠ ['/'])

include houses coherent enough named

theorem serves_opened {answer : Except Stop FileAnswer} {rest : Ext2File → OnNamespace FileAnswer}
    (next : ∀ after file kept, Houses after catalogue → Coherent after catalogue →
      around.Enough after.volume.blockSize → Opened after catalogue file kept →
        Serves after answer later (rest file after)) :
    Serves names answer later ((openDirectory around catalogue.number path >>= rest) names) := by
  obtain ⟨file, kept, opened, opens⟩ := open_part houses coherent enough named
  refine serves_bind opens fun after still frame => ?_
  exact next after file kept still (coherent_of_frame frame coherent rfl rfl)
    (enough_kept (settings_of_frame frame) enough)
      (opened_of_settings (settings_of_frame frame) opened)

theorem create_answered (given : catalogue.answer around.time (.create name) = some
    (answer, later)) :
    Serves names (stopped answer) later
      (FileCall.run catalogue.number path around (.create name) names) := by
  refine serves_opened houses coherent enough named fun after file kept still same rooms
    opened => ?_
  rcases create_cases given with ⟨full, rfl, rfl⟩ |
    ⟨number, free, ⟨long, rfl, rfl⟩ | ⟨row, short, placed, rfl, rfl⟩⟩
  · exact serves_bind_error (create_full still same opened full)
  · exact serves_bind_error (create_refused still rooms opened free same long)
  · obtain ⟨created, isNumber, serves⟩ := create_placed still rooms opened free short placed
    refine serves_bind_ends serves fun last housed _ => ?_
    rw [isNumber]
    exact ends_pure housed

theorem find_answered (given : catalogue.answer around.time (.find name) = some (answer, later)) :
    Serves names (stopped answer) later
      (FileCall.run catalogue.number path around (.find name) names) := by
  refine serves_opened houses coherent enough named fun after file kept still same rooms
    opened => ?_
  obtain ⟨rfl, ⟨missing, rfl⟩ | ⟨entry, present, opens, rfl⟩⟩ := find_cases given
  · exact serves_of_ends (ends_bind_error (child_missing still opened missing)) same rfl rfl
  · obtain ⟨found, childPath, known, -, child⟩ := child_part still opened around present opens
    obtain ⟨isNumber, -, -⟩ := number_found known
    refine serves_of_ends (ends_bind child fun last housed _ => ?_) same rfl rfl
    rw [show numberOf (fileOf after childPath entry.inode found) = entry.inode from isNumber]
    exact ends_pure housed

theorem delete_answered (given : catalogue.answer around.time (.delete name) = some
    (answer, later)) :
    Serves names (stopped answer) later
      (FileCall.run catalogue.number path around (.delete name) names) := by
  refine serves_opened houses coherent enough named fun after file kept still same rooms
    opened => ?_
  rcases delete_cases given with ⟨missing, rfl, rfl⟩ |
    ⟨entry, row, present, deletes, removed, rfl, rfl⟩
  · exact serves_of_ends (ends_bind_error (child_missing still opened missing)) same rfl rfl
  · obtain ⟨found, childPath, known, isFile, child⟩ :=
      child_part still opened around present deletes.1
    refine serves_bind child fun read housed frame => ?_
    rw [← file_of_settings (settings_of_frame frame)]
    exact serves_bind_ends (delete_serves known isFile removed deletes housed
      (enough_kept (settings_of_frame frame) rooms) childPath) fun last cut _ => ends_pure cut

theorem list_answered (given : catalogue.answer around.time .list = some (answer, later)) :
    Serves names (stopped answer) later
      (FileCall.run catalogue.number path around .list names) := by
  refine serves_opened houses coherent enough named fun after file kept still same rooms
    opened => ?_
  cases given
  have listed : entriesOf file = catalogue.row.items := by
    rw [entriesOf, opened.data]
    exact opened.entries
  rw [listed]
  exact serves_of_ends (ends_pure still) same rfl rfl

theorem call_served (given : catalogue.answer around.time call = some (answer, later)) :
    Serves names (stopped answer) later (call.run catalogue.number path around names) := by
  cases call with
  | create name => exact create_answered houses coherent enough named given
  | find name => exact find_answered houses coherent enough named given
  | delete name => exact delete_answered houses coherent enough named given
  | list => exact list_answered houses coherent enough named given

end Calls

end Namespace

end Campix.Ext2
