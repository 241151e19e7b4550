import Campix.Ext2.NamespaceRuns
import Mathlib.Data.Finset.Card
import Mathlib.Order.Interval.Finset.Nat

/-!
# Inodes that are in use and have no entry

The numbers of the listed files are in use, no two of them are the same, and each file has
one link. Every call keeps this. A number that is in use and not listed can never be freed
through the directory, and the only call that leaves one behind is a creation that refuses
the name.
-/

namespace Campix.Ext2

open Lib.FirstFit Lib.Service Lib.Word Drivers Namespace

set_option autoImplicit false

namespace Catalogue

def numbers (self : Catalogue) : List Nat := self.row.items.map DirectoryEntry.inode

def hasFile (self : Catalogue) (number : Nat) : Bool := decide (self.records number).IsFile

def files (self : Catalogue) : List Nat := self.numbers.filter self.hasFile

def lost (self : Catalogue) : Finset Nat :=
  (Finset.Ico 1 self.inodesCount).filter fun number => self.used number = true ∧
    number ∉ self.numbers

structure Tidy (catalogue : Catalogue) : Prop where
  busy : catalogue.used catalogue.number = true
  directory : ¬(catalogue.records catalogue.number).IsFile
  listed : ∀ number ∈ catalogue.numbers, catalogue.used number = true
  single : ∀ number ∈ catalogue.files, (catalogue.records number).linksCount = 1
  distinct : catalogue.files.Nodup

end Catalogue

variable {self later : Catalogue} {number other time : Nat} {row : Row DirectoryEntry}
  {name : List UInt8}
  {call : FileCall} {answer : Except VfsError FileAnswer}

theorem numbers_insert (placed : self.row.insert entryNeed (newEntry number name) = some row) :
    List.Perm (row.items.map DirectoryEntry.inode) (number :: self.numbers) := by
  obtain ⟨front, back, -, old, new⟩ := Row.insert_items placed
  rw [Catalogue.numbers, old, new, List.map_append, List.map_append, List.map_cons]
  exact List.perm_middle

theorem numbers_remove (removed : self.row.remove (hasNumber number) = some row)
    (listed : number ∈ self.numbers) : List.Perm self.numbers
    (number :: row.items.map DirectoryEntry.inode) := by
  obtain ⟨entry, member, same⟩ := List.mem_map.mp listed
  have gone : hasNumber number entry = true := beq_iff_eq.mpr same
  obtain ⟨goer, front, back, -, isGoer, old, new⟩ := List.exists_of_eraseP member gone
  rw [Row.remove_items removed, Catalogue.numbers, new, old, List.map_append, List.map_append,
    List.map_cons,
    beq_iff_eq.mp isGoer]
  exact List.perm_middle

theorem find_mem {name : List Char} {entry : DirectoryEntry}
    (present : self.find name = some entry) :
    entry ∈ self.row.items ∧ entry.name = name := by
  rw [Catalogue.find] at present
  have named := List.find?_some present
  exact ⟨List.mem_of_find?_eq_some present, beq_iff_eq.mp named⟩

section Taken

variable (self number time)

theorem taken_used (other : Nat) :
    (self.taken number time).used other = if other = number then true else self.used other :=
  Function.update_apply ..

theorem taken_record : (self.taken number time).records number = (newFile time).linked 1 := by
  rw [Catalogue.taken, Catalogue.relinked, Catalogue.record_self, Catalogue.record_self]
  rfl

theorem taken_other (different : other ≠ number) :
    (self.taken number time).records other = self.records other := by
  rw [Catalogue.taken, Catalogue.relinked,
    Catalogue.record_other _ different, Catalogue.record_other _ different]
  rfl

end Taken

theorem dropped_eq (one : (self.records number).linksCount = 1) (apart : number ≠ self.number) :
    ∃ raw, self.dropped number time =
      ((self.relinked self.number fun count => sub16 count 1).withRecord number raw).withMark number
        false ∧
        (raw.IsFile ↔ (self.records number).IsFile) := by
  have same : (self.relinked self.number fun count => sub16 count 1).records number = self.records
      number :=
    Catalogue.record_other _ apart _
  have none_ : sub16 (1 : UInt16).toNat 1 = 0 := by decide
  rw [Catalogue.dropped, Catalogue.withoutLink, same, one, none_]
  exact ⟨_, rfl, Iff.rfl⟩

theorem mem_lost : other ∈ self.lost ↔
    (1 ≤ other ∧ other < self.inodesCount) ∧ self.used other = true ∧ other ∉ self.numbers := by
  rw [Catalogue.lost, Finset.mem_filter, Finset.mem_Ico]

theorem mem_files : other ∈ self.files ↔ other ∈ self.numbers ∧ (self.records other).IsFile := by
  rw [Catalogue.files, List.mem_filter, Catalogue.hasFile, decide_eq_true_iff]

section Creation

variable (tidy : self.Tidy) (free : freeInode self.used self.inodesCount = some number)

include tidy free

theorem free_unlisted : number ∉ self.numbers ∧ number ≠ self.number := by
  obtain ⟨-, -, unused⟩ := free_inode_spec free
  constructor
  · intro listed
    exact Bool.noConfusion (unused.symm.trans (tidy.listed number listed))
  · rintro rfl
    exact Bool.noConfusion (unused.symm.trans tidy.busy)

theorem listed_taken (member : other ∈ self.numbers) :
    (self.taken number time).records other = self.records other := by
  obtain ⟨unlisted, -⟩ := free_unlisted tidy free
  refine taken_other self number time ?_
  rintro rfl
  exact unlisted member

theorem files_taken : (self.taken number time).files = self.files := by
  refine List.filter_congr fun other member => ?_
  rw [Catalogue.hasFile, Catalogue.hasFile, listed_taken tidy free member]

theorem tidy_taken : (self.taken number time).Tidy := by
  obtain ⟨-, apart⟩ := free_unlisted tidy free
  refine ⟨?_, ?_, fun other member => ?_, fun other member => ?_, ?_⟩
  · rw [taken_used]
    exact (if_neg apart.symm).trans tidy.busy
  · change ¬((self.taken number time).records self.number).IsFile
    rw [taken_other self number time apart.symm]
    exact tidy.directory
  · rw [taken_used, tidy.listed other member, ite_self]
  · rw [files_taken tidy free] at member
    rw [listed_taken tidy free (mem_files.mp member).1]
    exact tidy.single other member
  · rw [files_taken tidy free]
    exact tidy.distinct

theorem lost_taken : (self.taken number time).lost = insert number self.lost ∧
    number ∉ self.lost := by
  obtain ⟨first, last, unused⟩ := free_inode_spec free
  obtain ⟨unlisted, -⟩ := free_unlisted tidy free
  constructor
  · ext other
    rw [Finset.mem_insert, mem_lost, mem_lost, taken_used]
    by_cases same : other = number
    · subst same
      exact iff_of_true ⟨⟨first, last⟩, if_pos rfl, unlisted⟩ (.inl rfl)
    · rw [if_neg same]
      exact (or_iff_right same).symm
  · intro member
    obtain ⟨-, used, -⟩ := mem_lost.mp member
    exact Bool.noConfusion (unused.symm.trans used)

theorem files_placed (placed : self.row.insert entryNeed (newEntry number name) = some row) :
    List.Perm ((self.taken number time).withRow row).files (number :: self.files) := by
  have isFile : (self.taken number time).hasFile number = true :=
    decide_eq_true (is_file_taken self number time)
  have numbers := (numbers_insert placed).filter (self.taken number time).hasFile
  have files : self.numbers.filter (self.taken number time).hasFile = self.files :=
    files_taken tidy free
  rw [List.filter_cons_of_pos isFile, files] at numbers
  exact numbers

theorem tidy_placed (placed : self.row.insert entryNeed (newEntry number name) = some row) :
    ((self.taken number time).withRow row).Tidy ∧
      ((self.taken number time).withRow row).lost = self.lost := by
  obtain ⟨unlisted, -⟩ := free_unlisted tidy free
  have taken := @tidy_taken self number time tidy free
  have numbers := numbers_insert placed
  have files := @files_placed self number time row name tidy free placed
  refine ⟨⟨taken.busy, taken.directory, fun other member => ?_, fun other member => ?_, ?_⟩, ?_⟩
  · change (self.taken number time).used other = true
    rcases List.mem_cons.mp (numbers.mem_iff.mp member) with rfl | old
    · rw [taken_used, if_pos rfl]
    · exact taken.listed other old
  · change ((self.taken number time).records other).linksCount = 1
    rcases List.mem_cons.mp (files.mem_iff.mp member) with rfl | old
    · rw [taken_record]
      rfl
    · rw [← @files_taken self number time tidy free] at old
      exact taken.single other old
  · refine files.nodup_iff.mpr (List.nodup_cons.mpr ⟨fun member => ?_, tidy.distinct⟩)
    exact unlisted (mem_files.mp member).1
  · obtain ⟨lost, fresh⟩ := @lost_taken self number time tidy free
    ext other
    have listed : other ∈ ((self.taken number time).withRow row).numbers ↔
        other ∈ number :: self.numbers :=
      numbers.mem_iff
    rw [mem_lost, listed, List.mem_cons, not_or]
    by_cases same : other = number
    · subst same
      exact iff_of_false (fun inside => inside.2.2.1 rfl) fresh
    · have member := Finset.ext_iff.mp lost other
      rw [mem_lost, Finset.mem_insert, or_iff_right same] at member
      rw [← member]
      exact and_congr_right fun _ => and_congr_right fun _ => and_iff_right same

end Creation

/-- What the deletion of a file with one link makes of the catalogue. -/
structure Loses (before : Catalogue) (gone : Nat) (later : Catalogue) : Prop where
  directory : later.number = before.number
  count : later.inodesCount = before.inodesCount
  numbers : List.Perm before.numbers (gone :: later.numbers)
  used : ∀ other, later.used other = if other = gone then false else before.used other
  records : ∀ other, other ≠ gone → other ≠ before.number →
    later.records other = before.records other
  kinds : ∀ other, (later.records other).IsFile ↔ (before.records other).IsFile

theorem loses_dropped (one : (self.records number).linksCount = 1) (apart : number ≠ self.number)
    (listed : number ∈ self.numbers) (removed : self.row.remove (hasNumber number) = some row) :
    Loses self number ((self.dropped number time).withRow row) := by
  obtain ⟨raw, eq, same⟩ := @dropped_eq self number time one apart
  rw [eq]
  have written : ((((self.relinked self.number fun count => sub16 count 1).withRecord number
      raw).withMark number
      false).withRow row).records number = raw := Catalogue.record_self _ number raw
  have kept : ∀ other, other ≠ number →
      ((((self.relinked self.number fun count => sub16 count 1).withRecord number
      raw).withMark number false).withRow row).records other =
        (self.relinked self.number fun count => sub16 count 1).records other :=
    fun other different => Catalogue.record_other _ different raw
  refine ⟨rfl, rfl, numbers_remove removed listed, fun other => Function.update_apply ..,
    fun other different
    notDirectory => ?_, fun other => ?_⟩
  · rw [kept other different]
    exact Catalogue.record_other _ notDirectory _
  · by_cases here : other = number
    · rw [here, written]
      exact same
    · rw [kept other here]
      by_cases isDirectory : other = self.number
      · subst isDirectory
        rw [Catalogue.relinked, Catalogue.record_self]
        rfl
      · rw [Catalogue.relinked, Catalogue.record_other _ isDirectory]

section Deletion

variable (loses : Loses self number later) (isFile : (self.records number).IsFile)

include loses isFile

theorem files_lost : List.Perm self.files (number :: later.files) := by
  have kinds : later.hasFile = self.hasFile := funext fun other =>
    decide_eq_decide.mpr (loses.kinds other)
  have files := loses.numbers.filter self.hasFile
  have here : self.hasFile number = true := decide_eq_true isFile
  rw [List.filter_cons_of_pos here, ← kinds] at files
  rw [Catalogue.files, Catalogue.files, ← kinds]
  exact files

variable (tidy : self.Tidy)

include tidy

theorem gone_unlisted : number ∉ later.numbers := by
  intro member
  have distinct := (files_lost loses isFile).nodup_iff.mp tidy.distinct
  exact (List.nodup_cons.mp distinct).1 (mem_files.mpr ⟨member, (loses.kinds number).mpr isFile⟩)

/-- A deletion frees what it takes from the directory. -/
theorem tidy_lost : later.Tidy ∧ later.lost = self.lost := by
  have unlisted := gone_unlisted loses isFile tidy
  have files := files_lost loses isFile
  have apart : number ≠ self.number := by
    rintro rfl
    exact tidy.directory isFile
  refine ⟨⟨?_, ?_, fun other member => ?_, fun other member => ?_, ?_⟩, ?_⟩
  · rw [loses.directory, loses.used, if_neg apart.symm]
    exact tidy.busy
  · rw [loses.directory, loses.kinds]
    exact tidy.directory
  · have different : other ≠ number := by
      rintro rfl
      exact unlisted member
    rw [loses.used, if_neg different]
    exact tidy.listed other (loses.numbers.mem_iff.mpr (List.mem_cons_of_mem _ member))
  · have old := files.mem_iff.mpr (List.mem_cons_of_mem _ member)
    have different : other ≠ number := by
      rintro rfl
      exact unlisted (mem_files.mp member).1
    have notDirectory : other ≠ self.number := by
      rintro rfl
      exact tidy.directory (mem_files.mp old).2
    rw [loses.records other different notDirectory]
    exact tidy.single other old
  · exact (List.nodup_cons.mp (files.nodup_iff.mp tidy.distinct)).2
  · ext other
    rw [mem_lost, mem_lost, loses.count, loses.used, loses.numbers.mem_iff, List.mem_cons, not_or]
    by_cases same : other = number
    · subst same
      rw [if_pos rfl]
      exact iff_of_false (fun inside => Bool.noConfusion inside.2.1) fun inside => inside.2.2.1 rfl
    · rw [if_neg same, and_iff_right same]

end Deletion

def refusedName (answer : Except Stop FileAnswer) : Bool :=
  decide (answer = .error (.failure (.error .nameTooLong)))

theorem tidy_step (tidy : self.Tidy) (given : self.answer time call = some (answer, later)) :
    later.Tidy ∧ later.lost.card = self.lost.card + (refusedName (stopped answer)).toNat := by
  cases call with
  | create name =>
      rcases create_cases given with ⟨-, rfl, rfl⟩ |
        ⟨number, free, ⟨-, rfl, rfl⟩ | ⟨row, -, placed, rfl, rfl⟩⟩
      · exact ⟨tidy, rfl⟩
      · obtain ⟨lost, fresh⟩ := @lost_taken self number time tidy free
        refine ⟨tidy_taken tidy free, ?_⟩
        rw [lost, Finset.card_insert_of_notMem fresh]
        rfl
      · obtain ⟨still, lost⟩ := @tidy_placed self number time row _ tidy free placed
        exact ⟨still, by rw [lost]; rfl⟩
  | find name =>
      obtain ⟨rfl, ⟨-, rfl⟩ | ⟨entry, -, -, rfl⟩⟩ := find_cases given <;> exact ⟨tidy, rfl⟩
  | delete name =>
      rcases delete_cases given with ⟨-, rfl, rfl⟩ |
        ⟨entry, row, present, deletes, removed, rfl, rfl⟩
      · exact ⟨tidy, rfl⟩
      · obtain ⟨member, -⟩ := find_mem present
        have listed : entry.inode ∈ self.numbers := List.mem_map_of_mem member
        have isFile := deletes.1.2.2
        have one := tidy.single entry.inode (mem_files.mpr ⟨listed, isFile⟩)
        have apart : entry.inode ≠ self.number := fun same => tidy.directory (same ▸ isFile)
        obtain ⟨still, lost⟩ := tidy_lost
          (@loses_dropped self entry.inode time row one apart listed removed)
          isFile tidy
        exact ⟨still, by rw [lost]; rfl⟩
  | list =>
      cases given
      exact ⟨tidy, rfl⟩

theorem tidy_run {calls : List (Nat × FileCall)} {answers : List (Except VfsError FileAnswer)}
    (tidy : self.Tidy)
    (given : Catalogue.answers calls self = some (answers, later)) :
    later.Tidy ∧ later.lost.card = self.lost.card + (answers.map stopped).countP refusedName := by
  induction calls generalizing self answers with
  | nil =>
      cases given
      exact ⟨tidy, rfl⟩
  | cons call calls ih =>
      obtain ⟨answer, middle, rest, answered, others, rfl⟩ := predict_cons given
      obtain ⟨between, first⟩ := tidy_step tidy answered
      obtain ⟨last, lost⟩ := ih between others
      refine ⟨last, ?_⟩
      rw [lost, first, List.map_cons, List.countP_cons]
      cases refusedName (stopped answer) with
      | true => exact Nat.add_right_comm _ 1 _
      | false => rfl

def Namespace.lostNumbers (names : Namespace) (entries : List DirectoryEntry) : Finset Nat :=
  (Finset.Ico 1 names.inodesCount).filter fun number =>
    names.inUse number = true ∧ number ∉ entries.map DirectoryEntry.inode

theorem lost_numbers_housed {names : Namespace} (houses : Houses names self) :
    names.lostNumbers self.row.items = self.lost := by
  rw [Namespace.lostNumbers, Catalogue.lost, houses.count]
  refine Finset.filter_congr fun number member => ?_
  rw [houses.used number (Finset.mem_Ico.mp member).1]
  rfl

def longName : List Char := List.replicate 256 'x'

def refusedTwice : List (Surroundings × FileCall) :=
  [(blankAround 9, .create longName),
    (blankAround 10, .create ['b']), (blankAround 11, .create longName),
    (blankAround 12, .delete ['b'])]

theorem root_tidy : rootCatalogue.Tidy := by
  have files : rootCatalogue.files = [] := by decide +kernel
  refine ⟨by decide, ?_, fun number member => ?_, fun number member => ?_, ?_⟩
  · change ¬(rootVolume.recordAt 2).IsFile
    rw [root_record]
    decide
  · obtain rfl : number = 11 := List.mem_singleton.mp member
    decide
  · rw [files] at member
    exact absurd member List.not_mem_nil
  · rw [files]
    exact List.nodup_nil

theorem refused_twice_enough : ∀ call ∈ refusedTwice,
    call.1.Enough rootNamespace.volume.blockSize := by
  simp only [refusedTwice, List.forall_mem_cons]
  exact ⟨blank_around_enough 9, blank_around_enough 10, blank_around_enough 11,
    blank_around_enough 12,
    fun _ impossible => absurd impossible List.not_mem_nil⟩

theorem refused_twice_predicted :
    (Catalogue.answers (refusedTwice.map timed) rootCatalogue).map Prod.fst =
    some [.error .nameTooLong, .ok (.file 13), .error .nameTooLong, .ok .deleted] := by
      decide +kernel

def deletedFile (answer : Except Stop FileAnswer) : Bool := decide (answer = .ok .deleted)

theorem less_one (links : UInt16) : UInt16.ofNat (sub16 links.toNat 1) = links - 1 := by
  have small := links.toNat_lt
  have one : (1 : UInt16).toNat = 1 := rfl
  rw [← UInt16.toNat_inj, UInt16.toNat_sub, UInt16.toNat_ofNat', one]
  unfold sub16
  split_ifs <;> omega

theorem directory_dropped (apart : number ≠ self.number) :
    (self.dropped number time).records self.number =
        (self.records self.number).linked (sub16 (self.records self.number).linksCount.toNat 1) ∧
      (self.dropped number time).used self.number = self.used self.number := by
  have record : ∀ raw, ((self.relinked self.number fun count => sub16 count 1).withRecord number
      raw).records
      self.number = (self.records self.number).linked
        (sub16 (self.records self.number).linksCount.toNat 1) := by
    intro raw
    rw [Catalogue.record_other _ apart.symm, Catalogue.relinked, Catalogue.record_self]
  unfold Catalogue.dropped Catalogue.withoutLink
  dsimp only
  split_ifs
  · exact ⟨record _, Function.update_of_ne apart.symm ..⟩
  · exact ⟨record _, rfl⟩

structure Steady (catalogue : Catalogue) : Prop where
  busy : catalogue.used catalogue.number = true
  directory : ¬(catalogue.records catalogue.number).IsFile

theorem steady_housed {names : Namespace} (houses : Houses names self) : Steady self := by
  refine ⟨houses.busy, fun isFile => ?_⟩
  obtain ⟨found, known, type⟩ := directory_known houses none
  obtain ⟨other, same, file⟩ := found_of_file isFile self.number none
  cases known.symm.trans same
  cases type.symm.trans file

theorem links_step (steady : Steady self) (given : self.answer time call = some (answer, later)) :
    Steady later ∧ (later.records later.number).linksCount =
      (self.records self.number).linksCount - UInt16.ofNat
        (deletedFile (stopped answer)).toNat := by
  obtain ⟨busy, directory⟩ := steady
  have same : Steady self ∧ (self.records self.number).linksCount =
      (self.records self.number).linksCount - UInt16.ofNat 0 :=
        ⟨⟨busy, directory⟩, (UInt16.sub_zero _).symm⟩
  have created : ∀ {number}, freeInode self.used self.inodesCount = some number →
      Steady (self.taken number time) ∧
        ((self.taken number time).records self.number).linksCount =
          (self.records self.number).linksCount := by
    intro number free
    obtain ⟨-, -, unused⟩ := free_inode_spec free
    have apart : self.number ≠ number := by
      rintro rfl
      exact Bool.noConfusion (unused.symm.trans busy)
    have record := taken_other self number time apart
    refine ⟨⟨?_, ?_⟩, by rw [record]⟩
    · rw [taken_used]
      exact (if_neg apart).trans busy
    · change ¬((self.taken number time).records self.number).IsFile
      rw [record]
      exact directory
  cases call with
  | create name =>
      rcases create_cases given with ⟨-, rfl, rfl⟩ |
        ⟨number, free, ⟨-, rfl, rfl⟩ | ⟨row, -, -, rfl, rfl⟩⟩
      · exact same
      · obtain ⟨still, links⟩ := created free
        exact ⟨still, links.trans (UInt16.sub_zero _).symm⟩
      · obtain ⟨still, links⟩ := created free
        exact ⟨⟨still.busy, still.directory⟩, links.trans (UInt16.sub_zero _).symm⟩
  | find name =>
      obtain ⟨rfl, ⟨-, rfl⟩ | ⟨entry, -, -, rfl⟩⟩ := find_cases given <;> exact same
  | delete name =>
      rcases delete_cases given with ⟨-, rfl, rfl⟩ | ⟨entry, row, -, deletes, -, rfl, rfl⟩
      · exact same
      · have apart : entry.inode ≠ self.number := fun same => directory (same ▸ deletes.1.2.2)
        obtain ⟨record, used⟩ := @directory_dropped self entry.inode time apart
        change Steady _ ∧ (((self.dropped entry.inode time).withRow row).records
          (self.dropped entry.inode time).number).linksCount = _
        rw [Catalogue.dropped_number]
        refine ⟨⟨?_, ?_⟩, ?_⟩
        · change (self.dropped entry.inode time).used (self.dropped entry.inode time).number = true
          rw [Catalogue.dropped_number, used]
          exact busy
        · change ¬((self.dropped entry.inode time).records
            (self.dropped entry.inode time).number).IsFile
          rw [Catalogue.dropped_number, record]
          exact directory
        · change ((self.dropped entry.inode time).records self.number).linksCount = _
          rw [record]
          exact less_one _
  | list =>
      cases given
      exact same

theorem less_twice (links : UInt16) (first second : Nat) :
    links - UInt16.ofNat second - UInt16.ofNat first = links - UInt16.ofNat (first + second) := by
  rw [UInt16.ofNat_add]
  grind

theorem links_run {calls : List (Nat × FileCall)} {answers : List (Except VfsError FileAnswer)}
    (steady : Steady self)
    (given : Catalogue.answers calls self = some (answers, later)) :
    (later.records later.number).linksCount =
      (self.records self.number).linksCount - UInt16.ofNat
        ((answers.map stopped).countP deletedFile) := by
  induction calls generalizing self answers with
  | nil =>
      cases given
      exact (UInt16.sub_zero _).symm
  | cons call calls ih =>
      obtain ⟨answer, middle, rest, answered, others, rfl⟩ := predict_cons given
      obtain ⟨still, first⟩ := links_step steady answered
      rw [ih still others, first, List.map_cons, List.countP_cons]
      cases deletedFile (stopped answer) with
      | true => exact less_twice _ _ 1
      | false => exact less_twice _ _ 0

end Campix.Ext2
