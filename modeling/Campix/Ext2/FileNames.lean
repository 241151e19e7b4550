import Campix.Ext2.LostInodes
import Mathlib.Data.List.Nodup

/-!
# Names of files

A name is stored with eight bits of each character and compared with all of them. A file
whose characters fit is found under its name, until it is deleted under it or another one is
stored with it. A name with a wider character is never found, also when a file was created
with it.
-/

namespace Campix.Ext2

open Lib.FirstFit Lib.Service Drivers Namespace

set_option autoImplicit false

def shownName (name : List Char) : List Char := (name.map charByte).map fun c => Char.ofNat c.toNat

namespace FileCall

def Stores (name : List Char) : FileCall → Prop
  | create other => shownName other = name
  | _ => False

def Leaves (name : List Char) : FileCall → Prop
  | create other => shownName other ≠ name
  | delete other => other ≠ name
  | _ => True

end FileCall

/-- A file of the directory has this name, and no other entry has it. -/
structure Catalogue.Bears (catalogue : Catalogue) (name : List Char) (number : Nat) : Prop where
  tidy : catalogue.Tidy
  opens : catalogue.Opens number
  listed : ⟨number, name⟩ ∈ catalogue.row.items
  only : ∀ entry ∈ catalogue.row.items, entry.name = name → entry.inode = number

def Catalogue.Misses (self : Catalogue) (name : List Char) : Prop :=
    ∀ entry ∈ self.row.items, entry.name ≠ name

variable {self later : Catalogue} {name other : List Char} {number time : Nat} {call : FileCall}
  {answer : Except VfsError FileAnswer} {row : Row DirectoryEntry}

theorem shown_narrow (narrow : ∀ c ∈ name, c.toNat < 256) : shownName name = name := by
  rw [shownName, List.map_map]
  refine (List.map_congr_left fun c member => ?_).trans (List.map_id name)
  have small : (charByte c).toNat = c.toNat := UInt8.toNat_ofNat_of_lt' (narrow c member)
  change Char.ofNat (charByte c).toNat = c
  rw [small, Char.ofNat_toNat]

theorem byte_narrow (byte : UInt8) : (Char.ofNat byte.toNat).toNat < 256 := by
  have small := byte.toNat_lt
  have valid : byte.toNat.isValidChar := .inl (by omega)
  rw [Char.ofNat, dif_pos valid]
  exact small

/-- A wide character is lost on the way to the directory and back. -/
theorem shown_apart {bytes : List UInt8} (wide : ∃ c ∈ name, 256 ≤ c.toNat) :
    (bytes.map fun c => Char.ofNat c.toNat) ≠ name := by
  rintro rfl
  obtain ⟨c, member, large⟩ := wide
  obtain ⟨byte, -, rfl⟩ := List.mem_map.mp member
  exact absurd (byte_narrow byte) (Nat.not_lt.mpr large)

theorem find_of_misses (misses : self.Misses name) : self.find name = none := by
  refine List.find?_eq_none.mpr fun entry member named => ?_
  exact misses entry member (beq_iff_eq.mp named)

theorem misses_of_find (missing : self.find name = none) : self.Misses name := by
  intro entry member named
  exact List.find?_eq_none.mp missing entry member (beq_iff_eq.mpr named)

theorem find_of_bears (bears : self.Bears name number) :
    ∃ entry, self.find name = some entry ∧ entry.inode = number := by
  cases found : self.find name with
  | none => exact absurd rfl (misses_of_find found _ bears.listed)
  | some entry =>
      obtain ⟨member, named⟩ := find_mem found
      exact ⟨entry, rfl, bears.only entry member named⟩

theorem mem_placed {bytes : List UInt8}
    (placed : self.row.insert entryNeed (newEntry number bytes) = some row)
    {entry : DirectoryEntry} : entry ∈ row.items ↔ entry = newEntry number bytes ∨
    entry ∈ self.row.items := by
  obtain ⟨front, back, -, old, new⟩ := Row.insert_items placed
  rw [old, new, List.mem_append, List.mem_cons, List.mem_append]
  exact or_left_comm

theorem mem_removed {goes : DirectoryEntry → Bool} (removed : self.row.remove goes = some row)
    {entry : DirectoryEntry} (member : entry ∈ row.items) : entry ∈ self.row.items := by
  rw [Row.remove_items removed] at member
  exact List.mem_of_mem_eraseP member

theorem entry_unique (tidy : self.Tidy) {first second : DirectoryEntry}
    (isFile : (self.records first.inode).IsFile)
    (firstMember : first ∈ self.row.items) (secondMember : second ∈ self.row.items)
    (same : first.inode = second.inode) : first = second := by
  have distinct : ((self.row.items.filter (self.hasFile ∘ DirectoryEntry.inode)).map
      DirectoryEntry.inode).Nodup := by
    rw [← List.filter_map]
    exact tidy.distinct
  have here : ∀ entry ∈ self.row.items, entry.inode = first.inode →
      entry ∈ self.row.items.filter (self.hasFile ∘ DirectoryEntry.inode) := by
    intro entry member equal
    refine List.mem_filter.mpr ⟨member, ?_⟩
    change self.hasFile entry.inode = true
    rw [equal]
    exact decide_eq_true isFile
  exact List.inj_on_of_nodup_map distinct (here first firstMember rfl)
    (here second secondMember same.symm) same

theorem misses_step (misses : self.Misses name) (others : ¬call.Stores name)
    (given : self.answer time call = some (answer, later)) : later.Misses name := by
  cases call with
  | create other =>
      rcases create_cases given with ⟨-, -, rfl⟩ |
        ⟨number, -, ⟨-, -, rfl⟩ | ⟨row, -, placed, -, rfl⟩⟩
      · exact misses
      · exact misses
      · intro entry member
        rcases (mem_placed placed).mp member with rfl | old
        · exact others
        · exact misses entry old
  | find other =>
      obtain ⟨rfl, -⟩ := find_cases given
      exact misses
  | delete other =>
      rcases delete_cases given with ⟨-, -, rfl⟩ | ⟨gone, row, -, -, removed, -, rfl⟩
      · exact misses
      · exact fun entry member => misses entry (mem_removed removed member)
  | list =>
      cases given
      exact misses

theorem bears_create (tidy : self.Tidy) (misses : self.Misses name)
    (narrow : ∀ c ∈ name, c.toNat < 256)
    (given : self.answer time (.create name) = some (.ok (.file number), later)) : later.Bears name
    number := by
  obtain ⟨still, -⟩ := tidy_step tidy given
  rcases create_cases given with ⟨-, other, -⟩ |
    ⟨taken, free, ⟨-, other, -⟩ | ⟨row, -, placed, same, rfl⟩⟩
  · cases other
  · cases other
  · cases same
    obtain ⟨first, last, -⟩ := free_inode_spec free
    have new : newEntry number (name.map charByte) = ⟨number, name⟩ :=
      congrArg (DirectoryEntry.mk number) (shown_narrow narrow)
    refine ⟨still, ⟨first, last.le, is_file_taken self number time⟩, ?_,
      fun entry member named => ?_⟩
    · exact (mem_placed placed).mpr (.inl new.symm)
    · rcases (mem_placed placed).mp member with rfl | old
      · rfl
      · exact absurd named (misses entry old)

theorem bears_step (bears : self.Bears name number) (leaves : call.Leaves name)
    (given : self.answer time call = some (answer, later)) : later.Bears name number := by
  obtain ⟨still, -⟩ := tidy_step bears.tidy given
  have member : number ∈ self.numbers := List.mem_map_of_mem bears.listed
  cases call with
  | create other =>
      rcases create_cases given with ⟨-, -, rfl⟩ |
        ⟨taken, free, ⟨-, -, rfl⟩ | ⟨row, -, placed, -, rfl⟩⟩
      · exact bears
      all_goals
        have record := @listed_taken self taken number time bears.tidy free member
        have opens : (self.taken taken time).Opens number := by
          unfold Catalogue.Opens
          rw [record]
          exact bears.opens
      · exact ⟨still, opens, bears.listed, bears.only⟩
      · refine ⟨still, opens, (mem_placed placed).mpr (.inr bears.listed),
          fun entry inside named => ?_⟩
        rcases (mem_placed placed).mp inside with rfl | old
        · exact absurd named leaves
        · exact bears.only entry old named
  | find other =>
      obtain ⟨rfl, -⟩ := find_cases given
      exact bears
  | delete other =>
      rcases delete_cases given with ⟨-, -, rfl⟩ | ⟨gone, row, present, deletes, removed, -, rfl⟩
      · exact bears
      · obtain ⟨goneMember, named⟩ := find_mem present
        have isFile := deletes.1.2.2
        have listed : gone.inode ∈ self.numbers := List.mem_map_of_mem goneMember
        have one := bears.tidy.single gone.inode (mem_files.mpr ⟨listed, isFile⟩)
        have apart : gone.inode ≠ self.number := fun same => bears.tidy.directory (same ▸ isFile)
        have loses := @loses_dropped self gone.inode time row one apart listed removed
        -- two entries of files with one number are the same entry, and this one has another name
        have different : gone.inode ≠ number := by
          intro same
          have equal := entry_unique bears.tidy isFile goneMember bears.listed same
          exact leaves (named.symm.trans (congrArg DirectoryEntry.name equal))
        refine ⟨still, ⟨bears.opens.1, ?_, (loses.kinds number).mpr bears.opens.2.2⟩, ?_,
          fun entry inside =>
          bears.only entry (mem_removed removed inside)⟩
        · rw [loses.count]
          exact bears.opens.2.1
        · exact Row.mem_remove removed bears.listed (beq_eq_false_iff_ne.mpr different.symm)
  | list =>
      cases given
      exact bears

theorem misses_delete (bears : self.Bears name number)
    (given : self.answer time (.delete name) = some (answer, later)) : answer = .ok .deleted ∧
    later.Misses name := by
  obtain ⟨entry, found, rfl⟩ := find_of_bears bears
  rcases delete_cases given with ⟨missing, -, -⟩ | ⟨gone, row, present, deletes, removed, same, rfl⟩
  · cases found.symm.trans missing
  · cases found.symm.trans present
    have isFile := deletes.1.2.2
    have listed : entry.inode ∈ self.numbers := List.mem_map_of_mem (find_mem found).1
    have one := bears.tidy.single entry.inode (mem_files.mpr ⟨listed, isFile⟩)
    have apart : entry.inode ≠ self.number := fun same => bears.tidy.directory (same ▸ isFile)
    have loses := @loses_dropped self entry.inode time row one apart listed removed
    refine ⟨same, fun other inside named => gone_unlisted loses isFile bears.tidy ?_⟩
    rw [← bears.only other (mem_removed removed inside) named]
    exact List.mem_map_of_mem inside

section Runs

variable {calls : List (Nat × FileCall)} {answers : List (Except VfsError FileAnswer)}

theorem misses_run (misses : self.Misses name) (others : ∀ call ∈ calls, ¬call.2.Stores name)
    (given : Catalogue.answers calls self = some (answers, later)) : later.Misses name := by
  refine predict_keeps (·.Misses name) (fun call member model after answer holds answered => ?_)
    given misses
  exact misses_step holds (others call member) answered

theorem bears_run (bears : self.Bears name number) (leaves : ∀ call ∈ calls, call.2.Leaves name)
    (given : Catalogue.answers calls self = some (answers, later)) : later.Bears name number := by
  refine predict_keeps (·.Bears name number)
    (fun call member model after answer holds answered => ?_) given bears
  exact bears_step holds (leaves call member) answered

theorem answer_find (missing : self.Misses name)
    (given : self.answer time (.find name) = some (answer, later)) :
    answer = .error .pathNotFound ∧ later = self := by
  obtain ⟨rfl, ⟨-, rfl⟩ | ⟨entry, present, -, -⟩⟩ := find_cases given
  · exact ⟨rfl, rfl⟩
  · cases (find_of_misses missing).symm.trans present

theorem answer_found (bears : self.Bears name number)
    (given : self.answer time (.find name) = some (answer, later)) :
    answer = .ok (.file number) ∧ later = self := by
  obtain ⟨entry, found, rfl⟩ := find_of_bears bears
  obtain ⟨rfl, ⟨missing, -⟩ | ⟨other, present, -, rfl⟩⟩ := find_cases given
  · cases found.symm.trans missing
  · cases found.symm.trans present
    exact ⟨rfl, rfl⟩

end Runs

/-- A file is created, looked up, deleted and looked up again, with other calls in between. -/
def lifeOf (name : List Char) (creates finds deletes misses : Surroundings)
    (behind after : List (Surroundings × FileCall)) : List (Surroundings × FileCall) :=
  (creates, .create name) :: behind ++ (finds, .find name) :: (deletes, .delete name) :: after ++
    [(misses, .find name)]

def lifeOfB : List (Surroundings × FileCall) :=
  lifeOf ['b'] (blankAround 9) (blankAround 12) (blankAround 13) (blankAround 15)
    [(blankAround 10, .create ['c']), (blankAround 11, .delete ['c'])]
      [(blankAround 14, .create ['d'])]

theorem life_enough : ∀ call ∈ lifeOfB, call.1.Enough rootNamespace.volume.blockSize := by
  simp only [lifeOfB, lifeOf, List.cons_append, List.nil_append, List.forall_mem_cons]
  exact ⟨blank_around_enough 9, blank_around_enough 10, blank_around_enough 11,
    blank_around_enough 12,
    blank_around_enough 13, blank_around_enough 14, blank_around_enough 15, fun _ impossible =>
      absurd impossible List.not_mem_nil⟩

theorem life_predicted : (Catalogue.answers (lifeOfB.map timed) rootCatalogue).isSome = true := by
    decide +kernel

/-- Every name of an entry was read from bytes. -/
theorem misses_wide {names : Namespace} (houses : Houses names self)
    (wide : ∃ c ∈ name, 256 ≤ c.toNat) :
    self.Misses name := by
  obtain ⟨found, directory⟩ := houses.directory
  obtain ⟨unused, live, tiles⟩ := directory.laid.tiles
  intro entry member
  rw [← listing_of_tiles tiles, listing_append, listing_unused tiles.idle, List.nil_append,
    listing_live tiles.busy] at member
  obtain ⟨record, -, rfl⟩ := List.mem_map.mp member
  exact shown_apart wide

end Campix.Ext2
