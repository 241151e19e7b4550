import Campix.Drivers.Listing
import Campix.Pipes.Lifetimes

/-!
# The directories of the file system of pipes

`get_child` and `list_children` of `PipeFs`. Which directory a file stands for is read off its
name: `/` is the root. A lookup in the root returns the directory of a pipe under the decimal
number that was asked for; the listing of the root calls the directory of every pipe `/`. The two
agree on the directory of a pipe, which has a file for either side.
-/

namespace Campix.Pipes

open Drivers (VfsError VfsFileKind Part SameFile ListingAgrees)

set_option autoImplicit false

/-- `checked_mul(10)?.checked_add(digit)?` -/
def pushDigit (result digit : Nat) : Option Nat :=
  if result * 10 < 2 ^ 64 then
    if result * 10 + digit < 2 ^ 64 then some (result * 10 + digit) else none
  else
    none

def decimalCharsToU64 (chars : List Char) : Option Nat :=
  chars.foldlM (fun result c => if c.isDigit then pushDigit result (c.toNat - '0'.toNat)
    else none) 0

abbrev NamedFile := Drivers.VfsFile PipeFsSpecificFileData

namespace PipeFs

def pipeDirectory (self : PipeFs) (name : List Char) (id : Nat) : NamedFile where
  kind := .directory
  name := name
  size := 0
  parentFs := self.osId
  fs := self.osId
  fsSpecific := some (.pipefsDir id)

def readSide (self : PipeFs) (name : List Char) (id : Nat) : NamedFile where
  kind := .pipe id .read id
  name := name
  size := 0
  parentFs := self.osId
  fs := self.osId
  fsSpecific := some (.pipefsRead id)

def writeSide (self : PipeFs) (name : List Char) (id : Nat) : NamedFile where
  kind := .pipe id .write id
  name := name
  size := 0
  parentFs := self.osId
  fs := self.osId
  fsSpecific := some (.pipefsWrite id)

def getChild (self : PipeFs) (file : NamedFile) (child : Part) : Except VfsError NamedFile :=
  if file.fs ≠ self.osId then .error .fileSystemMismatch
  else if file.name = ['/'] then
    match decimalCharsToU64 child with
    | none => .error .pathNotFound
    | some id => if id ∈ self.pipes then .ok (self.pipeDirectory child id) else .error .pathNotFound
  else
    match file.fsSpecific with
    | none => .error .fileSystemMismatch
    | some (.pipefsDir id) =>
        if id ∈ self.pipes then
          if child = ['r'] then .ok (self.readSide child id)
          else if child = ['w'] then .ok (self.writeSide child id)
          else .error .pathNotFound
        else .error .pathNotFound
    | some _ => .error .pathNotFound

def listChildren (self : PipeFs) (file : NamedFile) : Except VfsError (List NamedFile) :=
  if file.fs ≠ self.osId then .error .fileSystemMismatch
  else if file.name = ['/'] then
    .ok ((self.pipes.mergeSort fun left right => decide (left ≤ right)).map
      fun id => self.pipeDirectory ['/'] id)
  else
    match file.fsSpecific with
    | none => .error .fileSystemMismatch
    | some (.pipefsDir id) =>
        if id ∈ self.pipes then .ok [self.readSide ['r'] id, self.writeSide ['w'] id]
        else .error .pathNotFound
    | some _ => .error .pathNotFound

/-- The decimal numbers in the root, the two sides in the directory of a pipe. -/
def Canonical (file : NamedFile) (name : Part) : Prop :=
  if file.name = ['/'] then ∃ id : Nat, name = Nat.toDigits 10 id else name = ['r'] ∨ name = ['w']

def listed (self : PipeFs) (file : NamedFile) : List NamedFile :=
  (self.listChildren file).toOption.getD []

def looked (self : PipeFs) (file : NamedFile) (name : Part) : Option NamedFile :=
  (self.getChild file name).toOption

variable {self : PipeFs} {file : NamedFile}

theorem looked_root (own : file.fs = self.osId) (root : file.name = ['/']) (name : Part) :
    self.looked file name =
      (decimalCharsToU64 name).bind fun id =>
        if id ∈ self.pipes then some (self.pipeDirectory name id) else none := by
  rw [looked, getChild, if_neg (not_not.mpr own), if_pos root]
  cases decimalCharsToU64 name with
  | none => rfl
  | some id =>
      simp only [Option.bind_some]
      split_ifs <;> rfl

theorem listed_root (own : file.fs = self.osId) (root : file.name = ['/']) :
    self.listed file = (self.pipes.mergeSort fun left right => decide (left ≤ right)).map
      fun id => self.pipeDirectory ['/'] id := by
  rw [listed, listChildren, if_neg (not_not.mpr own), if_pos root]
  rfl

/-- Every pipe is listed as `/`, and no lookup returns that name. -/
theorem root_empty_of_agrees (own : file.fs = self.osId) (root : file.name = ['/'])
    (agrees : ListingAgrees SameFile (Canonical file) (self.listed file) (self.looked file)) :
    self.pipes = [] := by
  by_contra some
  obtain ⟨id, member⟩ := List.exists_mem_of_ne_nil _ some
  have inside : self.pipeDirectory ['/'] id ∈ self.listed file := by
    rw [listed_root own root]
    exact List.mem_map_of_mem ((List.mergeSort_perm _ _).mem_iff.mpr member)
  obtain ⟨name, found, -, lookup, same⟩ := Drivers.listed_is_found agrees inside
  rw [looked_root own root] at lookup
  obtain ⟨number, decimal, present⟩ := Option.bind_eq_some_iff.mp lookup
  split_ifs at present
  obtain rfl := Option.some.inj present
  have slash : ['/'] = name := same.name
  have unread : decimalCharsToU64 ['/'] = none := by decide
  rw [← slash, unread] at decimal
  exact absurd decimal.symm (Option.some_ne_none number)

theorem agrees_empty_root (own : file.fs = self.osId) (root : file.name = ['/'])
    (empty : self.pipes = []) :
    ListingAgrees Eq (Canonical file) (self.listed file) (self.looked file) := by
  have nothing : self.listed file = [] := by
    rw [listed_root own root, empty, List.mergeSort_nil, List.map_nil]
  rw [nothing]
  apply Drivers.agrees_nothing
  intro name _
  rw [looked_root own root, empty]
  cases decimalCharsToU64 name with
  | none => rfl
  | some id => rfl

/-- The directory of a pipe that is there has its two sides; every other file has nothing in it. -/
theorem agrees_below_root (own : file.fs = self.osId) (below : file.name ≠ ['/']) :
    ListingAgrees Eq (Canonical file) (self.listed file) (self.looked file) := by
  have canonical : ∀ name, Canonical file name ↔ name = ['r'] ∨ name = ['w'] := by
    intro name
    rw [Canonical, if_neg below]
  by_cases here : ∃ id, file.fsSpecific = some (.pipefsDir id) ∧ id ∈ self.pipes
  · obtain ⟨id, data, inside⟩ := here
    have list : self.listed file = [self.readSide ['r'] id, self.writeSide ['w'] id] := by
      rw [listed, listChildren, if_neg (not_not.mpr own), if_neg below, data]
      simp only
      rw [if_pos inside]
      rfl
    have look : ∀ name, self.looked file name =
        if name = ['r'] then some (self.readSide name id)
        else if name = ['w'] then some (self.writeSide name id) else none := by
      intro name
      rw [looked, getChild, if_neg (not_not.mpr own), if_neg below, data]
      simp only
      rw [if_pos inside]
      split_ifs <;> rfl
    have read : self.looked file ['r'] = some (self.readSide ['r'] id) := look ['r']
    have write : self.looked file ['w'] = some (self.writeSide ['w'] id) := look ['w']
    refine ⟨[['r'], ['w']], by decide, fun name => ?_, ?_⟩
    · rw [canonical, List.mem_cons, List.mem_singleton]
      constructor
      · rintro (rfl | rfl)
        · exact ⟨.inl rfl, _, read⟩
        · exact ⟨.inr rfl, _, write⟩
      · exact fun known => known.1
    · rw [list]
      exact .cons ⟨_, read, rfl⟩ (.cons ⟨_, write, rfl⟩ .nil)
  · have list : self.listed file = [] := by
      rw [listed, listChildren, if_neg (not_not.mpr own), if_neg below]
      cases data : file.fsSpecific with
      | none => rfl
      | some stands =>
          cases stands with
          | pipefsDir id =>
              simp only
              rw [if_neg fun inside => here ⟨id, data, inside⟩]
              rfl
          | _ => rfl
    rw [list]
    apply Drivers.agrees_nothing
    intro name _
    rw [looked, getChild, if_neg (not_not.mpr own), if_neg below]
    cases data : file.fsSpecific with
    | none => rfl
    | some stands =>
        cases stands with
        | pipefsDir id =>
            simp only
            rw [if_neg fun inside => here ⟨id, data, inside⟩]
            rfl
        | _ => rfl

theorem pipe_listing_agrees_iff (own : file.fs = self.osId) :
    (ListingAgrees SameFile (Canonical file) (self.listed file) (self.looked file) ↔
        (file.name = ['/'] → self.pipes = [])) ∧
      ((file.name = ['/'] → self.pipes = []) →
        ListingAgrees Eq (Canonical file) (self.listed file) (self.looked file)) := by
  have equal : (file.name = ['/'] → self.pipes = []) →
      ListingAgrees Eq (Canonical file) (self.listed file) (self.looked file) := by
    intro quiet
    by_cases root : file.name = ['/']
    · exact agrees_empty_root own root (quiet root)
    · exact agrees_below_root own root
  exact ⟨⟨fun agrees root => root_empty_of_agrees own root agrees,
    fun quiet => Drivers.agrees_of_equal (equal quiet)⟩, equal⟩

end PipeFs

def rootFile (osId : Nat) : NamedFile :=
    ⟨.directory, ['/'], 0, Drivers.Vfs.osId, osId, some .pipefsRoot⟩

def mountedBelow : Drivers.World Drivers.OpenVolume :=
  Lib.Outcome.stateAfter (Drivers.World.serve
    Drivers.OpenVolume.methods (.mount ['/', 'a', '/', 'b'] ⟨0, []⟩)
    (Drivers.World.start (some ())))

def onePipe : PipeFs where
  osId := 2
  shared := fun _ => .newAnonymous (64 * 1024)
  pipes := [0]
  handles := ⟨[]⟩
  nextPipeId := 1

end Campix.Pipes
