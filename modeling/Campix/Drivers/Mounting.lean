import Campix.Drivers.MountTree
import Campix.Lib.Outcome
import Campix.Pipes.PipeFs

/-!
# Mounting and unmounting

`VfsFile`, the `FileSystem` trait and the `Vfs` of `drivers/vfs.rs` with `mount` and
`unmount`. A file system is a state of type `σ` behind an allocation, and the trait's
methods are functions over that state which may change it and may fail. The `Vfs` knows a
file system twice: `fs_by_id` holds it, under the number it was given, and the mount tree
refers to it weakly, under its path. The two are changed at different points around the
callbacks of the file system.
-/

namespace Campix.Drivers

open Lib
open Lib.Caching.Recent
open Lib.Entries
open Lib.Fallible
open Lib.Outcome

set_option autoImplicit false

inductive VfsFileKind where
  | file
  | directory
  | blockDevice (device : Nat)
  | characterDevice (device : Nat)
  | mountPoint (mountedFs : Ref)
  | pipe (pipe : Nat) (mode : Pipes.PipeMode) (pipeId : Nat)
  deriving DecidableEq

/-- `fsSpecific` is `none` for the `VfsSpecificFileData` that the `Vfs` gives its own files. -/
structure VfsFile (Data : Type) where
  kind : VfsFileKind
  name : List Char
  size : Nat
  parentFs : Nat
  fs : Nat
  fsSpecific : Option Data
  deriving DecidableEq

namespace VfsFile

variable {Data : Type}

def getMountedFs (file : VfsFile Data) : Option Ref :=
  match file.kind with
  | .mountPoint mountedFs => some mountedFs
  | _ => none

def isMountPoint (file : VfsFile Data) : Bool :=
  file.getMountedFs.isSome

end VfsFile

/-- The methods of the trait that the `Vfs` calls when it mounts, unmounts and resolves. -/
structure FileSystem (σ Data : Type) where
  osId : σ → Nat
  getRoot : EStateM VfsError σ (VfsFile Data)
  getChild : VfsFile Data → Part → EStateM VfsError σ (VfsFile Data)
  onMount : VfsFile Data → Nat → EStateM VfsError σ (VfsFile Data)
  onPreUnmount : EStateM VfsError σ Bool
  onUnmount : EStateM VfsError σ Unit

/-- `root_fs` can only be a reference to this `Vfs`. -/
structure Vfs where
  fsById : List (Nat × Ref)
  mountingPointsManager : MountingPointsManager
  rootFs : Option Unit
  osIdCount : Nat

/-- The `Vfs` and the states behind the allocations. -/
structure World (σ : Type) where
  vfs : Vfs
  objects : List σ

section Methods

variable {σ Data Value : Type}

abbrev OnWorld (σ Value : Type) := EStateM VfsError (World σ) Value

/-- A method called through a reference, `fs.write().method(..)`. -/
def onObject (fs : Ref) (method : EStateM VfsError σ Value) : OnWorld σ Value := fun world =>
  match world.objects[fs]? with
  | none => .error .unknownError world
  | some object =>
      match method object with
      | .ok value after => .ok value { world with objects := world.objects.set fs after }
      | .error error after => .error error { world with objects := world.objects.set fs after }

/-- `Weak::upgrade`. An allocation lives while `fs_by_id` or somebody else holds it. -/
def upgrade (held : List Ref) (fs : Ref) (world : World σ) : Bool :=
  world.vfs.fsById.any (fun entry => entry.2 = fs) || held.contains fs

/-- The number of the `Vfs` itself. -/
def Vfs.osId : Nat := 1

namespace World

def nextOsId : OnWorld σ Nat := fun world =>
  .ok (world.vfs.osIdCount + 1)
    { world with vfs := { world.vfs with osIdCount := world.vfs.osIdCount + 1 } }

def allocate (object : σ) : OnWorld σ Ref := fun world =>
  .ok world.objects.length { world with objects := world.objects ++ [object] }

def registerFs (osId : Nat) (name : List Char) (ptr : Ref) : OnWorld σ Unit := fun world =>
  let registered := world.vfs.mountingPointsManager.registerFs name ptr
  let after := { world with
    vfs := { world.vfs with
      fsById := set world.vfs.fsById osId ptr
      mountingPointsManager := registered.2 } }
  match registered.1 with
  | .error error => .error error after
  | .ok () => .ok () after

def mount (ops : FileSystem σ Data) (name : List Char) (fs : σ) : OnWorld σ (VfsFile Data) := do
  if (← get).vfs.rootFs.isNone then throw .fileSystemNotMounted
  let osId ← nextOsId
  let ptr ← allocate fs
  registerFs osId name ptr
  let mountPoint : VfsFile Data := {
    kind := .mountPoint ptr
    name := name
    size := 0
    parentFs := Vfs.osId
    fs := osId
    fsSpecific := none }
  let _ ← onObject ptr (ops.onMount mountPoint osId)
  return mountPoint

def removeFs (name : List Char) : OnWorld σ Ref := fun world =>
  let removed := world.vfs.mountingPointsManager.removeFs name
  let after := { world with vfs := { world.vfs with mountingPointsManager := removed.2 } }
  match removed.1 with
  | .error error => .error error after
  | .ok fs => .ok fs after

def idOf (ops : FileSystem σ Data) (fs : Ref) : OnWorld σ Nat :=
  onObject fs fun object => .ok (ops.osId object) object

/-- The part of `unmount` that holds the file system. -/
def release (ops : FileSystem σ Data) (fs : Ref) : OnWorld σ Unit := do
  let id ← idOf ops fs
  -- The loop around `on_pre_unmount` is left in its first round, whatever it returned.
  let _ ← onObject fs ops.onPreUnmount
  onObject fs ops.onUnmount
  modify fun world =>
    { world with vfs := { world.vfs with fsById := others world.vfs.fsById id } }

/-- `held` are the file systems that somebody other than `fs_by_id` holds. -/
def unmount (ops : FileSystem σ Data) (held : List Ref) (name : List Char) : OnWorld σ Unit := do
  let fs ← removeFs name
  if upgrade held fs (← get) then release ops fs else throw .unknownError

end World

end Methods

section Runs

variable {σ Data : Type} (ops : FileSystem σ Data)

inductive Request (σ : Type) where
  | mount (name : List Char) (fs : σ)
  | unmount (held : List Ref) (name : List Char)

namespace World

def start (rootFs : Option Unit) : World σ where
  vfs := {
    fsById := []
    mountingPointsManager := MountingPointsManager.new
    rootFs := rootFs
    osIdCount := 1 }
  objects := []

def serve : Request σ → OnWorld σ Unit
  | .mount name fs => do
      let _ ← mount ops name fs
  | .unmount held name => unmount ops held name

/-- The states reached by calls that are `allowed` where they are made. Between the calls the
file systems are used, which leaves them the numbers they have. -/
inductive Runs (allowed : World σ → Request σ → Prop) : World σ → Prop
  | start (rootFs : Option Unit) : Runs allowed (start rootFs)
  | serve {before : World σ} (earlier : Runs allowed before) (made : Request σ)
      (fits : allowed before made) : Runs allowed (stateAfter (serve ops made before))
  | work {before : World σ} (earlier : Runs allowed before) (fs : Ref) (after : σ)
      (sameId : ∀ object, before.objects[fs]? = some object → ops.osId after = ops.osId object) :
      Runs allowed { before with objects := before.objects.set fs after }

def registered (world : World σ) (path : List Part) : Option Ref :=
  world.vfs.mountingPointsManager.registered path

/-- `fs_by_id` has a file system under its number exactly when the tree has it. -/
def Agrees (world : World σ) : Prop :=
  ∀ fs, (∃ object, world.objects[fs]? = some object ∧
      find world.vfs.fsById (ops.osId object) = some fs) ↔
    ∃ path, world.registered path = some fs

def SameMaps (before after : World σ) : Prop :=
  after.vfs.fsById = before.vfs.fsById ∧
    after.vfs.mountingPointsManager = before.vfs.mountingPointsManager

def AllOrNothing (before : World σ) (made : Request σ) : Prop :=
  Agrees ops (stateAfter (serve ops made before)) ∧
    ∀ error after, serve ops made before = .error error after → SameMaps before after

def mountPoint (world : World σ) (name : List Char) : VfsFile Data where
  kind := .mountPoint world.objects.length
  name := name
  size := 0
  parentFs := Vfs.osId
  fs := world.vfs.osIdCount + 1
  fsSpecific := none

/-- A mount whose path is free and whose file system takes it, or which is refused at once; an
unmount of a file system that lets go, or of a path without one. -/
def Clean (world : World σ) : Request σ → Prop
  | .mount name fs =>
      world.vfs.rootFs.isNone ∨
        Trie.Free world.registered (components name) ∧
          ∃ root after,
            ops.onMount (world.mountPoint name) (world.vfs.osIdCount + 1) fs = .ok root after
  | .unmount _ name =>
      ∀ fs object, world.registered (components name) = some fs →
        world.objects[fs]? = some object →
          ∃ ready after last, ops.onPreUnmount object = .ok ready after ∧
            ops.onUnmount after = .ok () last

/-- The file systems of the repository take the number they are mounted under. -/
def TakesId : Prop :=
  ∀ mountPoint id fs root after, ops.onMount mountPoint id fs = .ok root after →
    ops.osId after = id

variable {ops} {world : World σ}

theorem onObject_ok {Value : Type} {fs : Ref} {object after : σ} {value : Value}
    {method : EStateM VfsError σ Value} (present : world.objects[fs]? = some object)
    (returned : method object = .ok value after) :
    onObject fs method world = .ok value { world with objects := world.objects.set fs after } := by
  simp only [onObject, present, returned]

theorem onObject_error {Value : Type} {fs : Ref} {object after : σ} {error : VfsError}
    {method : EStateM VfsError σ Value} (present : world.objects[fs]? = some object)
    (failed : method object = .error error after) :
    onObject fs method world =
      .error error { world with objects := world.objects.set fs after } := by
  simp only [onObject, present, failed]

/-- The world in which `on_mount` is called, and those it leaves. -/
def entered (world : World σ) (name : List Char) (objects : List σ) : World σ where
  vfs := {
    fsById := set world.vfs.fsById (world.vfs.osIdCount + 1) world.objects.length
    mountingPointsManager :=
      (world.vfs.mountingPointsManager.registerFs name world.objects.length).2
    rootFs := world.vfs.rootFs
    osIdCount := world.vfs.osIdCount + 1 }
  objects := objects

theorem mount_unrooted {name : List Char} {fs : σ} (unrooted : world.vfs.rootFs.isNone = true) :
    mount ops name fs world = .error .fileSystemNotMounted world := by
  obtain ⟨⟨fsById, manager, rootFs, osIdCount⟩, objects⟩ := world
  cases rootFs with
  | none => rfl
  | some root => exact absurd unrooted Bool.false_ne_true

theorem registerFs_ok {id : Nat} {name : List Char} {ptr : Ref}
    (done : (world.vfs.mountingPointsManager.registerFs name ptr).1 = .ok ()) :
    registerFs id name ptr world = .ok () { world with
      vfs := { world.vfs with
        fsById := set world.vfs.fsById id ptr
        mountingPointsManager := (world.vfs.mountingPointsManager.registerFs name ptr).2 } } := by
  simp only [registerFs, done]

theorem registerFs_error {id : Nat} {name : List Char} {ptr : Ref} {error : VfsError}
    (failed : (world.vfs.mountingPointsManager.registerFs name ptr).1 = .error error) :
    registerFs id name ptr world = .error error { world with
      vfs := { world.vfs with
        fsById := set world.vfs.fsById id ptr
        mountingPointsManager := (world.vfs.mountingPointsManager.registerFs name ptr).2 } } := by
  simp only [registerFs, failed]

theorem mount_rooted {name : List Char} {fs : σ} (rooted : world.vfs.rootFs.isNone = false) :
    mount ops name fs world =
      match (world.vfs.mountingPointsManager.registerFs name world.objects.length).1 with
      | .error error => .error error (world.entered name (world.objects ++ [fs]))
      | .ok () =>
          match ops.onMount (world.mountPoint name) (world.vfs.osIdCount + 1) fs with
          | .ok _ after =>
              .ok (world.mountPoint name) (world.entered name (world.objects ++ [after]))
          | .error error after => .error error (world.entered name (world.objects ++ [after])) := by
  obtain ⟨⟨fsById, manager, rootFs, osIdCount⟩, objects⟩ := world
  obtain ⟨⟩ : rootFs = some () := by
    cases rootFs with
    | none => exact absurd rooted.symm Bool.false_ne_true
    | some root => rfl
  have begun : mount ops name fs ⟨⟨fsById, manager, some (), osIdCount⟩, objects⟩ =
      (registerFs (osIdCount + 1) name objects.length >>= fun _ =>
        onObject objects.length (ops.onMount (mountPoint ⟨⟨fsById, manager, some (), osIdCount⟩,
          objects⟩ name) (osIdCount + 1)) >>= fun _ =>
            pure (mountPoint ⟨⟨fsById, manager, some (), osIdCount⟩, objects⟩ name))
      ⟨⟨fsById, manager, some (), osIdCount + 1⟩, objects ++ [fs]⟩ := rfl
  rw [begun]
  have present : (objects ++ [fs])[objects.length]? = some fs := by simp
  have replaced : ∀ after, (objects ++ [fs]).set objects.length after = objects ++ [after] := by
    simp
  cases outcome : (manager.registerFs name objects.length).1 with
  | error error => rw [state_bind_error (registerFs_error outcome)]; rfl
  | ok done =>
      rw [state_bind_ok (registerFs_ok outcome)]
      simp only
      cases mounted : ops.onMount (mountPoint ⟨⟨fsById, manager, some (), osIdCount⟩, objects⟩ name)
        (osIdCount + 1) fs with
      | ok root after =>
          rw [state_bind_ok (onObject_ok present mounted)]
          simp only [replaced]
          rfl
      | error error after =>
          rw [state_bind_error (onObject_error present mounted)]
          simp only [replaced]
          rfl

/-- The world from which `unmount` has taken the path. -/
def leaving (world : World σ) (name : List Char) : World σ where
  vfs := { world.vfs with
    mountingPointsManager := (world.vfs.mountingPointsManager.removeFs name).2 }
  objects := world.objects

theorem unmount_unregistered {held : List Ref} {name : List Char}
    (missing : world.registered (components name) = none) :
    unmount ops held name world = .error .pathNotFound world := by
  have failed : removeFs name world = .error .pathNotFound world := by
    unfold removeFs
    rw [MountingPointsManager.remove_of_unregistered missing]
  exact state_bind_error failed

theorem idOf_eq {fs : Ref} {object : σ} (present : world.objects[fs]? = some object) :
    idOf ops fs world = .ok (ops.osId object) world := by
  obtain ⟨inside, same⟩ := List.getElem?_eq_some_iff.mp present
  have kept : world.objects.set fs object = world.objects := by
    rw [← same]
    exact List.set_getElem_self inside
  simp only [idOf, onObject, present, kept]

/-- How the part that holds the file system ends. -/
theorem release_eq {fs : Ref} {object : σ} (present : world.objects[fs]? = some object) :
    release ops fs world =
      match ops.onPreUnmount object with
      | .error error after => .error error { world with objects := world.objects.set fs after }
      | .ok _ after =>
          match ops.onUnmount after with
          | .error error last => .error error { world with objects := world.objects.set fs last }
          | .ok () last =>
              .ok () {
                vfs := { world.vfs with fsById := others world.vfs.fsById (ops.osId object) }
                objects := world.objects.set fs last } := by
  obtain ⟨inside, _⟩ := List.getElem?_eq_some_iff.mp present
  have presentAfter : ∀ after, ({ world with objects := world.objects.set fs after } :
      World σ).objects[fs]? = some after := fun after => by
    rw [List.getElem?_set_self inside]
  refine (state_bind_ok (idOf_eq present)).trans ?_
  cases ready : ops.onPreUnmount object with
  | error error after => exact state_bind_error (onObject_error present ready)
  | ok value after =>
      refine (state_bind_ok (onObject_ok present ready)).trans ?_
      cases gone : ops.onUnmount after with
      | error error last =>
          refine (state_bind_error (onObject_error (presentAfter after) gone)).trans ?_
          simp only [List.set_set, gone]
      | ok value last =>
          refine (state_bind_ok (onObject_ok (presentAfter after) gone)).trans ?_
          simp only [List.set_set, gone]
          rfl

theorem unmount_registered {held : List Ref} {name : List Char} {fs : Ref}
    (found : (world.vfs.mountingPointsManager.removeFs name).1 = .ok fs)
    (alive : upgrade held fs world = true) :
    unmount ops held name world = release ops fs (world.leaving name) := by
  have removed : removeFs name world = .ok fs (world.leaving name) := by
    simp only [removeFs, found]
    rfl
  refine (state_bind_ok removed).trans ?_
  change (if upgrade held fs (world.leaving name) then release ops fs
    else throw VfsError.unknownError : OnWorld σ Unit) (world.leaving name) = _
  rw [if_pos]
  exact alive

structure Consistent (ops : FileSystem σ Data) (world : World σ) : Prop where
  pruned : world.vfs.mountingPointsManager.tree.Pruned
  listed : ∀ id fs, find world.vfs.fsById id = some fs →
    id ≤ world.vfs.osIdCount ∧ (∃ object, world.objects[fs]? = some object ∧
      ops.osId object = id) ∧ ∃ path, world.registered path = some fs
  placed : ∀ path fs, world.registered path = some fs →
    ∃ object, world.objects[fs]? = some object ∧
      find world.vfs.fsById (ops.osId object) = some fs
  once : ∀ first second fs, world.registered first = some fs →
    world.registered second = some fs → first = second

theorem consistent_start (rootFs : Option Unit) : Consistent ops (start rootFs) where
  pruned := Trie.pruned_empty
  listed id fs found := absurd found.symm (Option.some_ne_none fs)
  placed path fs found := by
    change Trie.lookup Trie.empty path = some fs at found
    rw [Trie.lookup_empty] at found
    exact absurd found.symm (Option.some_ne_none fs)
  once first second fs found := by
    change Trie.lookup Trie.empty first = some fs at found
    rw [Trie.lookup_empty] at found
    exact absurd found.symm (Option.some_ne_none fs)

theorem agrees_of_consistent (consistent : Consistent ops world) : Agrees ops world := by
  intro fs
  constructor
  · rintro ⟨object, _, found⟩
    exact (consistent.listed _ fs found).2.2
  · rintro ⟨path, found⟩
    exact consistent.placed path fs found

theorem upgrade_of_find {id : Nat} {fs : Ref} (entry : find world.vfs.fsById id = some fs)
    (held : List Ref) : upgrade held fs world = true := by
  rw [upgrade, Bool.or_eq_true]
  exact .inl (List.any_eq_true.mpr ⟨_, mem_of_find entry, by simp⟩)

theorem alive_of_consistent (consistent : Consistent ops world) {path : List Part} {fs : Ref}
    (found : world.registered path = some fs) (held : List Ref) :
    upgrade held fs world = true := by
  obtain ⟨object, _, entry⟩ := consistent.placed path fs found
  exact upgrade_of_find entry held

theorem fresh_id (consistent : Consistent ops world) :
    find world.vfs.fsById (world.vfs.osIdCount + 1) = none := by
  cases found : find world.vfs.fsById (world.vfs.osIdCount + 1) with
  | none => rfl
  | some fs =>
      have bounded := (consistent.listed _ fs found).1
      omega

theorem fresh_object (consistent : Consistent ops world) {path : List Part} :
    world.registered path ≠ some world.objects.length := by
  intro found
  obtain ⟨object, present, _⟩ := consistent.placed path _ found
  rw [List.getElem?_eq_none (le_refl _)] at present
  exact absurd present.symm (Option.some_ne_none object)

/-- A failed mount that got as far as `fs_by_id` has changed it. -/
theorem entered_differs (consistent : Consistent ops world) (name : List Char)
    (objects : List σ) : ¬ SameMaps world (world.entered name objects) := by
  rintro ⟨same, _⟩
  have found : find (world.entered name objects).vfs.fsById (world.vfs.osIdCount + 1) =
      some world.objects.length := by
    change find (set _ _ _) _ = _
    rw [find_set, Function.update_self]
  rw [same, fresh_id consistent] at found
  exact absurd found.symm (Option.some_ne_none _)

/-- A failed unmount of a registered path has taken it out of the tree. -/
theorem leaving_differs (consistent : Consistent ops world) {name : List Char} {fs : Ref}
    (found : world.registered (components name) = some fs) (objects : List σ) :
    ¬ SameMaps world { world.leaving name with objects := objects } := by
  rintro ⟨_, same⟩
  obtain ⟨_, _, changed⟩ := MountingPointsManager.remove_of_registered consistent.pruned found
  change (world.vfs.mountingPointsManager.removeFs name).2 = _ at same
  rw [same] at changed
  have gone := congrFun changed (components name)
  rw [Function.update_self] at gone
  change world.registered (components name) = none at gone
  rw [found] at gone
  exact absurd gone (Option.some_ne_none fs)

theorem consistent_entered (consistent : Consistent ops world) {name : List Char}
    (free : Trie.Free world.registered (components name)) {after : σ}
    (numbered : ops.osId after = world.vfs.osIdCount + 1) :
    Consistent ops (world.entered name (world.objects ++ [after])) := by
  obtain ⟨_, pruned, changed⟩ :=
    @MountingPointsManager.register_of_free _ consistent.pruned _ world.objects.length free
  have registered_eq : (world.entered name (world.objects ++ [after])).registered =
      Function.update world.registered (components name) (some world.objects.length) := changed
  have find_eq : find (world.entered name (world.objects ++ [after])).vfs.fsById =
      Function.update (find world.vfs.fsById) (world.vfs.osIdCount + 1)
        (some world.objects.length) := find_set _ _ _
  have inherited : ∀ fs object, world.objects[fs]? = some object →
      (world.objects ++ [after])[fs]? = some object := fun fs object present =>
    List.getElem?_append_left (List.getElem?_eq_some_iff.mp present).1 ▸ present
  have last : (world.objects ++ [after])[world.objects.length]? = some after := by simp
  -- Every path but the new one has the file system it had.
  have split : ∀ path fs, (world.entered name (world.objects ++ [after])).registered path =
      some fs → path = components name ∧ fs = world.objects.length ∨
        path ≠ components name ∧ world.registered path = some fs := by
    intro path fs found
    rw [registered_eq] at found
    by_cases same : path = components name
    · rw [same, Function.update_self] at found
      exact .inl ⟨same, (Option.some.inj found).symm⟩
    · rw [Function.update_of_ne same] at found
      exact .inr ⟨same, found⟩
  refine ⟨pruned, fun id fs found => ?_, fun path fs found => ?_, fun first second fs one two => ?_⟩
  · rw [find_eq] at found
    by_cases same : id = world.vfs.osIdCount + 1
    · rw [same, Function.update_self] at found
      obtain rfl := Option.some.inj found
      refine ⟨same.le, ⟨after, last, numbered.trans same.symm⟩, components name, ?_⟩
      rw [registered_eq, Function.update_self]
    · rw [Function.update_of_ne same] at found
      obtain ⟨bounded, ⟨object, present, same⟩, path, placed⟩ := consistent.listed id fs found
      refine ⟨Nat.le_succ_of_le bounded, ⟨object, inherited fs object present, same⟩, path, ?_⟩
      have other : path ≠ components name := fun equal =>
        free path (by rw [placed]; exact Option.some_ne_none fs) (.inl (by rw [equal]))
      rw [registered_eq, Function.update_of_ne other]
      exact placed
  · rcases split path fs found with ⟨_, rfl⟩ | ⟨_, placed⟩
    · refine ⟨after, last, ?_⟩
      rw [find_eq, numbered, Function.update_self]
    · obtain ⟨object, present, entry⟩ := consistent.placed path fs placed
      refine ⟨object, inherited fs object present, ?_⟩
      have bounded := (consistent.listed _ fs entry).1
      rw [find_eq, Function.update_of_ne (by omega)]
      exact entry
  · rcases split first fs one with ⟨firstName, new⟩ | ⟨_, old⟩
    · rcases split second fs two with ⟨secondName, _⟩ | ⟨_, old⟩
      · rw [firstName, secondName]
      · exact absurd (new ▸ old) (fresh_object consistent)
    · rcases split second fs two with ⟨_, new⟩ | ⟨_, oldToo⟩
      · exact absurd (new ▸ old) (fresh_object consistent)
      · exact consistent.once first second fs old oldToo

theorem consistent_released (consistent : Consistent ops world) {name : List Char} {fs : Ref}
    {object : σ} (found : world.registered (components name) = some fs)
    (present : world.objects[fs]? = some object) (last : σ) :
    Consistent ops {
      vfs := { (world.leaving name).vfs with
        fsById := others world.vfs.fsById (ops.osId object) }
      objects := world.objects.set fs last } := by
  obtain ⟨_, pruned, changed⟩ := MountingPointsManager.remove_of_registered consistent.pruned found
  have registered_eq : (world.leaving name).registered =
      Function.update world.registered (components name) none := changed
  have find_eq := find_others world.vfs.fsById (ops.osId object)
  have number : find world.vfs.fsById (ops.osId object) = some fs := by
    obtain ⟨other, presentToo, entry⟩ := consistent.placed _ fs found
    obtain rfl := Option.some.inj (present.symm.trans presentToo)
    exact entry
  -- What is still registered is another file system, whose state is as it was.
  have remains : ∀ path other, (world.leaving name).registered path = some other →
      path ≠ components name ∧ world.registered path = some other ∧ other ≠ fs := by
    intro path other placed
    rw [registered_eq] at placed
    by_cases same : path = components name
    · rw [same, Function.update_self] at placed
      exact absurd placed.symm (Option.some_ne_none other)
    · rw [Function.update_of_ne same] at placed
      refine ⟨same, placed, fun equal => same ?_⟩
      exact consistent.once path (components name) fs (equal ▸ placed) found
  have untouched : ∀ other state, other ≠ fs → world.objects[other]? = some state →
      (world.objects.set fs last)[other]? = some state := by
    intro other state different presentOther
    rw [List.getElem?_set_ne different.symm]
    exact presentOther
  refine ⟨pruned, fun id other entry => ?_, fun path other placed => ?_,
    fun first second other one two => ?_⟩
  · change find (others world.vfs.fsById (ops.osId object)) id = some other at entry
    rw [find_eq] at entry
    by_cases same : id = ops.osId object
    · rw [same, Function.update_self] at entry
      exact absurd entry.symm (Option.some_ne_none other)
    · rw [Function.update_of_ne same] at entry
      obtain ⟨bounded, ⟨state, presentOther, numbered⟩, path, placed⟩ :=
        consistent.listed id other entry
      have different : other ≠ fs := by
        intro equal
        rw [equal] at presentOther
        obtain rfl := Option.some.inj (present.symm.trans presentOther)
        exact same numbered.symm
      refine ⟨bounded, ⟨state, untouched other state different presentOther, numbered⟩, path, ?_⟩
      change (world.leaving name).registered path = some other
      rw [registered_eq, Function.update_of_ne]
      · exact placed
      · intro equal
        rw [equal, found] at placed
        exact different (Option.some.inj placed).symm
  · obtain ⟨_, placedBefore, different⟩ := remains path other placed
    obtain ⟨state, presentOther, entry⟩ := consistent.placed path other placedBefore
    refine ⟨state, untouched other state different presentOther, ?_⟩
    change find (others world.vfs.fsById (ops.osId object)) (ops.osId state) = some other
    rw [find_eq, Function.update_of_ne]
    · exact entry
    · intro equal
      rw [equal, number] at entry
      exact different (Option.some.inj entry).symm
  · exact consistent.once first second other (remains first other one).2.1
      (remains second other two).2.1

theorem consistent_work (consistent : Consistent ops world) {fs : Ref} {after : σ}
    (sameId : ∀ object, world.objects[fs]? = some object → ops.osId after = ops.osId object) :
    Consistent ops { world with objects := world.objects.set fs after } := by
  -- Every allocation keeps its number.
  have numbered : ∀ (other : Ref) (object : σ), world.objects[other]? = some object →
      ∃ now, (world.objects.set fs after)[other]? = some now ∧
        ops.osId now = ops.osId object := by
    intro other object present
    by_cases same : other = fs
    · subst same
      refine ⟨after, ?_, sameId object present⟩
      exact List.getElem?_set_self (List.getElem?_eq_some_iff.mp present).1
    · exact ⟨object, by rw [List.getElem?_set_ne (Ne.symm same)]; exact present, rfl⟩
  refine ⟨consistent.pruned, fun id other entry => ?_, fun path other placed => ?_,
    consistent.once⟩
  · obtain ⟨bounded, ⟨object, present, same⟩, path, placed⟩ := consistent.listed id other entry
    obtain ⟨now, presentNow, sameNow⟩ := numbered other object present
    exact ⟨bounded, ⟨now, presentNow, sameNow.trans same⟩, path, placed⟩
  · obtain ⟨object, present, entry⟩ := consistent.placed path other placed
    obtain ⟨now, presentNow, sameNow⟩ := numbered other object present
    exact ⟨now, presentNow, by rw [sameNow]; exact entry⟩

theorem serve_mount {name : List Char} {fs : σ} :
    serve ops (.mount name fs) world =
      match mount ops name fs world with
      | .ok _ after => .ok () after
      | .error error after => .error error after := by
  cases mounted : mount ops name fs world with
  | ok file after => exact state_bind_ok mounted
  | error error after => exact state_bind_error mounted

/-- The call is all or nothing exactly when it is clean, and a clean one keeps the maps
consistent. -/
def Settles (ops : FileSystem σ Data) (world : World σ) (made : Request σ) : Prop :=
  (AllOrNothing ops world made ↔ Clean ops world made) ∧
    (Clean ops world made → Consistent ops (stateAfter (serve ops made world)))

theorem settles_of_dirty {made : Request σ} {error : VfsError} {after : World σ}
    (failed : serve ops made world = .error error after) (differs : ¬ SameMaps world after)
    (dirty : ¬ Clean ops world made) : Settles ops world made := by
  have broken : ¬ AllOrNothing ops world made := fun holds =>
    differs (holds.2 error after failed)
  exact ⟨⟨fun holds => absurd holds broken, fun clean => absurd clean dirty⟩,
    fun clean => absurd clean dirty⟩

theorem settles_of_ok {made : Request σ} {after : World σ}
    (returned : serve ops made world = .ok () after) (consistent : Consistent ops after)
    (clean : Clean ops world made) : Settles ops world made := by
  refine ⟨⟨fun _ => clean, fun _ => ⟨?_, fun error other failed => ?_⟩⟩, fun _ => ?_⟩
  · rw [returned]
    exact agrees_of_consistent consistent
  · rw [returned] at failed
    cases failed
  · rw [returned]
    exact consistent

theorem settles_of_error {made : Request σ} {error : VfsError} (consistent : Consistent ops world)
    (failed : serve ops made world = .error error world) (clean : Clean ops world made) :
    Settles ops world made := by
  refine ⟨⟨fun _ => clean, fun _ => ⟨?_, fun other after again => ?_⟩⟩, fun _ => ?_⟩
  · rw [failed]
    exact agrees_of_consistent consistent
  · rw [failed] at again
    cases again
    exact ⟨rfl, rfl⟩
  · rw [failed]
    exact consistent

theorem settles_mount (takesId : TakesId ops) (consistent : Consistent ops world)
    (name : List Char) (fs : σ) : Settles ops world (.mount name fs) := by
  cases rooted : world.vfs.rootFs.isNone with
  | true =>
      have failed : serve ops (.mount name fs) world = .error .fileSystemNotMounted world := by
        rw [serve_mount, mount_unrooted rooted]
      exact settles_of_error consistent failed (.inl rooted)
  | false =>
      have isRooted : ¬ world.vfs.rootFs.isNone = true := by rw [rooted]; exact Bool.false_ne_true
      by_cases free : Trie.Free world.registered (components name)
      · have done := (@MountingPointsManager.register_of_free _ consistent.pruned _
          world.objects.length free).1
        cases mounted : ops.onMount (world.mountPoint name) (world.vfs.osIdCount + 1) fs with
        | ok root after =>
            have returned : serve ops (.mount name fs) world =
                .ok () (world.entered name (world.objects ++ [after])) := by
              simp only [serve_mount, mount_rooted rooted, done, mounted]
            have next := consistent_entered consistent free (takesId _ _ _ _ _ mounted)
            exact settles_of_ok returned next (.inr ⟨free, root, after, mounted⟩)
        | error error after =>
            have failed : serve ops (.mount name fs) world =
                .error error (world.entered name (world.objects ++ [after])) := by
              simp only [serve_mount, mount_rooted rooted, done, mounted]
            refine settles_of_dirty failed (entered_differs consistent name _) ?_
            rintro (unrooted | ⟨_, root, last, accepted⟩)
            · exact isRooted unrooted
            · rw [mounted] at accepted
              cases accepted
      · have taken := @MountingPointsManager.register_of_taken _ consistent.pruned _
          world.objects.length free
        have failed : serve ops (.mount name fs) world =
            .error .alreadyMounted (world.entered name (world.objects ++ [fs])) := by
          simp only [serve_mount, mount_rooted rooted, taken]
        refine settles_of_dirty failed (entered_differs consistent name _) ?_
        rintro (unrooted | ⟨room, _⟩)
        · exact isRooted unrooted
        · exact free room

theorem settles_unmount (consistent : Consistent ops world) (held : List Ref)
    (name : List Char) : Settles ops world (.unmount held name) := by
  cases found : world.registered (components name) with
  | none =>
      refine settles_of_error consistent (unmount_unregistered found) fun fs object placed => ?_
      rw [found] at placed
      exact absurd placed.symm (Option.some_ne_none fs)
  | some fs =>
      obtain ⟨object, present, _⟩ := consistent.placed _ fs found
      have removed := (MountingPointsManager.remove_of_registered consistent.pruned found).1
      have alive := alive_of_consistent consistent found held
      have unfolded : serve ops (.unmount held name) world = _ :=
        (unmount_registered removed alive).trans (release_eq present)
      cases ready : ops.onPreUnmount object with
      | error error after =>
          simp only [ready] at unfolded
          refine settles_of_dirty unfolded (leaving_differs consistent found _) fun clean => ?_
          obtain ⟨value, next, last, agreed, _⟩ := clean fs object found present
          rw [ready] at agreed
          cases agreed
      | ok value after =>
          cases gone : ops.onUnmount after with
          | error error last =>
              simp only [ready, gone] at unfolded
              refine settles_of_dirty unfolded (leaving_differs consistent found _) fun clean => ?_
              obtain ⟨other, next, final, agreed, left⟩ := clean fs object found present
              rw [ready] at agreed
              cases agreed
              rw [gone] at left
              cases left
          | ok done last =>
              simp only [ready, gone] at unfolded
              refine settles_of_ok unfolded (consistent_released consistent found present last) ?_
              intro other state placed presentOther
              obtain rfl := Option.some.inj (found.symm.trans placed)
              obtain rfl := Option.some.inj (present.symm.trans presentOther)
              exact ⟨value, after, last, ready, gone⟩

theorem settles_request (takesId : TakesId ops) (consistent : Consistent ops world) :
    (made : Request σ) → Settles ops world made
  | .mount name fs => settles_mount takesId consistent name fs
  | .unmount held name => settles_unmount consistent held name

theorem consistent_of_runs (takesId : TakesId ops) (runs : Runs ops (Clean ops) world) :
    Consistent ops world := by
  induction runs with
  | start rootFs => exact consistent_start rootFs
  | serve earlier made fits ih => exact (settles_request takesId ih made).2 fits
  | work earlier fs after sameId ih => exact consistent_work ih sameId

/-- In every run whose calls were clean the two maps agree, and the next call is all or nothing
exactly when it is clean as well. -/
theorem mounting_all_or_nothing_iff (takesId : TakesId ops) (runs : Runs ops (Clean ops) world)
    (made : Request σ) :
    Agrees ops world ∧ (AllOrNothing ops world made ↔ Clean ops world made) := by
  have consistent := consistent_of_runs takesId runs
  exact ⟨agrees_of_consistent consistent, (settles_request takesId consistent made).1⟩

end World

end Runs

/-- What the callbacks of `Ext2Volume` look at on a disk that never fails: its number and the
open modes of its handles. -/
structure OpenVolume where
  osId : Nat
  modes : List Nat
  deriving DecidableEq

namespace OpenVolume

def root (volume : OpenVolume) : VfsFile Unit where
  kind := .directory
  name := ['/']
  size := 0
  parentFs := 0
  fs := volume.osId
  fsSpecific := some ()

/-- `fflush` and `fclose` of one handle after the other; a handle without write mode is not
flushed. -/
def closeHandles (volume : OpenVolume) : EStateM.Result VfsError OpenVolume Bool :=
  match volume.modes.dropWhile fun mode => mode &&& 2 ≠ 0 with
  | [] => .ok true { volume with modes := [] }
  | rest => .error .actionNotAllowed { volume with modes := rest }

def methods : FileSystem OpenVolume Unit where
  osId := osId
  getRoot volume := .ok volume.root volume
  getChild file _ volume :=
    if file.fs = volume.osId then .error .pathNotFound volume
    else .error .fileSystemMismatch volume
  onMount _ id volume := .ok { volume with osId := id }.root { volume with osId := id }
  onPreUnmount := closeHandles
  onUnmount volume := .ok () { volume with osId := 0 }

theorem takesId : World.TakesId methods := by
  intro mountPoint id fs root after mounted
  cases mounted
  rfl

end OpenVolume

namespace World

def mounted : World OpenVolume :=
  stateAfter (serve OpenVolume.methods (.mount ['m', 'n', 't'] ⟨0, []⟩) (start (some ())))

theorem mounted_is_clean : Runs OpenVolume.methods (Clean OpenVolume.methods) mounted := by
  refine .serve (.start (some ())) _ (.inr ⟨fun path filled => ?_, _, _, rfl⟩)
  exact absurd (Trie.lookup_empty path) filled

/-- Its unmount is all or nothing while nothing is open. -/
theorem closed_volume_unmounts :
    AllOrNothing OpenVolume.methods mounted (.unmount [] ['m', 'n', 't']) := by
  refine (mounting_all_or_nothing_iff OpenVolume.takesId mounted_is_clean _).2.mpr ?_
  intro fs object found present
  obtain rfl : 0 = fs := Option.some.inj found
  obtain rfl : OpenVolume.mk 2 [] = object := Option.some.inj present
  exact ⟨_, _, _, rfl, rfl⟩

/-- With a handle open for reading the unmount fails after the path is gone from the tree. -/
theorem open_volume_half_unmounted :
    ¬ ∀ world, Runs OpenVolume.methods (fun _ _ => True) world →
      ∀ made, AllOrNothing OpenVolume.methods world made := by
  intro claimed
  have mountedRun : Runs OpenVolume.methods (fun _ _ => True) mounted :=
    .serve (.start (some ())) _ trivial
  have openedRun := Runs.work mountedRun 0 (OpenVolume.mk 2 [1]) fun object present => by
    obtain rfl : OpenVolume.mk 2 [] = object := Option.some.inj present
    rfl
  obtain ⟨agrees, _⟩ := claimed _ openedRun (.unmount [] ['m', 'n', 't'])
  obtain ⟨path, placed⟩ := (agrees 0).mp ⟨OpenVolume.mk 2 [1], rfl, rfl⟩
  exact absurd ((Trie.lookup_empty path).symm.trans placed) (Option.some_ne_none 0).symm

end World

end Campix.Drivers
