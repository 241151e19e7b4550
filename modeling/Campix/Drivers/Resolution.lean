import Campix.Drivers.Mounting

/-!
# Path resolution

`PathTraverse`, `Vfs::get_child` and `get_file` of `drivers/vfs.rs`. A traversal is in the
`Vfs` until it comes to a mount point, and from there on in the file system mounted there. In
the `Vfs` it has no node of the tree at hand: a directory is a file whose name has grown by a
slash and a part in each round, and `get_child` splits that name again and walks down from
the root. Resolution is the lookup in the tree that the mounts compose.
-/

namespace Campix.Drivers

open Lib
open Lib.Caching.Recent
open Lib.Fallible

set_option autoImplicit false

variable {σ Data : Type}

/-- The `Vfs` itself, or a file system it has mounted. -/
abbrev Owner := Option Ref

structure PathTraverse (Data : Type) where
  splitter : PathSplitter
  fs : Owner
  curr : VfsFile Data

namespace Vfs

def directory (name : List Char) : VfsFile Data where
  kind := .directory
  name := name
  size := 0
  parentFs := Vfs.osId
  fs := Vfs.osId
  fsSpecific := none

def getRoot : VfsFile Data :=
  directory ['/']

def mountFile (name : List Char) (fs : Ref) (id : Nat) : VfsFile Data where
  kind := .mountPoint fs
  name := name
  size := 0
  parentFs := Vfs.osId
  fs := id
  fsSpecific := none

def childFile (ops : FileSystem σ Data) (held : List Ref) (name : List Char) (node : MountNode) :
    OnWorld σ (VfsFile Data) := do
  match node.contents with
  | none => return directory name
  | some fs =>
      if upgrade held fs (← get) then
        let id ← World.idOf ops fs
        return mountFile name fs id
      else throw .unknownError

def getChild (ops : FileSystem σ Data) (held : List Ref) (file : VfsFile Data) (child : Part) :
    OnWorld σ (VfsFile Data) := fun world =>
  if file.fs ≠ Vfs.osId then .error .fileSystemMismatch world
  else
    match file.getMountedFs with
    | some fs => onObject fs (ops.getChild file child) world
    | none =>
        let tree := world.vfs.mountingPointsManager.tree
        match tree.descend (PathSplitter.new file.name).parts with
        | none => .error .pathNotFound world
        | some node =>
            match find node.children child with
            | none => .error .pathNotFound world
            | some next => childFile ops held (file.name ++ '/' :: child) next world

end Vfs

namespace PathTraverse

/-- The file system to go on in: at a mount point the traversal moves to the root of the file
system mounted there. -/
def enter (ops : FileSystem σ Data) (fs : Owner) (curr : VfsFile Data) :
    OnWorld σ (Owner × VfsFile Data) :=
  match curr.getMountedFs with
  | some mounted => do
      let root ← onObject mounted ops.getRoot
      return (some mounted, root)
  | none => return (fs, curr)

def childIn (ops : FileSystem σ Data) (held : List Ref) (fs : Owner) (curr : VfsFile Data)
    (part : Part) : OnWorld σ (VfsFile Data) :=
  match fs with
  | some mounted => onObject mounted (ops.getChild curr part)
  | none => Vfs.getChild ops held curr part

def findNext (ops : FileSystem σ Data) (held : List Ref) (traverse : PathTraverse Data) :
    OnWorld σ (VfsFile Data × PathTraverse Data) :=
  if traverse.splitter.isDone then throw .done
  else do
    let (fs, curr) ← enter ops traverse.fs traverse.curr
    match traverse.splitter.peek with
    | none => throw .done
    | some peek =>
        let next ← childIn ops held fs curr peek.slice
        return (next, { splitter := peek.apply.2, fs := fs, curr := next })

/-- The loop of `get_file`, cut off after `rounds` rounds. -/
def follow (ops : FileSystem σ Data) (held : List Ref) :
    Nat → PathTraverse Data → OnWorld σ (VfsFile Data)
  | 0, _ => throw .unknownError
  | rounds + 1, traverse => do
      let (result, traverse) ← findNext ops held traverse
      if traverse.splitter.isDone then return result else follow ops held rounds traverse

end PathTraverse

namespace Vfs

/-- `get_file` of the `Vfs`. Each round moves the splitter on, so that the path's length bounds
their number. -/
def getFile (ops : FileSystem σ Data) (held : List Ref) (path : List Char) :
    OnWorld σ (VfsFile Data) :=
  let traverse : PathTraverse Data := { splitter := .new path, fs := none, curr := getRoot }
  if traverse.splitter.isDone then return getRoot
  else PathTraverse.follow ops held path.length traverse

end Vfs

namespace PathTraverse

def resolve (ops : FileSystem σ Data) (held : List Ref) :
    List Part → Owner → VfsFile Data → OnWorld σ (VfsFile Data)
  | [], _, curr => return curr
  | part :: rest, fs, curr => do
      let (fs, curr) ← enter ops fs curr
      let next ← childIn ops held fs curr part
      resolve ops held rest fs next

variable {ops : FileSystem σ Data} {held : List Ref}

theorem follow_eq {rounds : Nat} {traverse : PathTraverse Data}
    (aligned : traverse.splitter.Aligned) (more : traverse.splitter.isDone = false)
    (enough : traverse.splitter.path.length - traverse.splitter.idx ≤ rounds) :
    follow ops held rounds traverse =
      resolve ops held (components (traverse.splitter.path.drop traverse.splitter.idx))
        traverse.fs traverse.curr := by
  induction rounds generalizing traverse with
  | zero =>
      have within : traverse.splitter.idx < traverse.splitter.path.length := by
        simpa [PathSplitter.isDone] using more
      omega
  | succ rounds ih =>
      obtain ⟨peek, peeked, same, _, alignedNext, moved, first⟩ :=
        PathSplitter.peek_spec aligned more
      rw [follow, findNext, if_neg (by rw [more]; exact Bool.false_ne_true), first, resolve]
      simp only [peeked, bind_assoc, pure_bind]
      congr 1
      funext entered
      congr 1
      funext next
      have rest : peek.apply.2.path.drop peek.apply.2.idx =
          traverse.splitter.path.drop peek.idx := by
        rw [PathSplitterPeek.apply, same]
      cases done : peek.apply.2.isDone with
      | true =>
          rw [← rest, (PathSplitter.isDone_iff _).mp done]
          rfl
      | false =>
          rw [if_neg Bool.false_ne_true, ← rest]
          refine ih alignedNext done ?_
          simp only [PathSplitterPeek.apply, same]
          omega

end PathTraverse

theorem Vfs.getFile_eq {ops : FileSystem σ Data} {held : List Ref} (path : List Char) :
    Vfs.getFile ops held path =
      PathTraverse.resolve ops held (components path) none Vfs.getRoot := by
  have rest := PathSplitter.components_new path
  rw [Vfs.getFile]
  cases done : (PathSplitter.new path).isDone with
  | true =>
      have nothing := (PathSplitter.isDone_iff _).mp done
      change path.drop (PathSplitter.new path).idx = [] at nothing
      rw [← rest, nothing]
      rfl
  | false =>
      simp only [Bool.false_eq_true, if_false]
      refine (PathTraverse.follow_eq (PathSplitter.aligned_new path) done ?_).trans ?_
      · exact Nat.sub_le _ _
      · change PathTraverse.resolve ops held (components (path.drop _)) none _ = _
        rw [rest]

section Mounted

variable {Value Result : Type} {world : World σ} {fs : Ref} {object : σ}

theorem present_set {objects : List σ} (present : objects[fs]? = some object) (after : σ) :
    (objects.set fs after)[fs]? = some after :=
  List.getElem?_set_self (List.getElem?_eq_some_iff.mp present).1

theorem onObject_bind_ok {first : EStateM VfsError σ Value}
    {rest : Value → EStateM VfsError σ Result} {value : Value} {after : σ}
    (present : world.objects[fs]? = some object) (returned : first object = .ok value after) :
    onObject fs (first >>= rest) world =
      onObject fs (rest value) { world with objects := world.objects.set fs after } := by
  simp only [onObject, present, present_set present, state_bind_ok returned, List.set_set]

theorem onObject_bind_error {first : EStateM VfsError σ Value}
    {rest : Value → EStateM VfsError σ Result} {error : VfsError} {after : σ}
    (present : world.objects[fs]? = some object) (failed : first object = .error error after) :
    onObject fs (first >>= rest) world =
      .error error { world with objects := world.objects.set fs after } := by
  simp only [onObject, present, state_bind_error failed]

theorem onObject_pure (value : Value) (present : world.objects[fs]? = some object) :
    onObject fs (pure value) world = .ok value world := by
  obtain ⟨inside, rfl⟩ := List.getElem?_eq_some_iff.mp present
  simp only [onObject, present]
  change EStateM.Result.ok value { world with objects := world.objects.set fs _ } = _
  rw [List.set_getElem_self inside]

end Mounted

namespace PathTraverse

variable {ops : FileSystem σ Data} {held : List Ref}

def PlainChildren (ops : FileSystem σ Data) : Prop :=
  ∀ file part object found after, ops.getChild file part object = .ok found after →
    found.getMountedFs = none

theorem enter_plain {fs : Owner} {curr : VfsFile Data} (plain : curr.getMountedFs = none) :
    enter ops fs curr = (pure (fs, curr) : OnWorld σ _) := by
  rw [enter, plain]

/-- From its first child on a traversal stays in the file system it has entered. -/
theorem child_then_resolve (plain : PlainChildren ops) {fs : Ref} {world : World σ} {object : σ}
    (present : world.objects[fs]? = some object) (curr : VfsFile Data) (part : Part)
    (rest : List Part) :
    (childIn ops held (some fs) curr part >>= fun next => resolve ops held rest (some fs) next)
        world =
      onObject fs ((part :: rest).foldlM (fun file name => ops.getChild file name) curr) world := by
  induction rest generalizing world object curr part with
  | nil =>
      rw [List.foldlM_cons]
      cases found : ops.getChild curr part object with
      | ok next after =>
          refine (state_bind_ok (World.onObject_ok present found)).trans ?_
          rw [onObject_bind_ok present found, List.foldlM_nil]
          exact (onObject_pure next (present_set present after)).symm
      | error error after =>
          rw [onObject_bind_error present found]
          exact state_bind_error (World.onObject_error present found)
  | cons second rest ih =>
      rw [List.foldlM_cons]
      cases found : ops.getChild curr part object with
      | ok next after =>
          refine (state_bind_ok (World.onObject_ok present found)).trans ?_
          rw [onObject_bind_ok present found, resolve, enter_plain (plain _ _ _ _ _ found),
            pure_bind]
          exact ih (present_set present after) next second
      | error error after =>
          rw [onObject_bind_error present found]
          exact state_bind_error (World.onObject_error present found)

theorem resolve_from_mount (plain : PlainChildren ops) {fs : Ref} {world : World σ} {object : σ}
    (present : world.objects[fs]? = some object) {curr : VfsFile Data}
    (mounted : curr.getMountedFs = some fs) (owner : Owner) {rest : List Part}
    (further : rest ≠ []) :
    resolve ops held rest owner curr world =
      onObject fs (ops.getRoot >>= fun root =>
        rest.foldlM (fun file name => ops.getChild file name) root) world := by
  obtain ⟨part, rest, rfl⟩ := List.exists_cons_of_ne_nil further
  rw [resolve, enter, mounted]
  simp only [bind_assoc, pure_bind]
  cases root : ops.getRoot object with
  | ok file after =>
      refine (state_bind_ok (World.onObject_ok present root)).trans ?_
      rw [onObject_bind_ok present root]
      exact child_then_resolve plain (present_set present after) file part rest
  | error error after =>
      rw [onObject_bind_error present root]
      exact state_bind_error (World.onObject_error present root)

/-- The name that a directory of the `Vfs` has been given on the way to it. -/
def nameOf (path : List Part) : List Char :=
  '/' :: path.flatMap fun part => '/' :: part

theorem nameOf_snoc (path : List Part) (part : Part) :
    nameOf (path ++ [part]) = nameOf path ++ '/' :: part := by
  simp [nameOf]

theorem components_nameOf {path : List Part}
    (plain : ∀ part ∈ path, '/' ∉ part ∧ part ≠ []) : components (nameOf path) = path := by
  induction path using List.reverseRecOn with
  | nil => rfl
  | append_singleton path part ih =>
      obtain ⟨noSlash, nonempty⟩ := plain part (by simp)
      have before := ih fun other member => plain other (List.mem_append_left _ member)
      rw [nameOf_snoc, components_append_slash, before, components_part noSlash nonempty]

/-- What resolution returns where the walk through the tree has led. -/
def arrive (ops : FileSystem σ Data) (path : List Part) :
    Trie.Landing Part Ref → OnWorld σ (VfsFile Data)
  | .missing => throw .pathNotFound
  | .branch => return Vfs.directory (nameOf path)
  | .value fs [] => do
      let id ← World.idOf ops fs
      return Vfs.mountFile (nameOf path) fs id
  | .value fs (part :: rest) =>
      onObject fs (ops.getRoot >>= fun root =>
        (part :: rest).foldlM (fun file name => ops.getChild file name) root)

/-- Every file system in the tree has a state and is held by `fs_by_id`. -/
def Backed (world : World σ) : Prop :=
  ∀ path fs, world.registered path = some fs →
    (∃ object, world.objects[fs]? = some object) ∧
      ∃ id, find world.vfs.fsById id = some fs

variable {world : World σ}

theorem descend_snoc {trie node : MountNode} {path : List Part} (part : Part)
    (reached : trie.descend path = some node) :
    trie.descend (path ++ [part]) = find node.children part := by
  induction path generalizing trie with
  | nil =>
      obtain rfl := Option.some.inj reached
      rw [List.nil_append, Trie.descend]
      cases find trie.children part <;> rfl
  | cons first path ih =>
      rw [Trie.descend] at reached
      obtain ⟨child, found, further⟩ := Option.bind_eq_some_iff.mp reached
      rw [List.cons_append, Trie.descend, found]
      exact ih further

theorem resolve_eq_arrive (plainChildren : PlainChildren ops) (backed : Backed world)
    {path rest : List Part} {node : MountNode}
    (plain : ∀ part ∈ path ++ rest, '/' ∉ part ∧ part ≠ [])
    (reached : world.vfs.mountingPointsManager.tree.descend path = some node)
    (vacant : node.contents = none) :
    resolve ops held rest none (Vfs.directory (nameOf path)) world =
      arrive ops (path ++ rest) (node.walk rest) world := by
  induction rest generalizing path node with
  | nil =>
      rw [Trie.walk_nil vacant, List.append_nil]
      rfl
  | cons part rest ih =>
      have split : components (nameOf path) = path :=
        components_nameOf fun other member => plain other (List.mem_append_left _ member)
      have opened : childIn ops held none (Vfs.directory (nameOf path)) part world =
          match find node.children part with
          | none => .error .pathNotFound world
          | some next => Vfs.childFile ops held (nameOf (path ++ [part])) next world := by
        rw [nameOf_snoc]
        change Vfs.getChild ops held (Vfs.directory (nameOf path)) part world = _
        rw [Vfs.getChild, if_neg (by simp [Vfs.directory])]
        simp only [Vfs.directory, VfsFile.getMountedFs, PathSplitter.parts_new, split, reached]
      rw [resolve, enter_plain rfl, pure_bind]
      cases found : find node.children part with
      | none =>
          rw [found] at opened
          refine (state_bind_error opened).trans ?_
          obtain ⟨children, contents⟩ := node
          change contents = none at vacant
          change find children part = none at found
          rw [vacant, Trie.walk, found]
          rfl
      | some child =>
          rw [found] at opened
          simp only at opened
          have further := (descend_snoc part reached).trans found
          have whole : path ++ part :: rest = (path ++ [part]) ++ rest := by simp
          rw [Trie.walk_step vacant found, whole]
          cases filled : child.contents with
          | none =>
              have returned : childIn ops held none (Vfs.directory (nameOf path)) part world =
                  .ok (Vfs.directory (nameOf (path ++ [part]))) world := by
                rw [opened, Vfs.childFile, filled]
                rfl
              refine (state_bind_ok returned).trans ?_
              exact ih (by rw [← whole]; exact plain) further filled
          | some fs =>
              have placed : world.registered (path ++ [part]) = some fs := by
                change (Trie.descend _ _).bind Trie.contents = some fs
                rw [further]
                exact filled
              obtain ⟨⟨object, present⟩, id, entry⟩ := backed _ fs placed
              have returned : childIn ops held none (Vfs.directory (nameOf path)) part world =
                  .ok (Vfs.mountFile (nameOf (path ++ [part])) fs (ops.osId object)) world := by
                rw [opened, Vfs.childFile, filled]
                change (if upgrade held fs world then
                  World.idOf ops fs >>= fun id =>
                    pure (Vfs.mountFile (nameOf (path ++ [part])) fs id)
                  else throw VfsError.unknownError : OnWorld σ (VfsFile Data)) world = _
                rw [if_pos (World.upgrade_of_find entry held)]
                exact state_bind_ok (World.idOf_eq present)
              have landed : child.walk rest = .value fs rest := by
                obtain ⟨children, contents⟩ := child
                change contents = some fs at filled
                rw [filled, Trie.walk]
              refine (state_bind_ok returned).trans ?_
              rw [landed]
              cases rest with
              | nil =>
                  rw [List.append_nil]
                  change _ = (World.idOf ops fs >>= fun id =>
                    pure (Vfs.mountFile (nameOf (path ++ [part])) fs id)) world
                  rw [state_bind_ok (World.idOf_eq present)]
                  rfl
              | cons next rest =>
                  exact resolve_from_mount plainChildren present rfl none
                    (List.cons_ne_nil next rest)

end PathTraverse

namespace World

/-- The states reached by successful mounts on non-empty paths. In between the mounted file
systems are used. -/
inductive MountedBy (ops : FileSystem σ Data) : World σ → Prop
  | start (rootFs : Option Unit) : MountedBy ops (start rootFs)
  | mount {before after : World σ} (earlier : MountedBy ops before) (name : List Char) (fs : σ)
      (file : VfsFile Data) (nonempty : components name ≠ [])
      (mounted : mount ops name fs before = .ok file after) : MountedBy ops after
  | work {before : World σ} (earlier : MountedBy ops before) (fs : Ref) (after : σ) :
      MountedBy ops { before with objects := before.objects.set fs after }

variable {ops : FileSystem σ Data} {world : World σ}

structure Composed (world : World σ) : Prop where
  pruned : world.vfs.mountingPointsManager.tree.Pruned
  bare : world.registered [] = none
  listed : ∀ id, world.vfs.osIdCount < id → find world.vfs.fsById id = none
  backed : PathTraverse.Backed world

theorem mount_returned (pruned : world.vfs.mountingPointsManager.tree.Pruned) {name : List Char}
    {fs : σ} {file : VfsFile Data} {after : World σ}
    (mounted : mount ops name fs world = .ok file after) :
    Trie.Free world.registered (components name) ∧
      ∃ object, after = world.entered name (world.objects ++ [object]) := by
  cases rooted : world.vfs.rootFs.isNone with
  | true =>
      rw [mount_unrooted rooted] at mounted
      cases mounted
  | false =>
      rw [mount_rooted rooted] at mounted
      by_cases free : Trie.Free world.registered (components name)
      · have done := (@MountingPointsManager.register_of_free _ pruned _ world.objects.length
          free).1
        rw [done] at mounted
        refine ⟨free, ?_⟩
        simp only at mounted
        cases outcome : ops.onMount (world.mountPoint name) (world.vfs.osIdCount + 1) fs with
        | ok root object =>
            rw [outcome] at mounted
            cases mounted
            exact ⟨object, rfl⟩
        | error error object =>
            rw [outcome] at mounted
            cases mounted
      · have taken := @MountingPointsManager.register_of_taken _ pruned _ world.objects.length free
        rw [taken] at mounted
        cases mounted

theorem composed_of_mounted (reached : MountedBy ops world) : Composed world := by
  induction reached with
  | start rootFs =>
      refine ⟨Trie.pruned_empty, rfl, fun id _ => rfl, fun path fs found => ?_⟩
      change Trie.lookup Trie.empty path = some fs at found
      rw [Trie.lookup_empty] at found
      exact absurd found.symm (Option.some_ne_none fs)
  | @mount before after earlier name fs file nonempty mounted ih =>
      obtain ⟨free, object, rfl⟩ := mount_returned ih.pruned mounted
      obtain ⟨_, pruned, changed⟩ :=
        @MountingPointsManager.register_of_free _ ih.pruned _ before.objects.length free
      have registered_eq : (before.entered name (before.objects ++ [object])).registered =
          Function.update before.registered (components name) (some before.objects.length) :=
            changed
      have find_eq : find (before.entered name (before.objects ++ [object])).vfs.fsById =
          Function.update (find before.vfs.fsById) (before.vfs.osIdCount + 1)
            (some before.objects.length) := Entries.find_set _ _ _
      refine ⟨pruned, ?_, fun id large => ?_, fun path other found => ?_⟩
      · rw [registered_eq, Function.update_of_ne nonempty.symm]
        exact ih.bare
      · change before.vfs.osIdCount + 1 < id at large
        rw [find_eq, Function.update_of_ne (by omega)]
        exact ih.listed id (by omega)
      · rw [registered_eq] at found
        by_cases same : path = components name
        · rw [same, Function.update_self] at found
          obtain rfl := Option.some.inj found
          refine ⟨⟨object, by simp [entered]⟩, before.vfs.osIdCount + 1, ?_⟩
          rw [find_eq, Function.update_self]
        · rw [Function.update_of_ne same] at found
          obtain ⟨⟨state, present⟩, id, entry⟩ := ih.backed path other found
          refine ⟨⟨state, ?_⟩, id, ?_⟩
          · change (before.objects ++ [object])[other]? = some state
            rw [List.getElem?_append_left (List.getElem?_eq_some_iff.mp present).1]
            exact present
          · have small : id ≠ before.vfs.osIdCount + 1 := by
              rintro rfl
              rw [ih.listed _ (Nat.lt_succ_self _)] at entry
              exact absurd entry.symm (Option.some_ne_none other)
            rw [find_eq, Function.update_of_ne small]
            exact entry
  | @work before earlier fs after ih =>
      refine ⟨ih.pruned, ih.bare, ih.listed, fun path other found => ?_⟩
      obtain ⟨⟨state, present⟩, entry⟩ := ih.backed path other found
      refine ⟨?_, entry⟩
      have inside := (List.getElem?_eq_some_iff.mp present).1
      exact ⟨_, List.getElem?_eq_getElem (by rw [List.length_set]; exact inside)⟩

theorem getFile_eq_arrive (plainChildren : PathTraverse.PlainChildren ops)
    (composed : Composed world) (held : List Ref) (path : List Char) :
    Vfs.getFile ops held path world =
      PathTraverse.arrive ops (components path)
        (world.vfs.mountingPointsManager.tree.walk (components path)) world := by
  rw [Vfs.getFile_eq]
  exact @PathTraverse.resolve_eq_arrive _ _ ops held world plainChildren composed.backed []
    (components path) _ (fun part member => plain_of_mem_components member) rfl composed.bare

/-- `get_file` is lookup in the tree that the mounts compose: the root, a mount point, a
directory above one, a file below one as its file system finds it, and nothing else. -/
theorem get_file_is_composed_lookup (plainChildren : PathTraverse.PlainChildren ops)
    (reached : MountedBy ops world) (held : List Ref) (path : List Char) :
    (components path = [] → Vfs.getFile ops held path world = .ok Vfs.getRoot world) ∧
      (∀ fs object, world.registered (components path) = some fs →
        world.objects[fs]? = some object →
          Vfs.getFile ops held path world = .ok
            (Vfs.mountFile (PathTraverse.nameOf (components path)) fs (ops.osId object)) world) ∧
      (∀ rest, components path ≠ [] → rest ≠ [] →
        world.registered (components path ++ rest) ≠ none →
          Vfs.getFile ops held path world =
            .ok (Vfs.directory (PathTraverse.nameOf (components path))) world) ∧
      (∀ mount rest fs, world.registered mount = some fs → components path = mount ++ rest →
        rest ≠ [] →
          Vfs.getFile ops held path world =
            onObject fs (do
              let root ← ops.getRoot
              rest.foldlM (fun file name => ops.getChild file name) root) world) ∧
      (components path ≠ [] → Trie.Free world.registered (components path) →
        Vfs.getFile ops held path world = .error .pathNotFound world) := by
  have composed := composed_of_mounted reached
  rw [getFile_eq_arrive plainChildren composed held path]
  refine ⟨fun empty => ?_, fun fs object found present => ?_, fun rest _ further filled => ?_,
    fun mount rest fs found split further => ?_, fun nonempty free => ?_⟩
  · rw [empty, Trie.walk_nil composed.bare]
    rfl
  · have landed := Trie.walk_value composed.pruned found []
    rw [List.append_nil] at landed
    rw [landed]
    exact state_bind_ok (idOf_eq present)
  · rw [Trie.walk_branch composed.pruned filled further]
    rfl
  · obtain ⟨part, rest, rfl⟩ := List.exists_cons_of_ne_nil further
    rw [split, Trie.walk_value composed.pruned found]
    rfl
  · rw [Trie.walk_missing composed.pruned free nonempty]
    rfl

def onlyFile : FileSystem OpenVolume Unit :=
  { OpenVolume.methods with
    getChild := fun file part volume =>
      if file.fs ≠ volume.osId then .error .fileSystemMismatch volume
      else if file.kind = .directory ∧
        part = ['a'] then .ok ⟨.file, ['a'], 3, volume.osId, volume.osId, some ()⟩ volume
      else .error .pathNotFound volume }

def mountedFile : World OpenVolume :=
  Outcome.stateAfter (serve onlyFile (.mount ['m', 'n', 't'] ⟨0, []⟩) (start (some ())))

/-- A volume at `mnt` is found whatever slashes stand around the name, and asked for what is
below. -/
theorem volume_resolves :
    Vfs.getFile onlyFile [] ['/', 'm', 'n', 't', '/'] mountedFile =
        .ok (Vfs.mountFile ['/', '/', 'm', 'n', 't'] 0 2) mountedFile ∧
      Vfs.getFile onlyFile [] ['m', 'n', 't', '/', '/', 'a'] mountedFile =
        .ok ⟨.file, ['a'], 3, 2, 2, some ()⟩ mountedFile ∧
      Vfs.getFile onlyFile [] ['m', 'n', 't', '/', 'a', '/', 'b'] mountedFile =
        .error .pathNotFound mountedFile := by
  have plainChildren : PathTraverse.PlainChildren onlyFile := by
    intro file part object found after returned
    simp only [onlyFile] at returned
    split_ifs at returned
    cases returned
    rfl
  have reached : MountedBy onlyFile mountedFile :=
    .mount (.start (some ())) ['m', 'n', 't'] ⟨0, []⟩ _ (by decide) rfl
  have atMount := get_file_is_composed_lookup plainChildren reached [] ['/', 'm', 'n', 't', '/']
  have below := get_file_is_composed_lookup plainChildren reached []
    ['m', 'n', 't', '/', '/', 'a']
  have beyond := get_file_is_composed_lookup plainChildren reached []
    ['m', 'n', 't', '/', 'a', '/', 'b']
  refine ⟨atMount.2.1 0 ⟨2, []⟩ rfl rfl, ?_, ?_⟩
  · rw [below.2.2.2.1 [['m', 'n', 't']] [['a']] 0 rfl rfl (by decide)]
    rfl
  · rw [beyond.2.2.2.1 [['m', 'n', 't']] [['a'], ['b']] 0 rfl rfl (by decide)]
    rfl

end World

end Campix.Drivers
