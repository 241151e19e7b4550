import Campix.Drivers.Resolution

/-!
# Directories listed and looked up

`list_children` of the `Vfs`, beside the `get_child` of `Resolution`. Both walk down the tree by
the name of the directory and both build the files of its children, each in its own way. For a
directory of the tree they build the same file. For a mount the listing gives the bare part for a
name and the number of the mounted file system for a parent, where the lookup gives the whole name
and the number of the `Vfs`.
-/

namespace Campix.Drivers

open Lib
open Lib.Caching.Recent
open Lib.Entries
open Lib.Fallible
open Lib.Outcome

set_option autoImplicit false

variable {σ Data : Type}

/-- The children of a node in the order of a `BTreeMap`. -/
def MountNode.entries (node : MountNode) : List (Part × MountNode) :=
  node.children.mergeSort fun left right => decide (left.1 ≤ right.1)

namespace Vfs

/-- The closure of `filter_map`. -/
def listEntry (ops : FileSystem σ Data) (held : List Ref) (name : List Char)
    (entry : Part × MountNode) : OnWorld σ (Option (VfsFile Data)) := do
  match entry.2.contents with
  | none => return some (directory (name ++ '/' :: entry.1))
  | some fs =>
      if upgrade held fs (← get) then
        let id ← World.idOf ops fs
        return some {
          kind := .mountPoint fs
          name := entry.1
          size := 0
          parentFs := id
          fs := id
          fsSpecific := none }
      else return none

def listEntries (ops : FileSystem σ Data) (held : List Ref) (name : List Char) :
    List (Part × MountNode) → OnWorld σ (List (VfsFile Data))
  | [] => return []
  | entry :: entries => do
      let file ← listEntry ops held name entry
      let files ← listEntries ops held name entries
      return file.toList ++ files

def listChildren (ops : FileSystem σ Data)
    (listFs : VfsFile Data → EStateM VfsError σ (List (VfsFile Data))) (held : List Ref)
    (file : VfsFile Data) : OnWorld σ (List (VfsFile Data)) := fun world =>
  match file.getMountedFs with
  | some fs =>
      onObject fs (do
        let root ← ops.getRoot
        listFs root) world
  | none =>
      if file.kind ≠ .directory then .error .notDirectory world
      else if file.fs ≠ Vfs.osId then
        match find world.vfs.fsById file.fs with
        | none => .error .fileSystemNotMounted world
        | some fs => onObject fs (listFs file) world
      else
        match world.vfs.mountingPointsManager.tree.descend (PathSplitter.new file.name).parts with
        | none => .error .pathNotFound world
        | some node => listEntries ops held file.name (MountNode.entries node) world

end Vfs

structure SameFile (left right : VfsFile Data) : Prop where
  kind : left.kind = right.kind
  fs : left.fs = right.fs
  parentFs : left.parentFs = right.parentFs
  name : left.name = right.name

/-- The listed files are in one-to-one correspondence with the canonical names that are found,
and each is the `same` as the file found. -/
def ListingAgrees (same : VfsFile Data → VfsFile Data → Prop) (canonical : Part → Prop)
    (listed : List (VfsFile Data)) (lookup : Part → Option (VfsFile Data)) : Prop :=
  ∃ names : List Part, names.Nodup ∧
    (∀ name, name ∈ names ↔ canonical name ∧ ∃ found, lookup name = some found) ∧
    List.Forall₂ (fun name file => ∃ found, lookup name = some found ∧ same file found) names listed

/-- The files of a listing; there are none where it fails. -/
def filesOf {State : Type} (result : EStateM.Result VfsError State (List (VfsFile Data))) :
    List (VfsFile Data) :=
  (answerOf result).toOption.getD []

def fileOf {State : Type} (result : EStateM.Result VfsError State (VfsFile Data)) :
    Option (VfsFile Data) :=
  (answerOf result).toOption

def NoLiveMount (held : List Ref) (world : World σ) (file : VfsFile Data) : Prop :=
  ∀ node, world.vfs.mountingPointsManager.tree.descend (components file.name) = some node →
    ∀ part child fs, find node.children part = some child → child.contents = some fs →
      upgrade held fs world = false

theorem agrees_nothing {same : VfsFile Data → VfsFile Data → Prop} {canonical : Part → Prop}
    {lookup : Part → Option (VfsFile Data)}
    (missing : ∀ name, canonical name → lookup name = none) :
    ListingAgrees same canonical [] lookup := by
  refine ⟨[], List.nodup_nil, fun name => ⟨fun member => absurd member List.not_mem_nil, ?_⟩, .nil⟩
  rintro ⟨fits, found, present⟩
  rw [missing name fits] at present
  exact absurd present.symm (Option.some_ne_none found)

theorem listed_is_found {same : VfsFile Data → VfsFile Data → Prop} {canonical : Part → Prop}
    {listed : List (VfsFile Data)} {lookup : Part → Option (VfsFile Data)}
    (agrees : ListingAgrees same canonical listed lookup) {file : VfsFile Data}
    (member : file ∈ listed) :
    ∃ name found, canonical name ∧ lookup name = some found ∧ same file found := by
  obtain ⟨names, -, known, matched⟩ := agrees
  obtain ⟨index, bound, rfl⟩ := List.getElem_of_mem member
  have within : index < names.length := matched.length_eq ▸ bound
  obtain ⟨found, present, equal⟩ := matched.get within bound
  exact ⟨names[index], found, ((known _).mp (List.getElem_mem within)).1, present, equal⟩

theorem agrees_of_equal {canonical : Part → Prop} {listed : List (VfsFile Data)}
    {lookup : Part → Option (VfsFile Data)} (agrees : ListingAgrees Eq canonical listed lookup) :
    ListingAgrees SameFile canonical listed lookup := by
  obtain ⟨names, distinct, known, matched⟩ := agrees
  refine ⟨names, distinct, known, matched.imp ?_⟩
  rintro name file ⟨found, present, rfl⟩
  exact ⟨file, present, rfl, rfl, rfl, rfl⟩

namespace MountNode

open Trie

theorem register_distinct {fs : Ref} {path : List Part} {tree : MountNode}
    (distinct : tree.Distinct) :
    (registerParts fs path tree).2.Distinct := by
  induction path generalizing tree with
  | nil =>
      obtain ⟨children, contents⟩ := tree
      rw [registerParts]
      split_ifs
      · exact distinct
      · exact distinct_contents distinct _
  | cons part rest ih =>
      obtain ⟨children, contents⟩ := tree
      rw [registerParts]
      split_ifs
      · exact distinct
      · exact distinct_set distinct (ih (distinct_child distinct part))

theorem remove_distinct {path : List Part} {tree : MountNode} (distinct : tree.Distinct) :
    (removeParts path tree).2.Distinct := by
  induction path generalizing tree with
  | nil =>
      obtain ⟨children, contents⟩ := tree
      cases contents with
      | none => exact distinct
      | some fs => exact distinct_contents distinct none
  | cons part rest ih =>
      obtain ⟨children, contents⟩ := tree
      rw [removeParts]
      cases found : find children part with
      | none => exact distinct
      | some child =>
          have below : child.Distinct := ((distinct_iff _).mp distinct).2 part child found
          have after := ih below
          cases removal : removeParts rest child with
          | mk result next =>
              rw [removal] at after
              cases result with
              | error error =>
                  simp only [removal]
                  exact distinct_set distinct after
              | ok fs =>
                  simp only [removal]
                  split_ifs
                  · exact distinct_others distinct part
                  · exact distinct_set distinct after

end MountNode

namespace World

/-- Every path in the tree is one of components, and what stands there has been allocated. -/
structure Tidy (world : World σ) : Prop where
  pruned : world.vfs.mountingPointsManager.tree.Pruned
  distinct : world.vfs.mountingPointsManager.tree.Distinct
  placed : ∀ path fs, world.registered path = some fs →
    fs < world.objects.length ∧ ∀ part ∈ path, '/' ∉ part

variable {ops : FileSystem σ Data} {world : World σ}

theorem tidy_start (rootFs : Option Unit) : Tidy (start rootFs : World σ) where
  pruned := Trie.pruned_empty
  distinct := Trie.distinct_empty
  placed path fs found := by
    change Trie.lookup Trie.empty path = some fs at found
    rw [Trie.lookup_empty] at found
    exact absurd found.symm (Option.some_ne_none fs)

theorem tidy_of_same_tree (tidy : Tidy world) {after : World σ}
    (tree : after.vfs.mountingPointsManager = world.vfs.mountingPointsManager)
    (objects : world.objects.length ≤ after.objects.length) : Tidy after where
  pruned := tree ▸ tidy.pruned
  distinct := tree ▸ tidy.distinct
  placed path fs found := by
    rw [registered, tree] at found
    obtain ⟨below, plain⟩ := tidy.placed path fs found
    exact ⟨Nat.lt_of_lt_of_le below objects, plain⟩

theorem tidy_entered (tidy : Tidy world) (name : List Char) {objects : List σ}
    (longer : world.objects.length < objects.length) : Tidy (world.entered name objects) := by
  by_cases free : Trie.Free world.registered (components name)
  · obtain ⟨_, pruned, changed⟩ :=
      @MountingPointsManager.register_of_free _ tidy.pruned name world.objects.length free
    refine ⟨pruned, MountNode.register_distinct tidy.distinct, fun path fs found => ?_⟩
    change (world.vfs.mountingPointsManager.registerFs name
      world.objects.length).2.registered path =
      some fs at found
    rw [changed] at found
    by_cases same : path = components name
    · subst same
      rw [Function.update_self, Option.some.injEq] at found
      subst found
      exact ⟨longer, fun part member => (plain_of_mem_components member).1⟩
    · rw [Function.update_of_ne same] at found
      obtain ⟨below, plain⟩ := tidy.placed path fs found
      exact ⟨Nat.lt_trans below longer, plain⟩
  · have taken := @MountingPointsManager.register_of_taken _ tidy.pruned name
      world.objects.length free
    exact tidy_of_same_tree tidy (congrArg Prod.snd taken) (Nat.le_of_lt longer)

theorem tidy_leaving (tidy : Tidy world) (name : List Char) : Tidy (world.leaving name) := by
  cases found : world.registered (components name) with
  | none =>
      have kept := MountingPointsManager.remove_of_unregistered found
      exact tidy_of_same_tree tidy (congrArg Prod.snd kept) (le_refl _)
  | some fs =>
      obtain ⟨_, pruned, changed⟩ := MountingPointsManager.remove_of_registered tidy.pruned found
      refine ⟨pruned, MountNode.remove_distinct tidy.distinct, fun path other present => ?_⟩
      change (world.vfs.mountingPointsManager.removeFs name).2.registered path = some
        other at present
      rw [changed] at present
      by_cases same : path = components name
      · rw [same, Function.update_self] at present
        exact absurd present.symm (Option.some_ne_none other)
      · rw [Function.update_of_ne same] at present
        exact tidy.placed path other present

theorem tidy_mount (tidy : Tidy world) (name : List Char) (fs : σ) :
    Tidy (stateAfter (serve ops (.mount name fs) world)) := by
  have longer : ∀ object, world.objects.length < (world.objects ++ [object]).length := by
    intro object
    rw [List.length_append, List.length_singleton]
    omega
  rw [serve_mount]
  cases rooted : world.vfs.rootFs.isNone with
  | true =>
      rw [mount_unrooted rooted]
      exact tidy
  | false =>
      rw [mount_rooted rooted]
      cases (world.vfs.mountingPointsManager.registerFs name world.objects.length).1 with
      | error error => exact tidy_entered tidy name (longer fs)
      | ok done =>
          simp only
          cases ops.onMount (world.mountPoint name) (world.vfs.osIdCount + 1) fs with
          | ok root after => exact tidy_entered tidy name (longer after)
          | error error after => exact tidy_entered tidy name (longer after)

theorem tidy_on_object {Value : Type} (fs : Ref) (method : EStateM VfsError σ Value) :
    Maintains Tidy (fun _ => Tidy) (onObject fs method) := by
  intro world tidy
  have set_tidy : ∀ object, Tidy { world with objects := world.objects.set fs object } :=
    fun object =>
    tidy_of_same_tree tidy rfl (le_of_eq List.length_set.symm)
  unfold Outcome.Settles onObject
  cases world.objects[fs]? with
  | none => exact .error tidy
  | some object =>
      simp only
      cases method object with
      | ok value after => exact .ok (set_tidy after)
      | error error after => exact .error (set_tidy after)

theorem tidy_release (fs : Ref) : Maintains Tidy (fun _ => Tidy) (release ops fs) := by
  apply maintains_bind (tidy_on_object fs _)
  intro id
  apply maintains_bind (tidy_on_object fs _)
  intro ready
  apply maintains_bind (tidy_on_object fs _)
  intro done
  exact maintains_modify fun state holds => tidy_of_same_tree holds rfl (le_refl _)

theorem tidy_unmount (held : List Ref) (name : List Char) :
    Maintains Tidy (fun _ => Tidy) (unmount ops held name) := by
  have removes : Maintains Tidy (fun _ => Tidy) (removeFs (σ := σ) name) := by
    intro world tidy
    unfold Outcome.Settles removeFs
    cases outcome : (world.vfs.mountingPointsManager.removeFs name).1 with
    | error error =>
        simp only [outcome]
        exact .error (tidy_leaving tidy name)
    | ok fs =>
        simp only [outcome]
        exact .ok (tidy_leaving tidy name)
  apply maintains_bind removes
  intro fs
  apply maintains_get
  intro world tidy
  split_ifs with alive
  · exact tidy_release fs world tidy
  · exact .error tidy

/-- The tree is tidy in every run, whatever the calls and whether or not they return. -/
theorem tidy_of_runs {allowed : World σ → Request σ → Prop} (runs : Runs ops allowed world) :
    Tidy world := by
  induction runs with
  | start rootFs => exact tidy_start rootFs
  | @serve before earlier made fits ih =>
      cases made with
      | mount name fs => exact tidy_mount ih name fs
      | unmount held name =>
          have settled : Outcome.Settles Tidy (fun _ => Tidy) (unmount ops held name) before :=
            tidy_unmount held name before ih
          change Tidy (stateAfter (unmount ops held name before))
          unfold Outcome.Settles at settled
          cases outcome : unmount ops held name before with
          | ok value after =>
              rw [outcome] at settled
              cases settled with
              | ok holds => exact holds
          | error error after =>
              rw [outcome] at settled
              cases settled with
              | error failed => exact failed
  | work earlier fs after sameId ih =>
      exact tidy_of_same_tree ih rfl (le_of_eq List.length_set.symm)

end World

namespace Vfs

variable {ops : FileSystem σ Data} {listFs : VfsFile Data →
  EStateM VfsError σ (List (VfsFile Data))}
variable {held : List Ref} {world : World σ}

def listedFile (ops : FileSystem σ Data) (held : List Ref) (world : World σ) (name : List Char)
    (entry : Part × MountNode) : Option (VfsFile Data) :=
  match entry.2.contents with
  | none => some (directory (name ++ '/' :: entry.1))
  | some fs =>
      if upgrade held fs world then
        world.objects[fs]?.map fun object => {
          kind := .mountPoint fs
          name := entry.1
          size := 0
          parentFs := ops.osId object
          fs := ops.osId object
          fsSpecific := none }
      else none

def foundFile (ops : FileSystem σ Data) (held : List Ref) (world : World σ) (name : List Char)
    (entry : Part × MountNode) : Option (VfsFile Data) :=
  match entry.2.contents with
  | none => some (directory (name ++ '/' :: entry.1))
  | some fs =>
      if upgrade held fs world then
        world.objects[fs]?.map fun object =>
          mountFile (name ++ '/' :: entry.1) fs (ops.osId object)
      else none

theorem list_entries_eq (name : List Char) {entries : List (Part × MountNode)}
    (allocated : ∀ entry ∈ entries, ∀ fs, entry.2.contents = some fs → fs < world.objects.length) :
    listEntries ops held name entries world =
      .ok (entries.filterMap (listedFile ops held world name)) world := by
  induction entries with
  | nil => rfl
  | cons entry entries ih =>
      have later := ih fun other member => allocated other (List.mem_cons_of_mem _ member)
      have first : listEntry ops held name entry world =
          .ok (listedFile ops held world name entry) world := by
        unfold listEntry listedFile
        cases contents : entry.2.contents with
        | none => rfl
        | some fs =>
            obtain ⟨object, present⟩ : ∃ object, world.objects[fs]? = some object :=
              ⟨_, List.getElem?_eq_getElem (allocated entry List.mem_cons_self fs contents)⟩
            have got : (get : OnWorld σ (World σ)) world = .ok world world := rfl
            simp only
            rw [state_bind_ok got]
            by_cases alive : upgrade held fs world = true
            · rw [if_pos alive, if_pos alive, state_bind_ok (World.idOf_eq present), present]
              rfl
            · rw [if_neg alive, if_neg alive]
              rfl
      rw [listEntries, state_bind_ok first, state_bind_ok later, List.filterMap_cons]
      cases listedFile ops held world name entry with
      | none => rfl
      | some file => rfl

theorem child_file_eq (name : List Char) {part : Part} {child : MountNode}
    (allocated : ∀ fs, child.contents = some fs → fs < world.objects.length) :
    fileOf (childFile ops held (name ++ '/' :: part) child world) =
      foundFile ops held world name (part, child) := by
  unfold childFile foundFile
  cases contents : child.contents with
  | none => rfl
  | some fs =>
      obtain ⟨object, present⟩ : ∃ object, world.objects[fs]? = some object :=
        ⟨_, List.getElem?_eq_getElem (allocated fs contents)⟩
      have got : (get : OnWorld σ (World σ)) world = .ok world world := rfl
      simp only
      rw [state_bind_ok got]
      by_cases alive : upgrade held fs world = true
      · rw [if_pos alive, if_pos alive, state_bind_ok (World.idOf_eq present), present]
        rfl
      · rw [if_neg alive, if_neg alive]
        rfl

theorem mem_entries_iff {node : MountNode} (keyed : Keyed node.children) {part : Part}
    {child : MountNode} :
    (part, child) ∈ MountNode.entries node ↔ find node.children part = some child :=
  (List.mergeSort_perm node.children _).mem_iff.trans (mem_iff_find_keyed keyed)

theorem keyed_entries {node : MountNode} (keyed : Keyed node.children) :
    ((MountNode.entries node).map Prod.fst).Nodup :=
  ((List.mergeSort_perm node.children _).map Prod.fst).nodup_iff.mpr keyed

/-- A child of the directory stands in the tree under the path of the directory and its name. -/
theorem child_placed (tidy : World.Tidy world) {path : List Part} {node child : MountNode}
    {part : Part}
    {fs : Ref} (reached : world.vfs.mountingPointsManager.tree.descend path = some node)
    (found : find node.children part = some child) (contents : child.contents = some fs) :
    fs < world.objects.length ∧ '/' ∉ part := by
  have placed : world.registered (path ++ [part]) = some fs := by
    change (Trie.descend _ _).bind Trie.contents = some fs
    rw [PathTraverse.descend_snoc part reached, found]
    exact contents
  obtain ⟨below, plain⟩ := tidy.placed _ fs placed
  exact ⟨below, plain part (List.mem_append_right _ List.mem_cons_self)⟩

/-- A directory of the `Vfs` whose node is in the tree. -/
structure Opened (world : World σ) (file : VfsFile Data) (node : MountNode) : Prop where
  kind : file.kind = .directory
  own : file.fs = Vfs.osId
  reached : world.vfs.mountingPointsManager.tree.descend (components file.name) = some node

variable {file : VfsFile Data} {node : MountNode}

theorem files_of_list_children (tidy : World.Tidy world) (opened : Opened world file node) :
    filesOf (listChildren ops listFs held file world) =
      (MountNode.entries node).filterMap (listedFile ops held world file.name) := by
  have keyed : Keyed node.children := tidy.distinct _ node opened.reached
  have plain : file.getMountedFs = none := by
    rw [VfsFile.getMountedFs, opened.kind]
  have listed : listEntries ops held file.name (MountNode.entries node) world =
      .ok ((MountNode.entries node).filterMap (listedFile ops held world file.name)) world :=
    list_entries_eq file.name fun entry member fs contents =>
      (child_placed tidy opened.reached ((mem_entries_iff keyed).mp member) contents).1
  rw [listChildren, plain]
  simp only
  rw [if_neg (not_not.mpr opened.kind), if_neg (not_not.mpr opened.own), PathSplitter.parts_new,
    opened.reached]
  simp only
  rw [listed]
  rfl

theorem file_of_get_child (tidy : World.Tidy world) (opened : Opened world file node)
    (part : Part) :
    fileOf (getChild ops held file part world) =
      (find node.children part).bind fun child =>
        foundFile ops held world file.name (part, child) := by
  have plain : file.getMountedFs = none := by
    rw [VfsFile.getMountedFs, opened.kind]
  rw [getChild, if_neg (not_not.mpr opened.own), plain]
  simp only
  rw [PathSplitter.parts_new, opened.reached]
  simp only
  cases found : find node.children part with
  | none => rfl
  | some child =>
      exact child_file_eq file.name fun fs contents =>
        (child_placed tidy opened.reached found contents).1

theorem no_live_mount_of_agrees (tidy : World.Tidy world) (opened : Opened world file node)
    (agrees : ListingAgrees SameFile (fun _ => True)
      (filesOf (listChildren ops listFs held file world))
      fun part => fileOf (getChild ops held file part world)) : NoLiveMount held world file := by
  intro other reached part child fs found contents
  obtain rfl : node = other := Option.some.inj (opened.reached.symm.trans reached)
  have keyed : Keyed node.children := tidy.distinct _ node opened.reached
  obtain ⟨inside, plain⟩ := child_placed tidy opened.reached found contents
  obtain ⟨object, present⟩ : ∃ object, world.objects[fs]? = some object :=
    ⟨_, List.getElem?_eq_getElem inside⟩
  by_contra alive
  rw [Bool.not_eq_false] at alive
  let listed : VfsFile Data := ⟨.mountPoint fs, part, 0, ops.osId object, ops.osId object, none⟩
  have member : listed ∈ filesOf (listChildren ops listFs held file world) := by
    rw [files_of_list_children tidy opened, List.mem_filterMap]
    refine ⟨(part, child), (mem_entries_iff keyed).mpr found, ?_⟩
    simp only [listedFile, contents, if_pos alive, present, Option.map_some]
    rfl
  obtain ⟨name, returned, -, lookup, same⟩ := listed_is_found agrees member
  rw [file_of_get_child tidy opened] at lookup
  obtain ⟨next, _, given⟩ := Option.bind_eq_some_iff.mp lookup
  have whole : returned.name = file.name ++ '/' :: name := by
    unfold foundFile at given
    cases filled : next.contents with
    | none =>
        simp only [filled, Option.some.injEq] at given
        rw [← given]
        rfl
    | some fs =>
        simp only [filled] at given
        split_ifs at given
        obtain ⟨_, _, rfl⟩ := Option.map_eq_some_iff.mp given
        rfl
  apply plain
  have equal : part = file.name ++ '/' :: name := same.name.trans whole
  rw [equal]
  exact List.mem_append_right _ List.mem_cons_self

theorem agrees_of_no_live_mount (tidy : World.Tidy world) (opened : Opened world file node)
    (none : NoLiveMount held world file) :
    ListingAgrees Eq (fun _ => True) (filesOf (listChildren ops listFs held file world))
      fun part => fileOf (getChild ops held file part world) := by
  have keyed : Keyed node.children := tidy.distinct _ node opened.reached
  let bare : Part × MountNode → Bool := fun entry => entry.2.contents.isNone
  let kept := (MountNode.entries node).filter bare
  have listed : filesOf (listChildren ops listFs held file world) =
      kept.map fun entry => directory (file.name ++ '/' :: entry.1) := by
    rw [files_of_list_children tidy opened, ← List.filterMap_eq_map, List.filterMap_filter]
    apply List.filterMap_congr
    intro entry member
    have found := (mem_entries_iff keyed).mp member
    unfold listedFile
    cases contents : entry.2.contents with
    | none => simp [bare, contents]
    | some fs =>
        have dead := none node opened.reached entry.1 entry.2 fs found contents
        simp [bare, contents, dead]
  have looked : ∀ part child, find node.children part = some child →
      fileOf (getChild ops held file part world) =
        if child.contents.isNone then some (directory (file.name ++ '/' :: part))
          else Option.none := by
    intro part child found
    rw [file_of_get_child tidy opened, found, Option.bind_some, foundFile]
    cases contents : child.contents with
    | none => rfl
    | some fs =>
        have dead := none node opened.reached part child fs found contents
        simp [dead]
  refine ⟨kept.map Prod.fst, ?_, ?_, ?_⟩
  · exact List.Nodup.sublist (List.filter_sublist.map Prod.fst) (keyed_entries keyed)
  · intro name
    rw [List.mem_map]
    constructor
    · rintro ⟨⟨part, child⟩, member, rfl⟩
      obtain ⟨inside, isBare⟩ := List.mem_filter.mp member
      refine ⟨trivial, directory (file.name ++ '/' :: part), ?_⟩
      simp only
      rw [looked part child ((mem_entries_iff keyed).mp inside), if_pos isBare]
    · rintro ⟨-, returned, present⟩
      have opens := present
      simp only at opens
      rw [file_of_get_child tidy opened] at opens
      obtain ⟨child, found, -⟩ := Option.bind_eq_some_iff.mp opens
      have shape := looked name child found
      refine ⟨(name, child), List.mem_filter.mpr ⟨(mem_entries_iff keyed).mpr found, ?_⟩, rfl⟩
      by_contra filled
      rw [if_neg filled] at shape
      exact absurd (present.symm.trans shape) (Option.some_ne_none returned)
  · rw [listed, List.forall₂_map_left_iff, List.forall₂_map_right_iff, List.forall₂_same]
    rintro ⟨part, child⟩ member
    obtain ⟨inside, isBare⟩ := List.mem_filter.mp member
    refine ⟨directory (file.name ++ '/' :: part), ?_, rfl⟩
    simp only
    rw [looked part child ((mem_entries_iff keyed).mp inside), if_pos isBare]

/-- The listing of a directory agrees with its lookups exactly where no live mount is in it, and
then it has the same files. -/
theorem listing_agrees_iff (tidy : World.Tidy world) (kind : file.kind = .directory)
    (own : file.fs = Vfs.osId) :
    (ListingAgrees SameFile (fun _ => True) (filesOf (listChildren ops listFs held file world))
        (fun part => fileOf (getChild ops held file part world)) ↔ NoLiveMount held world file) ∧
      (NoLiveMount held world file →
        ListingAgrees Eq (fun _ => True) (filesOf (listChildren ops listFs held file world))
          fun part => fileOf (getChild ops held file part world)) := by
  cases reached : world.vfs.mountingPointsManager.tree.descend (components file.name) with
  | some node =>
      have opened : Opened world file node := ⟨kind, own, reached⟩
      have equal : NoLiveMount held world file →
          ListingAgrees Eq (fun _ => True) (filesOf (listChildren ops listFs held file world))
            fun part => fileOf (getChild ops held file part world) :=
        agrees_of_no_live_mount tidy opened
      exact ⟨⟨no_live_mount_of_agrees tidy opened, fun none => agrees_of_equal (equal none)⟩, equal⟩
  | none =>
      have plain : file.getMountedFs = none := by
        rw [VfsFile.getMountedFs, kind]
      have listed : filesOf (listChildren ops listFs held file world) = [] := by
        rw [listChildren, plain]
        simp only
        rw [if_neg (not_not.mpr kind), if_neg (not_not.mpr own), PathSplitter.parts_new, reached]
        rfl
      have looked : ∀ part, fileOf (getChild ops held file part world) = none := by
        intro part
        rw [getChild, if_neg (not_not.mpr own), plain]
        simp only
        rw [PathSplitter.parts_new, reached]
        rfl
      have vacuous : NoLiveMount held world file := by
        intro node there
        rw [reached] at there
        exact absurd there.symm (Option.some_ne_none node)
      rw [listed]
      exact ⟨⟨fun _ => vacuous, fun _ => agrees_nothing fun name _ => looked name⟩,
        fun _ => agrees_nothing fun name _ => looked name⟩

theorem mount_point_listed {fs : Ref} (kind : file.kind = .mountPoint fs)
    (foreign : file.fs ≠ Vfs.osId) :
    listChildren ops listFs held file world = onObject fs (do
        let root ← ops.getRoot
        listFs root) world ∧
      ∀ part, getChild ops held file part world = .error .fileSystemMismatch world := by
  have mounted : file.getMountedFs = some fs := by
    rw [VfsFile.getMountedFs, kind]
  constructor
  · rw [listChildren, mounted]
  · intro part
    rw [getChild, if_pos foreign]

theorem mount_point_agrees_iff {fs : Ref} (kind : file.kind = .mountPoint fs)
    (foreign : file.fs ≠ Vfs.osId) :
    (ListingAgrees SameFile (fun _ => True) (filesOf (listChildren ops listFs held file world))
        (fun part => fileOf (getChild ops held file part world)) ↔
      filesOf (listChildren ops listFs held file world) = []) ∧
    (filesOf (listChildren ops listFs held file world) = [] →
      ListingAgrees Eq (fun _ => True) (filesOf (listChildren ops listFs held file world))
        fun part => fileOf (getChild ops held file part world)) := by
  obtain ⟨-, refused⟩ := @mount_point_listed _ _ ops listFs held world file fs kind foreign
  have equal : filesOf (listChildren ops listFs held file world) = [] →
      ListingAgrees Eq (fun _ => True) (filesOf (listChildren ops listFs held file world))
        fun part => fileOf (getChild ops held file part world) := by
    intro nothing
    rw [nothing]
    apply agrees_nothing
    intro part _
    rw [refused]
    rfl
  refine ⟨⟨fun agrees => ?_, fun nothing => agrees_of_equal (equal nothing)⟩, equal⟩
  by_contra some
  obtain ⟨listed, member⟩ := List.exists_mem_of_ne_nil _ some
  obtain ⟨part, found, -, lookup, -⟩ := listed_is_found agrees member
  rw [refused] at lookup
  exact absurd lookup.symm (Option.some_ne_none found)

end Vfs

end Campix.Drivers
