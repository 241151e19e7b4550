import Campix.Ext2.DirectoryRuns
import Campix.Ext2.NamespaceCalls

/-!
# Runs of calls on files

A directory of one block, the inode tables and the bitmaps of inodes together are a
catalogue of files. Over every run of creations, deletions and lookups that the catalogue
answers, the volume gives the same answers and stays what the catalogue says.
-/

namespace Campix.Ext2

open Lib.FirstFit Lib.Service Lib.Slice Drivers Namespace
open Ext2Volume

set_option autoImplicit false

/-- One call after the other on the directory; a call that fails is followed by the next one. -/
def serveFiles (number : Nat) (path : List Char) :
    List (Surroundings × FileCall) → Namespace → List (Except Stop FileAnswer) × Namespace :=
  serve fun call => call.2.run number path call.1

def timed (call : Surroundings × FileCall) : Nat × FileCall := (call.1.time, call.2)

def Catalogue.answers : List (Nat × FileCall) → Catalogue →
    Option (List (Except VfsError FileAnswer) × Catalogue) :=
  predict fun call catalogue => catalogue.answer call.1 call.2

structure Finds (names : Namespace) (catalogue : Catalogue) (path : List Char) : Prop where
  houses : Houses names catalogue
  coherent : Coherent names catalogue
  named : catalogue.number ≠ 2 → path ≠ ['/']

variable {names : Namespace} {catalogue later : Catalogue} {path : List Char} {time : Nat}
  {call : FileCall}
  {answer : Except VfsError FileAnswer} {calls : List (Surroundings × FileCall)}
  {answers : List (Except VfsError FileAnswer)}

theorem dropped_count (self : Catalogue) (number time : Nat) :
    (self.dropped number time).inodesCount = self.inodesCount := by
  unfold Catalogue.dropped Catalogue.withoutLink
  dsimp only
  split_ifs <;> rfl

theorem answer_number (given : catalogue.answer time call = some (answer, later)) :
    later.number = catalogue.number ∧ later.inodesCount = catalogue.inodesCount := by
  cases call with
  | create name =>
      rcases create_cases given with ⟨-, -, rfl⟩ |
        ⟨number, -, ⟨-, -, rfl⟩ | ⟨row, -, -, -, rfl⟩⟩ <;> exact ⟨rfl, rfl⟩
  | find name =>
      obtain ⟨rfl, -⟩ := find_cases given
      exact ⟨rfl, rfl⟩
  | delete name =>
      rcases delete_cases given with ⟨-, -, rfl⟩ | ⟨entry, row, -, -, -, -, rfl⟩
      · exact ⟨rfl, rfl⟩
      · exact ⟨Catalogue.dropped_number catalogue _ time, dropped_count catalogue _ time⟩
  | list =>
      cases given
      exact ⟨rfl, rfl⟩

theorem block_size_of_settings {after : Namespace} (frame : after.settings = names.settings) :
    after.volume.blockSize = names.volume.blockSize :=
  block_size_of_frame (congrArg Namespace.volume frame)

variable (calls) in
theorem files_served (finds : Finds names catalogue path)
    (enough : ∀ call ∈ calls, call.1.Enough names.volume.blockSize)
    (given : Catalogue.answers (calls.map timed) catalogue = some (answers, later)) :
    (serveFiles catalogue.number path calls names).1 = answers.map stopped ∧
      Finds (serveFiles catalogue.number path calls names).2 later path ∧
      (serveFiles catalogue.number path calls names).2.settings = names.settings ∧
      later.number = catalogue.number := by
  refine serve_refines timed stopped (fun call => call.1.Enough names.volume.blockSize)
    (fun state model => Finds state model path ∧
      state.settings = names.settings ∧ model.number = catalogue.number)
    calls ?_ enough ⟨finds, rfl, rfl⟩ given
  rintro ⟨around, call⟩ state model answer after rooms ⟨finds, settings, number⟩ answered
  obtain ⟨sameNumber, -⟩ := answer_number answered
  rw [← block_size_of_settings settings] at rooms
  obtain ⟨next, returned, houses, coherent, same⟩ :=
    call_served finds.houses finds.coherent rooms finds.named answered
  rw [number] at returned
  exact ⟨next, returned, ⟨houses, coherent, fun other => finds.named (sameNumber ▸ other)⟩,
    same.trans settings,
    sameNumber.trans number⟩

def rootRecord : RawInode :=
  { RawInode.empty with
    typeAndPermissions := 0x41ED
    sizeLo := 1024
    linksCount := 2
    directBlockPointers := fun place => if place.val = 0 then 5 else 0 }

def rootDevice (lba : Nat) : Block :=
  if lba = 2 then splice (List.replicate 1024 0) 128 rootRecord.bytes
  else if lba = 5 then soleRecord.bytes
  else List.replicate 1024 0

def rootVolume : Ext2Volume :=
  { plainVolume 1024 8 0 with
    device := rootDevice
    blockGroupCount := 1
    inodesPerGroup := 16
    inodesPerBlock := 8
    inodeSize := 128
    inodeTables := [2] }

def rootNamespace : Namespace where
  volume := rootVolume
  inodeBitmaps := fun _ => [0xFF, 0x07]
  inodesCount := 16
  directoryCounts := [1]
  haveTypeField := true
  osId := 7
  parentOsId := 1
  rootDirFsData := some {
    entries := soleRow.items
    inode := { plainInode 0 1024 5 with inodeType := .directory, inodeI := 2, parentInode := none } }

def rootCatalogue : Catalogue where
  number := 2
  inodesCount := 16
  row := soleRow
  records := rootVolume.recordAt
  used := rootNamespace.inUse

theorem length_root_device (lba : Nat) : (rootDevice lba).length = 1024 := by
  unfold rootDevice
  split_ifs
  · have fits : 128 + rootRecord.bytes.length ≤ (List.replicate 1024 (0 : UInt8)).length := by
      rw [RawInode.length_bytes, List.length_replicate]
      decide
    exact (length_splice fits).trans List.length_replicate
  · exact length_sole_record
  · exact List.length_replicate

theorem root_tables : rootVolume.InodeTables where
  record := by decide
  fits := by decide
  blockWord := by decide
  countWord := by decide
  perGroup := by decide
  perBlock := by decide
  inside := by
    intro group block here
    obtain ⟨below, rfl⟩ := List.getElem?_eq_some_iff.mp here
    obtain rfl : group = 0 := Nat.lt_one_iff.mp below
    exact show 2 + rootVolume.tableBlocks ≤ 8 by decide
  apart := by
    intro group other block beside different here there
    have first := Nat.lt_one_iff.mp (List.getElem?_eq_some_iff.mp here).1
    have second := Nat.lt_one_iff.mp (List.getElem?_eq_some_iff.mp there).1
    exact absurd (first.trans second.symm) different

theorem root_stores : rootVolume.Stores rootVolume.device :=
  ⟨rfl, fun _ impossible => absurd impossible List.not_mem_nil, length_root_device, show 0 < 1024 by
    decide⟩

theorem root_record : rootVolume.recordAt 2 = rootRecord := by
  have place : rootVolume.inodePlace 2 = some (2, 128) := by decide
  have fits : 128 + rootRecord.bytes.length ≤ (List.replicate 1024 (0 : UInt8)).length := by
    rw [RawInode.length_bytes, List.length_replicate]
    decide
  have slice := get_slice_splice fits
  rw [RawInode.length_bytes] at slice
  rw [record_at_of_place place]
  change RawInode.ofBytes ((getSlice (splice (List.replicate 1024 0) 128 rootRecord.bytes)
    128 256).getD []) = _
  rw [slice]
  exact RawInode.of_bytes rootRecord

theorem root_numbered : rootNamespace.Numbered where
  writable := rfl
  groupCount := rfl
  perGroup := by decide
  word := by decide
  reaches := by
    intro group below
    obtain rfl : group = 0 := Nat.lt_one_iff.mp below
    decide
  ends := by decide
  stored := by
    intro group _
    exact show 16 ≤ 8 * 2 by decide

theorem root_table_blocks {lba : Nat} (table : rootVolume.IsTable lba) : lba < 4 := by
  obtain ⟨number, offset, place⟩ := table
  obtain ⟨block, here, rfl, -, row, -⟩ := inode_place_cases root_tables place
  obtain ⟨below, rfl⟩ := List.getElem?_eq_some_iff.mp here
  have first : rootVolume.inodeTables[rootVolume.getInodeGroup number] = 2 := by
    have zero : rootVolume.getInodeGroup number = 0 := Nat.lt_one_iff.mp below
    simp only [zero]
    rfl
  have blocks : rootVolume.tableBlocks = 2 := by decide
  omega

theorem root_directory : ∃ found,
    IsDirectory true rootVolume (rootVolume.recordAt 2) 2 soleRow found := by
  rw [root_record]
  refine ⟨_, rfl, ⟨⟨⟨root_stores, ⟨0, rfl⟩, show 1024 < 2 ^ 32 by decide⟩, fun k below => ?_, rfl,
    show 1024 < 2 ^ 32 by decide⟩, rfl, show 1024 < 2 ^ 16 by decide, rfl, [], [soleRecord], ?_⟩,
    fun table => absurd (root_table_blocks table) (by decide)⟩
  · obtain rfl : k = 0 := Nat.lt_one_iff.mp below
    refine ⟨by unfold capacity; omega, fun addr member => ?_⟩
    obtain rfl : addr = 5 := List.mem_singleton.mp member
    exact ⟨by decide, show 5 < 8 by decide⟩
  · exact sole_tiles

theorem root_finds : Finds rootNamespace rootCatalogue ['/'] where
  houses := {
    numbered := root_numbered
    tables := root_tables
    stores := root_stores
    count := rfl
    used := fun _ _ => rfl
    records := fun _ _ => rfl
    first := by decide
    last := by decide
    busy := by decide
    directory := root_directory }
  coherent := fun _ => ⟨_, rfl, rfl, rfl⟩
  named := fun other => absurd rfl other

def blankAround (time : Nat) : Surroundings where
  time
  heap := fun _ => blankBuffers rootVolume
  rounds := 1025

theorem blank_around_enough (time : Nat) :
    (blankAround time).Enough rootNamespace.volume.blockSize :=
  ⟨fun _ => blank_buffers_sized rootVolume, show 1024 < 1025 by decide⟩

def twoFiles : List (Surroundings × FileCall) :=
  [(blankAround 9, .create ['b']), (blankAround 10, .create ['c']), (blankAround 11, .find ['c']),
    (blankAround 12, .delete ['b']), (blankAround 13, .create ['d']), (blankAround 14, .find ['b']),
    (blankAround 15, .list)]

theorem two_files_enough : ∀ call ∈ twoFiles, call.1.Enough rootNamespace.volume.blockSize := by
  simp only [twoFiles, List.forall_mem_cons]
  exact ⟨blank_around_enough 9, blank_around_enough 10, blank_around_enough 11,
    blank_around_enough 12,
    blank_around_enough 13, blank_around_enough 14, blank_around_enough 15, fun _ impossible =>
      absurd impossible List.not_mem_nil⟩

theorem two_files_predicted : (Catalogue.answers (twoFiles.map timed) rootCatalogue).map Prod.fst =
    some [.ok (.file 12), .ok (.file 13), .ok (.file 13), .ok .deleted, .ok (.file 12),
      .error .pathNotFound,
      .ok (.listed [⟨11, ['a']⟩, ⟨12, ['d']⟩, ⟨13, ['c']⟩])] := by decide +kernel

end Campix.Ext2
