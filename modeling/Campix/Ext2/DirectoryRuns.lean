import Campix.Ext2.DirectorySlots
import Campix.Lib.Service

/-!
# Runs of calls on a directory

Insertions, deletions and listings of a directory of one block, each with an iterator of its
own. As long as first fit finds a place for what is inserted, every call answers what the
row of slots says, and the block stays a row of slots.
-/

namespace Campix.Ext2

open Lib.Fallible Lib.FirstFit Lib.Service Drivers

set_option autoImplicit false

inductive DirectoryCall where
  | insert (inodeI : Nat) (name : List UInt8) (entryType : DirectoryEntryType)
  | delete (entryInode : Nat)
  | list

/-- What a call finds on the heap, and the rounds that its loop may take. -/
structure Visit where
  openMode : Nat
  heap : Buffers
  rounds : Nat

abbrev DirectoryAnswer (Error : Type) := Except Error (List DirectoryEntry)

namespace DirectoryCall

def run (haveTypeField : Bool) (inode : Inode) (visit : Visit) :
    DirectoryCall → EStateM Stop Ext2Volume (List DirectoryEntry)
  | insert inodeI name entryType => do
      let entry ← DirectoryIterator.withIterator haveTypeField inode visit.openMode visit.heap
        (DirectoryIterator.insertEntry visit.rounds inodeI name entryType)
      return [entry.entry]
  | delete entryInode => do
      Directory.deleteEntry haveTypeField inode entryInode visit.heap visit.rounds
      return []
  | list => do
      let directory ← Directory.new haveTypeField inode visit.openMode visit.heap visit.rounds
      return directory.entries

def answer (row : Row DirectoryEntry) : DirectoryCall →
    Option (DirectoryAnswer VfsError × Row DirectoryEntry)
  | insert inodeI name _ =>
      if name.length > 255 then
        some (.error .nameTooLong, row)
      else
        (row.insert entryNeed (newEntry inodeI name)).map (.ok [newEntry inodeI name], ·)
  | delete entryInode =>
      match row.remove (hasNumber entryInode) with
      | none => some (.error .entryNotFound, row)
      | some later => some (.ok [], later)
  | list => some (.ok row.items, row)

def Numbered : DirectoryCall → Prop
  | insert inodeI _ _ => inodeI ≠ 0 ∧ inodeI < 2 ^ 32
  | _ => True

end DirectoryCall

/-- The buffers have the size of a block, and there are rounds for all records of one. -/
def Visit.Enough (visit : Visit) (blockSize : Nat) : Prop := visit.heap.Sized blockSize ∧
    blockSize < visit.rounds

/-- One call after the other; a call that fails is followed by the next one. -/
def serveDirectory (haveTypeField : Bool) (inode : Inode) :
    List (Visit × DirectoryCall) → Ext2Volume → List (DirectoryAnswer Stop) × Ext2Volume :=
  serve fun call => call.2.run haveTypeField inode call.1

def answerAll : List DirectoryCall → Row DirectoryEntry →
    Option (List (DirectoryAnswer VfsError) × Row DirectoryEntry) :=
  predict fun call row => call.answer row

variable {haveTypeField : Bool} {volume after : Ext2Volume} {inode : Inode}
  {row later : Row DirectoryEntry}
  {visit : Visit} {call : DirectoryCall} {calls : List (Visit × DirectoryCall)}

theorem name_refused (laid : Laid haveTypeField volume inode row)
    (enough : visit.Enough volume.blockSize)
    {inodeI : Nat} {name : List UInt8} (entryType : DirectoryEntryType) (long : name.length > 255) :
    DirectoryCall.run haveTypeField inode visit (.insert inodeI name entryType) volume =
      .error (.failure (.error .nameTooLong)) volume := by
  rw [DirectoryCall.run, state_bind_error
    (DirectoryIterator.long_name_refused laid enough.1 entryType long)]

theorem call_answered (laid : Laid haveTypeField volume inode row)
    (enough : visit.Enough volume.blockSize)
    (numbered : call.Numbered) {answer : DirectoryAnswer VfsError}
    (given : call.answer row = some (answer, later)) :
    ∃ after, call.run haveTypeField inode visit volume = returning (stopped answer) after ∧
      Laid haveTypeField after inode later := by
  obtain ⟨sized, rounds⟩ := enough
  cases call with
  | insert inodeI name entryType =>
      obtain ⟨nonzero, number⟩ := numbered
      rw [DirectoryCall.answer] at given
      split_ifs at given with long
      · cases given
        exact ⟨volume, name_refused laid ⟨sized, rounds⟩ entryType long, laid⟩
      · obtain ⟨placed, found, same⟩ := Option.map_eq_some_iff.mp given
        cases same
        obtain ⟨entry, after, inserted, new, relaid⟩ :=
          DirectoryIterator.insert_row laid visit.openMode visit.rounds
          sized rounds.le nonzero number (Nat.not_lt.mp long) entryType found
        refine ⟨after, ?_, relaid.laid⟩
        change DirectoryCall.run haveTypeField inode visit (.insert inodeI name entryType)
          volume = .ok _ after
        rw [DirectoryCall.run, state_bind_ok inserted, new]
        rfl
  | delete entryInode =>
      obtain ⟨more, isMore⟩ : ∃ more, visit.rounds = more + 1 := ⟨visit.rounds - 1, by omega⟩
      rw [isMore] at rounds
      rw [DirectoryCall.answer] at given
      cases removed : row.remove (hasNumber entryInode) with
      | none =>
          rw [removed] at given
          cases given
          obtain ⟨after, failed, relaid⟩ :=
            DirectoryIterator.delete_nothing laid sized (Nat.le_of_lt_succ rounds) removed
          refine ⟨after, ?_, relaid.laid⟩
          change DirectoryCall.run haveTypeField inode visit (.delete entryInode)
            volume = .error _ after
          rw [DirectoryCall.run, isMore, state_bind_error failed]
      | some smaller =>
          rw [removed] at given
          cases given
          obtain ⟨after, deleted, relaid⟩ :=
            DirectoryIterator.delete_row laid sized rounds.le removed
          refine ⟨after, ?_, relaid.laid⟩
          change DirectoryCall.run haveTypeField inode visit (.delete entryInode)
            volume = .ok _ after
          rw [DirectoryCall.run, isMore, state_bind_ok deleted]
          rfl
  | list =>
      obtain ⟨more, isMore⟩ : ∃ more, visit.rounds = more + 1 := ⟨visit.rounds - 1, by omega⟩
      rw [isMore] at rounds
      cases given
      obtain ⟨after, listed, relaid⟩ :=
        DirectoryIterator.list_row laid visit.openMode more sized (Nat.le_of_lt_succ rounds)
      refine ⟨after, ?_, relaid.laid⟩
      change DirectoryCall.run haveTypeField inode visit .list volume = .ok _ after
      rw [DirectoryCall.run, isMore, state_bind_ok listed]
      rfl

theorem block_size_laid (laid : Laid haveTypeField volume inode row)
    (relaid : Laid haveTypeField after inode later) :
    after.blockSize = volume.blockSize := relaid.one.symm.trans laid.one

variable (calls) in
theorem run_answered {answers : List (DirectoryAnswer VfsError)}
    (laid : Laid haveTypeField volume inode row)
    (enough : ∀ call ∈ calls, call.1.Enough volume.blockSize)
    (numbered : ∀ call ∈ calls, call.2.Numbered)
    (given : answerAll (calls.map Prod.snd) row = some (answers, later)) :
    (serveDirectory haveTypeField inode calls volume).1 = answers.map stopped ∧
      Laid haveTypeField (serveDirectory haveTypeField inode calls volume).2 inode later := by
  refine serve_refines Prod.snd stopped (fun call => call.1.Enough inode.sizeLo ∧ call.2.Numbered)
    (fun volume row => Laid haveTypeField volume inode row) calls ?_
      (fun call member => ⟨?_, numbered call member⟩)
    laid given
  · rintro ⟨visit, call⟩ state row answer after ⟨enough, isNumbered⟩ related answered
    rw [related.one] at enough
    exact call_answered related enough isNumbered answered
  · rw [laid.one]
    exact enough call member

theorem sole_entry : soleRecord.entry = ⟨11, ['a']⟩ := by decide +kernel

def soleRow : Row DirectoryEntry := ⟨0, [⟨⟨11, ['a']⟩, 1024⟩]⟩

theorem sole_tiles : Tiles true soleRecord.bytes soleRow [] [soleRecord] := by
  refine ⟨(List.append_nil _).symm, fun _ impossible => absurd impossible List.not_mem_nil, ?_,
    rfl, ?_⟩
  · intro record member
    rw [List.mem_singleton.mp member]
    decide +kernel
  · rw [List.map_singleton, slotOf, sole_entry, length_sole_record]
    rfl

theorem sole_laid : Laid true (uniformVolume soleRecord.bytes) (uniformDirectory 1024) soleRow :=
  ⟨uniform_on length_sole_record (by decide), rfl, show 1024 < 2 ^ 16 by
    decide, rfl, [], [soleRecord], sole_tiles⟩

def blankVisit : Visit := ⟨0, blankBuffers (uniformVolume soleRecord.bytes), 1025⟩

theorem blank_visit_enough : blankVisit.Enough (uniformVolume soleRecord.bytes).blockSize :=
  ⟨blank_buffers_sized _, show 1024 < 1025 by decide⟩

/-- A directory of one block is a row of slots that is filled first fit: in every run of
calls in which each new entry has a place in the row, the answers are those of the row, and
the block behind the run is the row behind it. No space of the block is in no slot, but for
what deletions of first entries have left in front. -/
theorem directory_refines (haveTypeField : Bool) (volume : Ext2Volume) (inode : Inode)
    (row later : Row DirectoryEntry)
    (calls : List (Visit × DirectoryCall)) (answers : List (DirectoryAnswer VfsError))
    (laid : Laid haveTypeField volume inode row)
    (enough : ∀ call ∈ calls, call.1.Enough volume.blockSize)
    (numbered : ∀ call ∈ calls, call.2.Numbered)
    (given : answerAll (calls.map Prod.snd) row = some (answers, later)) :
    (serveDirectory haveTypeField inode calls volume).1 = answers.map stopped ∧
      Laid haveTypeField (serveDirectory haveTypeField inode calls volume).2 inode later ∧
      later.size = volume.blockSize := by
  obtain ⟨answered, relaid⟩ := run_answered calls laid enough numbered given
  obtain ⟨unused, live, tiles⟩ := relaid.tiles
  refine ⟨answered, relaid, ?_⟩
  rw [size_of_tiles tiles, DirectoryIterator.length_first_block relaid.on]
  exact block_size_laid laid relaid

theorem second_entry_and_back :
    (serveDirectory true (uniformDirectory 1024)
      [(blankVisit, .insert 12 [98] .file), (blankVisit, .delete 13),
      (blankVisit, .list), (blankVisit, .delete 12), (blankVisit, .list)]
        (uniformVolume soleRecord.bytes)).1 =
        [.ok [⟨12, ['b']⟩], .error (.failure (.error .entryNotFound)),
          .ok [⟨11, ['a']⟩, ⟨12, ['b']⟩], .ok [],
          .ok [⟨11, ['a']⟩]] := by
  have visits : ∀ call ∈ [(blankVisit, DirectoryCall.insert 12 [98] .file),
      (blankVisit, .delete 13),
      (blankVisit, .list), (blankVisit, .delete 12), (blankVisit, .list)],
        call.1.Enough (uniformVolume soleRecord.bytes).blockSize ∧ call.2.Numbered := by
    simp only [List.forall_mem_cons]
    exact ⟨⟨blank_visit_enough, by decide, by decide⟩, ⟨blank_visit_enough, trivial⟩,
      ⟨blank_visit_enough, trivial⟩,
      ⟨blank_visit_enough, trivial⟩, ⟨blank_visit_enough, trivial⟩, fun _ impossible =>
        absurd impossible List.not_mem_nil⟩
  exact (directory_refines true _ _ soleRow
    soleRow _ _ sole_laid (fun call member => (visits call member).1)
    (fun call member => (visits call member).2) rfl).1

theorem answer_keeps {answer : DirectoryAnswer VfsError}
    (given : call.answer row = some (answer, later))
    {entry : DirectoryEntry} (member : entry ∈ row.items) (stays : call ≠ .delete entry.inode) :
    entry ∈ later.items := by
  cases call with
  | insert inodeI name entryType =>
      rw [DirectoryCall.answer] at given
      split_ifs at given
      · cases given
        exact member
      · obtain ⟨placed, found, same⟩ := Option.map_eq_some_iff.mp given
        cases same
        exact (Row.mem_insert found).2 entry member
  | delete entryInode =>
      rw [DirectoryCall.answer] at given
      cases removed : row.remove (hasNumber entryInode) with
      | none =>
          rw [removed] at given
          cases given
          exact member
      | some smaller =>
          rw [removed] at given
          cases given
          refine Row.mem_remove removed member (beq_eq_false_iff_ne.mpr fun same => ?_)
          exact stays (congrArg DirectoryCall.delete same.symm)
  | list =>
      cases given
      exact member

theorem answers_keep {calls : List DirectoryCall} {answers : List (DirectoryAnswer VfsError)}
    (given : answerAll calls row = some (answers, later)) {entry : DirectoryEntry}
    (member : entry ∈ row.items)
    (stays : .delete entry.inode ∉ calls) : entry ∈ later.items := by
  refine predict_keeps (fun row => entry ∈ row.items)
    (fun call isCall row after answer here answered => ?_)
    given member
  refine answer_keeps answered here ?_
  rintro rfl
  exact stays isCall

theorem inserted_stays {before behind : List DirectoryCall} {inodeI : Nat} {name : List UInt8}
    {entryType : DirectoryEntryType} {answers : List (DirectoryAnswer VfsError)}
    (short : name.length ≤ 255)
    (given : answerAll (before ++ .insert inodeI name entryType :: behind)
      row = some (answers, later))
    (stays : .delete inodeI ∉ behind) : newEntry inodeI name ∈ later.items := by
  obtain ⟨_, middle, _, -, rest, -⟩ := predict_append given
  obtain ⟨_, _, _, inserts, kept, -⟩ := predict_cons rest
  rw [DirectoryCall.answer, if_neg (Nat.not_lt.mpr short)] at inserts
  obtain ⟨row, found, same⟩ := Option.map_eq_some_iff.mp inserts
  cases same
  exact answers_keep kept (Row.mem_insert found).1 stays

section Two

variable {inodeI entryInode : Nat} {name : List UInt8} {entryType : DirectoryEntryType}
  {middle : Row DirectoryEntry}

theorem answer_insert (short : name.length ≤ 255)
    (found : row.insert entryNeed (newEntry inodeI name) = some later) :
    DirectoryCall.answer row (.insert inodeI name entryType) = some
      (.ok [newEntry inodeI name], later) := by
  rw [DirectoryCall.answer, if_neg (Nat.not_lt.mpr short), found]
  rfl

theorem answer_delete (removed : row.remove (hasNumber entryInode) = some later) :
    DirectoryCall.answer row (.delete entryInode) = some (.ok [], later) := by
  rw [DirectoryCall.answer, removed]

theorem two_answered {first second : Visit × DirectoryCall}
    {firstEntries secondEntries : List DirectoryEntry}
    (laid : Laid haveTypeField volume inode row) (enough : first.1.Enough volume.blockSize)
    (otherEnough : second.1.Enough volume.blockSize) (numbered : first.2.Numbered)
    (otherNumbered : second.2.Numbered)
    (answered : first.2.answer row = some (.ok firstEntries, middle))
    (then_ : second.2.answer middle = some (.ok secondEntries, later)) :
    ∃ after, serveDirectory haveTypeField inode [first, second] volume =
        ([.ok firstEntries, .ok secondEntries], after) ∧ Laid haveTypeField after inode later := by
  have given : answerAll ([first, second].map Prod.snd) row =
      some ([.ok firstEntries, .ok secondEntries], later) :=
    predict_of_cons answered (predict_of_cons then_ rfl)
  have both : ∀ call ∈ [first, second], call.1.Enough volume.blockSize ∧ call.2.Numbered := by
    intro call member
    rcases List.mem_pair.mp member with rfl | rfl
    · exact ⟨enough, numbered⟩
    · exact ⟨otherEnough, otherNumbered⟩
  obtain ⟨same, relaid⟩ := run_answered [first, second]
    laid (fun call member => (both call member).1)
    (fun call member => (both call member).2) given
  exact ⟨_, Prod.ext same rfl, relaid⟩

end Two

/-- A deletion undoes an insertion, down to the lengths of the records. -/
theorem insertion_undone (haveTypeField : Bool) (volume : Ext2Volume) (inode : Inode)
    (row later : Row DirectoryEntry)
    (visit other : Visit) (inodeI : Nat) (name : List UInt8) (entryType : DirectoryEntryType)
    (laid : Laid haveTypeField volume inode row) (enough : visit.Enough volume.blockSize)
    (otherEnough : other.Enough volume.blockSize) (nonzero : inodeI ≠ 0) (number : inodeI < 2 ^ 32)
    (short : name.length ≤ 255) (found : row.insert entryNeed (newEntry inodeI name) = some later)
    (new : ∀ entry ∈ row.items, entry.inode ≠ inodeI) :
    ∃ after, serveDirectory haveTypeField inode
        [(visit, .insert inodeI name entryType), (other, .delete inodeI)] volume =
          ([.ok [newEntry inodeI name], .ok []], after) ∧ Laid haveTypeField after inode row := by
  obtain ⟨unused, live, tiles⟩ := laid.tiles
  have restored : later.remove (hasNumber inodeI) = some row :=
    Row.remove_insert found (row_holds tiles)
      (fun entry member => beq_eq_false_iff_ne.mpr (new entry member))
      (beq_self_eq_true inodeI)
  exact two_answered laid enough otherEnough ⟨nonzero, number⟩ trivial (answer_insert short found)
    (answer_delete restored)

theorem second_entry_undone : ∃ after, serveDirectory true (uniformDirectory 1024)
    [(blankVisit, .insert 12 [98] .file), (blankVisit, .delete 12)]
      (uniformVolume soleRecord.bytes) =
      ([.ok [newEntry 12 [98]], .ok []], after) ∧ Laid true after (uniformDirectory 1024) soleRow :=
  insertion_undone true _ _ soleRow ⟨0, [⟨⟨11, ['a']⟩, 12⟩, ⟨⟨12, ['b']⟩, 1012⟩]⟩
    blankVisit blankVisit 12 [98] .file
    sole_laid blank_visit_enough blank_visit_enough (by decide) (by decide) (by decide) rfl (by
      intro entry member
      rw [List.mem_singleton.mp member]
      decide)

def pairVolume : Ext2Volume :=
  (serveDirectory true (uniformDirectory 1024) [(blankVisit, .insert 12 [98] .file)]
    (uniformVolume soleRecord.bytes)).2

def pairRow : Row DirectoryEntry := ⟨0, [⟨⟨11, ['a']⟩, 12⟩, ⟨⟨12, ['b']⟩, 1012⟩]⟩

theorem pair_laid : Laid true pairVolume (uniformDirectory 1024) pairRow := by
  have one : ∀ call ∈ [(blankVisit, DirectoryCall.insert 12 [98] .file)],
      call.1.Enough (uniformVolume soleRecord.bytes).blockSize ∧ call.2.Numbered := by
    intro call member
    rw [List.mem_singleton.mp member]
    exact ⟨blank_visit_enough, by decide, by decide⟩
  exact (run_answered _ sole_laid (fun call member => (one call member).1)
    (fun call member => (one call member).2)
    rfl).2

end Campix.Ext2
