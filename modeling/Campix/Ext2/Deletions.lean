import Campix.Ext2.DirectoryEnds

/-!
# Deleting an entry

`delete_entry` gives the length of the record to the live record before it in the block,
as if nothing lay in between. Where unused records do, the lengthened record ends among
their bytes or those of the deleted one, and what is found there next depends on what was
left behind in them.
-/

namespace Campix.Ext2

open Lib.Slice

set_option autoImplicit false

variable {haveTypeField : Bool}

def erasedBody (record : Record haveTypeField) : Block :=
  List.replicate record.nameLen 0 ++ record.bytes.drop (DirectoryEntryRaw.size + record.nameLen)

theorem length_erased_body (record : Record haveTypeField) :
    DirectoryEntryRaw.size + (erasedBody record).length = record.bytes.length := by
  have named : DirectoryEntryRaw.size + record.nameLen ≤ record.bytes.length := record.named
  rw [erasedBody, List.length_append, List.length_replicate, List.length_drop]
  omega

def erasedBytes (record : Record haveTypeField) (coalesced : Bool) : Block :=
  (DirectoryIterator.deletedRaw record.raw coalesced).bytes ++ erasedBody record

theorem length_erased_bytes (record : Record haveTypeField) (coalesced : Bool) :
    (erasedBytes record coalesced).length = record.bytes.length := by
  rw [erasedBytes, List.length_append, length_raw_bytes, length_erased_body]

theorem deleted_raw_fits (record : Record haveTypeField) (coalesced : Bool) :
    (DirectoryIterator.deletedRaw record.raw coalesced).Fits := by
  refine ⟨Nat.two_pow_pos 32, ?_, Nat.two_pow_pos 8, Nat.two_pow_pos 8⟩
  unfold DirectoryIterator.deletedRaw
  dsimp only
  split_ifs
  · exact Nat.two_pow_pos 16
  · exact (raw_fits record).entrySize

theorem deleted_raw_unnamed (record : Record haveTypeField) (coalesced : Bool) :
    (DirectoryIterator.deletedRaw record.raw coalesced).nameLen haveTypeField = 0 := by
  cases haveTypeField with
  | false => rfl
  | true => rfl

def unusedRecord (record : Record haveTypeField) : Record haveTypeField :=
  have whole : (DirectoryIterator.deletedRaw record.raw false).entrySize = record.bytes.length :=
    record.whole
  Record.ofHeader haveTypeField (DirectoryIterator.deletedRaw record.raw false) (erasedBody record)
    (deleted_raw_fits record false) (whole.trans (length_erased_body record).symm)
    (whole ▸ record.aligned) (deleted_raw_unnamed record false ▸ Nat.zero_le _)

theorem unused_record_bytes (record : Record haveTypeField) :
    (unusedRecord record).bytes = erasedBytes record false :=
  rfl

theorem unused_record_not_live (record : Record haveTypeField) : ¬(unusedRecord record).Live := by
  unfold unusedRecord
  rw [of_header_live]
  exact fun live => live rfl

variable {record : Record haveTypeField} {front back idle rest : List (Record haveTypeField)}

/-- The name is filled with zeros, and the header is replaced. -/
theorem erased_eq (previous : Option Nat) :
    DirectoryIterator.erased haveTypeField (joined (front ++ record :: back))
        (DirectoryIterator.itemOf record front previous) =
      joined front ++ (erasedBytes record previous.isSome ++ joined back) := by
  have named : DirectoryEntryRaw.size + record.nameLen ≤ record.bytes.length := record.named
  have eight : DirectoryEntryRaw.size = 8 := rfl
  have parts : record.bytes = record.bytes.take DirectoryEntryRaw.size ++
      ((record.bytes.drop DirectoryEntryRaw.size).take record.nameLen ++
        record.bytes.drop (DirectoryEntryRaw.size + record.nameLen)) := by
    rw [← List.drop_drop, List.take_append_drop, List.take_append_drop]
  have header : (record.bytes.take DirectoryEntryRaw.size).length = DirectoryEntryRaw.size := by
    rw [List.length_take]
    omega
  have name : ((record.bytes.drop DirectoryEntryRaw.size).take record.nameLen).length =
      record.nameLen := by
    rw [List.length_take, List.length_drop]
    omega
  unfold DirectoryIterator.erased
  rw [show (DirectoryIterator.itemOf record front previous).offset = (joined front).length from rfl,
    DirectoryIterator.read_record]
  dsimp only
  have block : joined (front ++ record :: back) =
      joined front ++ record.bytes.take DirectoryEntryRaw.size ++
        (record.bytes.drop DirectoryEntryRaw.size).take record.nameLen ++
          (record.bytes.drop (DirectoryEntryRaw.size + record.nameLen) ++ joined back) := by
    rw [joined_append, joined_cons]
    nth_rewrite 1 [parts]
    simp only [List.append_assoc]
  rw [block, splice_between (by rw [name, List.length_replicate]; rfl)
    (by rw [List.length_append, header])]
  rw [List.append_assoc (joined front ++ _), splice_between (by rw [header, length_raw_bytes]) rfl]
  unfold erasedBytes erasedBody Record.nameLen
  simp only [List.append_assoc]
  rfl

inductive LastLive : List (Record haveTypeField) → Option Nat → Prop
  | none {passed : List (Record haveTypeField)} (unused : ∀ record ∈ passed, ¬record.Live) :
    LastLive passed none
  | some (before : List (Record haveTypeField)) {previous : Record haveTypeField}
      {idle : List (Record haveTypeField)} (live : previous.Live)
        (unused : ∀ record ∈ idle, ¬record.Live) :
      LastLive (before ++ previous :: idle) (some (joined before).length)

theorem last_live_unused {previous : Option Nat} (last : LastLive front previous)
    (unused : ∀ record ∈ idle, ¬record.Live) : LastLive (front ++ idle) previous := by
  cases last with
  | none before =>
      apply LastLive.none
      intro record member
      rcases List.mem_append.mp member with first | second
      · exact before record first
      · exact unused record second
  | some before live between =>
      rw [List.append_assoc, List.cons_append]
      apply LastLive.some before live
      intro record member
      rcases List.mem_append.mp member with first | second
      · exact between record first
      · exact unused record second

theorem last_live_behind (live : record.Live) :
    LastLive (front ++ [record]) (some (joined front).length) :=
  LastLive.some front live fun _ member => absurd member List.not_mem_nil

theorem last_live_exists (passed : List (Record haveTypeField)) :
    ∃ place, LastLive passed place := by
  induction passed using List.reverseRecOn with
  | nil => exact ⟨none, .none fun _ member => absurd member List.not_mem_nil⟩
  | append_singleton front record ih =>
      by_cases live : record.Live
      · exact ⟨_, last_live_behind live⟩
      · obtain ⟨place, last⟩ := ih
        exact ⟨place, last_live_unused last (List.forall_mem_singleton.mpr live)⟩

def previousRaw (previous record : Record haveTypeField) : DirectoryEntryRaw :=
  DirectoryIterator.coalescedRaw previous.raw record.bytes.length

theorem deleted_none :
    DirectoryIterator.deleted haveTypeField (joined (front ++ record :: back))
        (DirectoryIterator.itemOf record front none) =
      joined (front ++ unusedRecord record :: back) := by
  have tiled : joined (front ++ unusedRecord record :: back) =
      joined front ++ (erasedBytes record false ++ joined back) := by
    rw [joined_append, joined_cons, unused_record_bytes]
  rw [tiled]
  exact erased_eq none

/-- The two headers are written, and the deleted name is filled with zeros. -/
theorem deleted_some {previous : Record haveTypeField} :
    DirectoryIterator.deleted haveTypeField (joined (front ++ previous :: idle ++ record :: back))
        (DirectoryIterator.itemOf record (front ++ previous :: idle) (some (joined front).length)) =
      joined front ++ ((previousRaw previous record).bytes ++ previous.bytes.drop
        DirectoryEntryRaw.size ++
        (joined idle ++ (erasedBytes record true ++ joined back))) := by
  have size := record_size previous
  have parts : joined (front ++ previous :: idle) ++ (erasedBytes record true ++ joined back) =
      joined front ++ (previous.bytes ++
        (joined idle ++ (erasedBytes record true ++ joined back))) := by
    rw [joined_append, joined_cons, List.append_assoc, List.append_assoc]
  have erased : DirectoryIterator.erased haveTypeField
      (joined (front ++ previous :: idle ++ record :: back))
      (DirectoryIterator.itemOf record (front ++ previous :: idle) (some (joined front).length)) =
        joined front ++ (previous.bytes ++
          (joined idle ++ (erasedBytes record true ++ joined back))) := by
    rw [← parts]
    exact erased_eq _
  have header := read_behind (joined front)
    (joined idle ++ (erasedBytes record true ++ joined back)) previous
  have first : (previous.bytes.take DirectoryEntryRaw.size).length = DirectoryEntryRaw.size := by
    rw [List.length_take]
    exact Nat.min_eq_left size
  have split : joined front ++ (previous.bytes ++
      (joined idle ++ (erasedBytes record true ++ joined back))) =
      joined front ++ previous.bytes.take DirectoryEntryRaw.size ++
        (previous.bytes.drop DirectoryEntryRaw.size ++
          (joined idle ++ (erasedBytes record true ++ joined back))) := by
    rw [List.append_assoc, ← List.append_assoc (previous.bytes.take _), List.take_append_drop]
  unfold DirectoryIterator.deleted
  change splice (DirectoryIterator.erased haveTypeField _ _)
    (joined front).length (DirectoryIterator.coalescedRaw
    (DirectoryEntryRaw.read (DirectoryIterator.erased haveTypeField _ _) (joined front).length)
      record.bytes.length).bytes = _
  rw [erased, header, split, splice_between (by rw [first, length_raw_bytes]) rfl]
  simp only [List.append_assoc]
  rfl

/-- The bytes from the end of the lengthened record on are records again, with the live
entries that follow the deleted one. -/
def Rejoins (idle : List (Record haveTypeField)) (record : Record haveTypeField)
    (rest : List (Record haveTypeField)) : Prop :=
  ∃ tail : List (Record haveTypeField),
    joined tail = (joined idle ++ erasedBytes record true).drop record.bytes.length ++ joined rest ∧
      listing tail = listing rest

/-- No live record comes before the deleted one in the block, or both lengths fit into the
header of the last one before it, and what lies behind are records again. -/
def Removable (passed : List (Record haveTypeField)) (record : Record haveTypeField)
    (rest : List (Record haveTypeField)) : Prop :=
  ∀ before previous idle, passed = before ++ previous :: idle → previous.Live →
    (∀ other ∈ idle, ¬other.Live) →
    previous.bytes.length + record.bytes.length < 2 ^ 16 ∧ Rejoins idle record rest

/-- Next to the deleted record, the lengthened one takes the place of both. -/
theorem rejoins_adjacent (record : Record haveTypeField) (rest : List (Record haveTypeField)) :
    Rejoins [] record rest := by
  refine ⟨rest, ?_, rfl⟩
  have nothing : (joined ([] : List (Record haveTypeField)) ++ erasedBytes record true).drop
      record.bytes.length = [] :=
    List.drop_eq_nil_of_le (length_erased_bytes record true).le
  rw [nothing, List.nil_append]

theorem last_split_unique {before before' idle' : List (Record haveTypeField)}
    {previous previous' : Record haveTypeField}
    (same : before ++ previous :: idle = before' ++ previous' :: idle') (live : previous.Live)
    (live' : previous'.Live)
    (unused : ∀ record ∈ idle, ¬record.Live) (unused' : ∀ record ∈ idle', ¬record.Live) :
    before = before' ∧ previous = previous' ∧ idle = idle' := by
  rcases List.append_eq_append_iff.mp same with ⟨between, later, behind⟩ | ⟨between, later, behind⟩
  · cases between with
    | nil =>
        rw [List.append_nil] at later
        injection behind with sameRecord sameIdle
        exact ⟨later.symm, sameRecord, sameIdle⟩
    | cons first between =>
        injection behind with _ sameIdle
        rw [sameIdle] at unused
        exact absurd live' (unused previous' (List.mem_append_right _ List.mem_cons_self))
  · cases between with
    | nil =>
        rw [List.append_nil] at later
        injection behind with sameRecord sameIdle
        exact ⟨later, sameRecord.symm, sameIdle.symm⟩
    | cons first between =>
        injection behind with _ sameIdle
        rw [sameIdle] at unused'
        exact absurd live (unused' previous (List.mem_append_right _ List.mem_cons_self))

/-- Without a live record in front, or right behind one, nothing but the lengths can stand in the
way. Unused records in between take space that the new length does not count. -/
theorem removable_iff {passed : List (Record haveTypeField)} :
    Removable passed record rest ↔ (∀ other ∈ passed, ¬other.Live) ∨
      ∃ before previous idle, passed = before ++ previous :: idle ∧ previous.Live ∧
        (∀ other ∈ idle, ¬other.Live) ∧ previous.bytes.length + record.bytes.length < 2 ^ 16 ∧
          (idle = [] ∨ Rejoins idle record rest) := by
  constructor
  · intro removable
    obtain ⟨place, last⟩ := last_live_exists passed
    cases last with
    | none unused => exact .inl unused
    | @some before previous idle live unused =>
        obtain ⟨fits, rejoins⟩ := removable before previous idle rfl live unused
        exact .inr ⟨before, previous, idle, rfl, live, unused, fits, .inr rejoins⟩
  · rintro (none | ⟨before, previous, idle, rfl, live, unused, fits, behind⟩)
    · rintro before previous idle rfl live _
      exact absurd live (none previous (List.mem_append_right _ List.mem_cons_self))
    · intro before' previous' idle' split live' unused'
      obtain ⟨rfl, rfl, rfl⟩ := last_split_unique split live live' unused unused'
      refine ⟨fits, ?_⟩
      rcases behind with rfl | rejoins
      · exact rejoins_adjacent record rest
      · exact rejoins

section Previous

variable {previous : Record haveTypeField}

theorem length_space (idle : List (Record haveTypeField)) (record : Record haveTypeField) :
    record.bytes.length ≤ (joined idle ++ erasedBytes record true).length := by
  rw [List.length_append, length_erased_bytes]
  exact Nat.le_add_left ..

/-- What the previous record takes up once its header has the sum of the lengths. -/
def lengthenedBody (previous record : Record haveTypeField) (idle : List (Record haveTypeField)) :
    Block :=
  previous.bytes.drop DirectoryEntryRaw.size ++ (joined idle ++ erasedBytes record true).take
    record.bytes.length

theorem length_lengthened_body (previous record : Record haveTypeField)
    (idle : List (Record haveTypeField)) :
    DirectoryEntryRaw.size + (lengthenedBody previous record idle).length =
      previous.bytes.length + record.bytes.length := by
  have size := record_size previous
  rw [lengthenedBody, List.length_append,
    List.length_drop, List.length_take, Nat.min_eq_left (length_space idle record)]
  omega

theorem previous_raw_fitting (fitting : previous.bytes.length + record.bytes.length < 2 ^ 16) :
    previousRaw previous record =
      { previous.raw with entrySize := previous.bytes.length + record.bytes.length } := by
  have whole : previous.raw.entrySize = previous.bytes.length := previous.whole
  unfold previousRaw DirectoryIterator.coalescedRaw
  rw [whole, if_pos fitting]

theorem previous_raw_too_long (long : ¬previous.bytes.length + record.bytes.length < 2 ^ 16) :
    previousRaw previous record = previous.raw := by
  have whole : previous.raw.entrySize = previous.bytes.length := previous.whole
  unfold previousRaw DirectoryIterator.coalescedRaw
  rw [whole, if_neg long]

theorem lengthened_record (idle : List (Record haveTypeField))
    (fitting : previous.bytes.length + record.bytes.length < 2 ^ 16) :
    ∃ lengthened : Record haveTypeField,
      lengthened.bytes = (previousRaw previous record).bytes ++ lengthenedBody previous
        record idle ∧
        lengthened.entry = previous.entry ∧ (previous.Live → lengthened.Live) := by
  have raw := previous_raw_fitting fitting
  have fits : (previousRaw previous record).Fits := by
    rw [raw]
    obtain ⟨inode, -, lenLo, typeOrLenHi⟩ := raw_fits previous
    exact ⟨inode, fitting, lenLo, typeOrLenHi⟩
  have length := length_lengthened_body previous record idle
  have named : previous.nameLen ≤ (previous.bytes.drop DirectoryEntryRaw.size).length := by
    have named : DirectoryEntryRaw.size + previous.nameLen ≤ previous.bytes.length := previous.named
    rw [List.length_drop]
    omega
  have sameName : (previousRaw previous record).nameLen haveTypeField = previous.nameLen := by
    rw [raw]
    rfl
  have whole : (previousRaw previous record).entrySize =
      DirectoryEntryRaw.size + (lengthenedBody previous record idle).length := by
    rw [raw, length]
  have aligned : (previousRaw previous record).entrySize % 4 = 0 := by
    have first := previous.aligned
    have second := record.aligned
    rw [raw]
    change (previous.bytes.length + record.bytes.length) % 4 = 0
    omega
  refine ⟨Record.ofHeader haveTypeField (previousRaw previous record)
    (lengthenedBody previous record idle) fits whole
    aligned ?_, rfl, ?_, ?_⟩
  · rw [sameName, lengthenedBody, List.length_append]
    exact Nat.le_trans named (Nat.le_add_right ..)
  · apply of_header_entry
    · rw [raw]
    · rw [sameName, lengthenedBody, List.take_append_of_le_length named]
      rfl
  · intro live
    rw [of_header_live, raw]
    exact live

theorem deleted_parts (front idle back : List (Record haveTypeField))
    (previous record : Record haveTypeField) :
    DirectoryIterator.deleted haveTypeField (joined (front ++ previous :: idle ++ record :: back))
        (DirectoryIterator.itemOf record (front ++ previous :: idle) (some (joined front).length)) =
      joined front ++ ((previousRaw previous record).bytes ++ lengthenedBody previous record idle ++
        ((joined idle ++ erasedBytes record true).drop record.bytes.length ++ joined back)) := by
  have space : joined idle ++ (erasedBytes record true ++ joined back) =
      (joined idle ++ erasedBytes record true).take record.bytes.length ++
        ((joined idle ++ erasedBytes record true).drop record.bytes.length ++ joined back) := by
    rw [← List.append_assoc, ← List.append_assoc (List.take _ _), List.take_append_drop]
  rw [deleted_some, space]
  unfold lengthenedBody
  simp only [List.append_assoc]

theorem not_tiled_without_length (tiles : List (Record haveTypeField)) (behind : Block) :
    joined tiles ≠ erasedBytes record true ++ behind := by
  intro same
  have eight : DirectoryEntryRaw.size = 8 := rfl
  cases tiles with
  | nil =>
      have length := congrArg List.length same
      have size := record_size record
      rw [List.length_append, length_erased_bytes] at length
      change 0 = _ at length
      omega
  | cons head tail =>
      have size := record_size head
      have header := read_behind [] (joined tail) head
      rw [joined_cons] at same
      rw [List.nil_append, same, erasedBytes, List.append_assoc] at header
      have raw := header.symm.trans (read_raw_bytes (deleted_raw_fits record true) _)
      have whole : head.raw.entrySize = head.bytes.length := head.whole
      rw [raw] at whole
      change 0 = _ at whole
      omega

theorem not_tiled_too_long (long : ¬previous.bytes.length + record.bytes.length < 2 ^ 16)
    (tiles : List (Record haveTypeField)) :
    joined tiles ≠ DirectoryIterator.deleted haveTypeField
      (joined (front ++ previous :: idle ++ record :: back))
      (DirectoryIterator.itemOf record (front ++ previous :: idle)
        (some (joined front).length)) := by
  intro same
  have whole : previous.raw.entrySize = previous.bytes.length := previous.whole
  have named : DirectoryEntryRaw.size + previous.raw.nameLen haveTypeField ≤
      previous.bytes.length := previous.named
  have body : (previous.bytes.drop DirectoryEntryRaw.size).length = previous.bytes.length -
      DirectoryEntryRaw.size :=
    List.length_drop
  obtain ⟨kept, bytes⟩ : ∃ kept : Record haveTypeField,
      kept.bytes = previous.raw.bytes ++ previous.bytes.drop DirectoryEntryRaw.size :=
    ⟨Record.ofHeader haveTypeField previous.raw _ (raw_fits previous) (by omega)
      (by rw [whole]; exact previous.aligned) (by omega), rfl⟩
  rw [deleted_some, previous_raw_too_long long, ← bytes] at same
  obtain ⟨later, -, behind⟩ := joined_prefix same
  obtain ⟨tail, -, space⟩ := joined_head behind
  obtain ⟨last, -, stuck⟩ := joined_prefix space
  exact not_tiled_without_length last _ stuck

end Previous

/-- The block stays tiled and keeps its other live entries if and only if the record is removable.
-/
theorem removed_iff {passed : List (Record haveTypeField)} {previous : Option Nat}
    (last : LastLive passed previous) :
    (∃ tiles : List (Record haveTypeField),
        joined tiles = DirectoryIterator.deleted haveTypeField (joined (passed ++ record :: rest))
          (DirectoryIterator.itemOf record passed previous) ∧
        listing tiles = listing passed ++ listing rest) ↔ Removable passed record rest := by
  cases last with
  | none unused =>
      refine ⟨fun _ => removable_iff.mpr (.inl unused), fun _ =>
        ⟨passed ++ unusedRecord record :: rest, deleted_none.symm, ?_⟩⟩
      rw [listing_append, listing_cons_unused (unused_record_not_live record)]
  | @some before previous idle live unused =>
      have old : listing (before ++ previous :: idle) = listing before ++ [previous.entry] := by
        rw [listing_append, listing_cons_live live, listing_unused unused]
      constructor
      · rintro ⟨tiles, same, list⟩
        have fitting : previous.bytes.length + record.bytes.length < 2 ^ 16 := by
          by_contra long
          exact not_tiled_too_long long tiles same
        obtain ⟨lengthened, bytes, entry, stays⟩ := lengthened_record idle fitting
        rw [deleted_parts, ← bytes] at same
        obtain ⟨later, rfl, following⟩ := joined_prefix same
        obtain ⟨tail, rfl, behind⟩ := joined_head following
        intro before' previous' idle' split live' unused'
        obtain ⟨rfl, rfl, rfl⟩ := last_split_unique split live live' unused unused'
        refine ⟨fitting, tail, behind, ?_⟩
        rw [old, listing_append, listing_cons_live (stays live), entry, List.append_assoc] at list
        exact List.cons_injective (List.append_cancel_left list)
      · intro removable
        obtain ⟨fitting, tail, behind, list⟩ := removable before previous idle rfl live unused
        obtain ⟨lengthened, bytes, entry, stays⟩ := lengthened_record idle fitting
        refine ⟨before ++ lengthened :: tail, ?_, ?_⟩
        · rw [deleted_parts, ← bytes, ← behind, joined_append, joined_cons]
        · rw [old, listing_append, listing_cons_live (stays live), entry, list, List.append_assoc]
          rfl

namespace DirectoryIterator

variable {volume : Ext2Volume} {inode : Inode} {start iterator after : DirectoryIterator}
  {records : List (Record haveTypeField)} {entries : List DirectoryIteratorEntry}
    {entry : DirectoryIteratorEntry}

inductive Walked (start : DirectoryIterator) : List DirectoryIteratorEntry →
    DirectoryIterator → Prop
  | start : Walked start [] start
  | next {entries : List DirectoryIteratorEntry} {iterator after : DirectoryIterator}
      {result : Option DirectoryIteratorEntry} (walked : Walked start entries iterator)
      (returned : next iterator = .ok result after) : Walked start (entries ++ result.toList) after

def IsItem (records : List (Record haveTypeField)) (entry : DirectoryIteratorEntry) : Prop :=
  ∃ front record back previous, records = front ++ record :: back ∧ record.Live ∧
    LastLive front previous ∧
    entry = itemOf record front previous

structure Walking (volume : Ext2Volume) (inode : Inode) (records : List (Record haveTypeField))
    (iterator : DirectoryIterator) : Prop where
  loaded : iterator.Loaded volume inode
  place : ∃ passed rest, records = passed ++ rest ∧ Between iterator passed rest ∧
    LastLive passed iterator.lastEntryOffset

theorem next_walking (on : DirectoryOn volume inode)
    (walking : Walking volume inode records iterator)
    {result : Option DirectoryIteratorEntry} (returned : next iterator = .ok result after) :
    Walking volume inode records after ∧ ∀ entry ∈ result, IsItem records entry := by
  obtain ⟨loaded, passed, rest, rfl, between, last⟩ := walking
  rcases first_live rest with unused | ⟨idle, record, later, rfl, unused, live⟩
  · have shut := between
    rw [← List.append_nil rest] at shut
    have there := loaded_moved loaded (passed ++ rest) iterator.lastEntryOffset
    by_cases whole : iterator.size = (joined (passed ++ rest)).length
    · have done := (next_done between whole unused).symm.trans returned
      cases done
      refine ⟨⟨there, passed ++ rest, [], (List.append_nil _).symm, between_moved shut _,
        last_live_unused last unused⟩, ?_⟩
      intro entry member
      cases member
    · -- the header of the next block is read behind the buffer
      exfalso
      have short := between_short shut
      have rounds : iterator.size + 1 = rest.length + (iterator.size - rest.length + 1) := by omega
      have room := between.room
      have block : joined (passed ++ rest) = firstBlock volume inode :=
        between.holding.buffer.symm.trans loaded.buffer
      have outside : ¬InBlock (iterator.movedTo (passed ++ rest)
          iterator.lastEntryOffset).haveTypeField
          (firstBlock volume inode) (iterator.movedTo (passed ++ rest)
            iterator.lastEntryOffset).idx := by
        change ¬InBlock iterator.haveTypeField (firstBlock volume inode)
          (joined (passed ++ rest)).length
        unfold InBlock
        have eight : DirectoryEntryRaw.size = 8 := rfl
        rw [block]
        omega
      have below : (iterator.movedTo (passed ++ rest) iterator.lastEntryOffset).idx <
          inode.sizeLo := by
        rw [← loaded.size]
        change (joined (passed ++ rest)).length < iterator.size
        omega
      apply next_loop_outside on there below outside (iterator.size - rest.length + 1)
      rw [← next_loop_unused shut unused, ← rounds]
      rw [show nextLoop (iterator.size + 1) iterator = .ok result after from returned]
      exact .ok
  · have called := (next_live between unused live).symm.trans returned
    cases called
    have list : passed ++ (idle ++ record :: later) = passed ++ idle ++ [record] ++ later := by simp
    refine ⟨⟨loaded_moved loaded _ _,
      passed ++ idle ++ [record], later, list, between_behind between _,
      last_live_behind live⟩, ?_⟩
    intro entry member
    cases member
    exact ⟨passed ++ idle, record, later, iterator.lastEntryOffset, by
      simp, live, last_live_unused last unused, rfl⟩

theorem walked_items (on : DirectoryOn volume inode) (whole : inode.sizeLo % volume.blockSize = 0)
    (tiled : 0 < inode.sizeLo → firstBlock volume inode = joined records)
    (starts : start.Starts volume inode)
    (field : start.haveTypeField = haveTypeField) (walked : Walked start entries iterator) :
    (entries = [] ∧ iterator = start ∨ Walking volume inode records iterator) ∧
      ∀ entry ∈ entries, IsItem records entry := by
  induction walked with
  | start => exact ⟨.inl ⟨rfl, rfl⟩, fun entry impossible => absurd impossible List.not_mem_nil⟩
  | @next entries iterator after result walked returned ih =>
      obtain ⟨place, items⟩ := ih
      rcases place with ⟨rfl, rfl⟩ | walking
      · by_cases empty : inode.sizeLo = 0
        · have done : next iterator = .ok none iterator :=
            next_empty (by rw [starts.size, empty]; exact Nat.zero_le _) iterator.size
          cases done.symm.trans returned
          exact ⟨.inl ⟨rfl, rfl⟩, items⟩
        · obtain ⟨loaded, same, isLoaded, idx, sameField, none_⟩ :=
            next_first on whole starts (by omega)
          have block := tiled (by omega)
          have holding := loaded_holding on isLoaded
          rw [block] at holding
          have room : (joined records).length ≤ loaded.size := by
            rw [← block, length_first_block on, isLoaded.size]
            exact Nat.le_of_dvd (by omega) (Nat.dvd_of_mod_eq_zero whole)
          have walking : Walking volume inode records loaded := by
            refine ⟨isLoaded, [], records, rfl, ⟨holding, idx, sameField.trans field, room⟩, ?_⟩
            rw [none_]
            exact .none fun _ member => absurd member List.not_mem_nil
          rw [same] at returned
          obtain ⟨walking, found⟩ := next_walking on walking returned
          refine ⟨.inr walking, ?_⟩
          intro entry member
          rw [List.nil_append] at member
          exact found entry (Option.mem_toList.mp member)
      · obtain ⟨walking, found⟩ := next_walking on walking returned
        refine ⟨.inr walking, ?_⟩
        intro entry member
        rcases List.mem_append.mp member with before | now
        · exact items entry before
        · exact found entry (Option.mem_toList.mp now)

/-- Calls of `next` come to every live record of the block. -/
theorem walks_to {passed : List (Record haveTypeField)}
    (between : Between iterator passed (rest ++ record :: back)) (live : record.Live)
    (last : LastLive passed iterator.lastEntryOffset)
    (steps : ∀ result after, next iterator = .ok result after →
      Walked start (entries ++ result.toList) after) :
    ∃ found after previous, Walked start found after ∧ LastLive (passed ++ rest) previous ∧
      itemOf record (passed ++ rest) previous ∈ found := by
  generalize count : rest.length = length
  induction length using Nat.strongRecOn generalizing passed rest iterator entries with
  | ind length ih =>
      rcases first_live rest with unused | ⟨idle, first, later, rfl, unused, firstLive⟩
      · exact ⟨_, _, _, steps _ _ (next_live between unused live), last_live_unused last unused,
          List.mem_append_right _ (List.mem_singleton_self _)⟩
      · rw [List.append_assoc, List.cons_append] at between
        have called := steps _ _ (next_live between unused firstLive)
        have there := between_behind between (some (joined (passed ++ idle)).length)
        have list : passed ++ (idle ++ first :: later) = passed ++ idle ++ [first] ++
            later := by simp
        rw [List.length_append, List.length_cons] at count
        rw [list]
        exact ih later.length (by omega) there (last_live_behind firstLive)
          (fun _ _ returned => .next called returned)
          rfl

/-- Every live record of the only block is returned. -/
theorem item_walked (on : DirectoryOn volume inode) (whole : inode.sizeLo = volume.blockSize)
    (tiled : firstBlock volume inode = joined (rest ++ record :: back)) (live : record.Live)
    (starts : start.Starts volume inode) (field : start.haveTypeField = haveTypeField) :
    ∃ found after previous, Walked start found after ∧ LastLive rest previous ∧
      itemOf record rest previous ∈ found := by
  have positive := on.mounted.stores.positive
  obtain ⟨loaded, same, isLoaded, idx, sameField, none_⟩ :=
    next_first on (by rw [whole, Nat.mod_self]) starts (by rw [whole]; exact positive)
  have holding := loaded_holding on isLoaded
  rw [tiled] at holding
  have room : (joined (rest ++ record :: back)).length ≤ loaded.size := by
    rw [← tiled, length_first_block on, isLoaded.size, whole]
  have between : Between loaded ([] : List (Record haveTypeField)) (rest ++ record :: back) :=
    ⟨holding, idx, sameField.trans field, room⟩
  have last : LastLive ([] : List (Record haveTypeField)) loaded.lastEntryOffset := by
    rw [none_]
    exact .none fun _ member => absurd member List.not_mem_nil
  apply walks_to between live last
  intro result after returned
  rw [← same] at returned
  exact .next .start returned

end DirectoryIterator

/-- The record before the deleted one lies in the block. -/
theorem last_live_inside {previous : Option Nat} (last : LastLive front previous) (behind : Block) :
    ∀ place, previous = some place →
      place + DirectoryEntryRaw.size ≤ (joined front ++ behind).length := by
  intro place found
  cases last with
  | none unused => cases found
  | @some before previous idle live unused =>
      cases found
      have size := record_size previous
      rw [joined_append, joined_cons]
      simp only [List.length_append]
      omega

variable {volume : Ext2Volume} {inode : Inode} {records : Nat → List (Record haveTypeField)}

def listingOf (volume : Ext2Volume) (inode : Inode) (records : Nat → List (Record haveTypeField)) :
    List DirectoryEntry :=
  (List.range (fileBlocks volume inode)).flatMap fun k => listing (records k)

/-- The call returns, and the blocks are tiled by records with these live entries. -/
def Leaves (haveTypeField : Bool) (inode : Inode) (iterator : DirectoryIterator)
    (entry : DirectoryIteratorEntry)
    (entries : List DirectoryEntry) : Prop :=
  ∃ (after : DirectoryIterator) (left : Nat → List (Record haveTypeField)),
    DirectoryIterator.deleteEntry entry iterator = .ok () after ∧
      WellFormed after.handle.cursor.volume inode left ∧
      listingOf after.handle.cursor.volume inode left = entries

theorem listing_of_succ {count : Nat} (blocks : fileBlocks volume inode = count + 1) :
    listingOf volume inode records =
      listing (records 0) ++ (List.range count).flatMap fun k => listing (records (k + 1)) := by
  rw [listingOf, blocks, List.range_succ_eq_map, List.flatMap_cons, List.flatMap_map]

section Rewritten

variable {after : Ext2Volume} {buffer : Block} (sole : (volumeFile volume inode).Sole)
  (device : after.device = DirectoryIterator.rewritten volume inode buffer)
    (frame : after.frame = volume.frame)

include sole device frame

/-- Tilings of the directory are tilings of the buffer: those of the other blocks stay. -/
theorem tiled_iff (wellFormed : WellFormed volume inode records) {count : Nat}
    (blocks : fileBlocks volume inode = count + 1) (entries : List DirectoryEntry) :
    (∃ left : Nat → List (Record haveTypeField), WellFormed after inode left ∧
        listingOf after inode left =
          entries ++ (List.range count).flatMap fun k => listing (records (k + 1))) ↔
      ∃ tiles : List (Record haveTypeField), joined tiles = buffer ∧ listing tiles = entries := by
  have blocksAfter : fileBlocks after inode = count + 1 := (file_blocks_of_frame frame).trans blocks
  have first := block_of_rewritten sole device frame (show 0 < fileBlocks volume inode by omega)
  rw [if_pos rfl] at first
  constructor
  · rintro ⟨left, tiled, list⟩
    have same : ∀ k < count, left (k + 1) = records (k + 1) := by
      intro k below
      have block := block_of_rewritten sole device frame
        (show k + 1 < fileBlocks volume inode by omega)
      rw [if_neg (Nat.succ_ne_zero k), tiled (k + 1) (by omega), wellFormed (k + 1)
        (by omega)] at block
      exact joined_injective block
    have others : ((List.range count).flatMap fun k => listing (left (k + 1))) =
        (List.range count).flatMap fun k => listing (records (k + 1)) := by
      apply List.flatMap_congr
      intro k member
      rw [same k (List.mem_range.mp member)]
    rw [listing_of_succ blocksAfter, others] at list
    exact ⟨left 0, (tiled 0 (by omega)).symm.trans first, List.append_cancel_right list⟩
  · rintro ⟨tiles, bytes, list⟩
    refine ⟨Function.update records 0 tiles, ?_, ?_⟩
    · intro k inside
      rw [blocksAfter, ← blocks] at inside
      rw [block_of_rewritten sole device frame inside]
      by_cases start : k = 0
      · rw [if_pos start, start, Function.update_self, bytes]
      · rw [if_neg start, Function.update_of_ne start]
        exact wellFormed k inside
    · rw [listing_of_succ blocksAfter, Function.update_self, list]
      congr 1

end Rewritten

theorem leaves_iff {iterator : DirectoryIterator} {previous : Option Nat}
    (on : DirectoryOn volume inode)
    (whole : inode.sizeLo % volume.blockSize = 0) (wellFormed : WellFormed volume inode records)
    (sole : (volumeFile volume inode).Sole) (writable : volume.readOnly = false)
    (walking : DirectoryIterator.Walking volume inode (records 0) iterator)
    (split : records 0 = front ++ record :: back) (last : LastLive front previous) :
    Leaves haveTypeField inode iterator (DirectoryIterator.itemOf record front previous)
        (listingOf volume inode (Function.update records 0 (front ++ back))) ↔
      Removable front record back := by
  obtain ⟨loaded, passed, rest, parts, between, -⟩ := walking
  have positive := on.mounted.stores.positive
  have holding := DirectoryIterator.loaded_holding on loaded
  have block : firstBlock volume inode = joined (front ++ record :: back) := by
    rw [← split, parts]
    exact loaded.buffer.symm.trans between.holding.buffer
  have length : (joined (front ++ record :: back)).length = volume.blockSize := by
    rw [← block, DirectoryIterator.length_first_block on]
  have nonempty : 0 < inode.sizeLo := by
    have room := between.room
    rw [← parts, split, length, loaded.size] at room
    omega
  obtain ⟨count, blocks⟩ : ∃ count, fileBlocks volume inode = count + 1 := by
    have size := size_eq_blocks on whole
    cases blocks : fileBlocks volume inode with
    | zero =>
        rw [blocks, Nat.zero_mul] at size
        omega
    | succ count => exact ⟨count, rfl⟩
  have bytes : joined (front ++ record :: back) = joined front ++
      (record.bytes ++ joined back) := by
    rw [joined_append, joined_cons]
  rw [block] at holding
  have inBlock : InBlock iterator.haveTypeField (joined (front ++ record :: back))
      (DirectoryIterator.itemOf record front previous).offset := by
    rw [between.field, bytes]
    exact in_block_behind ..
  have before := last_live_inside last (record.bytes ++ joined back)
  rw [← bytes] at before
  obtain ⟨idx, deletes⟩ := DirectoryIterator.delete_entry_eq holding inBlock before
  have length' := DirectoryIterator.length_deleted inBlock before
  rw [length] at length'
  have poised := @DirectoryIterator.poised_with_buffer volume inode iterator _ idx
    (DirectoryIterator.poised_of_loaded on loaded) length'
  obtain ⟨after, done, device, frame⟩ :=
    DirectoryIterator.delete_done_spec on whole nonempty sole poised writable
      (DirectoryIterator.itemOf record front previous)
  rw [← deletes] at done
  dsimp only at device
  rw [between.field] at device
  have list : listingOf volume inode (Function.update records 0 (front ++ back)) =
      listing front ++ listing back ++ (List.range count).flatMap fun k =>
        listing (records (k + 1)) := by
    rw [listing_of_succ blocks, Function.update_self, listing_append]
    congr 1
  rw [list, ← removed_iff last, ← tiled_iff sole device frame wellFormed blocks]
  constructor
  · rintro ⟨other, left, returned, tiled, entries⟩
    have same := done.symm.trans returned
    cases same
    exact ⟨left, tiled, entries⟩
  · rintro ⟨left, tiled, entries⟩
    exact ⟨after, left, done, tiled, entries⟩

/-- An entry that `next` has returned is deleted alone, and the blocks stay tiled, if and only
if its record is removable. -/
theorem deletes_iff (volume : Ext2Volume) (inode : Inode)
    (records : Nat → List (Record haveTypeField))
    (on : DirectoryOn volume inode) (whole : inode.sizeLo % volume.blockSize = 0)
    (wellFormed : WellFormed volume inode records) (sole : (volumeFile volume inode).Sole)
    (writable : volume.readOnly = false) (openMode : Nat) (heap : Buffers)
    (sized : heap.Sized volume.blockSize)
    (start iterator : DirectoryIterator) (entries : List DirectoryIteratorEntry)
    (entry : DirectoryIteratorEntry)
    (made : DirectoryIterator.new volume haveTypeField inode openMode heap = .ok start)
    (walked : DirectoryIterator.Walked start entries iterator) (yielded : entry ∈ entries) :
    ∃ front record back, records 0 = front ++ record :: back ∧ record.Live ∧
      entry.entry = record.entry ∧
      entry.offset = (joined front).length ∧
      (Leaves haveTypeField inode iterator entry
          (listingOf volume inode (Function.update records 0 (front ++ back))) ↔
        Removable front record back) := by
  obtain ⟨fresh, sameMade, starts, field⟩ :=
    DirectoryIterator.new_starts haveTypeField openMode on whole sized
  obtain rfl : fresh = start := by
    rw [made] at sameMade
    injection sameMade with same
    exact same.symm
  have size := size_eq_blocks on whole
  have positive := on.mounted.stores.positive
  have tiled : 0 < inode.sizeLo → firstBlock volume inode = joined (records 0) := by
    intro nonempty
    apply wellFormed 0
    by_contra empty
    rw [Nat.eq_zero_of_not_pos empty, Nat.zero_mul] at size
    omega
  obtain ⟨place, items⟩ := DirectoryIterator.walked_items on whole tiled starts field walked
  obtain ⟨front, record, back, previous, split, live, last, rfl⟩ := items entry yielded
  have walking : DirectoryIterator.Walking volume inode (records 0) iterator := by
    rcases place with ⟨rfl, -⟩ | walking
    · exact absurd yielded List.not_mem_nil
    · exact walking
  refine ⟨front, record, back, split, live, rfl, rfl, ?_⟩
  exact leaves_iff on whole wellFormed sole writable walking split last

theorem short_record_live {inode : UInt8} (nonzero : inode ≠ 0) : (shortRecord inode).Live := by
  intro zero
  have value : (shortRecord inode).raw.inode = inode.toNat := by
    simp [shortRecord, Record.raw, DirectoryEntryRaw.read, readLe]
  rw [value] at zero
  exact nonzero (UInt8.toNat_inj.mp zero)

theorem uniform_walk {tiles front back : List (Record true)} {record : Record true}
    (length : (joined tiles).length = 1024) (split : tiles = front ++ record :: back)
    (live : record.Live) :
    ∃ start entries iterator previous,
      DirectoryIterator.new (uniformVolume (joined tiles)) true (uniformDirectory 1024) 0
        (blankBuffers (uniformVolume (joined tiles))) = .ok start ∧
      start.Starts (uniformVolume (joined tiles)) (uniformDirectory 1024) ∧
        start.haveTypeField = true ∧
      DirectoryIterator.Walked start entries iterator ∧ LastLive front previous ∧
      DirectoryIterator.itemOf record front previous ∈ entries := by
  obtain ⟨on, -⟩ := uniform_tiled length
  obtain ⟨start, made, starts, field⟩ := DirectoryIterator.new_starts true 0 on
    (show 1024 % 1024 = 0 by decide) (blank_buffers_sized _)
  have first : firstBlock (uniformVolume (joined tiles))
      (uniformDirectory 1024) = joined (front ++ record :: back) := by
    rw [← split]
    rfl
  obtain ⟨entries, iterator, previous, walked, last, member⟩ :=
    DirectoryIterator.item_walked on rfl first live starts field
  exact ⟨start, entries, iterator, previous, made, starts, field, walked, last, member⟩

theorem gap_not_removable : ¬Removable [shortRecord 12, shortRecord 0] (shortRecord 13)
    [lastRecord] := by
  intro removable
  have unused : ∀ other ∈ [shortRecord 0], ¬other.Live := by
    intro other member
    rw [List.mem_singleton.mp member]
    decide +kernel
  obtain ⟨-, tail, behind, -⟩ :=
    removable [] (shortRecord 12) [shortRecord 0] rfl (short_record_live (by decide)) unused
  have space : (joined [shortRecord 0] ++ erasedBytes (shortRecord 13) true).drop
      (shortRecord 13).bytes.length =
      erasedBytes (shortRecord 13) true := rfl
  rw [space] at behind
  exact not_tiled_without_length tail _ behind

/-- Deleting the second entry leaves a header without a length behind the unused record. -/
theorem gap_loses_entries :
    DirectoryOn (uniformVolume (joined gapRecords)) (uniformDirectory 1024) ∧
      WellFormed (uniformVolume (joined gapRecords)) (uniformDirectory 1024) (fun _ => gapRecords) ∧
      ∃ start entries iterator entry,
        DirectoryIterator.new (uniformVolume (joined gapRecords)) true (uniformDirectory 1024) 0
          (blankBuffers (uniformVolume (joined gapRecords))) = .ok start ∧
        DirectoryIterator.Walked start entries iterator ∧ entry ∈ entries ∧
        entry.entry = (shortRecord 13).entry ∧
        ¬Leaves true (uniformDirectory 1024) iterator entry
          (listingOf (uniformVolume (joined gapRecords)) (uniformDirectory 1024)
            (Function.update (fun _ => gapRecords)
              0 [shortRecord 12, shortRecord 0, lastRecord])) := by
  obtain ⟨on, tiled⟩ := uniform_tiled length_gap_records
  have split : gapRecords = [shortRecord 12, shortRecord 0] ++ shortRecord 13 :: [lastRecord] := rfl
  have live : (shortRecord 13).Live := short_record_live (by decide)
  obtain ⟨start, entries, iterator, previous, made, starts, field, walked, last, member⟩ :=
    uniform_walk length_gap_records split live
  refine ⟨on, tiled, start, entries, iterator, _, made, walked, member, rfl, ?_⟩
  have walking : DirectoryIterator.Walking (uniformVolume (joined gapRecords))
      (uniformDirectory 1024) gapRecords
      iterator := by
    obtain ⟨⟨rfl, -⟩ | walking, -⟩ :=
      DirectoryIterator.walked_items on (by rfl) (fun _ => rfl) starts field walked
    · exact absurd member List.not_mem_nil
    · exact walking
  intro leaves
  exact gap_not_removable ((leaves_iff on (by rfl) tiled (uniform_sole _) rfl walking split last).mp
    leaves)

def longRecord : Record true where
  bytes := [13, 0, 0, 0, 244, 3, 1, 1, 98] ++ List.replicate 1003 0
  whole := by decide +kernel
  aligned := by decide +kernel
  named := by decide +kernel

theorem length_close_records : (joined [shortRecord 12, longRecord]).length = 1024 := by
    decide +kernel

/-- Without a gap the second entry can be deleted. -/
theorem close_entry_deleted :
    ∃ start entries iterator entry,
      DirectoryIterator.new (uniformVolume (joined [shortRecord 12, longRecord]))
        true (uniformDirectory 1024) 0
        (blankBuffers (uniformVolume (joined [shortRecord 12, longRecord]))) = .ok start ∧
      DirectoryIterator.Walked start entries iterator ∧ entry ∈ entries ∧
        entry.entry = longRecord.entry ∧
      Leaves true (uniformDirectory 1024) iterator entry
        (listingOf (uniformVolume (joined [shortRecord 12, longRecord])) (uniformDirectory 1024)
          (Function.update (fun _ => [shortRecord 12, longRecord]) 0 [shortRecord 12])) := by
  obtain ⟨on, tiled⟩ := uniform_tiled length_close_records
  have live : longRecord.Live := by decide +kernel
  obtain ⟨start, entries, iterator, previous, made, -, -, walked, last, member⟩ :=
    uniform_walk length_close_records
      (show [shortRecord 12, longRecord] = [shortRecord 12] ++ longRecord :: [] from rfl)
      live
  refine ⟨start, entries, iterator, _, made, walked, member, rfl, ?_⟩
  obtain ⟨front, record, back, split, -, -, offset, leaves⟩ :=
    deletes_iff _ _ _ on (by rfl) tiled (uniform_sole _) rfl 0
    _ (blank_buffers_sized _) start iterator entries _ made walked member
  have place : (joined front).length = 12 := offset.symm
  obtain ⟨rfl, rfl, rfl⟩ : front = [shortRecord 12] ∧ record = longRecord ∧ back = [] := by
    cases front with
    | nil => exact absurd place (by decide)
    | cons first front =>
        injection split with sameFirst rest
        cases front with
        | nil =>
            injection rest with sameRecord sameBack
            exact ⟨by rw [sameFirst], sameRecord.symm, sameBack.symm⟩
        | cons second front =>
            injection rest with _ nothing
            exact absurd nothing.symm (by simp)
  have nothing : ∀ other ∈ ([] : List (Record true)), ¬other.Live :=
    fun _ member => absurd member List.not_mem_nil
  exact leaves.mpr (removable_iff.mpr (.inr ⟨[], shortRecord 12, [], rfl,
    short_record_live (by decide), nothing, by decide +kernel, .inl rfl⟩))

end Campix.Ext2
