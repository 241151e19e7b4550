import Campix.Ext2.DirectoryEnds

/-!
# Inserting an entry

A live record needs its header and its name, rounded up to four bytes. `insert_entry`
passes the live records that have no room for the new one behind that, shortens the first
that has, and writes the new record into the rest of it.
-/

namespace Campix.Ext2

open Lib.Fallible Lib.Slice Lib.Word

set_option autoImplicit false

variable {haveTypeField : Bool} {record shortened fresh : Record haveTypeField}
  {front back : List (Record haveTypeField)} {inodeI : Nat} {name : List UInt8}
    {entryType : DirectoryEntryType}

theorem le_round_up (length : Nat) : length ≤ DirectoryIterator.roundUp length := by
  unfold DirectoryIterator.roundUp
  omega

/-- What the record takes up without the space behind its name. -/
def Record.intrinsicSize (record : Record haveTypeField) : Nat :=
  DirectoryEntryRaw.size + DirectoryIterator.roundUp record.nameLen

def Record.slack (record : Record haveTypeField) : Nat :=
  record.bytes.length - record.intrinsicSize

theorem intrinsic_size_le (record : Record haveTypeField) :
    record.intrinsicSize ≤ record.bytes.length := by
  have named : DirectoryEntryRaw.size + record.nameLen ≤ record.bytes.length := record.named
  have aligned := record.aligned
  have eight : DirectoryEntryRaw.size = 8 := rfl
  unfold Record.intrinsicSize DirectoryIterator.roundUp
  omega

theorem intrinsic_add_slack (record : Record haveTypeField) :
    record.intrinsicSize + record.slack = record.bytes.length :=
  Nat.add_sub_cancel' (intrinsic_size_le record)

theorem record_length_lt (record : Record haveTypeField) : record.bytes.length < 2 ^ 16 := by
  rw [← record.whole]
  exact (raw_fits record).entrySize

def neededSpace (length : Nat) : Nat :=
  DirectoryIterator.roundUp length + DirectoryEntryRaw.size

def Record.Roomy (record : Record haveTypeField) (needed : Nat) : Prop :=
  record.Live ∧ needed ≤ record.slack

def Record.shortenedRaw (record : Record haveTypeField) : DirectoryEntryRaw :=
  { record.raw with entrySize := record.intrinsicSize }

def Record.shortenedBody (record : Record haveTypeField) : Block :=
  (record.bytes.take record.intrinsicSize).drop DirectoryEntryRaw.size

/-- The header of the new record, which gets all of the space. -/
def insertedRaw (haveTypeField : Bool) (inodeI : Nat) (name : List UInt8)
    (entryType : DirectoryEntryType)
    (entrySize : Nat) : DirectoryEntryRaw where
  inode := inodeI
  entrySize := entrySize
  lenLo := name.length
  typeOrLenHi := DirectoryIterator.typeField haveTypeField entryType

theorem inserted_name_len (entrySize : Nat) :
    (insertedRaw haveTypeField inodeI name entryType entrySize).nameLen haveTypeField =
      name.length := by
  cases haveTypeField with
  | false => exact Nat.zero_add _
  | true => rfl

theorem inserted_raw_fits {entrySize : Nat} (number : inodeI < 2 ^ 32) (short : name.length ≤ 255)
    (fits : entrySize < 2 ^ 16) : (insertedRaw
      haveTypeField inodeI name entryType entrySize).Fits := by
  refine ⟨number, fits, Nat.lt_succ_of_le short, ?_⟩
  have small : entryType.toRaw < 2 ^ 8 := by cases entryType <;> decide
  cases haveTypeField with
  | false => exact Nat.two_pow_pos 8
  | true => exact small

/-- What lies behind the header of the new record: its name and what was there behind it. -/
def Record.insertedBody (record : Record haveTypeField) (name : List UInt8) : Block :=
  name ++ record.bytes.drop (record.intrinsicSize + DirectoryEntryRaw.size + name.length)

theorem shortened_record (record : Record haveTypeField) :
    ∃ shortened : Record haveTypeField,
      shortened.bytes = record.shortenedRaw.bytes ++ record.shortenedBody ∧
        shortened.raw = record.shortenedRaw ∧ shortened.entry = record.entry := by
  have named : record.nameLen ≤ DirectoryIterator.roundUp record.nameLen := le_round_up _
  have inside := intrinsic_size_le record
  have few := record_length_lt record
  have length : record.shortenedBody.length = DirectoryIterator.roundUp record.nameLen := by
    rw [Record.shortenedBody, List.length_drop,
      List.length_take, Nat.min_eq_left inside, Record.intrinsicSize,
      Nat.add_sub_cancel_left]
  have fits : record.shortenedRaw.Fits := by
    obtain ⟨inode, -, lenLo, typeOrLenHi⟩ := raw_fits record
    exact ⟨inode, Nat.lt_of_le_of_lt inside few, lenLo, typeOrLenHi⟩
  have whole : record.shortenedRaw.entrySize = DirectoryEntryRaw.size +
      record.shortenedBody.length := by
    rw [length]
    rfl
  have aligned : record.shortenedRaw.entrySize % 4 = 0 := by
    have eight : DirectoryEntryRaw.size = 8 := rfl
    change (DirectoryEntryRaw.size + DirectoryIterator.roundUp record.nameLen) % 4 = 0
    unfold DirectoryIterator.roundUp
    omega
  have sameName : record.shortenedRaw.nameLen haveTypeField = record.nameLen := rfl
  have kept : record.shortenedBody.take record.nameLen = record.name := by
    rw [Record.shortenedBody, List.drop_take,
      List.take_take, Record.intrinsicSize, Nat.add_sub_cancel_left,
      Nat.min_eq_left named]
    rfl
  refine ⟨Record.ofHeader haveTypeField record.shortenedRaw record.shortenedBody fits whole aligned
    ?_, rfl,
    of_header_raw .., of_header_entry _ _ _ _ rfl ?_⟩
  · rw [sameName, length]
    exact named
  · rw [sameName]
    exact kept

theorem inserted_record (record : Record haveTypeField) (number : inodeI < 2 ^ 32)
    (short : name.length ≤ 255)
    (entryType : DirectoryEntryType) (room : neededSpace name.length ≤ record.slack) :
    ∃ fresh : Record haveTypeField,
      fresh.bytes = (insertedRaw haveTypeField inodeI name entryType record.slack).bytes ++
        record.insertedBody name ∧
        fresh.raw = insertedRaw haveTypeField inodeI name entryType record.slack ∧
          fresh.name = name := by
  have sum := intrinsic_add_slack record
  have few := record_length_lt record
  have padded : name.length ≤ DirectoryIterator.roundUp name.length := le_round_up _
  have eight : DirectoryEntryRaw.size = 8 := rfl
  unfold neededSpace at room
  have length : DirectoryEntryRaw.size + (record.insertedBody name).length = record.slack := by
    rw [Record.insertedBody, List.length_append, List.length_drop]
    omega
  have whole : (insertedRaw haveTypeField inodeI name entryType record.slack).entrySize =
      DirectoryEntryRaw.size + (record.insertedBody name).length := length.symm
  have aligned : (insertedRaw haveTypeField inodeI name entryType record.slack).entrySize % 4 =
      0 := by
    have aligned := record.aligned
    unfold Record.intrinsicSize DirectoryIterator.roundUp at sum
    change record.slack % 4 = 0
    omega
  have sameName := @inserted_name_len haveTypeField inodeI name entryType record.slack
  refine ⟨Record.ofHeader haveTypeField
    (insertedRaw haveTypeField inodeI name entryType record.slack)
    (record.insertedBody name) (inserted_raw_fits number short (by omega)) whole aligned ?_, rfl,
    of_header_raw .., ?_⟩
  · rw [sameName, Record.insertedBody, List.length_append]
    exact Nat.le_add_right ..
  · rw [of_header_name, sameName, Record.insertedBody]
    exact List.take_left' rfl

/-- The two headers and the name are written into the record. -/
theorem split_bytes (first second : DirectoryEntryRaw) (front back : Block)
    (room : neededSpace name.length ≤ record.slack) :
    splice (splice (splice (front ++ (record.bytes ++ back)) front.length first.bytes)
        (front.length + record.intrinsicSize + DirectoryEntryRaw.size) name)
      (front.length + record.intrinsicSize) second.bytes =
        front ++ (first.bytes ++ record.shortenedBody ++
          (second.bytes ++ record.insertedBody name ++ back)) := by
  have sum := intrinsic_add_slack record
  have padded : name.length ≤ DirectoryIterator.roundUp name.length := le_round_up _
  have eight : DirectoryEntryRaw.size = 8 := rfl
  have header : DirectoryEntryRaw.size ≤ record.intrinsicSize := Nat.le_add_right ..
  unfold neededSpace at room
  -- header and name of the old record, header and name of the new one, and the rest
  have old : record.bytes.take record.intrinsicSize = record.bytes.take DirectoryEntryRaw.size ++
      record.shortenedBody := by
    have takes : (record.bytes.take record.intrinsicSize).take DirectoryEntryRaw.size =
        record.bytes.take DirectoryEntryRaw.size := by
      rw [List.take_take, Nat.min_eq_left header]
    rw [Record.shortenedBody, ← takes, List.take_append_drop]
  obtain ⟨space, isSpace⟩ : ∃ space, space = record.bytes.drop record.intrinsicSize := ⟨_, rfl⟩
  have rest : space = space.take DirectoryEntryRaw.size ++
      ((space.drop DirectoryEntryRaw.size).take name.length ++
      record.bytes.drop (record.intrinsicSize + DirectoryEntryRaw.size + name.length)) := by
    rw [← List.drop_drop, ← List.drop_drop, ← isSpace, List.take_append_drop, List.take_append_drop]
  have parts : record.bytes = record.bytes.take DirectoryEntryRaw.size ++ (record.shortenedBody ++
      (space.take DirectoryEntryRaw.size ++ ((space.drop DirectoryEntryRaw.size).take name.length ++
        record.bytes.drop (record.intrinsicSize + DirectoryEntryRaw.size + name.length)))) := by
    rw [← rest, ← List.append_assoc, ← old, isSpace, List.take_append_drop]
  have spaceLength : space.length = record.slack := by
    rw [isSpace, List.length_drop]
    rfl
  have oldHeader : (record.bytes.take DirectoryEntryRaw.size).length = DirectoryEntryRaw.size := by
    rw [List.length_take]
    omega
  have newHeader : (space.take DirectoryEntryRaw.size).length = DirectoryEntryRaw.size := by
    rw [List.length_take]
    omega
  have newName : ((space.drop DirectoryEntryRaw.size).take name.length).length = name.length := by
    rw [List.length_take, List.length_drop]
    omega
  have shortLength : DirectoryEntryRaw.size + record.shortenedBody.length =
      record.intrinsicSize := by
    rw [Record.shortenedBody, List.length_drop,
      List.length_take, Nat.min_eq_left (intrinsic_size_le record)]
    omega
  rw [Record.insertedBody]
  generalize record.bytes.drop (record.intrinsicSize + DirectoryEntryRaw.size + name.length) =
    behind at parts
  generalize record.shortenedBody = padding at parts shortLength
  generalize space.take DirectoryEntryRaw.size = spaceHeader at parts newHeader
  generalize (space.drop DirectoryEntryRaw.size).take name.length = spaceName at parts newName
  generalize record.bytes.take DirectoryEntryRaw.size = oldBytes at parts oldHeader
  have firstWritten : splice (front ++ (record.bytes ++ back)) front.length first.bytes =
      front ++ first.bytes ++ padding ++ spaceHeader ++ spaceName ++ (behind ++ back) := by
    have block : front ++ (record.bytes ++ back) =
        front ++ oldBytes ++ (padding ++ spaceHeader ++ spaceName ++ (behind ++ back)) := by
      rw [parts]
      simp only [List.append_assoc]
    rw [block, splice_between (by rw [oldHeader, length_raw_bytes]) rfl]
    simp only [List.append_assoc]
  have place : (front ++ first.bytes ++ padding).length = front.length + record.intrinsicSize := by
    rw [List.length_append, List.length_append, length_raw_bytes, Nat.add_assoc, shortLength]
  rw [firstWritten, splice_between newName (by rw [List.length_append, place, newHeader]),
    List.append_assoc (_ ++ spaceHeader),
      splice_between (by rw [newHeader, length_raw_bytes]) place]
  simp only [List.append_assoc]

structure SplitInto (record : Record haveTypeField) (inodeI : Nat) (name : List UInt8)
    (entryType : DirectoryEntryType) (shortened fresh : Record haveTypeField) : Prop where
  keptBytes : shortened.bytes = record.shortenedRaw.bytes ++ record.shortenedBody
  keptRaw : shortened.raw = record.shortenedRaw
  keptEntry : shortened.entry = record.entry
  newBytes : fresh.bytes =
    (insertedRaw haveTypeField inodeI name entryType record.slack).bytes ++ record.insertedBody name
  newRaw : fresh.raw = insertedRaw haveTypeField inodeI name entryType record.slack
  newName : fresh.name = name

theorem splits_into (record : Record haveTypeField) (number : inodeI < 2 ^ 32)
    (short : name.length ≤ 255)
    (entryType : DirectoryEntryType) (room : neededSpace name.length ≤ record.slack) :
    ∃ shortened fresh, SplitInto record inodeI name entryType shortened fresh := by
  obtain ⟨shortened, bytes, kept, entry⟩ := shortened_record record
  obtain ⟨fresh, inserted, raw, named⟩ := inserted_record record number short entryType room
  exact ⟨shortened, fresh, bytes, kept, entry, inserted, raw, named⟩

theorem fresh_length (into : SplitInto record inodeI name entryType shortened fresh) :
    fresh.bytes.length = record.slack := by
  rw [← fresh.whole]
  exact congrArg DirectoryEntryRaw.entrySize into.newRaw

theorem shortened_length (into : SplitInto record inodeI name entryType shortened fresh) :
    shortened.bytes.length = record.intrinsicSize := by
  rw [← shortened.whole]
  exact congrArg DirectoryEntryRaw.entrySize into.keptRaw

namespace DirectoryIterator

variable {volume : Ext2Volume} {inode : Inode} {iterator : DirectoryIterator}

theorem split_record_eq (holding : iterator.Holding (joined (front ++ record :: back)))
    (field : iterator.haveTypeField = haveTypeField)
    (into : SplitInto record inodeI name entryType shortened fresh)
    (room : neededSpace name.length ≤ record.slack) (previous : Option Nat) :
    splitRecord inodeI name entryType (itemOf record front previous)
      record.intrinsicSize record.slack iterator =
      (writeBuffer >>= fun _ => nextOrUnknown) { iterator with
        buffer := joined (front ++ shortened :: fresh :: back)
        idx := (joined (front ++ [shortened])).length } := by
  have sum := intrinsic_add_slack record
  have few := record_length_lt record
  have padded : name.length ≤ roundUp name.length := le_round_up _
  have eight : DirectoryEntryRaw.size = 8 := rfl
  have small := holding.small
  have total := length_joined_succ front back record
  have bytes : joined (front ++ record :: back) = joined front ++
      (record.bytes ++ joined back) := by
    rw [joined_append, joined_cons]
  have needed := room
  unfold neededSpace at needed
  obtain ⟨moved, isMoved⟩ : ∃ moved : DirectoryIterator,
      moved = { iterator with idx := (joined front).length } := ⟨_, rfl⟩
  have idx : moved.idx = (joined front).length := by rw [isMoved]
  have buffer : moved.buffer = joined (front ++ record :: back) := by rw [isMoved, ← holding.buffer]
  have stays : readBuffer moved = .ok (joined front).length moved := by
    rw [← idx]
    apply read_buffer_stays
    · have blockSize : moved.blockSize = iterator.blockSize := by rw [isMoved]; rfl
      rw [idx, blockSize, ← holding.length]
      omega
    · rw [isMoved]
      exact holding.bufferIdx
  have header : readHeader (joined front).length moved = .ok record.raw moved := by
    rw [read_header_eq (by rw [buffer]; omega), buffer, read_record]
  have narrow : record.intrinsicSize % 2 ^ 16 = record.intrinsicSize := Nat.mod_eq_of_lt (by omega)
  have narrowSlack : record.slack % 2 ^ 16 = record.slack := Nat.mod_eq_of_lt (by omega)
  obtain ⟨place, isPlace⟩ : ∃ place, place = (joined front).length + record.intrinsicSize :=
    ⟨_, rfl⟩
  have wraps : add64 (joined front).length record.intrinsicSize = place := by
    rw [isPlace, add64, Nat.mod_eq_of_lt (by omega)]
  obtain ⟨first, isFirst⟩ : ∃ first, first =
      splice (joined (front ++ record :: back)) (joined front).length record.shortenedRaw.bytes :=
        ⟨_, rfl⟩
  have firstLength : first.length = (joined (front ++ record :: back)).length := by
    rw [isFirst, length_splice]
    rw [length_raw_bytes]
    omega
  obtain ⟨second, isSecond⟩ : ∃ second, second =
      splice first (place + DirectoryEntryRaw.size) name := ⟨_, rfl⟩
  have secondLength : second.length = (joined (front ++ record :: back)).length := by
    rw [isSecond, length_splice, firstLength]
    rw [firstLength]
    omega
  have block : splice second place
      (insertedRaw haveTypeField inodeI name entryType record.slack).bytes =
        joined (front ++ shortened :: fresh :: back) := by
    rw [isSecond, isFirst, isPlace, bytes, split_bytes _ _ _ _ room, joined_append, joined_cons,
      joined_cons,
      into.keptBytes, into.newBytes]
  have behind : place = (joined (front ++ [shortened])).length := by
    have one : joined [shortened] = shortened.bytes := List.append_nil _
    rw [joined_append, one, List.length_append, shortened_length into, isPlace]
  rw [← behind]
  change (readBuffer >>= _ : OnIterator DirectoryIteratorEntry)
    { iterator with idx := (joined front).length } = _
  rw [← isMoved, state_bind_ok stays, state_bind_ok header, narrow]
  have writes : writeHeader (joined front).length record.shortenedRaw moved = .ok ()
      { moved with buffer := first } := by
    rw [write_header_eq _ (by rw [buffer]; omega), buffer, isFirst]
  change (writeHeader (joined front).length record.shortenedRaw >>= _ :
    OnIterator DirectoryIteratorEntry) moved = _
  rw [state_bind_ok writes]
  change (readHeader ((joined front).length + record.intrinsicSize) >>= _ : OnIterator
    DirectoryIteratorEntry)
    { moved with buffer := first, idx := add64 moved.idx record.intrinsicSize } = _
  rw [idx, wraps, ← isPlace, state_bind_ok
    (read_header_eq (show place + _ ≤ first.length by omega))]
  rw [state_bind_ok (put_name_eq (show place +
    DirectoryEntryRaw.size + name.length ≤ first.length by omega)),
    ← isSecond]
  change (writeHeader place (insertedRaw
    moved.haveTypeField inodeI name entryType (record.slack % 2 ^ 16)) >>= _ :
    OnIterator DirectoryIteratorEntry) { moved with buffer := second, idx := place } = _
  have sameRaw : insertedRaw moved.haveTypeField inodeI name entryType (record.slack % 2 ^ 16) =
      insertedRaw haveTypeField inodeI name entryType record.slack := by
    have sameField : moved.haveTypeField = haveTypeField := by rw [isMoved]; exact field
    rw [sameField, narrowSlack]
  rw [sameRaw, state_bind_ok (write_header_eq _ (show place + _ ≤ second.length by omega)), block,
    isMoved]

theorem insert_loop_record {after : DirectoryIterator} {previous : Option Nat} {needed : Nat}
    (live : record.Live)
    (called : next iterator = .ok (some (itemOf record front previous)) after) (rounds : Nat) :
    insertLoop inodeI name entryType needed (rounds + 1) iterator =
      if record.slack ≥ needed then
        splitRecord inodeI name entryType (itemOf record front previous)
          record.intrinsicSize record.slack after
      else
        insertLoop inodeI name entryType needed rounds after := by
  have nameLength : record.entry.name.length = record.nameLen := by
    have named : DirectoryEntryRaw.size + record.nameLen ≤ record.bytes.length := record.named
    change (record.name.map _).length = _
    rw [List.length_map, Record.name, List.length_take, List.length_drop]
    omega
  have free : sub64 record.bytes.length record.intrinsicSize = record.slack :=
    if_pos (intrinsic_size_le record)
  change (next >>= _ : OnIterator DirectoryIteratorEntry) iterator = _
  rw [state_bind_ok called]
  change (if record.raw.inode = 0 ∧ record.bytes.length ≥ needed then _ else
    if sub64 record.bytes.length (DirectoryEntryRaw.size + roundUp record.entry.name.length) ≥
      needed then
      splitRecord inodeI name entryType (itemOf record front previous)
        (DirectoryEntryRaw.size + roundUp record.entry.name.length)
        (sub64 record.bytes.length (DirectoryEntryRaw.size + roundUp record.entry.name.length))
    else insertLoop inodeI name entryType needed rounds : OnIterator DirectoryIteratorEntry)
      after = _
  rw [if_neg fun unused => live unused.1, nameLength]
  change (if sub64 record.bytes.length record.intrinsicSize ≥ needed then
    splitRecord inodeI name entryType (itemOf record front previous) record.intrinsicSize
      (sub64 record.bytes.length record.intrinsicSize)
    else insertLoop inodeI name entryType needed rounds : OnIterator DirectoryIteratorEntry)
      after = _
  rw [free]
  split_ifs <;> rfl

theorem insert_loop_to {passed : List (Record haveTypeField)} {needed : Nat} (rounds : Nat)
    (between : Between iterator passed (front ++ record :: back))
    (tight : ∀ other ∈ front, ¬other.Roomy needed)
    (roomy : record.Roomy needed) (enough : front.length < rounds) :
    ∃ previous, insertLoop inodeI name entryType needed rounds iterator =
      splitRecord inodeI name entryType (itemOf record (passed ++ front) previous)
        record.intrinsicSize record.slack
        (iterator.movedTo (passed ++ front ++ [record])
          (some (joined (passed ++ front)).length)) := by
  induction rounds generalizing iterator passed front with
  | zero => omega
  | succ rounds ih =>
      rcases first_live front with unused | ⟨idle, first, later, rfl, unused, live⟩
      · refine ⟨iterator.lastEntryOffset, ?_⟩
        rw [insert_loop_record roomy.1 (next_live between unused roomy.1), if_pos roomy.2]
      · have small : ¬first.slack ≥ needed :=
          fun large => tight first (List.mem_append_right _ List.mem_cons_self) ⟨live, large⟩
        rw [List.append_assoc, List.cons_append] at between
        have there := between_behind between (some (joined (passed ++ idle)).length)
        rw [List.length_append, List.length_cons] at enough
        obtain ⟨previous, reached⟩ := ih there
          (fun other member => tight other
            (List.mem_append_right _ (List.mem_cons_of_mem _ member))) (by omega)
        have list : passed ++ idle ++ [first] ++ later = passed ++
            (idle ++ first :: later) := by simp
        rw [list] at reached
        refine ⟨previous, ?_⟩
        rw [insert_loop_record live (next_live between unused live), if_neg small]
        exact reached

/-- The iterator stands at the record that was split off, and returns it. -/
theorem inserted_next (holding : iterator.Holding (joined (front ++ shortened :: fresh :: back)))
    (idx : iterator.idx = (joined (front ++ [shortened])).length)
    (field : iterator.haveTypeField = haveTypeField)
    (room : (joined (front ++ shortened :: fresh :: back)).length ≤ iterator.size)
    (live : fresh.Live) :
    ∃ after, nextOrUnknown iterator = .ok
      (itemOf fresh (front ++ [shortened]) iterator.lastEntryOffset) after ∧
      after.handle = iterator.handle := by
  have list : front ++ shortened :: fresh :: back = front ++ [shortened] ++
      ([] ++ fresh :: back) := by simp
  rw [list] at holding room
  have between : Between iterator (front ++ [shortened]) ([] ++ fresh :: back) :=
    ⟨holding, idx, field, room⟩
  have called := next_live between (fun _ member => absurd member List.not_mem_nil) live
  rw [List.append_nil] at called
  refine ⟨iterator.movedTo (front ++ [shortened] ++ [fresh])
    (some (joined (front ++ [shortened])).length), ?_, rfl⟩
  change (next >>= _ : OnIterator DirectoryIteratorEntry) iterator = _
  rw [state_bind_ok called]
  rfl

end DirectoryIterator

theorem first_roomy {needed : Nat} {records : List (Record haveTypeField)}
    (room : ∃ record ∈ records, record.Roomy needed) :
    ∃ front record back, records = front ++ record :: back ∧
      (∀ other ∈ front, ¬other.Roomy needed) ∧
      record.Roomy needed := by
  induction records with
  | nil =>
      obtain ⟨_, impossible, _⟩ := room
      exact absurd impossible List.not_mem_nil
  | cons first records ih =>
      by_cases here : first.Roomy needed
      · exact ⟨[], first, records, rfl, fun _ member => absurd member List.not_mem_nil, here⟩
      · obtain ⟨found, member, roomy⟩ := room
        have later : ∃ record ∈ records, record.Roomy needed := by
          rcases List.mem_cons.mp member with same | behind
          · rw [same] at roomy
            exact absurd roomy here
          · exact ⟨found, behind, roomy⟩
        obtain ⟨front, record, back, split, tight, roomy⟩ := ih later
        exact ⟨first :: front, record, back, by
          rw [split, List.cons_append], List.forall_mem_cons.mpr ⟨here, tight⟩,
          roomy⟩

variable {volume : Ext2Volume} {inode : Inode}

theorem one_block (on : DirectoryOn volume inode) (one : inode.sizeLo = volume.blockSize) :
    fileBlocks volume inode = 1 := by
  have positive := on.mounted.stores.positive
  have size := size_eq_blocks on (by rw [one, Nat.mod_self])
  rw [one] at size
  exact Nat.eq_of_mul_eq_mul_right positive (by rw [← size, Nat.one_mul])

theorem one_block_sole (on : DirectoryOn volume inode) (one : inode.sizeLo = volume.blockSize) :
    (volumeFile volume inode).Sole := by
  have first : ∀ k < (volumeFile volume inode).count, k = 0 := by
    intro k below
    have count : (volumeFile volume inode).count = 1 := one_block on one
    omega
  constructor
  · intro j inJ k inK _
    rw [first j inJ, first k inK]
  · intro k below addr member
    obtain rfl := first k below
    exact absurd member List.not_mem_nil

namespace DirectoryIterator

variable {start loaded : DirectoryIterator}

/-- The search for room starts as if the first block were already there. -/
theorem insert_starts (same : next start = next loaded) (short : name.length ≤ 255)
    (more : Nat) : insertEntry (more + 1) inodeI name entryType start =
      insertLoop inodeI name entryType (neededSpace name.length) (more + 1) loaded := by
  have calls : insertEntry (more + 1) inodeI name entryType start =
      insertLoop inodeI name entryType (neededSpace name.length) (more + 1) start := by
    change (if name.length > 255 then _ else _ : OnIterator DirectoryIteratorEntry) start = _
    rw [if_neg (by omega)]
    rfl
  rw [calls]
  change (next >>= _ : OnIterator DirectoryIteratorEntry) start = _
  rw [state_bind_congr same]
  rfl

theorem length_split (into : SplitInto record inodeI name entryType shortened fresh) :
    (joined (front ++ shortened :: fresh :: back)).length =
      (joined (front ++ record :: back)).length := by
  have sum := intrinsic_add_slack record
  rw [joined_append, joined_append, joined_cons, joined_cons, joined_cons]
  simp only [List.length_append, shortened_length into, fresh_length into]
  omega

/-- The walk to the first record with room, and what is written. -/
theorem insert_rewrites (on : DirectoryOn volume inode) (one : inode.sizeLo = volume.blockSize)
    (writable : volume.readOnly = false) (same : next start = next loaded)
    (isLoaded : loaded.Loaded volume inode)
    (between : Between loaded [] (front ++ record :: back))
    (tight : ∀ other ∈ front, ¬other.Roomy (neededSpace name.length))
    (roomy : record.Roomy (neededSpace name.length)) (short : name.length ≤ 255) (rounds : Nat)
    (enough : front.length < rounds) (into : SplitInto record inodeI name entryType shortened fresh)
    (live : fresh.Live) :
    ∃ after, insertEntry rounds inodeI name entryType start =
        .ok (itemOf fresh (front ++ [shortened]) (some (joined front).length)) after ∧
      Rewrote volume inode (joined (front ++ shortened :: fresh :: back)) after.handle := by
  have holding := between.holding
  have positive := on.mounted.stores.positive
  obtain ⟨previous, reached⟩ := @insert_loop_to haveTypeField record front back inodeI name
    entryType loaded [] (neededSpace name.length) rounds between tight roomy enough
  rw [List.nil_append] at reached
  generalize there : loaded.movedTo (front ++ [record])
    (some (joined front).length) = reachedAt at reached
  have loadedThere : reachedAt.Loaded volume inode := by
    rw [← there]
    exact loaded_moved isLoaded _ _
  have holdingThere : reachedAt.Holding (joined (front ++ record :: back)) := by
    rw [← there]
    exact ⟨holding.buffer, holding.bufferIdx, holding.length, holding.small⟩
  have fieldThere : reachedAt.haveTypeField = haveTypeField := by
    rw [← there]
    exact between.field
  have last : reachedAt.lastEntryOffset = some (joined front).length := by
    rw [← there]
    rfl
  have splits := split_record_eq holdingThere fieldThere into roomy.2 previous
  have length : (joined (front ++ shortened :: fresh :: back)).length = volume.blockSize := by
    rw [length_split into, holdingThere.length]
    exact Ext2Volume.block_size_of_frame (file_volume loadedThere.file)
  -- the block that is written back
  have poised := @poised_with_buffer volume inode reachedAt
    (joined (front ++ shortened :: fresh :: back))
    (joined (front ++ [shortened])).length (poised_of_loaded on loadedThere) length
  obtain ⟨handle, writes, rewrote⟩ := write_buffer_spec on (by rw [one, Nat.mod_self])
    (by omega) (one_block_sole on one) poised writable
  have blockSize := Ext2Volume.block_size_of_frame (file_volume rewrote.file)
  obtain ⟨after, returned, sameHandle⟩ := @inserted_next haveTypeField shortened fresh front back
    { reachedAt with
      handle := handle
      buffer := joined (front ++ shortened :: fresh :: back)
      idx := (joined (front ++ [shortened])).length }
    ⟨rfl, loadedThere.bufferIdx, length.trans blockSize.symm,
      by rw [length]; exact on.mounted.small⟩
    rfl fieldThere (by rw [length, loadedThere.size, one]) live
  refine ⟨after, ?_, sameHandle.symm ▸ rewrote⟩
  obtain ⟨more, rfl⟩ : ∃ more, rounds = more + 1 := ⟨rounds - 1, by omega⟩
  rw [insert_starts same short more, reached, splits, state_bind_ok writes, returned, ← last]

end DirectoryIterator

/-- A new iterator inserts the entry into the first live record with room. The new record
follows what is left of that one, and all others are as they were. -/
theorem insert_entry_splits (volume : Ext2Volume) (inode : Inode)
    (records : List (Record haveTypeField))
    (on : DirectoryOn volume inode) (one : inode.sizeLo = volume.blockSize)
    (wellFormed : WellFormed volume inode fun _ => records) (writable : volume.readOnly = false)
    (openMode : Nat)
    (heap : Buffers) (sized : heap.Sized volume.blockSize) (start : DirectoryIterator)
    (made : DirectoryIterator.new volume haveTypeField inode openMode heap = .ok start)
    (inodeI : Nat)
    (nonzero : inodeI ≠ 0) (number : inodeI < 2 ^ 32) (name : List UInt8)
    (short : name.length ≤ 255)
    (entryType : DirectoryEntryType)
    (room : ∃ record ∈ records, record.Roomy (neededSpace name.length))
    (rounds : Nat) (enough : records.length ≤ rounds) :
    ∃ front record shortened fresh back after,
      records = front ++ record :: back ∧ record.Roomy (neededSpace name.length) ∧
        (∀ other ∈ front, ¬other.Roomy (neededSpace name.length)) ∧
        SplitInto record inodeI name entryType shortened fresh ∧
        DirectoryIterator.insertEntry rounds inodeI name entryType start =
          .ok (DirectoryIterator.itemOf fresh (front ++ [shortened]) (some (joined front).length))
            after ∧
        WellFormed after.handle.cursor.volume inode (fun _ => front ++ shortened :: fresh :: back) ∧
        after.handle.cursor.volume.frame = volume.frame ∧
        ∀ addr, addr ≠ (volumeFile volume inode).pointer 0 →
          after.handle.cursor.volume.device addr = volume.device addr := by
  have whole : inode.sizeLo % volume.blockSize = 0 := by rw [one, Nat.mod_self]
  have nonempty : 0 < inode.sizeLo := by
    rw [one]
    exact on.mounted.stores.positive
  have sole := one_block_sole on one
  have blocks := one_block on one
  obtain ⟨front, record, back, rfl, tight, roomy⟩ := first_roomy room
  obtain ⟨shortened, fresh, into⟩ := splits_into record number short entryType roomy.2
  obtain ⟨iterator, sameMade, starts, field⟩ :=
    DirectoryIterator.new_starts haveTypeField openMode on whole sized
  obtain rfl : iterator = start := by
    rw [made] at sameMade
    injection sameMade with same
    exact same.symm
  have tiled : firstBlock volume inode = joined (front ++ record :: back) := wellFormed 0 (by omega)
  obtain ⟨loaded, same, isLoaded, idx, sameField, -⟩ :=
    DirectoryIterator.next_first on whole starts nonempty
  have holding := DirectoryIterator.loaded_holding on isLoaded
  have size : loaded.size = (firstBlock volume inode).length := by
    rw [DirectoryIterator.length_first_block on, isLoaded.size, one]
  rw [tiled] at holding size
  have live : fresh.Live := by
    change fresh.raw.inode ≠ 0
    rw [into.newRaw]
    exact nonzero
  rw [List.length_append, List.length_cons] at enough
  obtain ⟨after, returned, rewrote⟩ := DirectoryIterator.insert_rewrites on one writable same
    isLoaded ⟨holding, idx, sameField.trans field, size.ge⟩ tight roomy short rounds (by omega)
    into live
  have device := DirectoryIterator.rewrote_device rewrote
  have frame := DirectoryIterator.file_volume rewrote.file
  refine ⟨front, record, shortened, fresh, back, after, rfl, roomy, tight, into, returned, ?_,
    frame, ?_⟩
  · intro k inside
    rw [file_blocks_of_frame frame, blocks] at inside
    obtain rfl : k = 0 := by omega
    exact (block_of_rewritten sole device frame (by omega)).trans (if_pos rfl)
  · intro addr other
    rw [device, DirectoryIterator.rewritten, Function.update_of_ne other]

/-- The only record gives most of the block to a second one. -/
theorem second_entry_inserted :
    ∃ start shortened fresh after,
      DirectoryIterator.new (uniformVolume soleRecord.bytes) true (uniformDirectory 1024) 0
        (blankBuffers (uniformVolume soleRecord.bytes)) = .ok start ∧
      SplitInto soleRecord 12 [98] .file shortened fresh ∧
      DirectoryIterator.insertEntry 1 12 [98] .file start =
        .ok (DirectoryIterator.itemOf fresh [shortened] (some 0)) after ∧
      WellFormed after.handle.cursor.volume (uniformDirectory 1024) fun _ =>
        [shortened, fresh] := by
  have on : DirectoryOn (uniformVolume soleRecord.bytes) (uniformDirectory 1024) :=
    uniform_on length_sole_record (by decide)
  have roomy : soleRecord.Roomy (neededSpace [(98 : UInt8)].length) := by
    refine ⟨by decide +kernel, ?_⟩
    have slack : soleRecord.slack = 1012 := by decide +kernel
    rw [slack]
    decide
  obtain ⟨start, made, -, -⟩ := DirectoryIterator.new_starts true 0 on
    (show 1024 % 1024 = 0 by decide)
    (blank_buffers_sized _)
  obtain ⟨front, record, shortened, fresh, back, after, split, -, -, into, returned, tiled, -, -⟩ :=
    insert_entry_splits _ _ [soleRecord] on rfl (sole_record_tiles 1024)
      rfl 0 _ (blank_buffers_sized _) start made 12
      (by decide) (by decide) [98] (by decide) .file ⟨soleRecord, List.mem_singleton_self _, roomy⟩
        1 (Nat.le_refl 1)
  obtain ⟨rfl, rfl, rfl⟩ : front = [] ∧ record = soleRecord ∧ back = [] := by
    cases front with
    | nil =>
        injection split with sameRecord sameBack
        exact ⟨rfl, sameRecord.symm, sameBack.symm⟩
    | cons first front =>
        injection split with _ nothing
        exact absurd nothing.symm (by simp)
  exact ⟨start, shortened, fresh, after, made, into, returned, tiled⟩

end Campix.Ext2
