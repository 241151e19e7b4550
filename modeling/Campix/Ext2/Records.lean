import Campix.Ext2.Walks

/-!
# Blocks that are tiled by records

A record of a directory is taken with all of its bytes, the space behind its name
included, so a well-formed block is the concatenation of its records. A walk over such a
block finds its live records one after the other.
-/

namespace Campix.Ext2

open Lib.Fallible Lib.Slice

set_option autoImplicit false

structure Record (haveTypeField : Bool) where
  bytes : Block
  whole : (DirectoryEntryRaw.read bytes 0).entrySize = bytes.length
  aligned : bytes.length % 4 = 0
  named : DirectoryEntryRaw.size + (DirectoryEntryRaw.read bytes 0).nameLen haveTypeField ≤
    bytes.length

namespace Record

variable {haveTypeField : Bool}

def raw (record : Record haveTypeField) : DirectoryEntryRaw := DirectoryEntryRaw.read record.bytes 0

def nameLen (record : Record haveTypeField) : Nat := record.raw.nameLen haveTypeField

def name (record : Record haveTypeField) : List UInt8 :=
  (record.bytes.drop DirectoryEntryRaw.size).take record.nameLen

def Live (record : Record haveTypeField) : Prop := record.raw.inode ≠ 0

instance (record : Record haveTypeField) : Decidable record.Live :=
  inferInstanceAs (Decidable (record.raw.inode ≠ 0))

def entry (record : Record haveTypeField) : DirectoryEntry where
  inode := record.raw.inode
  name := record.name.map fun c => Char.ofNat c.toNat

end Record

def joined {haveTypeField : Bool} (records : List (Record haveTypeField)) : Block :=
  records.flatMap Record.bytes

def listing {haveTypeField : Bool} (records : List (Record haveTypeField)) : List DirectoryEntry :=
  (records.filter fun record => record.Live).map Record.entry

variable {haveTypeField : Bool} {record : Record haveTypeField}
variable {passed rest records : List (Record haveTypeField)}

theorem joined_append (front back : List (Record haveTypeField)) :
    joined (front ++ back) = joined front ++ joined back :=
  List.flatMap_append

theorem joined_cons (record : Record haveTypeField) (records : List (Record haveTypeField)) :
    joined (record :: records) = record.bytes ++ joined records :=
  List.flatMap_cons

theorem listing_cons_live (live : record.Live) (records : List (Record haveTypeField)) :
    listing (record :: records) = record.entry :: listing records := by
  simp [listing, live]

theorem listing_cons_unused (unused : ¬record.Live) (records : List (Record haveTypeField)) :
    listing (record :: records) = listing records := by
  simp [listing, unused]

theorem record_size (record : Record haveTypeField) :
    DirectoryEntryRaw.size ≤ record.bytes.length :=
  le_trans (Nat.le_add_right ..) record.named

theorem length_le_joined (records : List (Record haveTypeField)) :
    records.length ≤ (joined records).length := by
  induction records with
  | nil => exact Nat.le_refl _
  | cons record records ih =>
      have size := record_size record
      have eight : DirectoryEntryRaw.size = 8 := rfl
      rw [joined_cons, List.length_cons, List.length_append]
      omega

theorem first_live (records : List (Record haveTypeField)) :
    (∀ record ∈ records, ¬record.Live) ∨
      ∃ idle record later, records = idle ++ record :: later ∧ (∀ other ∈ idle, ¬other.Live) ∧
        record.Live := by
  induction records with
  | nil => exact .inl fun _ member => absurd member List.not_mem_nil
  | cons record records ih =>
      by_cases live : record.Live
      · exact .inr ⟨[], record, records, rfl, fun _ member => absurd member List.not_mem_nil, live⟩
      · rcases ih with unused | ⟨idle, found, later, rfl, unused, isLive⟩
        · exact .inl (List.forall_mem_cons.mpr ⟨live, unused⟩)
        · exact .inr ⟨record :: idle, found, later, rfl, List.forall_mem_cons.mpr ⟨live, unused⟩,
            isLive⟩

theorem listing_unused (unused : ∀ record ∈ passed, ¬record.Live) : listing passed = [] := by
  induction passed with
  | nil => rfl
  | cons record passed ih =>
      rw [listing_cons_unused (unused record List.mem_cons_self)]
      exact ih fun other member => unused other (List.mem_cons_of_mem _ member)

theorem listing_append (front back : List (Record haveTypeField)) :
    listing (front ++ back) = listing front ++ listing back := by
  simp [listing]

theorem read_behind (front back : Block) (record : Record haveTypeField) :
    DirectoryEntryRaw.read (front ++ (record.bytes ++ back)) front.length = record.raw := by
  have size := record_size record
  have eight : DirectoryEntryRaw.size = 8 := rfl
  unfold DirectoryEntryRaw.read
  have field : ∀ offset width : Nat, offset + width ≤ 8 →
      readLe (front ++ (record.bytes ++ back)) (front.length + offset) width =
        readLe record.bytes offset width := by
    intro offset width inside
    rw [read_le_behind rfl, read_le_before (by omega)]
  have first := field 0 4 (by omega)
  rw [Nat.add_zero] at first
  rw [first, field 4 2 (by omega), field 6 1 (by omega), field 7 1 (by omega)]
  rfl

theorem in_block_behind (front back : Block) (record : Record haveTypeField) :
    InBlock haveTypeField (front ++ (record.bytes ++ back)) front.length := by
  have named := record.named
  unfold InBlock
  rw [read_behind, List.length_append, List.length_append]
  unfold Record.raw
  omega

theorem entry_at_behind (front back : Block) (record : Record haveTypeField)
    (previous : Option Nat) :
    DirectoryIterator.entryAt haveTypeField (front ++ (record.bytes ++ back))
      previous front.length = {
      entry := record.entry
      prevEntryOffset := previous
      offset := front.length
      recLen := record.bytes.length } := by
  have named := record.named
  have size : record.raw.entrySize = record.bytes.length := record.whole
  have name : ((front ++ (record.bytes ++ back)).drop (front.length + DirectoryEntryRaw.size)).take
      (record.raw.nameLen haveTypeField) = record.name := by
    have fits : record.raw.nameLen haveTypeField ≤
        (record.bytes.drop DirectoryEntryRaw.size).length := by
      rw [List.length_drop]
      exact Nat.le_sub_of_add_le (by rw [Nat.add_comm]; exact named)
    rw [← List.drop_drop, List.drop_left, List.drop_append_of_le_length (record_size record),
      List.take_append_of_le_length fits]
    rfl
  unfold DirectoryIterator.entryAt
  rw [read_behind]
  dsimp only
  rw [name, size]
  rfl

structure DirectoryEntryRaw.Fits (raw : DirectoryEntryRaw) : Prop where
  inode : raw.inode < 2 ^ 32
  entrySize : raw.entrySize < 2 ^ 16
  lenLo : raw.lenLo < 2 ^ 8
  typeOrLenHi : raw.typeOrLenHi < 2 ^ 8

theorem length_raw_bytes (raw : DirectoryEntryRaw) : raw.bytes.length = DirectoryEntryRaw.size := by
  simp [DirectoryEntryRaw.bytes, DirectoryEntryRaw.size, length_to_le]

theorem read_raw_bytes {raw : DirectoryEntryRaw} (fits : raw.Fits) (back : Block) :
    DirectoryEntryRaw.read (raw.bytes ++ back) 0 = raw := by
  obtain ⟨inode, entrySize, lenLo, typeOrLenHi⟩ := fits
  obtain ⟨rawInode, rawEntrySize, rawLenLo, rawTypeOrLenHi⟩ := raw
  have bytes : DirectoryEntryRaw.bytes ⟨rawInode, rawEntrySize, rawLenLo, rawTypeOrLenHi⟩ ++ back =
      toLe rawInode 4 ++ (toLe rawEntrySize 2 ++
        (toLe rawLenLo 1 ++ (toLe rawTypeOrLenHi 1 ++ back))) := by
    simp only [DirectoryEntryRaw.bytes, List.append_assoc]
  have fields : DirectoryEntryRaw.read
      (DirectoryEntryRaw.bytes ⟨rawInode, rawEntrySize, rawLenLo, rawTypeOrLenHi⟩ ++
      back) 0 = ⟨readLe _ 0 4, readLe _ (4 + 0) 2, readLe _ (4 + (2 + 0)) 1,
        readLe _ (4 + (2 + (1 + 0))) 1⟩ := rfl
  rw [fields, bytes, read_le_first inode, read_le_later, read_le_first entrySize, read_le_later,
    read_le_later,
    read_le_first lenLo, read_le_later, read_le_later, read_le_later, read_le_first typeOrLenHi]

theorem raw_fits (record : Record haveTypeField) : record.raw.Fits :=
  ⟨read_le_lt _ _ _, read_le_lt _ _ _, read_le_lt _ _ _, read_le_lt _ _ _⟩

def Record.ofHeader (haveTypeField : Bool) (raw : DirectoryEntryRaw) (body : Block)
    (fits : raw.Fits)
    (whole : raw.entrySize = DirectoryEntryRaw.size + body.length) (aligned : raw.entrySize % 4 = 0)
    (named : raw.nameLen haveTypeField ≤ body.length) : Record haveTypeField where
  bytes := raw.bytes ++ body
  whole := by rw [read_raw_bytes fits, List.length_append, length_raw_bytes, whole]
  aligned := by rw [List.length_append, length_raw_bytes, ← whole, aligned]
  named := by
    rw [read_raw_bytes fits, List.length_append, length_raw_bytes]
    exact Nat.add_le_add_left named _

section OfHeader

variable {raw : DirectoryEntryRaw} {body : Block} (fits : raw.Fits)
  (whole : raw.entrySize = DirectoryEntryRaw.size + body.length) (aligned : raw.entrySize % 4 = 0)
  (named : raw.nameLen haveTypeField ≤ body.length)

theorem of_header_raw : (Record.ofHeader
    haveTypeField raw body fits whole aligned named).raw = raw :=
  read_raw_bytes fits body

theorem of_header_name :
    (Record.ofHeader haveTypeField raw body fits whole aligned named).name =
      body.take (raw.nameLen haveTypeField) := by
  unfold Record.name Record.nameLen
  rw [of_header_raw]
  exact congrArg (List.take _) (List.drop_left' (length_raw_bytes raw))

theorem of_header_live :
    (Record.ofHeader haveTypeField raw body fits whole aligned named).Live ↔ raw.inode ≠ 0 := by
  unfold Record.Live
  rw [of_header_raw]

theorem of_header_entry (inode : raw.inode = record.raw.inode)
    (name : body.take (raw.nameLen haveTypeField) = record.name) :
    (Record.ofHeader haveTypeField raw body fits whole aligned named).entry = record.entry := by
  unfold Record.entry
  rw [of_header_raw, of_header_name, inode, name]

end OfHeader

theorem joined_head {behind : Block} (same : joined records = record.bytes ++ behind) :
    ∃ tail, records = record :: tail ∧ joined tail = behind := by
  have size := record_size record
  have eight : DirectoryEntryRaw.size = 8 := rfl
  cases records with
  | nil =>
      have length := congrArg List.length same
      rw [List.length_append] at length
      change 0 = _ at length
      omega
  | cons head tail =>
      rw [joined_cons] at same
      have headRaw := read_behind [] (joined tail) head
      rw [List.nil_append, same] at headRaw
      have recordRaw := read_behind [] behind record
      rw [List.nil_append] at recordRaw
      have sameRaw : head.raw = record.raw := headRaw.symm.trans recordRaw
      have length : head.bytes.length = record.bytes.length := by
        rw [← head.whole, ← record.whole]
        exact congrArg DirectoryEntryRaw.entrySize sameRaw
      obtain ⟨bytes, rest⟩ := List.append_inj same length
      refine ⟨tail, ?_, rest⟩
      obtain ⟨headBytes, _, _, _⟩ := head
      obtain ⟨recordBytes, _, _, _⟩ := record
      obtain rfl : headBytes = recordBytes := bytes
      rfl

theorem joined_prefix {behind : Block} (same : joined records = joined passed ++ behind) :
    ∃ tail, records = passed ++ tail ∧ joined tail = behind := by
  induction passed generalizing records with
  | nil => exact ⟨records, rfl, same⟩
  | cons record passed ih =>
      rw [joined_cons, List.append_assoc] at same
      obtain ⟨tail, rfl, rest⟩ := joined_head same
      obtain ⟨last, rfl, behind⟩ := ih rest
      exact ⟨last, rfl, behind⟩

theorem joined_injective (same : joined records = joined passed) : records = passed := by
  rw [← List.append_nil (joined passed)] at same
  obtain ⟨tail, rfl, nothing⟩ := joined_prefix same
  have short := length_le_joined tail
  rw [nothing] at short
  rw [List.eq_nil_of_length_eq_zero (Nat.le_zero.mp short), List.append_nil]

namespace DirectoryIterator

variable {iterator : DirectoryIterator}

structure Between (iterator : DirectoryIterator)
    (passed rest : List (Record haveTypeField)) : Prop where
  holding : iterator.Holding (joined (passed ++ rest))
  idx : iterator.idx = (joined passed).length
  field : iterator.haveTypeField = haveTypeField
  room : (joined (passed ++ rest)).length ≤ iterator.size

theorem read_record (passed rest : List (Record haveTypeField)) (record : Record haveTypeField) :
    DirectoryEntryRaw.read (joined (passed ++ record :: rest))
      (joined passed).length = record.raw := by
  rw [joined_append, joined_cons]
  exact read_behind ..

theorem length_joined_succ (passed rest : List (Record haveTypeField))
    (record : Record haveTypeField) :
    (joined (passed ++ record :: rest)).length =
      (joined passed).length + record.bytes.length + (joined rest).length := by
  rw [joined_append, joined_cons, List.length_append, List.length_append, Nat.add_assoc]

def movedTo (iterator : DirectoryIterator) (passed : List (Record haveTypeField))
    (last : Option Nat) :
    DirectoryIterator :=
  { iterator with idx := (joined passed).length, lastEntryOffset := last }

theorem between_moved (between : Between iterator passed (rest ++ records)) (last : Option Nat) :
    Between (iterator.movedTo (passed ++ rest) last) (passed ++ rest) records := by
  obtain ⟨holding, idx, field, room⟩ := between
  rw [← List.append_assoc] at holding room
  exact ⟨⟨holding.buffer, holding.bufferIdx, holding.length, holding.small⟩, rfl, field, room⟩

theorem loaded_moved {volume : Ext2Volume} {inode : Inode} (loaded : iterator.Loaded volume inode)
    (passed : List (Record haveTypeField))
    (last : Option Nat) : (iterator.movedTo passed last).Loaded volume inode :=
  ⟨loaded.stands, loaded.linked, loaded.file, loaded.offset, loaded.buffer, loaded.bufferIdx,
    loaded.size⟩

theorem passed_eq (between : Between iterator passed (record :: rest)) :
    iterator.passed = iterator.movedTo (passed ++ [record]) iterator.lastEntryOffset := by
  have behind : iterator.idx + (DirectoryEntryRaw.read iterator.buffer iterator.idx).entrySize =
      (joined (passed ++ [record])).length := by
    have one : joined [record] = record.bytes := List.append_nil _
    rw [between.holding.buffer, between.idx, read_record, joined_append, List.length_append, one]
    exact congrArg _ record.whole
  unfold DirectoryIterator.passed movedTo
  rw [behind]

/-- The entry that `next` returns for a record. -/
def itemOf (record : Record haveTypeField) (passed : List (Record haveTypeField))
    (previous : Option Nat) :
    DirectoryIteratorEntry where
  entry := record.entry
  prevEntryOffset := previous
  offset := (joined passed).length
  recLen := record.bytes.length

theorem next_loop_record (between : Between iterator passed (record :: rest)) (rounds : Nat) :
    nextLoop (rounds + 1) iterator =
      if record.Live then
        .ok (some (itemOf record passed iterator.lastEntryOffset))
          { iterator.passed with lastEntryOffset := some (joined passed).length }
      else
        nextLoop rounds iterator.passed := by
  have total := length_joined_succ passed rest record
  have size := record_size record
  have eight : DirectoryEntryRaw.size = 8 := rfl
  have room := between.room
  have below : iterator.idx < iterator.size := by
    rw [between.idx]
    omega
  have inBlock : InBlock iterator.haveTypeField (joined (passed ++ record :: rest))
      iterator.idx := by
    rw [joined_append, joined_cons, between.idx, between.field]
    exact in_block_behind ..
  have moves : record.raw.entrySize ≠ 0 := by
    have whole : record.raw.entrySize = record.bytes.length := record.whole
    omega
  rw [next_loop_inside between.holding below inBlock, between.idx, read_record, if_neg moves,
    between.field,
    joined_append, joined_cons, entry_at_behind]
  rfl

theorem next_loop_unused (between : Between iterator passed (rest ++ records))
    (unused : ∀ record ∈ rest, ¬record.Live) (rounds : Nat) :
    nextLoop (rest.length + rounds) iterator =
      nextLoop rounds (iterator.movedTo (passed ++ rest) iterator.lastEntryOffset) := by
  induction rest generalizing iterator passed with
  | nil =>
      have still : iterator.movedTo (passed ++ []) iterator.lastEntryOffset = iterator := by
        unfold movedTo
        rw [List.append_nil, ← between.idx]
      rw [List.length_nil, Nat.zero_add, still]
  | cons record rest ih =>
      have moved := @between_moved _ passed [record] _ _ between iterator.lastEntryOffset
      have later := ih moved fun other member => unused other (List.mem_cons_of_mem _ member)
      rw [List.append_assoc, List.singleton_append] at later
      rw [List.length_cons, Nat.add_right_comm, next_loop_record between,
        if_neg (unused record List.mem_cons_self), passed_eq between, later]
      rfl

theorem between_short (between : Between iterator passed (rest ++ records)) :
    rest.length ≤ iterator.size := by
  have short := length_le_joined rest
  have room := between.room
  rw [joined_append, joined_append, List.length_append, List.length_append] at room
  omega

theorem between_behind (between : Between iterator passed (rest ++ record :: records))
    (last : Option Nat) :
    Between (iterator.movedTo (passed ++ rest ++ [record]) last) (passed ++ rest ++ [record])
      records := by
  have split : rest ++ record :: records = (rest ++ [record]) ++ records := by simp
  rw [split] at between
  rw [List.append_assoc]
  exact between_moved between last

theorem next_live (between : Between iterator passed (rest ++ record :: records))
    (unused : ∀ record ∈ rest, ¬record.Live) (live : record.Live) :
    next iterator = .ok (some (itemOf record (passed ++ rest) iterator.lastEntryOffset))
      (iterator.movedTo (passed ++ rest ++ [record]) (some (joined (passed ++ rest)).length)) := by
  have short := between_short between
  have there := between_moved between iterator.lastEntryOffset
  have rounds : iterator.size + 1 = rest.length + (iterator.size - rest.length + 1) := by omega
  change nextLoop (iterator.size + 1) iterator = _
  rw [rounds, next_loop_unused between unused, next_loop_record there, if_pos live, passed_eq there]
  rfl

/-- With no live record left, a call of `next` comes to the end of the directory. -/
theorem next_done (between : Between iterator passed rest)
    (whole : iterator.size = (joined (passed ++ rest)).length)
    (unused : ∀ record ∈ rest, ¬record.Live) :
    next iterator = .ok none (iterator.movedTo (passed ++ rest) iterator.lastEntryOffset) := by
  rw [← List.append_nil rest] at between
  have short := between_short between
  have rounds : iterator.size + 1 = rest.length + (iterator.size - rest.length + 1) := by omega
  change nextLoop (iterator.size + 1) iterator = _
  rw [rounds, next_loop_unused between unused, next_empty]
  exact whole.le

theorem entries_records (between : Between iterator passed rest)
    (whole : iterator.size = (joined (passed ++ rest)).length) (rounds : Nat)
    (enough : rest.length < rounds) :
    ∃ last, entries rounds iterator = .ok (listing rest)
      (iterator.movedTo (passed ++ rest) last) := by
  induction rounds generalizing iterator passed rest with
  | zero => omega
  | succ rounds ih =>
      rw [entries_succ]
      rcases first_live rest with unused | ⟨idle, record, later, rfl, unused, live⟩
      · rw [state_bind_ok (next_done between whole unused), listing_unused unused]
        exact ⟨_, rfl⟩
      · have called := next_live between unused live
        have list : passed ++ idle ++ [record] ++ later = passed ++
            (idle ++ record :: later) := by simp
        have there := between_behind between (some (joined (passed ++ idle)).length)
        rw [List.length_append, List.length_cons] at enough
        obtain ⟨last, collected⟩ := ih there (by rw [list]; exact whole) (by omega)
        rw [list] at collected
        rw [state_bind_ok called, listing_append, listing_unused unused, listing_cons_live live]
        refine ⟨last, ?_⟩
        change (entries rounds >>= _ : OnIterator (List DirectoryEntry)) _ = _
        rw [state_bind_ok collected]
        rfl

end DirectoryIterator

end Campix.Ext2
