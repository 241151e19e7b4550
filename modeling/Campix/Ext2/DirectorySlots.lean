import Campix.Ext2.Deletions
import Campix.Ext2.Insertions
import Campix.Lib.FirstFit

/-!
# The block of a directory as a row of slots

In a directory of one block that was never corrupted, the unused records stand in front of
the live ones: an entry that is deleted is added to the one before it, unless it is the
first. So the block is a row of slots, one for each live record. Each call on the directory
does to the row what first fit does.
-/

namespace Campix.Ext2

open Lib.Fallible Lib.FirstFit
open Drivers

set_option autoImplicit false

variable {haveTypeField : Bool} {volume after : Ext2Volume} {inode : Inode}

def entryNeed (entry : DirectoryEntry) : Nat :=
  DirectoryEntryRaw.size + DirectoryIterator.roundUp entry.name.length

def slotOf (record : Record haveTypeField) : Slot DirectoryEntry :=
    ⟨record.entry, record.bytes.length⟩

def newEntry (inodeI : Nat) (name : List UInt8) : DirectoryEntry where
  inode := inodeI
  name := name.map fun c => Char.ofNat c.toNat

/-- The answer of a call that fails with an error of the file system. -/
def stopped {Answer : Type} (answer : Except VfsError Answer) : Except Stop Answer :=
  answer.mapError fun error => .failure (.error error)

def hasNumber (entryInode : Nat) (entry : DirectoryEntry) : Bool := entry.inode == entryInode

structure Tiles (haveTypeField : Bool) (block : Block) (row : Row DirectoryEntry)
    (unused live : List (Record haveTypeField)) : Prop where
  block : block = joined (unused ++ live)
  idle : ∀ record ∈ unused, ¬record.Live
  busy : ∀ record ∈ live, record.Live
  lost : row.lost = (joined unused).length
  slots : row.slots = live.map slotOf

structure Laid (haveTypeField : Bool) (volume : Ext2Volume) (inode : Inode)
    (row : Row DirectoryEntry) : Prop where
  on : DirectoryOn volume inode
  one : inode.sizeLo = volume.blockSize
  small : volume.blockSize < 2 ^ 16
  writable : volume.readOnly = false
  tiles : ∃ unused live, Tiles haveTypeField (firstBlock volume inode) row unused live

/-- A call on the directory that may have changed its block, and no other one. -/
structure LaidAfter (haveTypeField : Bool) (volume : Ext2Volume) (inode : Inode)
    (row : Row DirectoryEntry)
    (after : Ext2Volume) : Prop where
  laid : Laid haveTypeField after inode row
  frame : after.frame = volume.frame
  elsewhere : ∀ lba, lba ≠ (volumeFile volume inode).pointer 0 →
    after.device lba = volume.device lba

section Records

variable {record shortened fresh : Record haveTypeField}
  {unused live front back : List (Record haveTypeField)}
  {block : Block} {row : Row DirectoryEntry} {entryInode : Nat}

theorem entry_name_length (record : Record haveTypeField) :
    record.entry.name.length = record.nameLen := by
  have named : DirectoryEntryRaw.size + record.nameLen ≤ record.bytes.length := record.named
  change (record.name.map _).length = _
  rw [List.length_map, Record.name, List.length_take, List.length_drop]
  omega

theorem need_of_record (record : Record haveTypeField) :
    entryNeed record.entry = record.intrinsicSize := by
  rw [entryNeed, entry_name_length, Record.intrinsicSize]

theorem need_of_new (inodeI : Nat) (name : List UInt8) :
    entryNeed (newEntry inodeI name) = neededSpace name.length := by
  rw [entryNeed, newEntry, List.length_map, neededSpace, Nat.add_comm]

theorem room_of_record (record : Record haveTypeField) :
    (slotOf record).room entryNeed = record.slack := by
  unfold Slot.room slotOf Record.slack
  rw [need_of_record]

theorem has_number_iff (record : Record haveTypeField) :
    hasNumber entryInode (slotOf record).item = true ↔ record.raw.inode = entryInode := beq_iff_eq

theorem has_not_number (record : Record haveTypeField) :
    hasNumber entryInode (slotOf record).item = false ↔ record.raw.inode ≠ entryInode := by
  rw [← Bool.not_eq_true, has_number_iff]

theorem row_holds (tiles : Tiles haveTypeField block row unused live) :
    Holds entryNeed row.slots := by
  rw [tiles.slots]
  intro slot member
  obtain ⟨record, -, rfl⟩ := List.mem_map.mp member
  change entryNeed record.entry ≤ record.bytes.length
  rw [need_of_record]
  exact intrinsic_size_le record

theorem listing_live (each : ∀ record ∈ live, record.Live) :
    listing live = live.map Record.entry := by
  induction live with
  | nil => rfl
  | cons record live ih =>
      obtain ⟨here, later⟩ := List.forall_mem_cons.mp each
      rw [listing_cons_live here, ih later, List.map_cons]

theorem listing_of_tiles (tiles : Tiles haveTypeField block row unused live) :
    listing (unused ++ live) = row.items := by
  rw [listing_append, listing_unused tiles.idle, List.nil_append, listing_live tiles.busy,
    Row.items, items,
    tiles.slots, List.map_map]
  rfl

theorem size_of_tiles (tiles : Tiles haveTypeField block row unused live) :
    row.size = block.length := by
  have lengths : ∀ records : List (Record haveTypeField),
      lengths (records.map slotOf) = (joined records).length := by
    intro records
    induction records with
    | nil => rfl
    | cons record records ih =>
        rw [List.map_cons, lengths_cons, joined_cons, List.length_append, ih, slotOf]
  rw [Row.size, tiles.lost, tiles.slots, lengths, tiles.block, joined_append, List.length_append]

end Records

structure Relaid (volume : Ext2Volume) (inode : Inode) (block : Block)
    (after : Ext2Volume) : Prop where
  stores : after.Stores (DirectoryIterator.rewritten volume inode block)
  frame : after.frame = volume.frame

section Relaid

variable {block : Block} {row later : Row DirectoryEntry}
  {unused live : List (Record haveTypeField)}
  (laid : Laid haveTypeField volume inode row)

include laid

theorem laid_nonempty : 0 < inode.sizeLo := laid.one ▸ laid.on.mounted.stores.positive

theorem laid_whole : inode.sizeLo % volume.blockSize = 0 := by rw [laid.one, Nat.mod_self]

theorem first_of_relaid (relaid : Relaid volume inode block after) :
    firstBlock after inode = block := by
  have blocks := one_block laid.on laid.one
  have here := block_of_rewritten (one_block_sole laid.on laid.one)
    relaid.stores.device relaid.frame
    (show 0 < fileBlocks volume inode by omega)
  exact here.trans (if_pos rfl)

theorem laid_of_relaid (relaid : Relaid volume inode block after)
    (tiles : Tiles haveTypeField block later unused live) : LaidAfter haveTypeField volume inode
    later after := by
  have blockSize := Ext2Volume.block_size_of_frame relaid.frame
  have first := first_of_relaid laid relaid
  obtain ⟨⟨-, size, small⟩, mapped, directory, word⟩ := laid.on
  have sole := one_block_sole laid.on laid.one
  have blocks := @file_blocks_of_frame volume inode after relaid.frame
  have elsewhere : ∀ addr, addr ≠ (volumeFile volume inode).pointer 0 →
      after.device addr = volume.device addr := by
    intro addr other
    rw [relaid.stores.device, DirectoryIterator.rewritten, Function.update_of_ne other]
  have keeps : (volumeFile volume inode).Keeps after.device := by
    intro addr apart
    have one := one_block laid.on laid.one
    exact elsewhere addr fun same => apart ⟨0, show 0 < fileBlocks volume inode by omega, same.symm⟩
  refine ⟨⟨⟨⟨?_, ?_, ?_⟩, ?_, directory, word⟩, ?_, ?_, ?_, ⟨unused, live, first.symm ▸ tiles⟩⟩,
    relaid.frame,
    elsewhere⟩
  · rw [relaid.stores.device]
    exact relaid.stores
  · rw [blockSize]
    exact size
  · rw [blockSize]
    exact small
  · intro k below
    rw [blocks] at below
    obtain ⟨capacity, onVolume⟩ := mapped k below
    have way := FileMap.way_kept sole keeps (.inl below)
    have same : pointers inode after.device (locate (volume.blockSize / 4) k) =
        pointers inode volume.device (locate (volume.blockSize / 4) k) :=
      congrArg₂ (fun path pointer => path ++ [pointer]) way.1 way.2
    rw [blockSize, Ext2Volume.block_count_of_frame relaid.frame, same]
    exact ⟨capacity, onVolume⟩
  · rw [blockSize]
    exact laid.one
  · rw [blockSize]
    exact laid.small
  · have locked : after.frame.readOnly = volume.frame.readOnly := by rw [relaid.frame]
    exact locked.trans laid.writable

theorem laid_of_read (stores : after.Stores volume.device) (frame : after.frame = volume.frame) :
    LaidAfter haveTypeField volume inode row after := by
  obtain ⟨unused, live, tiles⟩ := laid.tiles
  have same : DirectoryIterator.rewritten volume inode (firstBlock volume inode) = volume.device :=
    Function.update_eq_self _ _
  exact laid_of_relaid laid ⟨same.symm ▸ stores, frame⟩ tiles

end Relaid

namespace DirectoryIterator

variable {iterator loaded : DirectoryIterator} {row : Row DirectoryEntry}
  {unused live : List (Record haveTypeField)}
  {openMode : Nat} {heap : Buffers}

/-- The iterator before its first call, and the one with the first block in its buffer. -/
structure Opens (volume : Ext2Volume) (inode : Inode) (records : List (Record haveTypeField))
    (start loaded : DirectoryIterator) : Prop where
  same : next start = next loaded
  isLoaded : loaded.Loaded volume inode
  between : Between loaded ([] : List (Record haveTypeField)) records
  last : loaded.lastEntryOffset = none
  size : loaded.size = (joined records).length

theorem opens (laid : Laid haveTypeField volume inode row)
    (tiles : Tiles haveTypeField (firstBlock volume inode) row unused live) (openMode : Nat)
    (sized : heap.Sized volume.blockSize) :
    ∃ start loaded, new volume haveTypeField inode openMode heap = .ok start ∧
      Opens volume inode (unused ++ live) start loaded := by
  obtain ⟨start, made, starts, field⟩ :=
    new_starts haveTypeField openMode laid.on (laid_whole laid) sized
  obtain ⟨loaded, same, isLoaded, idx, sameField, none_⟩ :=
    next_first laid.on (laid_whole laid) starts (laid_nonempty laid)
  have size : loaded.size = (joined (unused ++ live)).length := by
    rw [← tiles.block, length_first_block laid.on, isLoaded.size, laid.one]
  have holding := loaded_holding laid.on isLoaded
  rw [tiles.block] at holding
  exact ⟨start, loaded, made, same, isLoaded, ⟨holding, idx, sameField.trans field, size.ge⟩,
    none_, size⟩

theorem volume_of_loaded (isLoaded : iterator.Loaded volume inode) :
    iterator.handle.cursor.volume.Stores volume.device ∧
      iterator.handle.cursor.volume.frame = volume.frame := by
  obtain ⟨k, info, settled, -⟩ := isLoaded.stands
  have device := Cursor.device_of_clean settled.cursor.views settled.cursor.clean
  have stores := settled.cursor.views.stores
  rw [device] at stores
  exact ⟨stores, file_volume isLoaded.file⟩

theorem relaid_of_stands {block : Block} {handle : Handle}
    (stands : handle.Stands (rewritten volume inode block) (volumeFile volume inode).Tables)
    (frame : handle.cursor.volume.frame = volume.frame) : Relaid volume inode block
    handle.cursor.volume := by
  obtain ⟨k, info, settled, -⟩ := stands
  have device := Cursor.device_of_clean settled.cursor.views settled.cursor.clean
  have stores := settled.cursor.views.stores
  rw [device] at stores
  exact ⟨stores, frame⟩

theorem list_row (laid : Laid haveTypeField volume inode row) (openMode rounds : Nat)
    (sized : heap.Sized volume.blockSize) (enough : volume.blockSize ≤ rounds) :
    ∃ after, Directory.new haveTypeField inode openMode heap (rounds + 1)
      volume = .ok ⟨row.items, inode⟩ after ∧
      LaidAfter haveTypeField volume inode row after := by
  obtain ⟨unused, live, tiles⟩ := laid.tiles
  obtain ⟨start, loaded, made, opens⟩ := opens laid tiles openMode sized
  have count := length_le_joined (unused ++ live)
  have length : (joined (unused ++ live)).length = volume.blockSize := by
    rw [← tiles.block, length_first_block laid.on]
  obtain ⟨last, collected⟩ := entries_records opens.between opens.size (rounds + 1) (by omega)
  rw [entries_succ, ← state_bind_congr opens.same, ← entries_succ,
    listing_of_tiles tiles] at collected
  obtain ⟨stores, frame⟩ := volume_of_loaded opens.isLoaded
  exact ⟨_, directory_new_ok made collected, laid_of_read laid stores frame⟩

section Insert

variable {record shortened fresh : Record haveTypeField} {front back : List (Record haveTypeField)}
  {inodeI : Nat}
  {name : List UInt8} {entryType : DirectoryEntryType} {start : DirectoryIterator}

theorem fresh_entry (into : SplitInto record inodeI name entryType shortened fresh) :
    fresh.entry = newEntry inodeI name := by
  have number : fresh.raw.inode = inodeI := congrArg DirectoryEntryRaw.inode into.newRaw
  unfold Record.entry newEntry
  rw [number, into.newName]

theorem insert_relays (laid : Laid haveTypeField volume inode row)
    (opens : Opens volume inode (front ++ record :: back) start loaded)
    (tight : ∀ other ∈ front, ¬other.Roomy (neededSpace name.length))
    (roomy : record.Roomy (neededSpace name.length)) (short : name.length ≤ 255) (rounds : Nat)
    (enough : front.length < rounds) (into : SplitInto record inodeI name entryType shortened fresh)
    (live : fresh.Live) :
    ∃ entry after, insertEntry rounds inodeI name entryType start = .ok entry after ∧
      entry.entry = newEntry inodeI name ∧
      Relaid volume inode (joined (front ++ shortened :: fresh :: back))
        after.handle.cursor.volume := by
  obtain ⟨after, returned, rewrote⟩ := insert_rewrites laid.on laid.one laid.writable opens.same
    opens.isLoaded opens.between tight roomy short rounds enough into live
  exact ⟨_, after, returned, fresh_entry into,
    relaid_of_stands rewrote.stands (file_volume rewrote.file)⟩

theorem insert_row {later : Row DirectoryEntry} (laid : Laid haveTypeField volume inode row)
    (openMode rounds : Nat)
    (sized : heap.Sized volume.blockSize) (enough : volume.blockSize ≤ rounds)
    (nonzero : inodeI ≠ 0)
    (number : inodeI < 2 ^ 32) (short : name.length ≤ 255) (entryType : DirectoryEntryType)
    (found : row.insert entryNeed (newEntry inodeI name) = some later) :
    ∃ entry after, withIterator haveTypeField inode openMode heap
      (insertEntry rounds inodeI name entryType) volume =
        .ok entry after ∧ entry.entry = newEntry inodeI name ∧
          LaidAfter haveTypeField volume inode later after := by
  obtain ⟨unused, live, tiles⟩ := laid.tiles
  obtain ⟨slots, placing, rfl⟩ := Option.map_eq_some_iff.mp found
  obtain ⟨before, slot, behind, split, tight, roomy, rfl⟩ := placed placing
  rw [tiles.slots] at split
  obtain ⟨front, rest, rfl, rfl, parts⟩ := List.map_eq_append_iff.mp split
  obtain ⟨record, back, rfl, rfl, rfl⟩ := List.map_eq_cons_iff.mp parts
  have live := tiles.busy record (List.mem_append_right _ List.mem_cons_self)
  rw [need_of_new, room_of_record] at roomy
  have noRoom : ∀ other ∈ unused ++ front, ¬other.Roomy (neededSpace name.length) := by
    rintro other member ⟨isLive, fits⟩
    rcases List.mem_append.mp member with dead | passed
    · exact tiles.idle other dead isLive
    · refine tight (slotOf other) (List.mem_map_of_mem passed) ?_
      rw [need_of_new, room_of_record]
      exact fits
  obtain ⟨shortened, fresh, into⟩ := splits_into record number short entryType roomy
  have freshLive : fresh.Live := by
    change fresh.raw.inode ≠ 0
    rw [into.newRaw]
    exact nonzero
  obtain ⟨start, loaded, made, opens⟩ := opens laid tiles openMode sized
  have list : unused ++ (front ++ record :: back) = (unused ++ front) ++ record :: back := by simp
  have count := length_le_joined (unused ++ (front ++ record :: back))
  rw [← opens.size, opens.isLoaded.size, laid.one] at count
  rw [list] at opens count
  rw [List.length_append, List.length_cons] at count
  obtain ⟨entry, after, inserted, same, relaid⟩ :=
    insert_relays laid opens noRoom ⟨live, roomy⟩ short rounds (by omega) into freshLive
  refine ⟨entry, _, with_iterator_ok made inserted, same, ?_⟩
  have shortenedLive : shortened.Live := by
    change shortened.raw.inode ≠ 0
    rw [into.keptRaw]
    exact live
  have newList : (unused ++ front)
      ++ shortened :: fresh :: back = unused ++ (front ++ shortened :: fresh :: back) := by
    simp
  rw [newList] at relaid
  refine laid_of_relaid laid relaid ⟨rfl, tiles.idle, ?_, tiles.lost, ?_⟩
  · have each := tiles.busy
    simp only [List.mem_append, List.mem_cons] at each ⊢
    rintro other (passed | rfl | rfl | later)
    · exact each other (.inl passed)
    · exact shortenedLive
    · exact freshLive
    · exact each other (.inr (.inr later))
  · have kept : slotOf shortened = ⟨record.entry, entryNeed record.entry⟩ := by
      unfold slotOf
      rw [into.keptEntry, shortened_length into, need_of_record]
    have new : slotOf fresh = ⟨newEntry inodeI name, (slotOf record).room entryNeed⟩ := by
      rw [room_of_record, slotOf, fresh_entry into, fresh_length into]
    rw [List.map_append, List.map_cons, List.map_cons, kept, new]
    rfl

theorem long_name_refused (laid : Laid haveTypeField volume inode row)
    (sized : heap.Sized volume.blockSize)
    {rounds : Nat} (entryType : DirectoryEntryType) (long : name.length > 255) :
    withIterator haveTypeField inode openMode heap (insertEntry rounds inodeI name entryType)
      volume =
      .error (.failure (.error .nameTooLong)) volume := by
  obtain ⟨start, made, starts, -⟩ :=
    new_starts haveTypeField openMode laid.on (laid_whole laid) sized
  have refused : insertEntry rounds inodeI name entryType start = .error
      (.failure (.error .nameTooLong)) start := by
    change (if name.length > 255 then _ else _ : OnIterator DirectoryIteratorEntry) start = _
    rw [if_pos long]
    rfl
  have same : start.handle.cursor.volume = volume := (fresh_frame starts.fresh).1
  have called := with_iterator_error made refused
  rw [same] at called
  exact called

end Insert

section Delete

variable {record previous : Record haveTypeField}
  {front back passed rest : List (Record haveTypeField)}
  {entryInode : Nat} {start : DirectoryIterator} {place other : Option Nat}

theorem last_live_unique (first : LastLive front place) (second : LastLive front other) :
    place = other := by
  cases first with
  | none unused =>
      cases second with
      | none => rfl
      | some before live _ =>
          exact absurd live (unused _ (List.mem_append_right _ List.mem_cons_self))
  | some before live unused =>
      generalize whole : before ++ _ :: _ = list at second
      cases second with
      | none each =>
          rw [← whole] at each
          exact absurd live (each _ (List.mem_append_right _ List.mem_cons_self))
      | some before' live' unused' =>
          obtain ⟨rfl, -, -⟩ := last_split_unique whole live live' unused unused'
          rfl

theorem delete_loop_passes (called : next iterator = .ok (some (itemOf record front place)) loaded)
    (rounds : Nat) :
    deleteLoop entryInode (rounds + 1) iterator =
      if record.raw.inode = entryInode then deleteEntry (itemOf record front place) loaded
      else deleteLoop entryInode rounds loaded := by
  change (next >>= _ : OnIterator Unit) iterator = _
  rw [state_bind_ok called]
  change (if record.raw.inode = entryInode then _ else _ : OnIterator Unit) loaded = _
  split_ifs <;> rfl

theorem delete_loop_to (rounds : Nat) (between : Between iterator passed (front ++ record :: back))
    (others : ∀ other ∈ front, other.Live → other.raw.inode ≠ entryInode) (live : record.Live)
    (here : record.raw.inode = entryInode) (last : LastLive passed iterator.lastEntryOffset)
    (enough : front.length < rounds) :
    ∃ place, LastLive (passed ++ front) place ∧ deleteLoop entryInode rounds iterator =
      deleteEntry (itemOf record (passed ++ front) place)
        (iterator.movedTo (passed ++ front ++ [record])
          (some (joined (passed ++ front)).length)) := by
  induction rounds generalizing iterator passed front with
  | zero => omega
  | succ rounds ih =>
      rcases first_live front with unused | ⟨idle, first, later, rfl, unused, isLive⟩
      · refine ⟨iterator.lastEntryOffset, last_live_unused last unused, ?_⟩
        rw [delete_loop_passes (next_live between unused live), if_pos here]
      · have different := others first (List.mem_append_right _ List.mem_cons_self) isLive
        rw [List.append_assoc, List.cons_append] at between
        have there := between_behind between (some (joined (passed ++ idle)).length)
        rw [List.length_append, List.length_cons] at enough
        obtain ⟨place, lastThere, reached⟩ := ih there
          (fun other member => others other
            (List.mem_append_right _ (List.mem_cons_of_mem _ member)))
          (last_live_behind isLive) (by omega)
        have list : passed ++ idle ++ [first] ++ later = passed ++
            (idle ++ first :: later) := by simp
        rw [list] at reached lastThere
        refine ⟨place, lastThere, ?_⟩
        rw [delete_loop_passes (next_live between unused isLive), if_neg different]
        exact reached

theorem delete_loop_missing (rounds : Nat) (between : Between iterator passed rest)
    (size : iterator.size = (joined (passed ++ rest)).length)
    (others : ∀ other ∈ rest, other.Live → other.raw.inode ≠ entryInode)
    (enough : rest.length < rounds) :
    ∃ place, deleteLoop entryInode rounds iterator =
      .error (.failure (.error .entryNotFound)) (iterator.movedTo (passed ++ rest) place) := by
  induction rounds generalizing iterator passed rest with
  | zero => omega
  | succ rounds ih =>
      rcases first_live rest with unused | ⟨idle, first, later, rfl, unused, isLive⟩
      · refine ⟨iterator.lastEntryOffset, ?_⟩
        change (next >>= _ : OnIterator Unit) iterator = _
        rw [state_bind_ok (next_done between size unused)]
        rfl
      · have different := others first (List.mem_append_right _ List.mem_cons_self) isLive
        have there := between_behind between (some (joined (passed ++ idle)).length)
        have list : passed ++ idle ++ [first] ++ later = passed ++
            (idle ++ first :: later) := by simp
        rw [List.length_append, List.length_cons] at enough
        obtain ⟨place, reached⟩ := ih there (by rw [list]; exact size)
          (fun other member => others other
            (List.mem_append_right _ (List.mem_cons_of_mem _ member))) (by omega)
        rw [list] at reached
        refine ⟨place, ?_⟩
        rw [delete_loop_passes (next_live between unused isLive), if_neg different]
        exact reached

/-- What is written when the loop has come to its entry. -/
theorem delete_relays (laid : Laid haveTypeField volume inode row)
    (isLoaded : iterator.Loaded volume inode)
    (field : iterator.haveTypeField = haveTypeField)
    (tiled : firstBlock volume inode = joined (front ++ record :: back))
    (last : LastLive front place) :
    ∃ after, deleteEntry (itemOf record front place) iterator = .ok () after ∧
      Relaid volume inode (deleted haveTypeField (joined (front ++ record :: back))
        (itemOf record front place))
        after.handle.cursor.volume := by
  have sole := one_block_sole laid.on laid.one
  have holding := loaded_holding laid.on isLoaded
  rw [tiled] at holding
  have bytes : joined (front ++ record :: back) = joined front ++
      (record.bytes ++ joined back) := by
    rw [joined_append, joined_cons]
  have inBlock : InBlock iterator.haveTypeField (joined (front ++ record :: back))
      (itemOf record front place).offset := by
    rw [field, bytes]
    exact in_block_behind ..
  have before := last_live_inside last (record.bytes ++ joined back)
  rw [← bytes] at before
  obtain ⟨idx, deletes⟩ := delete_entry_eq holding inBlock before
  have length := length_deleted inBlock before
  rw [← tiled, length_first_block laid.on, tiled] at length
  have poised := @poised_with_buffer volume inode iterator _ idx
    (poised_of_loaded laid.on isLoaded) length
  obtain ⟨after, done, stands, frame⟩ :=
    delete_done_stands laid.on (laid_whole laid) (laid_nonempty laid) sole poised laid.writable
      (itemOf record front place)
  rw [← deletes] at done
  dsimp only at stands
  rw [field] at stands
  exact ⟨after, done, relaid_of_stands stands frame⟩

/-- A deletion on a directory whose first entry with the number is at this record. -/
theorem delete_at (laid : Laid haveTypeField volume inode row)
    (tiles : Tiles haveTypeField (firstBlock volume inode) row unused live)
    (sized : heap.Sized volume.blockSize)
    {rounds : Nat} (enough : volume.blockSize ≤ rounds)
    (split : unused ++ live = front ++ record :: back)
    (others : ∀ other ∈ front, other.Live → other.raw.inode ≠ entryInode) (isLive : record.Live)
    (here : record.raw.inode = entryInode) (last : LastLive front place) :
    ∃ after, Directory.deleteEntry haveTypeField inode entryInode heap rounds volume = .ok ()
      after ∧
      Relaid volume inode (deleted haveTypeField (joined (front ++ record :: back))
        (itemOf record front place))
        after := by
  obtain ⟨start, loaded, made, opened⟩ := opens laid tiles openModeWrite sized
  have count := length_le_joined (unused ++ live)
  rw [← opened.size, opened.isLoaded.size,
    laid.one, split, List.length_append, List.length_cons] at count
  have tiled := tiles.block
  rw [split] at opened tiled
  have begins : LastLive ([] : List (Record haveTypeField)) loaded.lastEntryOffset := by
    rw [opened.last]
    exact .none fun _ impossible => absurd impossible List.not_mem_nil
  obtain ⟨there, lastThere, reached⟩ :=
    delete_loop_to rounds opened.between others isLive here begins (by omega)
  rw [List.nil_append] at lastThere reached
  rw [last_live_unique lastThere last] at reached
  have moved := loaded_moved opened.isLoaded (front ++ [record]) (some (joined front).length)
  obtain ⟨after, done, relaid⟩ := delete_relays laid moved opened.between.field tiled last
  have first : deleteLoop entryInode rounds start = deleteLoop entryInode rounds loaded := by
    obtain ⟨more, rfl⟩ : ∃ more, rounds = more + 1 := ⟨rounds - 1, by omega⟩
    change (next >>= _ : OnIterator Unit) start = _
    rw [state_bind_congr opened.same]
    rfl
  rw [← reached, ← first] at done
  exact ⟨_, with_iterator_ok made done, relaid⟩

theorem delete_missing (laid : Laid haveTypeField volume inode row)
    (tiles : Tiles haveTypeField (firstBlock volume inode) row unused live)
    (sized : heap.Sized volume.blockSize)
    {rounds : Nat} (enough : volume.blockSize ≤ rounds)
    (others : ∀ other ∈ unused ++ live, other.Live → other.raw.inode ≠ entryInode) :
    ∃ after, Directory.deleteEntry haveTypeField inode entryInode heap (rounds + 1) volume =
        .error (.failure (.error .entryNotFound)) after ∧
          LaidAfter haveTypeField volume inode row after := by
  obtain ⟨start, loaded, made, opened⟩ := opens laid tiles openModeWrite sized
  have count := length_le_joined (unused ++ live)
  rw [← opened.size, opened.isLoaded.size, laid.one] at count
  obtain ⟨place, failed⟩ := delete_loop_missing (rounds + 1)
    opened.between opened.size others (by omega)
  have first : deleteLoop entryInode (rounds + 1) start = deleteLoop entryInode (rounds + 1)
      loaded := by
    change (next >>= _ : OnIterator Unit) start = _
    rw [state_bind_congr opened.same]
    rfl
  rw [← first] at failed
  obtain ⟨stores, frame⟩ := volume_of_loaded opened.isLoaded
  exact ⟨_, with_iterator_error made failed, laid_of_read laid stores frame⟩

theorem delete_nothing (laid : Laid haveTypeField volume inode row)
    (sized : heap.Sized volume.blockSize)
    {rounds : Nat} (enough : volume.blockSize ≤ rounds)
    (none_ : row.remove (hasNumber entryInode) = none) :
    ∃ after, Directory.deleteEntry haveTypeField inode entryInode heap (rounds + 1) volume =
        .error (.failure (.error .entryNotFound)) after ∧
          LaidAfter haveTypeField volume inode row after := by
  obtain ⟨unused, live, tiles⟩ := laid.tiles
  rcases row.removes (hasNumber entryInode) with ⟨-, stay⟩ | ⟨slot, later, -, -, removed⟩ |
      ⟨before, previousSlot, slot, later, -, -, -, -, removed⟩
  · rw [tiles.slots] at stay
    refine delete_missing laid tiles sized enough fun other member isLive => ?_
    rcases List.mem_append.mp member with idle | busy
    · exact absurd isLive (tiles.idle other idle)
    · exact (has_not_number other).mp (stay _ (List.mem_map_of_mem busy))
  · cases none_.symm.trans removed
  · cases none_.symm.trans removed

/-- The first live record has none before it that could take its space. -/
theorem delete_first (laid : Laid haveTypeField volume inode row)
    (tiles : Tiles haveTypeField (firstBlock volume inode) row unused (record :: back))
    (sized : heap.Sized volume.blockSize) {rounds : Nat} (enough : volume.blockSize ≤ rounds)
    (here : record.raw.inode = entryInode) :
    ∃ after, Directory.deleteEntry haveTypeField inode entryInode heap rounds volume = .ok ()
      after ∧
      LaidAfter haveTypeField volume inode ⟨row.lost + record.bytes.length, back.map slotOf⟩
        after := by
  have isLive := tiles.busy record List.mem_cons_self
  obtain ⟨after, done, relaid⟩ := delete_at laid tiles sized enough rfl
    (fun other member isLive => absurd isLive (tiles.idle other member)) isLive here
      (.none tiles.idle)
  have list : unused ++ unusedRecord record :: back = (unused ++ [unusedRecord record]) ++
      back := by simp
  rw [deleted_none, list] at relaid
  refine ⟨after, done, laid_of_relaid laid relaid ⟨rfl, ?_, ?_, ?_, rfl⟩⟩
  · intro other member
    rcases List.mem_append.mp member with idle | last
    · exact tiles.idle other idle
    · rw [List.mem_singleton.mp last]
      exact unused_record_not_live record
  · exact fun other member => tiles.busy other (List.mem_cons_of_mem _ member)
  · have one : (joined [unusedRecord record]).length = record.bytes.length := by
      rw [joined_cons, unused_record_bytes, List.length_append, length_erased_bytes]
      rfl
    rw [joined_append, List.length_append, ← tiles.lost, one]

theorem delete_behind (laid : Laid haveTypeField volume inode row)
    (tiles : Tiles haveTypeField (firstBlock volume inode)
      row unused (front ++ previous :: record :: back))
    (sized : heap.Sized volume.blockSize) {rounds : Nat} (enough : volume.blockSize ≤ rounds)
    (others : ∀ other ∈ front ++ [previous], other.raw.inode ≠ entryInode)
    (here : record.raw.inode = entryInode) :
    ∃ after, Directory.deleteEntry haveTypeField inode entryInode heap rounds volume = .ok ()
      after ∧
      LaidAfter haveTypeField volume inode ⟨row.lost, front.map slotOf ++
        ⟨previous.entry, previous.bytes.length + record.bytes.length⟩ :: back.map slotOf⟩
          after := by
  have isLive := tiles.busy record (by simp)
  have previousLive := tiles.busy previous (by simp)
  have parts : unused ++ (front ++ previous :: record :: back) =
      (unused ++ front ++ [previous]) ++ record :: back := by simp
  have last : LastLive (unused ++ front ++ [previous]) (some (joined (unused ++ front)).length) :=
    last_live_behind previousLive
  have different : ∀ other ∈ unused ++ front ++ [previous], other.Live →
      other.raw.inode ≠ entryInode := by
    intro other member isLive
    rw [List.append_assoc] at member
    rcases List.mem_append.mp member with idle | passed
    · exact absurd isLive (tiles.idle other idle)
    · exact others other passed
  obtain ⟨after, done, relaid⟩ := delete_at laid tiles sized enough parts different isLive here last
  have short : previous.bytes.length + record.bytes.length ≤ volume.blockSize := by
    rw [← length_first_block laid.on, tiles.block, parts]
    simp only [joined_append, joined_cons, List.length_append]
    omega
  have fitting : previous.bytes.length + record.bytes.length < 2 ^ 16 :=
    Nat.lt_of_le_of_lt short laid.small
  obtain ⟨lengthened, bytes, entry, stays⟩ := lengthened_record [] fitting
  have nothing : (joined ([] : List (Record haveTypeField)) ++ erasedBytes record true).drop
      record.bytes.length = [] :=
    List.drop_eq_nil_of_le (length_erased_bytes record true).le
  have block : deleted haveTypeField (joined (unused ++ front ++ [previous] ++ record :: back))
      (itemOf record (unused ++ front ++ [previous]) (some (joined (unused ++ front)).length)) =
        joined (unused ++ (front ++ lengthened :: back)) := by
    rw [deleted_parts, ← bytes, nothing, List.nil_append]
    simp only [joined_append, joined_cons, List.append_assoc]
  rw [block] at relaid
  have length : lengthened.bytes.length = previous.bytes.length + record.bytes.length := by
    rw [bytes, List.length_append, length_raw_bytes, length_lengthened_body]
  refine ⟨after, done, laid_of_relaid laid relaid ⟨rfl, tiles.idle, ?_, tiles.lost, ?_⟩⟩
  · have each := tiles.busy
    simp only [List.mem_append, List.mem_cons] at each ⊢
    rintro other (passed | rfl | later)
    · exact each other (.inl passed)
    · exact stays previousLive
    · exact each other (.inr (.inr (.inr later)))
  · rw [List.map_append, List.map_cons, slotOf, entry, length]

/-- The slot of the first entry with the number is added to the one before it, or lost. -/
theorem delete_row {later : Row DirectoryEntry} (laid : Laid haveTypeField volume inode row)
    (sized : heap.Sized volume.blockSize) {rounds : Nat} (enough : volume.blockSize ≤ rounds)
    (found : row.remove (hasNumber entryInode) = some later) :
    ∃ after, Directory.deleteEntry haveTypeField inode entryInode heap rounds volume = .ok ()
      after ∧
      LaidAfter haveTypeField volume inode later after := by
  obtain ⟨unused, live, tiles⟩ := laid.tiles
  rcases row.removes (hasNumber entryInode) with ⟨none_, -⟩ | ⟨slot, rest, split, gone, removed⟩ |
      ⟨before, previousSlot, slot, rest, split, stay, lastStays, gone, removed⟩
  · cases none_.symm.trans found
  · cases removed.symm.trans found
    rw [tiles.slots] at split
    obtain ⟨record, back, rfl, rfl, rfl⟩ := List.map_eq_cons_iff.mp split
    exact delete_first laid tiles sized enough ((has_number_iff record).mp gone)
  · cases removed.symm.trans found
    rw [tiles.slots] at split
    obtain ⟨front, both, rfl, rfl, pair⟩ := List.map_eq_append_iff.mp split
    obtain ⟨previous, one, rfl, rfl, single⟩ := List.map_eq_cons_iff.mp pair
    obtain ⟨record, back, rfl, rfl, rfl⟩ := List.map_eq_cons_iff.mp single
    refine delete_behind laid tiles sized enough (fun other member => ?_)
      ((has_number_iff record).mp gone)
    rcases List.mem_append.mp member with passed | last
    · exact (has_not_number other).mp (stay _ (List.mem_map_of_mem passed))
    · rw [List.mem_singleton.mp last]
      exact (has_not_number previous).mp lastStays

end Delete

end DirectoryIterator

end Campix.Ext2
