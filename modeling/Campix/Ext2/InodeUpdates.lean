import Campix.Ext2.RawInodes

/-!
# Updates of inodes

`update_inode_raw` reads the block of the record, changes 128 bytes of it and writes it
back. In a volume whose inode tables share no block, the records of two inodes share no
byte, so an update is seen by `get_inode` of the same number and by no other.
-/

namespace Campix.Ext2

open Lib.Fallible Lib.Outcome Lib.Slice Lib.Word

set_option autoImplicit false

namespace Ext2Volume

def tableBlocks (volume : Ext2Volume) : Nat := divCeil volume.inodesPerGroup volume.inodesPerBlock

/-- Records of 128 bytes and more, in tables that lie inside the volume and beside one
another. -/
structure InodeTables (volume : Ext2Volume) : Prop where
  record : 128 ≤ volume.inodeSize
  fits : volume.inodeSize ≤ volume.blockSize
  blockWord : volume.blockSize < 2 ^ 32
  countWord : volume.blockCount < 2 ^ 32
  perGroup : 0 < volume.inodesPerGroup
  perBlock : volume.inodesPerBlock = volume.blockSize / volume.inodeSize
  inside : ∀ (group block : Nat), volume.inodeTables[group]? = some block →
    block + volume.tableBlocks ≤ volume.blockCount
  apart : ∀ (group other block beside : Nat), group ≠ other →
    volume.inodeTables[group]? = some block →
    volume.inodeTables[other]? = some beside →
      block + volume.tableBlocks ≤ beside ∨ beside + volume.tableBlocks ≤ block

def RecordsHeld (volume : Ext2Volume) : Prop :=
  ∀ inode lba offset, volume.inodePlace inode = some (lba, offset) →
    volume.HoldsAt lba (volume.device lba) ∧ (volume.device lba).length = volume.blockSize

variable {volume after : Ext2Volume} {inode : Nat}

theorem slots_apart {left right : Nat} (per size : Nat) (different : left ≠ right) :
    left / per ≠ right / per ∨ left % per * size + size ≤ right % per * size ∨
      right % per * size + size ≤ left % per * size := by
  by_cases row : left / per = right / per
  · have column : left % per ≠ right % per := by
      intro same
      apply different
      rw [← Nat.div_add_mod left per, ← Nat.div_add_mod right per, row, same]
    right
    rcases Nat.lt_or_gt_of_ne column with less | more
    · left
      rw [← Nat.succ_mul]
      exact Nat.mul_le_mul_right size less
    · right
      rw [← Nat.succ_mul]
      exact Nat.mul_le_mul_right size more
  · exact .inl row

theorem per_block_pos (tables : volume.InodeTables) : 0 < volume.inodesPerBlock := by
  have record := tables.record
  rw [tables.perBlock]
  exact Nat.div_pos tables.fits (by omega)

theorem slot_inside (tables : volume.InodeTables) (index : Nat) :
    index % volume.inodesPerBlock * volume.inodeSize + volume.inodeSize ≤ volume.blockSize := by
  have column : index % volume.inodesPerBlock < volume.inodesPerBlock :=
    Nat.mod_lt _ (per_block_pos tables)
  calc index % volume.inodesPerBlock * volume.inodeSize + volume.inodeSize
      = (index % volume.inodesPerBlock + 1) * volume.inodeSize := (Nat.succ_mul _ _).symm
    _ ≤ volume.inodesPerBlock * volume.inodeSize := Nat.mul_le_mul_right _ column
    _ ≤ volume.blockSize := by
        rw [tables.perBlock]
        exact Nat.div_mul_le_self _ _

theorem row_inside (tables : volume.InodeTables) {index : Nat}
    (below : index < volume.inodesPerGroup) :
    index / volume.inodesPerBlock < volume.tableBlocks := by
  have positive := per_block_pos tables
  have next : index / volume.inodesPerBlock + 1 = (index + volume.inodesPerBlock) /
      volume.inodesPerBlock :=
    (Nat.add_div_right index positive).symm
  have bound : (index + volume.inodesPerBlock) / volume.inodesPerBlock ≤ volume.tableBlocks :=
    Nat.div_le_div_right (by omega)
  omega

theorem inode_place_none (table : volume.inodeTables[volume.getInodeGroup inode]? = none) :
    volume.inodePlace inode = none := by
  unfold inodePlace
  dsimp only
  rw [table]

/-- Where a record is, without the wrapping of the words. -/
theorem inode_place_eq (tables : volume.InodeTables) {block : Nat}
    (table : volume.inodeTables[volume.getInodeGroup inode]? = some block) :
    volume.inodePlace inode = some (block +
      volume.getInodeIndexInGroup inode / volume.inodesPerBlock,
      volume.getInodeIndexInGroup inode % volume.inodesPerBlock * volume.inodeSize) := by
  have below : volume.getInodeIndexInGroup inode < volume.inodesPerGroup :=
    Nat.mod_lt _ tables.perGroup
  have row := row_inside tables below
  have slot := slot_inside tables (volume.getInodeIndexInGroup inode)
  have inside := tables.inside _ _ table
  have blockWord := tables.blockWord
  have countWord := tables.countWord
  unfold inodePlace
  dsimp only
  rw [table]
  dsimp only
  rw [add32, Nat.mod_eq_of_lt (by omega), mul32, Nat.mod_eq_of_lt (by omega)]

theorem inode_place_cases (tables : volume.InodeTables) {lba offset : Nat}
    (place : volume.inodePlace inode = some (lba, offset)) :
    ∃ block, volume.inodeTables[volume.getInodeGroup inode]? = some block ∧
      lba = block + volume.getInodeIndexInGroup inode / volume.inodesPerBlock ∧
      offset = volume.getInodeIndexInGroup inode % volume.inodesPerBlock * volume.inodeSize ∧
      volume.getInodeIndexInGroup inode / volume.inodesPerBlock < volume.tableBlocks ∧
      offset + volume.inodeSize ≤ volume.blockSize := by
  cases table : volume.inodeTables[volume.getInodeGroup inode]? with
  | none =>
      rw [inode_place_none table] at place
      cases place
  | some block =>
      rw [inode_place_eq tables table] at place
      cases place
      exact ⟨block, rfl, rfl, rfl, row_inside tables (Nat.mod_lt _ tables.perGroup),
        slot_inside tables _⟩

theorem place_inside (tables : volume.InodeTables) {lba offset : Nat}
    (place : volume.inodePlace inode = some (lba, offset)) :
    lba < volume.blockCount ∧ offset + 128 ≤ volume.blockSize := by
  obtain ⟨block, table, rfl, _, row, slot⟩ := inode_place_cases tables place
  have inside := tables.inside _ _ table
  have record := tables.record
  exact ⟨by omega, by omega⟩

theorem group_or_index {number : Nat} (first : 1 ≤ inode) (second : 1 ≤ number)
    (different : inode ≠ number) :
    volume.getInodeGroup inode ≠ volume.getInodeGroup number ∨
      volume.getInodeIndexInGroup inode ≠ volume.getInodeIndexInGroup number := by
  by_contra both
  rw [not_or, not_not, not_not] at both
  obtain ⟨group, index⟩ := both
  unfold getInodeGroup at group
  unfold getInodeIndexInGroup at index
  have same : sub32 inode 1 = sub32 number 1 := by
    rw [← Nat.div_add_mod (sub32 inode 1) volume.inodesPerGroup, group, index, Nat.div_add_mod]
  rw [sub32, sub32, if_pos first, if_pos second] at same
  omega

/-- The records of two inodes share no byte. -/
theorem places_apart (tables : volume.InodeTables) {number : Nat} (first : 1 ≤ inode)
    (second : 1 ≤ number)
    (different : inode ≠ number) {lba offset beside start : Nat}
    (place : volume.inodePlace inode = some (lba, offset))
    (later : volume.inodePlace number = some (beside, start)) :
    lba ≠ beside ∨ offset + 128 ≤ start ∨ start + 128 ≤ offset := by
  obtain ⟨block, table, lbaEq, offsetEq, row, _⟩ := inode_place_cases tables place
  obtain ⟨back, laterTable, besideEq, startEq, laterRow, _⟩ := inode_place_cases tables later
  have record := tables.record
  by_cases group : volume.getInodeGroup inode = volume.getInodeGroup number
  · -- in one table the slots decide
    have index := (group_or_index first second different).resolve_left (not_not.mpr group)
    obtain rfl : block = back := by
      rw [group, laterTable] at table
      cases table
      rfl
    rcases slots_apart volume.inodesPerBlock volume.inodeSize index with rows | before | behind
    · left
      omega
    · right
      left
      omega
    · right
      right
      omega
  · -- the rows lie in tables that share no block
    left
    generalize volume.getInodeIndexInGroup inode / volume.inodesPerBlock = here at lbaEq row
    generalize volume.getInodeIndexInGroup number / volume.inodesPerBlock =
      there at besideEq laterRow
    rcases tables.apart _ _ _ _ group table laterTable with before | behind
    · omega
    · omega

theorem place_of_frame (same : after.frame = volume.frame) (inode : Nat) :
    after.inodePlace inode = volume.inodePlace inode := by
  change after.frame.inodePlace inode = volume.frame.inodePlace inode
  rw [same]

theorem tables_of_frame (same : after.frame = volume.frame) (tables : volume.InodeTables) :
    after.InodeTables := by
  have kept : after.frame.InodeTables := by
    rw [same]
    exact ⟨tables.record, tables.fits, tables.blockWord, tables.countWord, tables.perGroup,
      tables.perBlock,
      tables.inside, tables.apart⟩
  exact ⟨kept.record, kept.fits, kept.blockWord, kept.countWord, kept.perGroup, kept.perBlock,
    kept.inside,
    kept.apart⟩

theorem read_held {lba : Nat} {block : Block} (inside : lba < volume.blockCount)
    (holds : volume.HoldsAt lba block) (sized : block.length = volume.blockSize) :
    ∃ seen, readBlock lba (List.replicate volume.blockSize 0)
      volume = .ok (volume.blockSize, block) seen ∧
      Unmoved (fun _ => True) volume seen := by
  have length : (List.replicate volume.blockSize (0 : UInt8)).length = volume.blockSize :=
    List.length_replicate
  have moved := @read_block_holds volume lba (List.replicate volume.blockSize 0)
  rw [readBlock, state_bind_get, if_neg (by omega), if_neg (by omega)] at moved ⊢
  cases found : volume.cached lba with
  | none =>
      have rest : (List.replicate volume.blockSize (0 : UInt8)).drop block.length = [] :=
        List.drop_eq_nil_of_le (by omega)
      rw [found] at moved
      dsimp only at moved ⊢
      rw [holds.device] at moved ⊢
      rw [rest, List.append_nil] at moved ⊢
      refine ⟨_, by rw [← sized]; rfl, ?_⟩
      cases moved with
      | ok kept => exact kept.1
  | some seen =>
      obtain rfl := cached_holds holds found
      rw [found] at moved
      dsimp only at moved ⊢
      rw [if_neg (by omega)] at moved ⊢
      refine ⟨_, rfl, ?_⟩
      cases moved with
      | ok kept => exact kept.1

/-- What `get_inode` makes of the bytes at the place of the inode. -/
def inodeOf (data : Option (List UInt8)) (inode : Nat) (parentInode : Option Nat) :
    Except Failure FoundInode :=
  match data with
  | none => .error .panic
  | some data =>
      match Inode.fromRaw (RawInode.ofBytes data) inode parentInode with
      | none => .error .panic
      | some found => .ok found

theorem get_inode_eq (tables : volume.InodeTables) {inodesCount : Nat} (first : 1 ≤ inode)
    (last : inode ≤ inodesCount) (parentInode : Option Nat) {lba offset : Nat} {block : Block}
    (place : volume.inodePlace inode = some (lba, offset)) (holds : volume.HoldsAt lba block)
    (sized : block.length = volume.blockSize) :
    answerOf (getInode inodesCount inode parentInode volume) =
      inodeOf (getSlice block offset (offset + 128)) inode parentInode := by
  obtain ⟨seen, returned, -⟩ := read_held (place_inside tables place).1 holds sized
  unfold getInode
  rw [if_neg (by omega), state_bind_get, place]
  dsimp only
  rw [state_bind_ok returned]
  dsimp only
  cases getSlice block offset (offset + 128) with
  | none => rfl
  | some data =>
      dsimp only [inodeOf]
      cases Inode.fromRaw (RawInode.ofBytes data) inode parentInode with
      | none => rfl
      | some found => rfl

/-- A number in a group without a table is refused, whatever the blocks hold. -/
theorem get_inode_missing {inodesCount : Nat} (first : 1 ≤ inode) (last : inode ≤ inodesCount)
    (parentInode : Option Nat) (place : volume.inodePlace inode = none) :
    answerOf (getInode inodesCount inode parentInode volume) = .error (.error .driverError) := by
  unfold getInode
  rw [if_neg (by omega), state_bind_get, place]
  rfl

theorem update_inode_spec (tables : volume.InodeTables) (raw : RawInode) {lba offset : Nat}
    {block : Block}
    (place : volume.inodePlace inode = some (lba, offset)) (holds : volume.HoldsAt lba block)
    (sized : block.length = volume.blockSize) :
    Yields (fun _ after => Unmoved (fun other => other ≠ lba) volume after ∧
        after.HoldsAt lba (splice block offset raw.bytes))
      (fun _ => True) (updateInodeRaw inode raw volume) := by
  obtain ⟨inside, room⟩ := place_inside tables place
  obtain ⟨seen, returned, kept⟩ := read_held inside holds sized
  have length := RawInode.length_bytes raw
  have copied : copyFromSlice block offset (offset + 128)
      raw.bytes = some (splice block offset raw.bytes) :=
    copy_from_slice_eq (by omega) (by omega) (by omega)
  have whole : (splice block offset raw.bytes).take seen.blockSize = splice block offset
      raw.bytes := by
    apply List.take_of_length_le
    rw [length_splice (by omega), sized, block_size_of_frame kept.frame]
  have count := block_count_of_frame kept.frame
  unfold updateInodeRaw
  rw [state_bind_get, place]
  dsimp only
  rw [state_bind_ok returned]
  dsimp only
  rw [copied]
  refine yields_bind (write_block_holds lba _) fun _ after ⟨moved, written⟩ => .ok ⟨?_, ?_⟩
  · exact unmoved_trans (unmoved_weaken kept fun _ _ => trivial) moved
  · have stored := written (by omega)
    rwa [whole] at stored

theorem update_inode_missing (raw : RawInode) (place : volume.inodePlace inode = none) :
    updateInodeRaw inode raw volume = .error (.error .driverError) volume := by
  unfold updateInodeRaw
  rw [state_bind_get, place]
  rfl

theorem update_inode_ok (tables : volume.InodeTables) (held : volume.RecordsHeld) {raw : RawInode}
    (updated : updateInodeRaw inode raw volume = .ok () after) :
    ∃ lba offset, volume.inodePlace inode = some (lba, offset) ∧
      Unmoved (fun other => other ≠ lba) volume after ∧
      after.HoldsAt lba (splice (volume.device lba) offset raw.bytes) ∧
      offset + raw.bytes.length ≤ (volume.device lba).length ∧
      (volume.device lba).length = volume.blockSize := by
  cases place : volume.inodePlace inode with
  | none =>
      rw [update_inode_missing raw place] at updated
      cases updated
  | some spot =>
      obtain ⟨lba, offset⟩ := spot
      obtain ⟨holds, sized⟩ := held inode lba offset place
      have room := (place_inside tables place).2
      have length := RawInode.length_bytes raw
      have spec := update_inode_spec tables raw place holds sized
      rw [updated] at spec
      cases spec with
      | ok done => exact ⟨lba, offset, rfl, done.1, done.2, by omega, sized⟩

theorem records_held_update (tables : volume.InodeTables) (held : volume.RecordsHeld)
    {raw : RawInode}
    (updated : updateInodeRaw inode raw volume = .ok () after) : after.InodeTables ∧
    after.RecordsHeld := by
  obtain ⟨lba, offset, place, moved, stored, fits, sized⟩ := update_inode_ok tables held updated
  have size := block_size_of_frame moved.frame
  refine ⟨tables_of_frame moved.frame tables, fun number there start beside => ?_⟩
  rw [place_of_frame moved.frame] at beside
  by_cases shared : there = lba
  · subst shared
    rw [stored.device]
    exact ⟨stored, by rw [length_splice fits, sized, size]⟩
  · obtain ⟨thereHolds, thereSized⟩ := held number there start beside
    have kept := moved.holds there _ shared thereHolds
    rw [kept.device]
    exact ⟨kept, thereSized.trans size.symm⟩

theorem update_inode_eq (tables : volume.InodeTables) (inode : Inode)
    (complete : inode.ossv2.length = 12) :
    Cursor.updateInode inode volume =
      updateInodeRaw inode.inodeI
        { inode with generationNumber := add32 inode.generationNumber 1 }.toRawInode volume := by
  have bytes := Inode.get_raw_bytes
    { inode with generationNumber := add32 inode.generationNumber 1 } complete
  unfold Cursor.updateInode updateInodeRaw
  rw [state_bind_get, state_bind_get]
  dsimp only
  rw [bytes, RawInode.length_bytes]
  cases table : volume.inodeTables[sub32 inode.inodeI 1 / volume.inodesPerGroup]? with
  | none => rw [inode_place_none table]
  | some block =>
      have row := row_inside tables (Nat.mod_lt (sub32 inode.inodeI 1) tables.perGroup)
      have inside := tables.inside _ _ table
      have countWord := tables.countWord
      have lbaEq : add32 block (volume.getInodeIndexInGroup inode.inodeI / volume.inodesPerBlock) =
          block + volume.getInodeIndexInGroup inode.inodeI / volume.inodesPerBlock :=
        Nat.mod_eq_of_lt (by
          change block + sub32 inode.inodeI 1 % volume.inodesPerGroup / volume.inodesPerBlock < _
          omega)
      rw [inode_place_eq tables table, ← lbaEq]
      rfl

/-- After an update the number has the record that was written, every other number what it
had, and the record can be had back from the inode. -/
theorem updates_isolated (tables : volume.InodeTables) (held : volume.RecordsHeld)
    {inodesCount i j : Nat}
    (firstI : 1 ≤ i) (lastI : i ≤ inodesCount) (firstJ : 1 ≤ j) (lastJ : j ≤ inodesCount)
    {raw : RawInode}
    (valid : (InodeType.ofRaw (raw.typeAndPermissions &&& 0xF000).toNat).isSome)
    (updated : updateInodeRaw i raw volume = .ok () after) (parentInode : Option Nat) :
    (∃ found, Inode.fromRaw raw i parentInode = some found ∧
        answerOf (getInode inodesCount i parentInode after) = .ok found ∧ found.toRawInode = raw) ∧
      (j ≠ i → answerOf (getInode inodesCount j parentInode after) =
        answerOf (getInode inodesCount j parentInode volume)) := by
  obtain ⟨lba, offset, place, moved, stored, fits, sized⟩ := update_inode_ok tables held updated
  have length := RawInode.length_bytes raw
  have size := block_size_of_frame moved.frame
  have whole : (splice (volume.device lba) offset raw.bytes).length = after.blockSize := by
    rw [length_splice fits, sized, size]
  have tablesAfter := tables_of_frame moved.frame tables
  have samePlace := place_of_frame moved.frame
  constructor
  · have back := get_slice_splice fits
    rw [length] at back
    obtain ⟨found, known⟩ : ∃ found, Inode.fromRaw raw i parentInode = some found := by
      unfold Inode.fromRaw
      obtain ⟨inodeType, known⟩ := Option.isSome_iff_exists.mp valid
      rw [known]
      exact ⟨_, rfl⟩
    refine ⟨found, known, ?_, Inode.to_raw_from_raw known⟩
    rw [get_inode_eq tablesAfter firstI lastI parentInode ((samePlace i).trans place)
      stored whole, back,
      inodeOf, RawInode.of_bytes, known]
  · intro different
    cases beside : volume.inodePlace j with
    | none =>
        rw [get_inode_missing firstJ lastJ parentInode ((samePlace j).trans beside),
          get_inode_missing firstJ lastJ parentInode beside]
    | some other =>
        obtain ⟨there, start⟩ := other
        obtain ⟨thereHolds, thereSized⟩ := held j there start beside
        have laterPlace := (samePlace j).trans beside
        rw [get_inode_eq tables firstJ lastJ parentInode beside thereHolds thereSized]
        by_cases shared : there = lba
        · -- records of one block
          subst shared
          have apart := (places_apart tables firstI firstJ (Ne.symm different)
            place beside).resolve_left
            (not_not.mpr rfl)
          rw [get_inode_eq tablesAfter firstJ lastJ parentInode laterPlace stored whole,
            get_slice_splice_apart fits (by omega)]
        · have kept := moved.holds there _ shared thereHolds
          rw [get_inode_eq tablesAfter firstJ lastJ
            parentInode laterPlace kept (thereSized.trans size.symm)]

def fileRecord (size direct : UInt32) : RawInode where
  typeAndPermissions := 0x81A4
  uid := 0
  sizeLo := size
  atime := 0
  ctime := 0
  mtime := 0
  dtime := 0
  gid := 0
  linksCount := 1
  sectorsCount := 2
  flags := 0
  ossv1 := 0
  directBlockPointers := fun place => if place = 0 then direct else 0
  singleIndirectBlockPointer := 0
  doubleIndirectBlockPointer := 0
  tripleIndirectBlockPointer := 0
  generationNumber := 0
  extendedAttributeBlock := 0
  sizeHiOrDirAcl := 0
  fragmentBlock := 0
  ossv2 := fun _ => 0

def twoTables : Ext2Volume where
  device := fun _ => splice (List.replicate 1024 0)
    0 ((fileRecord 20 9).bytes ++ (fileRecord 30 10).bytes)
  blockCache := []
  blockCacheSize := 1
  bitmaps := fun _ => []
  readOnly := false
  fileSize64 := true
  blockSize := 1024
  blockCount := 16
  sectorsPerBlock := 2
  blockGroupCount := 2
  blocksPerGroup := 8
  superblockBlock := 1
  inodesPerGroup := 8
  inodesPerBlock := 8
  inodeSize := 128
  inodeTables := [5, 6]

theorem two_tables_tables : twoTables.InodeTables where
  record := by decide
  fits := by decide
  blockWord := by decide
  countWord := by decide
  perGroup := by decide
  perBlock := by decide
  inside := by
    intro group block here
    match group, here with
    | 0, here => cases here; decide
    | 1, here => cases here; decide
    | group + 2, here => cases here
  apart := by
    intro group other block beside different here there
    match group, other, here, there with
    | 0, 0, _, _ => exact absurd rfl different
    | 1, 1, _, _ => exact absurd rfl different
    | 0, 1, here, there => cases here; cases there; decide
    | 1, 0, here, there => cases here; cases there; decide
    | group + 2, _, here, _ => cases here
    | _, other + 2, _, there => cases there

theorem two_tables_held : twoTables.RecordsHeld := by
  intro inode lba offset _
  refine ⟨⟨rfl, fun item member => absurd member List.not_mem_nil⟩, ?_⟩
  have fits : 0 + ((fileRecord 20 9).bytes ++ (fileRecord 30 10).bytes).length ≤
      (List.replicate 1024 (0 : UInt8)).length := by
    rw [List.length_append, RawInode.length_bytes, RawInode.length_bytes, List.length_replicate]
    decide
  exact (length_splice fits).trans List.length_replicate

theorem second_file_updated : ∃ after,
    updateInodeRaw 2 (fileRecord 40 11) twoTables = .ok () after ∧
      (∃ found, Inode.fromRaw (fileRecord 40 11) 2 none = some found ∧
        answerOf (getInode 16 2 none after) = .ok found ∧ found.toRawInode = fileRecord 40 11) ∧
      ((1 : Nat) ≠ 2 → answerOf (getInode 16 1 none after) = answerOf
        (getInode 16 1 none twoTables)) := by
  have returns : (answerOf (updateInodeRaw 2 (fileRecord 40 11) twoTables)).toBool = true := by
    decide +kernel
  cases updated : updateInodeRaw 2 (fileRecord 40 11) twoTables with
  | ok done after =>
      exact ⟨after, rfl, updates_isolated two_tables_tables two_tables_held (by decide) (by decide)
        (by decide)
        (by decide) (by decide) updated none⟩
  | error failure after =>
      rw [updated] at returns
      exact absurd returns Bool.false_ne_true

end Ext2Volume

end Campix.Ext2
