import Campix.Ext2.Allocators
import Campix.Ext2.Contents
import Campix.Lib.Blocks

/-!
# The table of group descriptors on the disk

`read_block_group_descriptor_table` reads the table when a volume is mounted,
`set_block_group_descriptor` changes an entry of it, in memory and in every copy on the
disk. The reader finds the table in the block behind the superblock: that is the third
block of the device where blocks have 1024 bytes, and the second one where they are larger.
The writer takes the third block in any case.
-/

namespace Campix.Ext2

open Lib.Fallible Lib.Outcome Lib.Slice Lib.Word Lib.Caching
open Lib.Blocks

set_option autoImplicit false

namespace BlockGroupDescriptor

/-- `BlockGroupDescriptor::of` behind the read of the raw structure. -/
def ofRaw (bytes : List UInt8) : BlockGroupDescriptor where
  usageBitmap
    | .blocks => readLe bytes 0 4
    | .inodes => readLe bytes 4 4
  inodeTableBlock := readLe bytes 8 4
  freeCount
    | .blocks => readLe bytes 12 2
    | .inodes => readLe bytes 14 2
  directoryCount := readLe bytes 16 2

def fromBytes (bytes : List UInt8) : Option BlockGroupDescriptor :=
  if bytes.length < blockGroupDescriptorSize then none else some (ofRaw bytes)

/-- The fields are `u32` and `u16`. -/
structure Fits (descriptor : BlockGroupDescriptor) : Prop where
  usageBitmap : ∀ space, descriptor.usageBitmap space < 2 ^ 32
  inodeTableBlock : descriptor.inodeTableBlock < 2 ^ 32
  freeCount : ∀ space, descriptor.freeCount space < 2 ^ 16
  directoryCount : descriptor.directoryCount < 2 ^ 16

theorem length_to_raw (descriptor : BlockGroupDescriptor) : descriptor.toRaw.length = 32 := by
  simp only [toRaw, List.length_append, length_to_le, List.length_replicate]

theorem of_raw_to_raw {descriptor : BlockGroupDescriptor} (fits : descriptor.Fits) :
    ofRaw descriptor.toRaw = descriptor := by
  have raw : descriptor.toRaw = toLe (descriptor.usageBitmap .blocks) 4 ++
      (toLe (descriptor.usageBitmap .inodes) 4 ++ (toLe descriptor.inodeTableBlock 4 ++
      (toLe (descriptor.freeCount .blocks) 2 ++ (toLe (descriptor.freeCount .inodes) 2 ++
      (toLe descriptor.directoryCount 2 ++ List.replicate 14 0))))) := by
    rw [toRaw]
    simp only [List.append_assoc]
  have bitmaps : (ofRaw descriptor.toRaw).usageBitmap = descriptor.usageBitmap := by
    funext space
    cases space with
    | blocks =>
        change readLe descriptor.toRaw 0 4 = _
        rw [raw, read_le_first (fits.usageBitmap .blocks)]
    | inodes =>
        change readLe descriptor.toRaw (4 + 0) 4 = _
        rw [raw, read_le_later, read_le_first (fits.usageBitmap .inodes)]
  have table : (ofRaw descriptor.toRaw).inodeTableBlock = descriptor.inodeTableBlock := by
    change readLe descriptor.toRaw (4 + (4 + 0)) 4 = _
    rw [raw, read_le_later, read_le_later, read_le_first fits.inodeTableBlock]
  have free : (ofRaw descriptor.toRaw).freeCount = descriptor.freeCount := by
    funext space
    cases space with
    | blocks =>
        change readLe descriptor.toRaw (4 + (4 + (4 + 0))) 2 = _
        rw [raw, read_le_later, read_le_later,
          read_le_later, read_le_first (fits.freeCount .blocks)]
    | inodes =>
        change readLe descriptor.toRaw (4 + (4 + (4 + (2 + 0)))) 2 = _
        rw [raw, read_le_later, read_le_later, read_le_later, read_le_later,
          read_le_first (fits.freeCount .inodes)]
  have directories : (ofRaw descriptor.toRaw).directoryCount = descriptor.directoryCount := by
    change readLe descriptor.toRaw (4 + (4 + (4 + (2 + (2 + 0))))) 2 = _
    rw [raw, read_le_later, read_le_later, read_le_later, read_le_later, read_le_later,
      read_le_first fits.directoryCount]
  calc ofRaw descriptor.toRaw = ⟨(ofRaw descriptor.toRaw).usageBitmap,
        (ofRaw descriptor.toRaw).inodeTableBlock, (ofRaw descriptor.toRaw).freeCount,
        (ofRaw descriptor.toRaw).directoryCount⟩ := rfl
    _ = descriptor := by rw [bitmaps, table, free, directories]

end BlockGroupDescriptor

namespace Accounts

variable {lru : BoundedMap Nat GroupAllocator}

/-- A seek and a read on the device, into a buffer of zeros; a read that meets the end of
the device leaves the rest of the buffer as it was. -/
def readDevice (startByte length : Nat) : OnVolume (List UInt8) := do
  let volume ← get
  let device := concat volume.device volume.blockCount
  if startByte > volume.blockSize * volume.blockCount then
    throw (.error .invalidSeekPosition)
  else
    let read := (device.drop startByte).take length
    return read ++ List.replicate (length - read.length) 0

/-- The loop over the entries from `i` on. -/
def pushDescriptors (table : List UInt8) : Nat → Nat → OnAccounts lru Unit
  | 0, _ => pure ()
  | left + 1, i =>
      match getSlice table (mul32 i blockGroupDescriptorSize)
        (mul32 (add32 i 1) blockGroupDescriptorSize) with
      | none => throw .panic
      | some bytes =>
          match BlockGroupDescriptor.fromBytes bytes with
          | none => throw (.error .driverError)
          | some descriptor => do
              modify fun self => { self with
                blockGroupDescriptorTable := self.blockGroupDescriptorTable ++ [descriptor] }
              pushDescriptors table left (i + 1)

def readBlockGroupDescriptorTable : OnAccounts lru Unit := do
  let self ← get
  let entryCount := self.volume.blockGroupCount
  let tableSize := mul32 entryCount blockGroupDescriptorSize
  let startByte := if self.volume.blockSize = 1024 then 2048 else self.volume.blockSize
  let table ← onVolume (readDevice startByte tableSize)
  pushDescriptors table entryCount 0

def readTable (self : Accounts lru) : Except Failure (List BlockGroupDescriptor) :=
  match readBlockGroupDescriptorTable { self with blockGroupDescriptorTable := [] } with
  | .ok _ after => .ok after.blockGroupDescriptorTable
  | .error failure _ => .error failure

theorem push_descriptors_ok {table : List UInt8} {bytes : Nat → List UInt8} (left : Nat) :
    ∀ {i : Nat} {self : Accounts lru},
      (∀ j, i ≤ j → j < i + left → getSlice table (mul32 j blockGroupDescriptorSize)
        (mul32 (add32 j 1) blockGroupDescriptorSize) = some (bytes j) ∧ (bytes j).length = 32) →
      pushDescriptors table left i self = .ok () { self with
        blockGroupDescriptorTable := self.blockGroupDescriptorTable ++
          (List.range' i left).map fun j => BlockGroupDescriptor.ofRaw (bytes j) } := by
  induction left with
  | zero =>
      intro i self _
      change EStateM.Result.ok () self = _
      rw [List.range'_zero, List.map_nil, List.append_nil]
  | succ left ih =>
      intro i self slices
      obtain ⟨slice, length⟩ := slices i le_rfl (by omega)
      have decoded : BlockGroupDescriptor.fromBytes (bytes i) = some (.ofRaw (bytes i)) := by
        rw [BlockGroupDescriptor.fromBytes, length]
        rfl
      rw [pushDescriptors, slice]
      dsimp only
      rw [decoded]
      have rest := @ih (i + 1) { self with blockGroupDescriptorTable :=
        self.blockGroupDescriptorTable ++ [.ofRaw (bytes i)] }
        fun j low high => slices j (by omega) (by omega)
      change pushDescriptors table left (i + 1) { self with blockGroupDescriptorTable :=
        self.blockGroupDescriptorTable ++ [.ofRaw (bytes i)] } = _
      rw [rest, List.range'_succ, List.map_cons, List.append_assoc]
      rfl

/-- A table is read to its end only if each of its slices lies in the buffer. -/
theorem push_descriptors_slices {table : List UInt8} (left : Nat) :
    ∀ {i : Nat} {self after : Accounts lru}, pushDescriptors table left i self = .ok () after →
      ∀ j, i ≤ j → j < i + left → getSlice table (mul32 j blockGroupDescriptorSize)
        (mul32 (add32 j 1) blockGroupDescriptorSize) ≠ none := by
  induction left with
  | zero => exact fun _ j low high => absurd high (by omega)
  | succ left ih =>
      intro i self after returned j low high
      rw [pushDescriptors] at returned
      cases slice : getSlice table (mul32 i blockGroupDescriptorSize)
        (mul32 (add32 i 1) blockGroupDescriptorSize) with
      | none =>
          rw [slice] at returned
          cases returned
      | some bytes =>
          rw [slice] at returned
          dsimp only at returned
          cases decoded : BlockGroupDescriptor.fromBytes bytes with
          | none =>
              rw [decoded] at returned
              cases returned
          | some descriptor =>
              rw [decoded] at returned
              by_cases first : j = i
              · rw [first, slice]
                exact Option.some_ne_none bytes
              · exact ih returned j (by omega) (by omega)

section Slots

variable {volume : Ext2Volume}

def tableBlock (volume : Ext2Volume) : Nat := if volume.blockSize = 1024 then 2 else 1

def perBlock (volume : Ext2Volume) : Nat := volume.blockSize / 32

/-- The bytes that the reader takes for an entry. -/
def slot (volume : Ext2Volume) (idx : Nat) : List UInt8 :=
  let block := tableBlock volume + idx / perBlock volume
  if block < volume.blockCount then
    ((volume.device block).drop (idx % perBlock volume * 32)).take 32
  else
    List.replicate 32 0

theorem per_block_mul (size : ∃ log, volume.blockSize = 1024 <<< log) :
    0 < perBlock volume ∧ perBlock volume * 32 = volume.blockSize := by
  obtain ⟨log, size⟩ := size
  have power := Nat.two_pow_pos log
  rw [Nat.shiftLeft_eq] at size
  have exact : perBlock volume = 32 * 2 ^ log := by
    rw [perBlock, size]
    omega
  rw [exact, size]
  omega

theorem start_byte_eq (volume : Ext2Volume) :
    (if volume.blockSize = 1024 then 2048 else volume.blockSize) =
      tableBlock volume * volume.blockSize := by
  rw [tableBlock]
  split
  · rename_i small
    rw [small]
  · rw [Nat.one_mul]

theorem slot_place (size : ∃ log, volume.blockSize = 1024 <<< log) (idx : Nat) :
    tableBlock volume * volume.blockSize + idx * 32 =
      (tableBlock volume + idx / perBlock volume) * volume.blockSize +
        idx % perBlock volume * 32 := by
  obtain ⟨-, whole⟩ := per_block_mul size
  have split := Nat.div_add_mod idx (perBlock volume)
  calc tableBlock volume * volume.blockSize + idx * 32
      = tableBlock volume * volume.blockSize +
          (perBlock volume * (idx / perBlock volume) + idx % perBlock volume) * 32 := by rw [split]
    _ = tableBlock volume * volume.blockSize +
          idx / perBlock volume * (perBlock volume * 32) + idx % perBlock volume * 32 := by ring
    _ = _ := by rw [whole, ← Nat.add_mul]

theorem slot_fits (size : ∃ log, volume.blockSize = 1024 <<< log) (idx : Nat) :
    idx % perBlock volume * 32 + 32 ≤ volume.blockSize := by
  obtain ⟨positive, whole⟩ := per_block_mul size
  have small := Nat.mod_lt idx positive
  rw [← whole, ← Nat.succ_mul]
  exact Nat.mul_le_mul_right 32 small

theorem length_slot (sized : ∀ lba, (volume.device lba).length = volume.blockSize)
    (size : ∃ log, volume.blockSize = 1024 <<< log) (idx : Nat) :
    (slot volume idx).length = 32 := by
  have fits := slot_fits size idx
  rw [slot]
  split
  · rw [List.length_take, List.length_drop, sized]
    omega
  · exact List.length_replicate

/-- What the read of the whole table leaves at the place of an entry. -/
theorem read_slot (sized : ∀ lba, (volume.device lba).length = volume.blockSize)
    (size : ∃ log, volume.blockSize = 1024 <<< log) {length idx : Nat}
    (inside : idx * 32 + 32 ≤ length) :
    let read := ((concat volume.device volume.blockCount).drop
      (tableBlock volume * volume.blockSize)).take length
    ((read ++ List.replicate (length - read.length) 0).drop (idx * 32)).take 32 = slot volume
      idx := by
  intro read
  have place := slot_place size idx
  have fits := slot_fits size idx
  have total : (concat volume.device volume.blockCount).length =
      volume.blockCount * volume.blockSize := length_concat sized
  have readLength : read.length =
      min length (volume.blockCount * volume.blockSize - tableBlock volume * volume.blockSize) := by
    rw [List.length_take, List.length_drop, total]
  rw [slot]
  by_cases present : tableBlock volume + idx / perBlock volume < volume.blockCount
  · have room : (tableBlock volume + idx / perBlock volume + 1) * volume.blockSize ≤
        volume.blockCount * volume.blockSize := Nat.mul_le_mul_right _ present
    rw [Nat.succ_mul] at room
    rw [if_pos present, ← concat_slice sized present fits, ← place,
      List.drop_append_of_le_length (by omega),
      List.take_append_of_le_length (by rw [List.length_drop]; omega), List.drop_take,
      List.take_take, Nat.min_eq_left (by omega), List.drop_drop]
  · have past : volume.blockCount * volume.blockSize ≤
        (tableBlock volume + idx / perBlock volume) * volume.blockSize :=
      Nat.mul_le_mul_right _ (not_lt.mp present)
    rw [if_neg present, List.drop_append, List.drop_eq_nil_of_le (by omega), List.nil_append,
      List.drop_replicate, List.take_replicate, Nat.min_eq_left (by omega)]

end Slots

section Reading

variable {self : Accounts lru}

theorem read_table_eq :
    self.readTable = (match readDevice (tableBlock self.volume * self.volume.blockSize)
        (mul32 self.volume.blockGroupCount blockGroupDescriptorSize) self.volume with
      | .ok table volume =>
          match pushDescriptors table self.volume.blockGroupCount 0
            { self with volume := volume, blockGroupDescriptorTable := [] } with
          | .ok _ after => .ok after.blockGroupDescriptorTable
          | .error failure _ => .error failure
      | .error failure _ => .error failure) := by
  set fresh : Accounts lru := { self with blockGroupDescriptorTable := [] } with isFresh
  have body : (readBlockGroupDescriptorTable fresh : EStateM.Result Failure (Accounts lru) Unit) =
      ((onVolume (readDevice (tableBlock self.volume * self.volume.blockSize)
        (mul32 self.volume.blockGroupCount blockGroupDescriptorSize)) : OnAccounts lru
          (List UInt8)) >>=
        fun table => pushDescriptors table self.volume.blockGroupCount 0) fresh := by
    rw [← start_byte_eq]
    rfl
  rw [readTable, ← isFresh, body]
  cases outcome : readDevice (tableBlock self.volume * self.volume.blockSize)
      (mul32 self.volume.blockGroupCount blockGroupDescriptorSize) self.volume with
  | ok table volume =>
      have ran : (onVolume (readDevice (tableBlock self.volume * self.volume.blockSize)
          (mul32 self.volume.blockGroupCount blockGroupDescriptorSize)) : OnAccounts lru
            (List UInt8))
          fresh = .ok table { self with volume := volume, blockGroupDescriptorTable := [] } := by
        rw [onVolume, outcome]
      rw [state_bind_ok ran]
  | error failure volume =>
      have ran : (onVolume (readDevice (tableBlock self.volume * self.volume.blockSize)
          (mul32 self.volume.blockGroupCount blockGroupDescriptorSize)) : OnAccounts lru
            (List UInt8))
          fresh = .error failure { self with volume := volume, blockGroupDescriptorTable := [] } := by
        rw [onVolume, outcome]
      rw [state_bind_error ran]

theorem read_table_spec (sized : ∀ lba, (self.volume.device lba).length = self.volume.blockSize)
    (size : ∃ log, self.volume.blockSize = 1024 <<< log)
    (word : self.volume.blockGroupCount * 32 < 2 ^ 32)
    (begins : tableBlock self.volume ≤ self.volume.blockCount) :
    self.readTable = .ok ((List.range self.volume.blockGroupCount).map fun idx =>
      BlockGroupDescriptor.ofRaw (slot self.volume idx)) := by
  have mul : ∀ idx ≤ self.volume.blockGroupCount, mul32 idx blockGroupDescriptorSize = idx * 32 :=
    fun idx inside => Nat.mod_eq_of_lt ((Nat.mul_le_mul_right 32 inside).trans_lt word)
  have seek : ¬tableBlock self.volume * self.volume.blockSize >
      self.volume.blockSize * self.volume.blockCount := by
    rw [Nat.mul_comm self.volume.blockSize]
    exact not_lt.mpr (Nat.mul_le_mul_right _ begins)
  set read := ((concat self.volume.device self.volume.blockCount).drop
    (tableBlock self.volume * self.volume.blockSize)).take
      (self.volume.blockGroupCount * 32) with isRead
  have readLength : read.length ≤ self.volume.blockGroupCount * 32 := List.length_take_le _ _
  have device : readDevice (tableBlock self.volume * self.volume.blockSize)
      (mul32 self.volume.blockGroupCount blockGroupDescriptorSize) self.volume =
        .ok (read ++ List.replicate (self.volume.blockGroupCount * 32 - read.length) 0)
          self.volume := by
    rw [mul _ le_rfl, isRead]
    change (if _ then _ else _ : OnVolume (List UInt8)) self.volume = _
    rw [if_neg seek]
    rfl
  have pushed := @push_descriptors_ok lru
    (read ++ List.replicate (self.volume.blockGroupCount * 32 - read.length) 0)
    (slot self.volume) self.volume.blockGroupCount 0
    { self with volume := self.volume, blockGroupDescriptorTable := [] } (by
      intro j _ inside
      have next : add32 j 1 = j + 1 := Nat.mod_eq_of_lt (by omega)
      have total : (read ++ List.replicate (self.volume.blockGroupCount * 32 - read.length)
          0).length =
          self.volume.blockGroupCount * 32 := by
        rw [List.length_append, List.length_replicate]
        omega
      rw [next, mul j (by omega), mul (j + 1) (by omega), get_slice_eq (by omega) (by omega),
        show (j + 1) * 32 - j * 32 = 32 by omega]
      exact ⟨congrArg some (read_slot sized size (by omega)), length_slot sized size j⟩)
  rw [read_table_eq, device]
  dsimp only
  rw [pushed, List.range_eq_range']
  rfl

theorem read_table_bounds {old : List BlockGroupDescriptor} (positive : 0 < self.volume.blockSize)
    (read : self.readTable = .ok old) :
    self.volume.blockGroupCount * 32 < 2 ^ 32 ∧
      tableBlock self.volume ≤ self.volume.blockCount := by
  rw [read_table_eq] at read
  cases device : readDevice (tableBlock self.volume * self.volume.blockSize)
      (mul32 self.volume.blockGroupCount blockGroupDescriptorSize) self.volume with
  | error failure volume =>
      rw [device] at read
      cases read
  | ok table volume =>
      rw [device] at read
      dsimp only at read
      constructor
      · by_contra many
        cases pushed : (pushDescriptors table self.volume.blockGroupCount 0
            { self with volume := volume, blockGroupDescriptorTable := [] } : EStateM.Result _ _
              _) with
        | error failure after =>
            rw [pushed] at read
            cases read
        | ok _ after =>
            -- the end of this entry wraps around to the start of the buffer
            have inside := push_descriptors_slices _ pushed (2 ^ 27 - 1) (Nat.zero_le _) (by omega)
            have begin_ : mul32 (2 ^ 27 - 1) blockGroupDescriptorSize = 2 ^ 32 - 32 := by decide
            have end_ : mul32 (add32 (2 ^ 27 - 1) 1) blockGroupDescriptorSize = 0 := by decide
            rw [begin_, end_, getSlice, if_neg (by omega)] at inside
            exact inside rfl
      · by_contra short
        have past : tableBlock self.volume * self.volume.blockSize >
            self.volume.blockSize * self.volume.blockCount := by
          rw [Nat.mul_comm self.volume.blockSize]
          exact Nat.mul_lt_mul_of_pos_right (not_le.mp short) positive
        change (if _ then _ else _ : OnVolume (List UInt8)) self.volume = _ at device
        rw [if_pos past] at device
        cases device

end Reading

theorem splice_splice_same {buffer source : List UInt8} {begin_ : Nat}
    (inside : begin_ + source.length ≤ buffer.length) :
    splice (splice buffer begin_ source) begin_ source = splice buffer begin_ source := by
  have length := length_splice inside
  apply List.ext_getElem?
  intro place
  rw [getElem?_splice (by omega), getElem?_splice inside]
  split <;> rfl

theorem write_descriptors_spec (raw : List UInt8) (blocksPerGroup blockIndex offset : Nat)
    (groups : List Nat) :
    ∀ {volume : Ext2Volume} {contents : Contents} {buffer : Block}, volume.Stores contents →
      buffer.length = volume.blockSize → offset + raw.length ≤ volume.blockSize →
      Yields (fun _ after => after.frame = volume.frame ∧
          (∀ group ∈ groups, group * blocksPerGroup + blockIndex + 2 < volume.blockCount) ∧
          after.Stores fun lba =>
            if ∃ group ∈ groups, lba = group * blocksPerGroup + blockIndex + 2 then
              splice (contents lba) offset raw
            else
              contents lba)
        (fun _ => True)
        (writeDescriptors raw blocksPerGroup blockIndex offset groups buffer volume) := by
  induction groups with
  | nil =>
      intro volume contents buffer stores _ _
      refine .ok ⟨rfl, fun group impossible => absurd impossible List.not_mem_nil, ?_⟩
      simpa using stores
  | cons group groups ih =>
      intro volume contents buffer stores length fits
      set lba := group * blocksPerGroup + blockIndex + 2 with isLba
      have sized := stores.sized lba
      have written : (splice (contents lba) offset raw).length = volume.blockSize := by
        rw [length_splice (by omega), sized]
      have reads := yields_weaken (Ext2Volume.read_block_spec lba stores length)
        (fun _ _ holds => holds) fun _ _ => trivial
      refine yields_bind reads ?_
      rintro _ middle ⟨rfl, storesMiddle, frameMiddle, inside⟩
      have sizeMiddle := Ext2Volume.block_size_of_frame frameMiddle
      have countMiddle := Ext2Volume.block_count_of_frame frameMiddle
      have writes := yields_weaken (Ext2Volume.write_block_spec lba storesMiddle
        (written.trans sizeMiddle.symm)) (fun _ _ holds => holds) fun _ _ => trivial
      refine yields_bind writes ?_
      rintro _ last ⟨frameLast, ⟨-, -, storesLast⟩ | ⟨atEnd, -, -⟩⟩
      · have sizeLast := Ext2Volume.block_size_of_frame frameLast
        have countLast := Ext2Volume.block_count_of_frame frameLast
        refine yields_weaken (ih storesLast (by omega) (by omega)) ?_ fun _ _ => trivial
        rintro _ after ⟨frameAfter, insideLater, storesAfter⟩
        refine ⟨frameAfter.trans (frameLast.trans frameMiddle), ?_, ?_⟩
        · intro other member
          rcases List.mem_cons.mp member with rfl | later
          · exact inside
          · have bound := insideLater other later
            omega
        · convert storesAfter using 1
          funext other
          by_cases same : other = lba
          · rw [same, if_pos ⟨group, List.mem_cons_self, rfl⟩, Function.update_self,
              splice_splice_same (by omega), ite_self]
          · rw [Function.update_of_ne same]
            simp only [List.mem_cons, exists_eq_or_imp, ← isLba, same, false_or]
      · omega

section Writing

variable {self after : Accounts lru} {group : Nat} {descriptor : BlockGroupDescriptor}

theorem set_descriptor_spec (stores : self.volume.Stores self.volume.device)
    (size : ∃ log, self.volume.blockSize = 1024 <<< log)
    (wrote : setBlockGroupDescriptor group descriptor self = .ok () after) :
    group < self.blockGroupDescriptorTable.length ∧ after.volume.frame = self.volume.frame ∧
      (∀ backup ∈ self.getBackupGroups, backup * self.volume.blocksPerGroup +
        group / perBlock self.volume + 2 < self.volume.blockCount) ∧
      after.volume.device = fun lba =>
        if ∃ backup ∈ self.getBackupGroups,
            lba = backup * self.volume.blocksPerGroup + group / perBlock self.volume + 2 then
          splice (self.volume.device lba) (group % perBlock self.volume * 32) descriptor.toRaw
        else
          self.volume.device lba := by
  obtain ⟨positive, whole⟩ := per_block_mul size
  have block : group * blockGroupDescriptorSize / self.volume.blockSize =
      group / perBlock self.volume := by
    rw [← whole, blockGroupDescriptorSize, Nat.mul_div_mul_right _ _ (by decide)]
  have offset : group * blockGroupDescriptorSize % self.volume.blockSize =
      group % perBlock self.volume * 32 := by
    rw [← whole, blockGroupDescriptorSize, Nat.mul_mod_mul_right]
  have fits := slot_fits size group
  change (if self.volume.readOnly = true then _ else if _ then _ else _ : OnAccounts lru Unit)
    self = _
    at wrote
  by_cases locked : self.volume.readOnly = true
  · rw [if_pos locked] at wrote
    cases wrote
  · rw [if_neg locked] at wrote
    by_cases missing : group ≥ self.blockGroupDescriptorTable.length
    · rw [if_pos missing] at wrote
      cases wrote
    · rw [if_neg missing] at wrote
      set changed : Accounts lru := { self with
        blockGroupDescriptorTable := self.blockGroupDescriptorTable.set group descriptor }
      change onVolume (writeDescriptors descriptor.toRaw self.volume.blocksPerGroup
        (group * blockGroupDescriptorSize / self.volume.blockSize)
        (group * blockGroupDescriptorSize % self.volume.blockSize) self.getBackupGroups
        (List.replicate self.volume.blockSize 0)) changed = _ at wrote
      rw [block, offset] at wrote
      have writes := write_descriptors_spec descriptor.toRaw self.volume.blocksPerGroup
        (group / perBlock self.volume) (group % perBlock self.volume * 32)
          self.getBackupGroups stores
        (List.length_replicate : (List.replicate self.volume.blockSize (0 : UInt8)).length = _)
        (by rw [BlockGroupDescriptor.length_to_raw]; exact fits)
      have sameVolume : changed.volume = self.volume := rfl
      rw [onVolume, sameVolume] at wrote
      cases outcome : writeDescriptors descriptor.toRaw self.volume.blocksPerGroup
          (group / perBlock self.volume) (group % perBlock self.volume * 32) self.getBackupGroups
          (List.replicate self.volume.blockSize 0) self.volume with
      | error failure volume =>
          rw [outcome] at wrote
          cases wrote
      | ok value volume =>
          rw [outcome] at wrote writes
          cases wrote
          cases writes with
          | ok holds =>
              obtain ⟨frame, inside, storesAfter⟩ := holds
              exact ⟨not_le.mp missing, frame, inside, storesAfter.device⟩

/-- The entry, as the reader counts them, on which a copy of the entry of a group falls. -/
def copyPlace (volume : Ext2Volume) (group backup : Nat) : Nat :=
  group + (backup * volume.blocksPerGroup + (2 - tableBlock volume)) * perBlock volume

theorem table_block_bounds (volume : Ext2Volume) : 1 ≤ tableBlock volume ∧
    tableBlock volume ≤ 2 := by
  rw [tableBlock]
  split
  · omega
  · omega

theorem copy_place_iff {volume : Ext2Volume} {group idx backup : Nat}
    (size : ∃ log, volume.blockSize = 1024 <<< log) :
    idx = copyPlace volume group backup ↔
      tableBlock volume + idx / perBlock volume =
          backup * volume.blocksPerGroup + group / perBlock volume + 2 ∧
        idx % perBlock volume = group % perBlock volume := by
  obtain ⟨positive, -⟩ := per_block_mul size
  obtain ⟨low, high⟩ := table_block_bounds volume
  set shift := backup * volume.blocksPerGroup + (2 - tableBlock volume) with isShift
  rw [copyPlace, ← isShift]
  constructor
  · rintro rfl
    refine ⟨?_, Nat.add_mul_mod_self_right _ _ _⟩
    rw [Nat.add_mul_div_right _ _ positive]
    omega
  · rintro ⟨quotient, rest⟩
    have idxSplit := Nat.div_add_mod idx (perBlock volume)
    have groupSplit := Nat.div_add_mod group (perBlock volume)
    have quotients : idx / perBlock volume = group / perBlock volume + shift := by omega
    rw [quotients, Nat.mul_add, rest] at idxSplit
    rw [Nat.mul_comm shift]
    omega

/-- What the reader finds after a write. -/
theorem slot_after (stores : self.volume.Stores self.volume.device)
    (size : ∃ log, self.volume.blockSize = 1024 <<< log)
    (wrote : setBlockGroupDescriptor group descriptor self = .ok () after) (idx : Nat) :
    slot after.volume idx =
      if ∃ backup ∈ self.getBackupGroups, idx = copyPlace self.volume group backup then
        descriptor.toRaw
      else
        slot self.volume idx := by
  obtain ⟨-, frame, inside, device⟩ := set_descriptor_spec stores size wrote
  have blockSize := Ext2Volume.block_size_of_frame frame
  have blockCount := Ext2Volume.block_count_of_frame frame
  have fits := slot_fits size idx
  have groupFits := slot_fits size group
  have rawLength := BlockGroupDescriptor.length_to_raw descriptor
  have sized := stores.sized (tableBlock self.volume + idx / perBlock self.volume)
  simp only [copy_place_iff size]
  rw [slot, tableBlock, perBlock, blockSize, blockCount, ← tableBlock, ← perBlock, slot, device]
  by_cases hit : ∃ backup ∈ self.getBackupGroups,
    tableBlock self.volume + idx / perBlock self.volume =
      backup * self.volume.blocksPerGroup + group / perBlock self.volume + 2
  · obtain ⟨backup, member, block⟩ := hit
    have present := inside backup member
    rw [← block] at present
    dsimp only
    rw [if_pos present, if_pos present, if_pos ⟨backup, member, block⟩]
    by_cases same : idx % perBlock self.volume = group % perBlock self.volume
    · -- the entry itself
      rw [if_pos ⟨backup, member, block, same⟩, same, splice, List.append_assoc, List.drop_append,
        List.length_take, Nat.min_eq_left (by omega), List.drop_eq_nil_of_le (by simp),
        Nat.sub_self, List.drop_zero, List.nil_append,
        List.take_append_of_le_length (by omega), List.take_of_length_le (by omega)]
    · -- another entry of the same block
      rw [if_neg (by rintro ⟨_, _, _, both⟩; exact same both)]
      apply List.ext_getElem?
      intro place
      rw [List.getElem?_take, List.getElem?_take]
      by_cases small : place < 32
      · rw [if_pos small, if_pos small, List.getElem?_drop, List.getElem?_drop,
          getElem?_splice (by omega), if_neg (by omega)]
      · rw [if_neg small, if_neg small]
  · have missed : ¬∃ backup ∈ self.getBackupGroups,
        tableBlock self.volume + idx / perBlock self.volume =
            backup * self.volume.blocksPerGroup + group / perBlock self.volume + 2 ∧
          idx % perBlock self.volume = group % perBlock self.volume := by
      rintro ⟨backup, member, block, -⟩
      exact hit ⟨backup, member, block⟩
    dsimp only
    rw [if_neg hit, if_neg missed]

theorem zero_mem_backup_groups (some_ : 0 < self.blockGroupDescriptorTable.length)
    (groups : 0 < self.volume.blockGroupCount) : 0 ∈ self.getBackupGroups := by
  rw [getBackupGroups]
  split
  · split
    · exact List.mem_range.mpr groups
    · simp
  · exact List.mem_range.mpr some_

/-- Two tables that differ in one entry, entry by entry. -/
theorem map_range_eq_set_iff {Item : Type} {count place : Nat} (before after : Nat → Item)
    (inside : place < count) (item : Item) :
    (List.range count).map after = ((List.range count).map before).set place item ↔
      ∀ idx < count, after idx = if idx = place then item else before idx := by
  have lengths : ((List.range count).map after).length =
      (((List.range count).map before).set place item).length := by
    simp only [List.length_map, List.length_range, List.length_set]
  constructor
  · intro same idx small
    have entry : ((List.range count).map after)[idx]? =
        (((List.range count).map before).set place item)[idx]? := by rw [same]
    simp only [List.getElem?_map, List.getElem?_range small, List.getElem?_set, List.length_map,
      List.length_range, Option.map_some] at entry
    by_cases here : idx = place
    · rw [if_pos here.symm, if_pos inside] at entry
      rw [if_pos here]
      exact Option.some.inj entry
    · rw [if_neg (Ne.symm here)] at entry
      rw [if_neg here]
      exact Option.some.inj entry
  · intro same
    refine List.ext_getElem lengths fun idx left right => ?_
    have small : idx < count := by simpa using left
    rw [List.getElem_map, List.getElem_range, List.getElem_set, same idx small]
    by_cases here : idx = place
    · rw [if_pos here, if_pos here.symm]
    · rw [if_neg here, if_neg (Ne.symm here), List.getElem_map, List.getElem_range]

/-- A copy falls on the entry itself where blocks have 1024 bytes, and nowhere else. -/
theorem own_copy_iff (positive : 0 < perBlock self.volume)
    (some_ : 0 < self.blockGroupDescriptorTable.length) (groups : 0 < self.volume.blockGroupCount) :
    (∃ backup ∈ self.getBackupGroups, group = copyPlace self.volume group backup) ↔
      self.volume.blockSize = 1024 := by
  constructor
  · rintro ⟨backup, -, place⟩
    by_contra larger
    have first : tableBlock self.volume = 1 := if_neg larger
    rw [copyPlace, first, Nat.add_mul] at place
    omega
  · intro small
    have first : tableBlock self.volume = 2 := if_pos small
    refine ⟨0, zero_mem_backup_groups some_ groups, ?_⟩
    rw [copyPlace, first, Nat.zero_mul, Nat.zero_add, Nat.sub_self, Nat.zero_mul, Nat.add_zero]

theorem read_table_after (stores : self.volume.Stores self.volume.device)
    (size : ∃ log, self.volume.blockSize = 1024 <<< log)
    (word : self.volume.blockGroupCount * 32 < 2 ^ 32)
    (begins : tableBlock self.volume ≤ self.volume.blockCount)
    (wrote : setBlockGroupDescriptor group descriptor self = .ok () after) :
    after.readTable = .ok ((List.range self.volume.blockGroupCount).map fun idx =>
      BlockGroupDescriptor.ofRaw (slot after.volume idx)) := by
  obtain ⟨-, frame, -, device⟩ := set_descriptor_spec stores size wrote
  have blockSize := Ext2Volume.block_size_of_frame frame
  have blockCount := Ext2Volume.block_count_of_frame frame
  have groupCount : after.volume.blockGroupCount = self.volume.blockGroupCount :=
    show after.volume.frame.blockGroupCount = self.volume.frame.blockGroupCount by rw [frame]
  have sizedAfter : ∀ lba, (after.volume.device lba).length = after.volume.blockSize := by
    intro lba
    have sized := stores.sized lba
    have room := slot_fits size group
    rw [device, blockSize]
    dsimp only
    split
    · rw [length_splice (by rw [BlockGroupDescriptor.length_to_raw]; omega), sized]
    · exact sized
  have beginsAfter : tableBlock after.volume ≤ after.volume.blockCount := by
    rw [tableBlock, blockSize, blockCount]
    exact begins
  have read := read_table_spec sizedAfter (blockSize ▸ size) (groupCount ▸ word) beginsAfter
  rwa [groupCount] at read

/-- The next mount reads the table with the descriptor in its place exactly if no copy of it
falls on another entry that holds something else and, where blocks are larger than 1024
bytes, the entry itself held it already. -/
theorem descriptors_read_back_iff (self after : Accounts lru) (group : Nat)
    (descriptor : BlockGroupDescriptor) (old : List BlockGroupDescriptor)
    (stores : self.volume.Stores self.volume.device)
    (size : ∃ log, self.volume.blockSize = 1024 <<< log) (fits : descriptor.Fits)
    (inside : group < self.volume.blockGroupCount) (read : self.readTable = .ok old)
    (wrote : setBlockGroupDescriptor group descriptor self = .ok () after) :
    after.readTable = .ok (old.set group descriptor) ↔
      (self.volume.blockSize = 1024 ∨ old[group]? = some descriptor) ∧
        ∀ backup ∈ self.getBackupGroups, copyPlace self.volume group backup ≠ group →
          copyPlace self.volume group backup < self.volume.blockGroupCount →
          old[copyPlace self.volume group backup]? = some descriptor := by
  obtain ⟨word, begins⟩ := read_table_bounds stores.positive read
  obtain ⟨inTable, -⟩ := set_descriptor_spec stores size wrote
  have own := @own_copy_iff _ self group (per_block_mul size).1 (by omega) (by omega)
  have oldEq := Except.ok.inj (read.symm.trans (read_table_spec stores.sized size word begins))
  have oldAt : ∀ idx < self.volume.blockGroupCount,
      old[idx]? = some (.ofRaw (slot self.volume idx)) := by
    intro idx small
    rw [oldEq, List.getElem?_map, List.getElem?_range small]
    rfl
  have newAt : ∀ idx, BlockGroupDescriptor.ofRaw (slot after.volume idx) =
      if ∃ backup ∈ self.getBackupGroups, idx = copyPlace self.volume group backup then descriptor
      else .ofRaw (slot self.volume idx) := by
    intro idx
    rw [slot_after stores size wrote, apply_ite BlockGroupDescriptor.ofRaw,
      BlockGroupDescriptor.of_raw_to_raw fits]
  -- both tables entry by entry
  have entries : after.readTable = .ok (old.set group descriptor) ↔
      ∀ idx < self.volume.blockGroupCount, BlockGroupDescriptor.ofRaw (slot after.volume idx) =
        if idx = group then descriptor else .ofRaw (slot self.volume idx) := by
    rw [read_table_after stores size word begins wrote, Except.ok.injEq, oldEq]
    exact map_range_eq_set_iff _ _ inside descriptor
  rw [entries]
  constructor
  · intro same
    constructor
    · by_cases small : self.volume.blockSize = 1024
      · exact .inl small
      · have here := same group inside
        rw [if_pos rfl, newAt, if_neg (mt own.mp small)] at here
        rw [oldAt group inside, here]
        exact .inr rfl
    · intro backup member apart small
      have there := same _ small
      rw [if_neg apart, newAt, if_pos ⟨backup, member, rfl⟩] at there
      rw [oldAt _ small, ← there]
  · rintro ⟨here, elsewhere⟩ idx small
    rw [newAt]
    by_cases own_ : idx = group
    · rw [if_pos own_, own_]
      rcases here with small | held
      · rw [if_pos (own.mpr small)]
      · rw [oldAt group inside] at held
        rw [Option.some.inj held, ite_self]
    · rw [if_neg own_]
      by_cases copied : ∃ backup ∈ self.getBackupGroups, idx = copyPlace self.volume group backup
      · rw [if_pos copied]
        obtain ⟨backup, member, rfl⟩ := copied
        have held := elsewhere backup member own_ small
        rw [oldAt _ small] at held
        exact (Option.some.inj held).symm
      · rw [if_neg copied]

end Writing

def oneGroup (blockSize : Nat) : Accounts (leastRecent Nat GroupAllocator 1 Nat.one_pos) where
  volume := {
    device := fun _ => List.replicate blockSize 0
    blockCache := []
    blockCacheSize := 1
    bitmaps := fun _ => []
    readOnly := false
    fileSize64 := true
    blockSize := blockSize
    blockCount := 4
    sectorsPerBlock := blockSize / 512
    blockGroupCount := 1
    blocksPerGroup := 8
    superblockBlock := if blockSize = 1024 then 1 else 0
    inodesPerGroup := 8
    inodesPerBlock := blockSize / 128
    inodeSize := 128
    inodeTables := [3] }
  superblock := ⟨List.replicate 12 0, fun _ => 0, List.replicate 1004 0, 8, true⟩
  blockGroupDescriptorTable := [⟨fun _ => 0, 0, fun _ => 0, 0⟩]
  caches := fun _ => (leastRecent Nat GroupAllocator 1 Nat.one_pos).empty
  dropped := []

def oneDescriptor : BlockGroupDescriptor := ⟨fun _ => 2, 3, fun _ => 1, 1⟩

theorem one_group_stores {blockSize : Nat} (positive : 0 < blockSize) :
    (oneGroup blockSize).volume.Stores (oneGroup blockSize).volume.device :=
  ⟨rfl, fun _ impossible => absurd impossible List.not_mem_nil, fun _ => List.length_replicate,
    positive⟩

def returns {State Value : Type} : EStateM.Result Failure State Value → Bool
  | .ok _ _ => true
  | .error _ _ => false

theorem small_blocks_read_back :
    ∃ old after, (oneGroup 1024).readTable = .ok old ∧
      setBlockGroupDescriptor 0 oneDescriptor (oneGroup 1024) = .ok () after ∧
      after.readTable = .ok (old.set 0 oneDescriptor) := by
  have written : returns (setBlockGroupDescriptor 0 oneDescriptor (oneGroup 1024)) = true := by
    decide +kernel
  have stores := one_group_stores (by decide : 0 < 1024)
  have fits : oneDescriptor.Fits := ⟨fun _ => show 2 < 2 ^ 32 by decide, show 3 < 2 ^ 32 by decide,
    fun _ => show 1 < 2 ^ 16 by decide, show 1 < 2 ^ 16 by decide⟩
  have read := read_table_spec stores.sized ⟨0, rfl⟩ (show 1 * 32 < 2 ^ 32 by decide)
    (show 2 ≤ 4 by decide)
  cases ran : setBlockGroupDescriptor 0 oneDescriptor (oneGroup 1024) with
  | error failure after =>
      rw [ran] at written
      exact absurd written Bool.false_ne_true
  | ok _ after =>
      refine ⟨_, after, read, rfl, (descriptors_read_back_iff _ after 0 _ _ stores ⟨0, rfl⟩ fits
        (show 0 < 1 by decide) read ran).mpr ⟨.inl rfl, ?_⟩⟩
      intro backup member apart
      have only : (oneGroup 1024).getBackupGroups = [0] := rfl
      rw [only, List.mem_singleton] at member
      rw [member] at apart
      exact absurd rfl apart

/-- The descriptor goes to the block behind the one that the reader looks at. -/
theorem large_blocks_lost :
    ∃ old after, (oneGroup 2048).readTable = .ok old ∧
      setBlockGroupDescriptor 0 oneDescriptor (oneGroup 2048) = .ok () after ∧
      after.readTable ≠ .ok (old.set 0 oneDescriptor) := by
  have kept : (match setBlockGroupDescriptor 0 oneDescriptor (oneGroup 2048) with
      | .ok _ after => (match after.readTable with
        | .ok table => (table.map BlockGroupDescriptor.inodeTableBlock)
        | .error _ => [])
      | .error _ _ => []) = [0] := by
    decide +kernel
  have read := read_table_spec (one_group_stores (by decide : 0 < 2048)).sized ⟨1, rfl⟩
    (show 1 * 32 < 2 ^ 32 by decide) (show 1 ≤ 4 by decide)
  cases ran : setBlockGroupDescriptor 0 oneDescriptor (oneGroup 2048) with
  | error failure after =>
      rw [ran] at kept
      exact absurd kept (by simp)
  | ok _ after =>
      refine ⟨_, after, read, rfl, fun same => ?_⟩
      rw [ran] at kept
      dsimp only at kept
      rw [same] at kept
      exact absurd kept (by decide)

end Accounts

end Campix.Ext2
