import Campix.Drivers.ByteAccess

/-!
# Partition tables

`GUIDPartitionTable::read` and `PartitionManager` of `data/partition`. Arithmetic that does not fit,
a read or a slice outside a buffer and a vector longer than `isize::MAX` are faults; there is
memory for every other vector. Neither the place and the shape of the table nor the bounds of a
partition are checked against the device.
-/

namespace Campix.Drivers.Partitions

open Lib.Slice Drivers.ByteAccess

set_option autoImplicit false

inductive Fault where
  | overflow
  | capacity
  | outside
  deriving DecidableEq

/-- The function returns `None`, or it does not return. -/
inductive Ended where
  | nothing
  | fault (fault : Fault)
  deriving DecidableEq

abbrev Parse := Except Ended

def mulChecked (left right : Nat) : Parse Nat :=
  if left * right < 2 ^ 64 then .ok (left * right) else .error (.fault .overflow)

def addChecked (left right : Nat) : Parse Nat :=
  if left + right < 2 ^ 64 then .ok (left + right) else .error (.fault .overflow)

def subChecked (left right : Nat) : Parse Nat :=
  if right ≤ left then .ok (left - right) else .error (.fault .overflow)

def zeroedVec (len : Nat) : Parse (List UInt8) :=
  if len < 2 ^ 63 then .ok (List.replicate len 0) else .error (.fault .capacity)

def readVolatile {Value : Type} (decode : List UInt8 → Nat → Value) (size : Nat) (data : List UInt8)
    (offset : Nat) : Parse Value :=
  if offset + size ≤ data.length then .ok (decode data offset) else .error (.fault .outside)

def slice (data : List UInt8) (begin_ end_ : Nat) : Parse (List UInt8) :=
  match getSlice data begin_ end_ with
  | some part => .ok part
  | none => .error (.fault .outside)

def field (data : List UInt8) (offset width : Nat) : List UInt8 := (data.drop offset).take width

variable {δ : Type}

def readChars (device : BlockDevice δ) (disk : δ) (offset : Nat) (data : List UInt8) :
    Parse (List UInt8) := do
  let size ← mulChecked (device.getBlockCount disk) (device.getBlockSize disk)
  let _ ← subChecked size offset
  match BlockDeviceAsCharacterDevice.readChars device disk offset data with
  | .ok _ filled => .ok filled
  | .error (.failed _) _ => .error .nothing
  | .error .panic _ => .error (.fault .outside)

structure BlockDeviceRange where
  start : Nat
  end_ : Nat

structure MBRPartition where
  bootable : Nat
  startChs : List UInt8
  osType : Nat
  endChs : List UInt8
  startLba : Nat
  sectorCount : Nat

def MBRPartition.decode (data : List UInt8) (offset : Nat) : MBRPartition where
  bootable := readLe data offset 1
  startChs := field data (offset + 1) 3
  osType := readLe data (offset + 4) 1
  endChs := field data (offset + 5) 3
  startLba := readLe data (offset + 8) 4
  sectorCount := readLe data (offset + 12) 4

def MBRPartition.isNull (partition : MBRPartition) : Bool :=
  partition.bootable = 0 && partition.startChs = [0, 0, 0] && partition.osType = 0 &&
    partition.endChs = [0, 0, 0] && partition.startLba = 0 && partition.sectorCount = 0

structure MasterBootRecord where
  bootCode : List UInt8
  first : MBRPartition
  others : List MBRPartition
  signature : List UInt8

def MasterBootRecord.decode (data : List UInt8) (offset : Nat) : MasterBootRecord where
  bootCode := field data offset 446
  first := MBRPartition.decode data (offset + 446)
  others := [offset + 462, offset + 478, offset + 494].map (MBRPartition.decode data)
  signature := field data (offset + 510) 2

def MasterBootRecord.partitions (mbr : MasterBootRecord) : List MBRPartition :=
    mbr.first :: mbr.others

/-- The first partition is the protective one of a GPT and the others are null. -/
def MasterBootRecord.isProtective (mbr : MasterBootRecord) (maxLba : Nat) : Bool :=
  mbr.first.bootable = 0 && mbr.first.osType = 0xEE && mbr.first.startChs = [0, 2, 0] &&
    mbr.first.startLba = 1 &&
    (if maxLba > 0xFFFF_FFFF then decide (mbr.first.sectorCount = 0xFFFF_FFFF)
      else decide (mbr.first.sectorCount = maxLba % 2 ^ 32)) &&
    mbr.others.all MBRPartition.isNull

structure GPTHeader where
  signature : List UInt8
  revision : Nat
  headerSize : Nat
  headerCrc32 : Nat
  reserved : Nat
  currentLba : Nat
  backupLba : Nat
  firstUsableLba : Nat
  lastUsableLba : Nat
  diskGuid : List UInt8
  partitionTableLba : Nat
  partitionEntryCount : Nat
  partitionEntrySize : Nat
  partitionEntriesCrc32 : Nat

def GPTHeader.decode (data : List UInt8) (offset : Nat) : GPTHeader where
  signature := field data offset 8
  revision := readLe data (offset + 8) 4
  headerSize := readLe data (offset + 12) 4
  headerCrc32 := readLe data (offset + 16) 4
  reserved := readLe data (offset + 20) 4
  currentLba := readLe data (offset + 24) 8
  backupLba := readLe data (offset + 32) 8
  firstUsableLba := readLe data (offset + 40) 8
  lastUsableLba := readLe data (offset + 48) 8
  diskGuid := field data (offset + 56) 16
  partitionTableLba := readLe data (offset + 72) 8
  partitionEntryCount := readLe data (offset + 80) 4
  partitionEntrySize := readLe data (offset + 84) 4
  partitionEntriesCrc32 := readLe data (offset + 88) 4

def efiPart : List UInt8 := [0x45, 0x46, 0x49, 0x20, 0x50, 0x41, 0x52, 0x54]

structure GUIDPartitionTableEntryRaw where
  typeGuid : List UInt8
  uniqueGuid : List UInt8
  firstLba : Nat
  lastLba : Nat
  flags : Nat

def GUIDPartitionTableEntryRaw.decode (data : List UInt8) (offset : Nat) :
    GUIDPartitionTableEntryRaw where
  typeGuid := field data offset 16
  uniqueGuid := field data (offset + 16) 16
  firstLba := readLe data (offset + 32) 8
  lastLba := readLe data (offset + 40) 8
  flags := readLe data (offset + 48) 8

structure GUIDPartitionTableEntry where
  typeGuid : List UInt8
  uniqueGuid : List UInt8
  firstLba : Nat
  lastLba : Nat
  flags : Nat
  name : List Char

def GUIDPartitionTableEntry.asDeviceRange (entry : GUIDPartitionTableEntry) :
    Parse BlockDeviceRange := do
  return { start := entry.firstLba, end_ := ← addChecked entry.lastLba 1 }

structure GUIDPartitionTable where
  mbr : MasterBootRecord
  header : GPTHeader
  partitions : List GUIDPartitionTableEntry

def readEntries (data : List UInt8) (entrySize : Nat) :
    Nat → Nat → Parse (List GUIDPartitionTableEntry)
  | _, 0 => return []
  | i, left + 1 => do
      let offset ← mulChecked i entrySize
      let entry ← readVolatile GUIDPartitionTableEntryRaw.decode 56 data offset
      if entry.typeGuid = List.replicate 16 0 then
        readEntries data entrySize (i + 1) left
      else
        let name ← slice data (offset + 0x38) (offset + entrySize)
        let rest ← readEntries data entrySize (i + 1) left
        return {
          typeGuid := entry.typeGuid, uniqueGuid := entry.uniqueGuid, firstLba := entry.firstLba
          lastLba := entry.lastLba, flags := entry.flags
          name := name.map fun c => Char.ofNat c.toNat } :: rest

namespace GUIDPartitionTable

variable (device : BlockDevice δ)

def readTable (disk : δ) (mbr : MasterBootRecord) (header : GPTHeader) :
    Parse GUIDPartitionTable := do
  let data ← zeroedVec (← mulChecked header.partitionEntrySize header.partitionEntryCount)
  let data ← readChars device disk
    (← mulChecked header.partitionTableLba (device.getBlockSize disk)) data
  return { mbr, header, partitions := ← readEntries data header.partitionEntrySize 0 header.partitionEntryCount }

def read (disk : δ) : Parse (GUIDPartitionTable ⊕ MasterBootRecord) := do
  let sectorSize := device.getBlockSize disk
  let maxLba ← subChecked (device.getBlockCount disk) 1
  let data ← zeroedVec (← mulChecked 2 sectorSize)
  let data ← readChars device disk 0 data
  let mbr ← readVolatile MasterBootRecord.decode 512 data 0
  if mbr.signature ≠ [0x55, 0xAA] then
    throw .nothing
  else if ¬mbr.isProtective maxLba then
    return .inr mbr
  else
    let header ← readVolatile GPTHeader.decode 92 data sectorSize
    if header.signature ≠ efiPart then
      throw .nothing
    else
      return .inl (← readTable device disk mbr header)

end GUIDPartitionTable

inductive Partition where
  | mbr (partition : MBRPartition) (range : BlockDeviceRange)
  | gpt (entry : GUIDPartitionTableEntry) (range : BlockDeviceRange)
  | unknown (range : BlockDeviceRange)

def Partition.asDeviceRange : Partition → BlockDeviceRange
  | .mbr _ range => range
  | .gpt _ range => range
  | .unknown range => range

inductive PartitionScheme where
  | none
  | mbr (mbr : MasterBootRecord)
  | gpt (gpt : GUIDPartitionTable)

structure PartitionManager where
  scheme : PartitionScheme
  generation : Nat

def MBRPartition.toPartition (partition : MBRPartition) : Parse Partition := do
  let end_ ← addChecked partition.startLba partition.sectorCount
  return .mbr partition { start := partition.startLba, end_ }

def GUIDPartitionTableEntry.toPartition (entry : GUIDPartitionTableEntry) : Parse Partition := do
  return .gpt entry (← entry.asDeviceRange)

def PartitionManager.getPartitions (manager : PartitionManager) : Parse (List Partition) :=
  match manager.scheme with
  | .none => return []
  | .mbr mbr =>
      (mbr.partitions.filter fun partition => !partition.isNull).mapM MBRPartition.toPartition
  | .gpt gpt => gpt.partitions.mapM GUIDPartitionTableEntry.toPartition

/-- The scheme and the generation that the manager had are replaced. -/
def PartitionManager.reloadPartitions (device : BlockDevice δ) (disk : δ) :
    Parse PartitionManager :=
  match GUIDPartitionTable.read device disk with
  | .error .nothing => .ok { scheme := .none, generation := device.getGeneration disk }
  | .ok (.inl gpt) => .ok { scheme := .gpt gpt, generation := device.getGeneration disk }
  | .ok (.inr mbr) => .ok { scheme := .mbr mbr, generation := device.getGeneration disk }
  | .error (.fault fault) => .error (.fault fault)

section Checked

variable {left right len : Nat}

theorem mul_checked_ok (fits : left * right < 2 ^ 64) :
    mulChecked left right = .ok (left * right) :=
  if_pos fits

theorem mul_checked_fault (wide : ¬left * right < 2 ^ 64) :
    mulChecked left right = .error (.fault .overflow) :=
  if_neg wide

theorem sub_checked_ok (ordered : right ≤ left) : subChecked left right = .ok (left - right) :=
  if_pos ordered

theorem sub_checked_fault (reversed : ¬right ≤ left) :
    subChecked left right = .error (.fault .overflow) :=
  if_neg reversed

theorem zeroed_vec_ok (fits : len < 2 ^ 63) : zeroedVec len = .ok (List.replicate len 0) :=
  if_pos fits

theorem zeroed_vec_fault (wide : ¬len < 2 ^ 63) : zeroedVec len = .error (.fault .capacity) :=
  if_neg wide

theorem read_volatile_ok {Value : Type} {decode : List UInt8 → Nat → Value} {size offset : Nat}
    {data : List UInt8} (inside : offset + size ≤ data.length) :
    readVolatile decode size data offset = .ok (decode data offset) :=
  if_pos inside

theorem read_volatile_fault {Value : Type} {decode : List UInt8 → Nat → Value} {size offset : Nat}
    {data : List UInt8} (beyond : ¬offset + size ≤ data.length) :
    readVolatile decode size data offset = .error (.fault .outside) :=
  if_neg beyond

theorem slice_ok {data : List UInt8} {begin_ end_ : Nat} (ordered : begin_ ≤ end_)
    (inside : end_ ≤ data.length) : slice data begin_ end_ = .ok
    ((data.take end_).drop begin_) := by
  rw [slice, getSlice, if_pos ⟨ordered, inside⟩]

theorem slice_fault {data : List UInt8} {begin_ end_ : Nat} (reversed : end_ < begin_) :
    slice data begin_ end_ = .error (.fault .outside) := by
  rw [slice, getSlice, if_neg (by omega)]

theorem ok_bind {Value Result : Type} (value : Value) (rest : Value → Parse Result) :
    (Except.ok value >>= rest : Parse Result) = rest value :=
  rfl

theorem error_bind {Value Result : Type} (ended : Ended) (rest : Value → Parse Result) :
    (Except.error ended >>= rest : Parse Result) = .error ended :=
  rfl

end Checked

def buffered (bytes : List UInt8) (offset len : Nat) : List UInt8 :=
  (bytes.drop offset).take len ++ List.replicate (len - (bytes.length - offset)) 0

theorem length_buffered (bytes : List UInt8) (offset len : Nat) :
    (buffered bytes offset len).length = len := by
  rw [buffered, List.length_append, List.length_take, List.length_drop, List.length_replicate]
  omega

section Device

variable {device : BlockDevice δ} {block : δ → Nat → List UInt8} {disk : δ}

theorem read_chars_ok (serviceable : Serviceable device block)
    (positive : 0 < device.getBlockSize disk)
    (addressable : device.getBlockCount disk * device.getBlockSize disk < 2 ^ 64) {offset : Nat}
    (inside : offset ≤ device.getBlockCount disk * device.getBlockSize disk) (len : Nat) :
    readChars device disk offset (List.replicate len 0) =
      .ok (buffered (flat device block disk) offset len) := by
  have size : BlockDeviceAsCharacterDevice.getSize device disk =
      device.getBlockCount disk * device.getBlockSize disk := Nat.mod_eq_of_lt addressable
  have length := length_flat serviceable disk
  have within : offset ≤ BlockDeviceAsCharacterDevice.getSize device disk := by rwa [size]
  have called := read_chars_flat serviceable (List.replicate len 0) positive within
  rw [readChars, mul_checked_ok addressable, ok_bind, sub_checked_ok inside, ok_bind, called]
  dsimp only
  rw [List.length_replicate, size, ← length, splice, List.take_zero, List.nil_append, Nat.zero_add,
    List.drop_replicate, List.length_take, List.length_drop, buffered]
  congr 2
  · rw [← List.length_drop]
    exact List.take_eq_take_min.symm
  · congr 1
    omega

theorem read_chars_fault {offset : Nat} (data : List UInt8)
    (outside : ¬(device.getBlockCount disk * device.getBlockSize disk < 2 ^ 64 ∧
      offset ≤ device.getBlockCount disk * device.getBlockSize disk)) :
    readChars device disk offset data = .error (.fault .overflow) := by
  unfold readChars
  by_cases addressable : device.getBlockCount disk * device.getBlockSize disk < 2 ^ 64
  · rw [mul_checked_ok addressable, ok_bind,
      sub_checked_fault fun inside => outside ⟨addressable, inside⟩]
    rfl
  · rw [mul_checked_fault addressable]
    rfl

end Device

section Entries

variable {data : List UInt8} {entrySize : Nat}

def rawEntry (data : List UInt8) (entrySize i : Nat) : GUIDPartitionTableEntryRaw :=
  GUIDPartitionTableEntryRaw.decode data (i * entrySize)

def InUse (data : List UInt8) (entrySize i : Nat) : Prop :=
  (rawEntry data entrySize i).typeGuid ≠ List.replicate 16 0

instance (i : Nat) : Decidable (InUse data entrySize i) := inferInstanceAs (Decidable (_ ≠ _))

def namedEntry (data : List UInt8) (entrySize i : Nat) : GUIDPartitionTableEntry where
  typeGuid := (rawEntry data entrySize i).typeGuid
  uniqueGuid := (rawEntry data entrySize i).uniqueGuid
  firstLba := (rawEntry data entrySize i).firstLba
  lastLba := (rawEntry data entrySize i).lastLba
  flags := (rawEntry data entrySize i).flags
  name := (((data.take (i * entrySize + entrySize)).drop (i * entrySize + 0x38)).map fun c =>
    Char.ofNat c.toNat)

theorem read_entries_ok (wide : 56 ≤ entrySize) (bound : data.length < 2 ^ 64) (left : Nat) :
    ∀ {i : Nat}, (i + left) * entrySize ≤ data.length →
      readEntries data entrySize i left =
        .ok (((List.range' i left).filter fun i => InUse data entrySize i).map
          (namedEntry data entrySize)) := by
  induction left with
  | zero => exact fun _ => rfl
  | succ left ih =>
      intro i fits
      have raw : GUIDPartitionTableEntryRaw.decode data (i * entrySize) = rawEntry data entrySize
          i := rfl
      have rest : (i + 1 + left) * entrySize ≤ data.length := by
        rwa [Nat.add_right_comm, Nat.add_assoc]
      have here : i * entrySize + entrySize ≤ data.length := by
        have below : (i + 1) * entrySize ≤ (i + 1 + left) * entrySize :=
          Nat.mul_le_mul_right _ (Nat.le_add_right _ _)
        rw [Nat.add_one_mul] at below
        exact below.trans rest
      rw [readEntries, mul_checked_ok (by omega),
        ok_bind, read_volatile_ok (by omega), ok_bind, raw,
        List.range'_succ, List.filter_cons]
      by_cases null : (rawEntry data entrySize i).typeGuid = List.replicate 16 0
      · have unused : ¬InUse data entrySize i := not_not.mpr null
        rw [if_pos null, if_neg (by simpa using unused), ih rest]
      · have used : InUse data entrySize i := null
        rw [if_neg null, if_pos (by simpa using used), slice_ok (by omega) here, ok_bind, ih rest,
          ok_bind]
        rfl

/-- Entries that are shorter than the structure read from them end outside the buffer. -/
theorem read_entries_fault (narrow : entrySize < 56) (left : Nat) :
    ∀ {i : Nat}, data.length = (i + (left + 1)) * entrySize →
      ∃ fault, readEntries data entrySize i (left + 1) = .error (.fault fault) := by
  induction left with
  | zero =>
      intro i length
      rw [Nat.zero_add, Nat.add_one_mul] at length
      rw [readEntries]
      by_cases fits : i * entrySize < 2 ^ 64
      · rw [mul_checked_ok fits, ok_bind, read_volatile_fault (by omega)]
        exact ⟨_, rfl⟩
      · rw [mul_checked_fault fits]
        exact ⟨_, rfl⟩
  | succ left ih =>
      intro i length
      rw [readEntries]
      by_cases fits : i * entrySize < 2 ^ 64
      · rw [mul_checked_ok fits, ok_bind]
        by_cases inside : i * entrySize + 56 ≤ data.length
        · have raw : GUIDPartitionTableEntryRaw.decode data (i * entrySize) = rawEntry data
              entrySize i := rfl
          rw [read_volatile_ok inside, ok_bind, raw]
          by_cases null : (rawEntry data entrySize i).typeGuid = List.replicate 16 0
          · rw [if_pos null]
            apply ih
            rw [length]
            congr 1
            omega
          · rw [if_neg null, slice_fault (by omega)]
            exact ⟨_, rfl⟩
        · rw [read_volatile_fault inside]
          exact ⟨_, rfl⟩
      · rw [mul_checked_fault fits]
        exact ⟨_, rfl⟩

end Entries

def OnDevice (count : Nat) (partition : Partition) : Prop :=
  partition.asDeviceRange.start ≤ partition.asDeviceRange.end_ ∧
    partition.asDeviceRange.end_ ≤ count

/-- The partitions are read and listed without a fault, and every one lies on the device. -/
def SafelyParsed (device : BlockDevice δ) (disk : δ) : Prop :=
  ∃ manager partitions, PartitionManager.reloadPartitions device disk = .ok manager ∧
    manager.getPartitions = .ok partitions ∧
    ∀ partition ∈ partitions, OnDevice (device.getBlockCount disk) partition

def SoundRecord (count : Nat) (mbr : MasterBootRecord) : Prop :=
  ∀ partition ∈ mbr.partitions, partition.isNull = false →
    partition.startLba + partition.sectorCount ≤ count

/-- The bytes of the entries, as `read` sees them. -/
def tableData (bytes : List UInt8) (size : Nat) (header : GPTHeader) : List UInt8 :=
  buffered bytes (header.partitionTableLba * size)
    (header.partitionEntrySize * header.partitionEntryCount)

/-- The table begins on the device, a vector can hold it and its entries are not shorter than the
structure read from them. The entries in use are ranges on the device. -/
structure SoundTable (bytes : List UInt8) (size count : Nat) (header : GPTHeader) : Prop where
  begins : header.partitionTableLba ≤ count
  fits : header.partitionEntrySize * header.partitionEntryCount < 2 ^ 63
  wide : header.partitionEntryCount = 0 ∨ 56 ≤ header.partitionEntrySize
  entries : ∀ i < header.partitionEntryCount,
    InUse (tableData bytes size header) header.partitionEntrySize i →
      (rawEntry (tableData bytes size header) header.partitionEntrySize i).firstLba ≤
          (rawEntry (tableData bytes size header) header.partitionEntrySize i).lastLba + 1 ∧
        (rawEntry (tableData bytes size header) header.partitionEntrySize i).lastLba + 1 ≤ count

def firstBlocks (bytes : List UInt8) (size : Nat) : List UInt8 := buffered bytes 0 (2 * size)

def recordOf (bytes : List UInt8) (size : Nat) : MasterBootRecord :=
  MasterBootRecord.decode (firstBlocks bytes size) 0

def headerOf (bytes : List UInt8) (size : Nat) : GPTHeader :=
  GPTHeader.decode (firstBlocks bytes size) size

/-- The bytes of the device have 64-bit addresses and two blocks fit in a vector. What the first two
blocks hold is sound. -/
structure SoundDisk (bytes : List UInt8) (size count : Nat) : Prop where
  addressable : count * size < 2 ^ 64
  fits : 2 * size < 2 ^ 63
  record : (recordOf bytes size).signature = [0x55, 0xAA] →
    (recordOf bytes size).isProtective (count - 1) = false → SoundRecord count (recordOf bytes size)
  table : (recordOf bytes size).signature = [0x55, 0xAA] →
    (recordOf bytes size).isProtective (count - 1) = true →
      (headerOf bytes size).signature = efiPart →
    SoundTable bytes size count (headerOf bytes size)

section Listing

variable {Item : Type} {make : Item → Parse Partition} {count : Nat}

theorem listed_iff (Fits : Item → Prop)
    (each : ∀ item, (∃ partition, make item = .ok partition ∧ OnDevice count partition) ↔ Fits item)
    (items : List Item) :
    (∃ partitions, items.mapM make = .ok partitions ∧
      ∀ partition ∈ partitions, OnDevice count partition) ↔ ∀ item ∈ items, Fits item := by
  induction items with
  | nil =>
      constructor
      · exact fun _ item member => absurd member List.not_mem_nil
      · exact fun _ => ⟨[], rfl, fun _ member => absurd member List.not_mem_nil⟩
  | cons item items ih =>
      rw [List.mapM_cons, List.forall_mem_cons, ← each item, ← ih]
      constructor
      · rintro ⟨partitions, listed, fit⟩
        cases made : make item with
        | error ended =>
            rw [made] at listed
            cases listed
        | ok partition =>
            rw [made, ok_bind] at listed
            cases rest : items.mapM make with
            | error ended =>
                rw [rest] at listed
                cases listed
            | ok others =>
                rw [rest, ok_bind] at listed
                obtain rfl := Except.ok.inj listed
                obtain ⟨here, behind⟩ := List.forall_mem_cons.mp fit
                exact ⟨⟨partition, rfl, here⟩, others, rfl, behind⟩
      · rintro ⟨⟨partition, made, here⟩, others, rest, behind⟩
        refine ⟨partition :: others, ?_, List.forall_mem_cons.mpr ⟨here, behind⟩⟩
        rw [made, ok_bind, rest]
        rfl

theorem record_partition_iff (small : count < 2 ^ 64) (partition : MBRPartition) :
    (∃ made, partition.toPartition = .ok made ∧ OnDevice count made) ↔
      partition.startLba + partition.sectorCount ≤ count := by
  rw [MBRPartition.toPartition]
  by_cases fits : partition.startLba + partition.sectorCount < 2 ^ 64
  · rw [addChecked, if_pos fits, ok_bind]
    constructor
    · rintro ⟨made, same, inside⟩
      obtain rfl := Except.ok.inj same
      exact inside.2
    · exact fun inside => ⟨_, rfl, Nat.le_add_right _ _, inside⟩
  · rw [addChecked, if_neg fits, error_bind]
    constructor
    · rintro ⟨made, same, -⟩
      cases same
    · intro inside
      omega

theorem table_partition_iff (small : count < 2 ^ 64) (entry : GUIDPartitionTableEntry) :
    (∃ made, entry.toPartition = .ok made ∧ OnDevice count made) ↔
      entry.firstLba ≤ entry.lastLba + 1 ∧ entry.lastLba + 1 ≤ count := by
  rw [GUIDPartitionTableEntry.toPartition, GUIDPartitionTableEntry.asDeviceRange]
  by_cases fits : entry.lastLba + 1 < 2 ^ 64
  · rw [addChecked, if_pos fits, ok_bind]
    constructor
    · rintro ⟨made, same, inside⟩
      obtain rfl := Except.ok.inj same
      exact inside
    · exact fun inside => ⟨_, rfl, inside⟩
  · rw [addChecked, if_neg fits, error_bind]
    constructor
    · rintro ⟨made, same, -⟩
      cases same
    · rintro ⟨-, inside⟩
      omega

end Listing

section Parsing

variable {device : BlockDevice δ} {block : δ → Nat → List UInt8} {disk : δ}

/-- Only what `read` returns matters, whatever the generation is. -/
theorem safely_parsed_of_scheme {manager : PartitionManager}
    (reloaded : PartitionManager.reloadPartitions device disk = .ok manager) :
    SafelyParsed device disk ↔ ∃ partitions, manager.getPartitions = .ok partitions ∧
      ∀ partition ∈ partitions, OnDevice (device.getBlockCount disk) partition := by
  constructor
  · rintro ⟨other, partitions, same, listed⟩
    obtain rfl := Except.ok.inj (same.symm.trans reloaded)
    exact ⟨partitions, listed⟩
  · rintro ⟨partitions, listed⟩
    exact ⟨manager, partitions, reloaded, listed⟩

theorem safely_parsed_of_nothing (nothing : GUIDPartitionTable.read device disk = .error .nothing) :
    SafelyParsed device disk :=
  ⟨⟨.none, device.getGeneration disk⟩, [], by rw [PartitionManager.reloadPartitions, nothing], rfl,
    fun _ member => absurd member List.not_mem_nil⟩

theorem not_safely_parsed_of_fault {fault : Fault}
    (faults : GUIDPartitionTable.read device disk = .error (.fault fault)) :
    ¬SafelyParsed device disk := by
  rintro ⟨manager, partitions, reloaded, -⟩
  rw [PartitionManager.reloadPartitions, faults] at reloaded
  cases reloaded

theorem safely_parsed_record_iff {mbr : MasterBootRecord}
    (small : device.getBlockCount disk < 2 ^ 64)
    (found : GUIDPartitionTable.read device disk = .ok (.inr mbr)) :
    SafelyParsed device disk ↔ SoundRecord (device.getBlockCount disk) mbr := by
  have reloaded : PartitionManager.reloadPartitions device disk =
      .ok ⟨.mbr mbr, device.getGeneration disk⟩ := by
    rw [PartitionManager.reloadPartitions, found]
  rw [safely_parsed_of_scheme reloaded]
  refine (listed_iff _ (record_partition_iff small) _).trans ?_
  simp only [List.mem_filter, Bool.not_eq_true', and_imp, SoundRecord]

theorem safely_parsed_table_iff {gpt : GUIDPartitionTable}
    (small : device.getBlockCount disk < 2 ^ 64)
    (found : GUIDPartitionTable.read device disk = .ok (.inl gpt)) :
    SafelyParsed device disk ↔ ∀ entry ∈ gpt.partitions,
      entry.firstLba ≤ entry.lastLba + 1 ∧ entry.lastLba + 1 ≤ device.getBlockCount disk := by
  have reloaded : PartitionManager.reloadPartitions device disk =
      .ok ⟨.gpt gpt, device.getGeneration disk⟩ := by
    rw [PartitionManager.reloadPartitions, found]
  rw [safely_parsed_of_scheme reloaded]
  exact listed_iff _ (table_partition_iff small) _

theorem read_table_ok (serviceable : Serviceable device block)
    (positive : 0 < device.getBlockSize disk)
    (addressable : device.getBlockCount disk * device.getBlockSize disk < 2 ^ 64)
    (mbr : MasterBootRecord) {header : GPTHeader}
    (begins : header.partitionTableLba ≤ device.getBlockCount disk)
    (fits : header.partitionEntrySize * header.partitionEntryCount < 2 ^ 63) :
    GUIDPartitionTable.readTable device disk mbr header =
      (readEntries (tableData (flat device block disk) (device.getBlockSize disk) header)
        header.partitionEntrySize 0 header.partitionEntryCount >>= fun partitions =>
          pure { mbr, header, partitions }) := by
  have inside : header.partitionTableLba * device.getBlockSize disk ≤
      device.getBlockCount disk * device.getBlockSize disk := Nat.mul_le_mul_right _ begins
  have read := read_chars_ok serviceable positive addressable inside
    (header.partitionEntrySize * header.partitionEntryCount)
  rw [GUIDPartitionTable.readTable, mul_checked_ok (fits.trans (by decide)), ok_bind,
    zeroed_vec_ok fits,
    ok_bind, mul_checked_ok (inside.trans_lt addressable), ok_bind, read]
  rfl

theorem read_table_fault (mbr : MasterBootRecord) {header : GPTHeader}
    (positive : 0 < device.getBlockSize disk)
    (unsound : ¬(header.partitionTableLba ≤ device.getBlockCount disk ∧
      header.partitionEntrySize * header.partitionEntryCount < 2 ^ 63)) :
    ∃ fault, GUIDPartitionTable.readTable device disk mbr header = .error (.fault fault) := by
  rw [GUIDPartitionTable.readTable]
  by_cases product : header.partitionEntrySize * header.partitionEntryCount < 2 ^ 64
  · rw [mul_checked_ok product, ok_bind]
    by_cases fits : header.partitionEntrySize * header.partitionEntryCount < 2 ^ 63
    · rw [zeroed_vec_ok fits, ok_bind]
      by_cases start : header.partitionTableLba * device.getBlockSize disk < 2 ^ 64
      · have beyond : ¬(device.getBlockCount disk * device.getBlockSize disk < 2 ^ 64 ∧
            header.partitionTableLba * device.getBlockSize disk ≤
              device.getBlockCount disk * device.getBlockSize disk) :=
          fun inside => unsound ⟨Nat.le_of_mul_le_mul_right inside.2 positive, fits⟩
        rw [mul_checked_ok start, ok_bind, read_chars_fault _ beyond]
        exact ⟨_, rfl⟩
      · rw [mul_checked_fault start]
        exact ⟨_, rfl⟩
    · rw [zeroed_vec_fault fits]
      exact ⟨_, rfl⟩
  · rw [mul_checked_fault product]
    exact ⟨_, rfl⟩

theorem read_table_cases (serviceable : Serviceable device block)
    (positive : 0 < device.getBlockSize disk)
    (addressable : device.getBlockCount disk * device.getBlockSize disk < 2 ^ 64)
    (mbr : MasterBootRecord) (header : GPTHeader) :
    (∃ fault, GUIDPartitionTable.readTable device disk mbr header = .error (.fault fault) ∧
      ¬SoundTable (flat device block disk) (device.getBlockSize disk) (device.getBlockCount disk)
        header) ∨
    ∃ gpt, GUIDPartitionTable.readTable device disk mbr header = .ok gpt ∧
      (SoundTable (flat device block disk) (device.getBlockSize disk) (device.getBlockCount disk)
        header ↔
        ∀ entry ∈ gpt.partitions, entry.firstLba ≤ entry.lastLba + 1 ∧
          entry.lastLba + 1 ≤ device.getBlockCount disk) := by
  by_cases sound : header.partitionTableLba ≤ device.getBlockCount disk ∧
      header.partitionEntrySize * header.partitionEntryCount < 2 ^ 63
  · obtain ⟨begins, fits⟩ := sound
    have read := read_table_ok serviceable positive addressable mbr begins fits
    have length : (tableData (flat device block disk) (device.getBlockSize disk) header).length =
        header.partitionEntrySize * header.partitionEntryCount := length_buffered _ _ _
    by_cases wide : header.partitionEntryCount = 0 ∨ 56 ≤ header.partitionEntrySize
    · right
      have entries : readEntries (tableData (flat device block disk) (device.getBlockSize disk)
          header)
          header.partitionEntrySize 0 header.partitionEntryCount =
            .ok (((List.range' 0 header.partitionEntryCount).filter fun i =>
              InUse (tableData (flat device block disk) (device.getBlockSize disk) header)
                header.partitionEntrySize i).map
              (namedEntry (tableData (flat device block disk) (device.getBlockSize disk) header)
                header.partitionEntrySize)) := by
        rcases wide with none | wide
        · rw [none]
          rfl
        · apply read_entries_ok wide
          · rw [length]
            exact fits.trans (by decide)
          · rw [length, Nat.zero_add, Nat.mul_comm]
      refine ⟨_, by rw [read, entries, ok_bind]; rfl, ?_⟩
      rw [List.forall_mem_map]
      simp only [List.mem_filter, List.mem_range', decide_eq_true_eq, and_imp]
      constructor
      · rintro sound i ⟨place, below, rfl⟩ used
        exact sound.entries _ (by omega) used
      · intro ranges
        exact ⟨begins, fits, wide, fun i below used => ranges i ⟨i, below, by omega⟩ used⟩
    · left
      obtain ⟨left, some⟩ := Nat.exists_eq_succ_of_ne_zero (not_or.mp wide).1
      obtain ⟨fault, faults⟩ := read_entries_fault (not_le.mp (not_or.mp wide).2) left (i := 0)
        (by rw [length, some, Nat.zero_add, Nat.mul_comm])
      refine ⟨fault, ?_, fun sound => wide sound.wide⟩
      rw [read, some, faults]
      rfl
  · left
    obtain ⟨fault, faults⟩ := read_table_fault mbr positive sound
    exact ⟨fault, faults, fun table => sound ⟨table.begins, table.fits⟩⟩

/-- What `read` does with the first two blocks. -/
theorem read_eq (serviceable : Serviceable device block) (two : 2 ≤ device.getBlockCount disk)
    (sector : 512 ≤ device.getBlockSize disk)
    (addressable : device.getBlockCount disk * device.getBlockSize disk < 2 ^ 64)
    (fits : 2 * device.getBlockSize disk < 2 ^ 63) :
    GUIDPartitionTable.read device disk =
      if (recordOf (flat device block disk) (device.getBlockSize disk)).signature ≠
        [0x55, 0xAA] then
        .error .nothing
      else if ¬(recordOf (flat device block disk) (device.getBlockSize disk)).isProtective
          (device.getBlockCount disk - 1) then
        .ok (.inr (recordOf (flat device block disk) (device.getBlockSize disk)))
      else if (headerOf (flat device block disk) (device.getBlockSize disk)).signature ≠
        efiPart then
        .error .nothing
      else
        (GUIDPartitionTable.readTable device disk
          (recordOf (flat device block disk) (device.getBlockSize disk))
          (headerOf (flat device block disk) (device.getBlockSize disk)) >>= fun gpt =>
            pure (.inl gpt)) := by
  have read := read_chars_ok serviceable (by omega) addressable (Nat.zero_le _)
    (2 * device.getBlockSize disk)
  have length : (buffered (flat device block disk) 0 (2 * device.getBlockSize disk)).length =
      2 * device.getBlockSize disk := length_buffered _ _ _
  rw [GUIDPartitionTable.read, sub_checked_ok (by omega), ok_bind,
    mul_checked_ok (fits.trans (by decide)), ok_bind,
    zeroed_vec_ok fits, ok_bind, read, ok_bind, read_volatile_ok (by rw [length]; omega), ok_bind,
    read_volatile_ok (by rw [length]; omega), ok_bind]
  rfl

theorem read_fault (two : 2 ≤ device.getBlockCount disk)
    (unsound : ¬(device.getBlockCount disk * device.getBlockSize disk < 2 ^ 64 ∧
      2 * device.getBlockSize disk < 2 ^ 63)) :
    ∃ fault, GUIDPartitionTable.read device disk = .error (.fault fault) := by
  rw [GUIDPartitionTable.read, sub_checked_ok (by omega), ok_bind]
  by_cases double : 2 * device.getBlockSize disk < 2 ^ 64
  · rw [mul_checked_ok double, ok_bind]
    by_cases fits : 2 * device.getBlockSize disk < 2 ^ 63
    · rw [zeroed_vec_ok fits, ok_bind, read_chars_fault _ fun inside => unsound ⟨inside.1, fits⟩]
      exact ⟨_, rfl⟩
    · rw [zeroed_vec_fault fits]
      exact ⟨_, rfl⟩
  · rw [mul_checked_fault double]
    exact ⟨_, rfl⟩

/-- The parser is safe on exactly the sound disks. -/
theorem safely_parsed_iff (device : BlockDevice δ) (block : δ → Nat → List UInt8)
    (serviceable : Serviceable device block) (disk : δ) (two : 2 ≤ device.getBlockCount disk)
    (sector : 512 ≤ device.getBlockSize disk) :
    SafelyParsed device disk ↔
      SoundDisk (flat device block disk) (device.getBlockSize disk)
        (device.getBlockCount disk) := by
  have positive : 0 < device.getBlockSize disk := by omega
  by_cases sized : device.getBlockCount disk * device.getBlockSize disk < 2 ^ 64 ∧
      2 * device.getBlockSize disk < 2 ^ 63
  · obtain ⟨addressable, fits⟩ := sized
    have small : device.getBlockCount disk < 2 ^ 64 :=
      (Nat.le_mul_of_pos_right _ positive).trans_lt addressable
    have read := read_eq serviceable two sector addressable fits
    by_cases signed : (recordOf (flat device block disk) (device.getBlockSize disk)).signature =
        [0x55, 0xAA]
    · rw [if_neg (not_not.mpr signed)] at read
      cases protective : (recordOf (flat device block disk) (device.getBlockSize disk)).isProtective
          (device.getBlockCount disk - 1) with
      | false =>
          rw [if_pos (by rw [protective]; decide)] at read
          rw [safely_parsed_record_iff small read]
          constructor
          · intro sound
            refine ⟨addressable, fits, fun _ _ => sound, fun _ isProtective => ?_⟩
            rw [protective] at isProtective
            exact absurd isProtective (by decide)
          · exact fun sound => sound.record signed protective
      | true =>
          rw [if_neg (not_not.mpr protective)] at read
          by_cases efi : (headerOf (flat device block disk) (device.getBlockSize disk)).signature =
            efiPart
          · rw [if_neg (not_not.mpr efi)] at read
            have table : SoundDisk (flat device block disk) (device.getBlockSize disk)
                (device.getBlockCount disk) ↔ SoundTable (flat device block disk)
                (device.getBlockSize disk) (device.getBlockCount disk)
                (headerOf (flat device block disk) (device.getBlockSize disk)) := by
              constructor
              · exact fun sound => sound.table signed protective efi
              · intro sound
                refine ⟨addressable, fits, fun _ unprotected => ?_, fun _ _ _ => sound⟩
                rw [protective] at unprotected
                exact absurd unprotected (by decide)
            rw [table]
            rcases read_table_cases serviceable positive addressable
                (recordOf (flat device block disk) (device.getBlockSize disk))
                (headerOf (flat device block disk) (device.getBlockSize disk)) with
              ⟨fault, faults, unsound⟩ | ⟨gpt, found, ranges⟩
            · rw [faults, error_bind] at read
              exact iff_of_false (not_safely_parsed_of_fault read) unsound
            · rw [found, ok_bind] at read
              rw [safely_parsed_table_iff small read, ranges]
          · rw [if_pos efi] at read
            exact iff_of_true (safely_parsed_of_nothing read)
              ⟨addressable, fits, fun _ unprotected => absurd (protective.symm.trans unprotected)
                (by decide),
                fun _ _ isEfi => absurd isEfi efi⟩
    · rw [if_pos signed] at read
      exact iff_of_true (safely_parsed_of_nothing read)
        ⟨addressable, fits, fun isSigned => absurd isSigned signed,
          fun isSigned => absurd isSigned signed⟩
  · obtain ⟨fault, faults⟩ := read_fault two sized
    exact iff_of_false (not_safely_parsed_of_fault faults)
      fun sound => sized ⟨sound.addressable, sound.fits⟩

end Parsing

instance (count : Nat) (mbr : MasterBootRecord) : Decidable (SoundRecord count mbr) :=
  inferInstanceAs (Decidable (∀ partition ∈ mbr.partitions, partition.isNull = false → _ ≤ count))

def recordSector (startChs : List UInt8) (osType : UInt8) (startLba sectorCount : Nat) :
    List UInt8 :=
  List.replicate 446 0 ++ [0] ++ startChs ++ [osType, 0, 0, 0] ++ toLe startLba 4 ++ toLe
    sectorCount 4 ++
    List.replicate 48 0 ++ [0x55, 0xAA]

def headerSector (tableLba entryCount entrySize : Nat) : List UInt8 :=
  efiPart ++ List.replicate 64 0 ++ toLe tableLba 8 ++ toLe entryCount 4 ++ toLe entrySize 4

def wholeDisk : Nat → List UInt8
  | 0 => recordSector [0, 1, 0] 0x83 1 3
  | _ => []

theorem whole_disk_safely_parsed : SafelyParsed (blockTable 512 4) wholeDisk := by
  have record : SoundRecord 4 (recordOf
      (flat (blockTable 512 4) (fun disk lba => (disk lba).takeD 512 0)
      wholeDisk) 512) := by
    decide +kernel
  have unprotected : (recordOf (flat (blockTable 512 4) (fun disk lba => (disk lba).takeD 512 0)
      wholeDisk) 512).isProtective 3 = false := by
    decide +kernel
  refine (safely_parsed_iff (blockTable 512 4)
    _ (block_table_serviceable 512 4) wholeDisk (by decide)
    (by decide)).mpr ⟨by decide, by decide, fun _ _ => record, fun _ isProtective => ?_⟩
  exact absurd (unprotected.symm.trans isProtective) (by decide)

def longPartition : Nat → List UInt8
  | 0 => recordSector [0, 1, 0] 0x83 1 100
  | _ => []

def tableBehind : Nat → List UInt8
  | 0 => recordSector [0, 2, 0] 0xEE 1 3
  | 1 => headerSector 5 128 128
  | _ => []

def shortEntries : Nat → List UInt8
  | 0 => recordSector [0, 2, 0] 0xEE 1 3
  | 1 => headerSector 2 4 32
  | _ => []

def faultOf {Value : Type} : Parse Value → Option Fault
  | .error (.fault fault) => some fault
  | _ => none

theorem disks_not_safely_parsed :
    ¬SafelyParsed (blockTable 512 4) longPartition ∧
      faultOf (GUIDPartitionTable.read (blockTable 512 4) tableBehind) = some .overflow ∧
      ¬SafelyParsed (blockTable 512 4) tableBehind ∧
      faultOf (GUIDPartitionTable.read (blockTable 512 4) shortEntries) = some .outside ∧
      ¬SafelyParsed (blockTable 512 4) shortEntries := by
  have unsafe_ : ∀ {disk : Nat → List UInt8} {fault : Fault},
      faultOf (GUIDPartitionTable.read (blockTable 512 4) disk) = some fault →
      ¬SafelyParsed (blockTable 512 4) disk := by
    intro disk fault faults
    cases outcome : GUIDPartitionTable.read (blockTable 512 4) disk with
    | ok found =>
        rw [outcome] at faults
        exact absurd faults (by simp [faultOf])
    | error ended =>
        cases ended with
        | nothing =>
            rw [outcome] at faults
            exact absurd faults (by simp [faultOf])
        | fault other => exact not_safely_parsed_of_fault outcome
  have behind : faultOf (GUIDPartitionTable.read (blockTable 512 4) tableBehind) = some
      .overflow := by
    decide +kernel
  have short : faultOf (GUIDPartitionTable.read (blockTable 512 4) shortEntries) = some
      .outside := by
    decide +kernel
  refine ⟨?_, behind, unsafe_ behind, short, unsafe_ short⟩
  have listed : (match PartitionManager.reloadPartitions (blockTable 512 4) longPartition with
      | .error _ => false
      | .ok manager => match manager.getPartitions with
          | .error _ => false
          | .ok partitions => partitions.any fun partition =>
              decide (¬partition.asDeviceRange.end_ ≤ 4)) = true := by
    decide +kernel
  rintro ⟨manager, partitions, reloaded, returned, inside⟩
  rw [reloaded] at listed
  dsimp only at listed
  rw [returned] at listed
  obtain ⟨partition, member, beyond⟩ := List.any_eq_true.mp listed
  exact of_decide_eq_true beyond (inside partition member).2

end Campix.Drivers.Partitions
