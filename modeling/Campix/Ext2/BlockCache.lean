import Campix.Ext2.DescriptorTable

/-!
# The cache of blocks and the device behind it

`read_block` and `write_block` go through the cache, `set_superblock` writes the device
past it. A run of such calls is compared with the run on a volume that keeps no block.
The two agree as long as no block that is in the cache is read into a longer buffer and
`set_superblock` writes no block that is in the cache.
-/

namespace Campix.Ext2

open Lib.Slice Lib.Outcome Lib.Caching Lib.Fallible

set_option autoImplicit false

namespace Ext2Volume

/-- A cache of size zero keeps nothing that is pushed: every read is a miss. -/
def withoutCache (volume : Ext2Volume) : Ext2Volume :=
  { volume with blockCache := [], blockCacheSize := 0 }

variable {base volume : Ext2Volume}

/-- The cache holds what the device does, and nothing but blocks has changed. -/
structure Coherent (base volume : Ext2Volume) : Prop where
  stores : volume.Stores volume.device
  frame : volume.frame = base.frame

theorem coherent_touch (coherent : Coherent base volume) (lba : Nat) :
    Coherent base (volume.touch lba (volume.device lba)) := by
  constructor
  · exact stores_touch coherent.stores lba
  · exact coherent.frame

theorem touch_without_cache (volume : Ext2Volume) (lba : Nat) (block : Block) :
    volume.withoutCache.touch lba block = (volume.touch lba block).withoutCache := by
  simp [touch, withoutCache]

theorem get_volume (volume : Ext2Volume) :
    (get : OnVolume Ext2Volume) volume = .ok volume volume :=
  rfl

theorem read_block_simulated {lba : Nat} {buf : Block} (coherent : Coherent base volume)
    (fits : volume.cached lba ≠ none → buf.length ≤ volume.blockSize) :
    Simulated withoutCache (Coherent base) (readBlock lba buf) volume := by
  unfold readBlock
  have missed : volume.withoutCache.cached lba = none := rfl
  have touched := touch_without_cache volume lba (volume.device lba)
  constructor
  · rw [state_bind_ok (get_volume volume), state_bind_ok (get_volume volume.withoutCache), missed]
    have size : volume.withoutCache.blockSize = volume.blockSize := rfl
    have count : volume.withoutCache.blockCount = volume.blockCount := rfl
    rw [size, count]
    split_ifs with short outside
    · rfl
    · rfl
    · change EStateM.Result.ok _ (volume.withoutCache.touch lba (volume.device lba)) = _
      rw [touched]
      cases found : volume.cached lba with
      | none => rfl
      | some block =>
          have block_eq : block = volume.device lba := cached_eq coherent.stores found
          have sized : block.length = volume.blockSize := by
            rw [block_eq]
            exact coherent.stores.sized lba
          have whole : buf.length = block.length := by
            have bound := fits (by rw [found]; exact Option.some_ne_none block)
            omega
          have rest : buf.drop (volume.device lba).length = [] := by
            rw [← block_eq, ← whole]
            exact List.drop_length
          dsimp only
          rw [if_neg (not_not.mpr whole)]
          change EStateM.Result.ok (_, volume.device lba ++ buf.drop (volume.device lba).length) _ =
            EStateM.Result.ok _ (volume.touch lba block).withoutCache
          rw [rest, List.append_nil, block_eq]
          rw [block_eq] at sized
          change EStateM.Result.ok ((volume.device lba).length, _) _ = _
          rw [sized]
  · rw [state_bind_ok (get_volume volume)]
    split_ifs with short outside
    · exact coherent
    · exact coherent
    · cases found : volume.cached lba with
      | none => exact coherent_touch coherent lba
      | some block =>
          have block_eq : block = volume.device lba := cached_eq coherent.stores found
          rw [block_eq]
          dsimp only
          split_ifs with longer
          · exact coherent_touch coherent lba
          · exact coherent_touch coherent lba

theorem write_block_simulated {lba : Nat} {buf : Block} (coherent : Coherent base volume) :
    Simulated withoutCache (Coherent base) (writeBlock lba buf) volume := by
  unfold writeBlock
  constructor
  · rw [state_bind_ok (get_volume volume), state_bind_ok (get_volume volume.withoutCache)]
    have size : volume.withoutCache.blockSize = volume.blockSize := rfl
    have count : volume.withoutCache.blockCount = volume.blockCount := rfl
    have locked : volume.withoutCache.readOnly = volume.readOnly := rfl
    rw [size, count, locked]
    split_ifs with short denied beyond atEnd
    · rfl
    · rfl
    · rfl
    · rfl
    · have length : (buf.take volume.blockSize).length = volume.blockSize := by
        rw [List.length_take]
        omega
      have missed : ({ volume.withoutCache with
          device := Function.update volume.device lba (buf.take volume.blockSize) } :
            Ext2Volume).cached lba = none :=
        rfl
      have looked : ({ volume with
          device := Function.update volume.device lba (buf.take volume.blockSize) } :
            Ext2Volume).cached lba = volume.cached lba :=
        rfl
      dsimp only
      rw [looked]
      change EStateM.Result.ok (buf.take volume.blockSize).length _ = _
      rw [length]
      cases volume.cached lba with
      | none => rfl
      | some block =>
          change _ = EStateM.Result.ok volume.blockSize _
          congr 1
  · rw [state_bind_ok (get_volume volume)]
    split_ifs with short denied beyond atEnd
    · exact coherent
    · exact coherent
    · exact coherent
    · exact coherent
    · have length : (buf.take volume.blockSize).length = volume.blockSize := by
        rw [List.length_take]
        omega
      have looked : ({ volume with
          device := Function.update volume.device lba (buf.take volume.blockSize) } :
            Ext2Volume).cached lba = volume.cached lba :=
        rfl
      dsimp only
      rw [looked]
      cases found : volume.cached lba with
      | none =>
          have kept := cached_of_miss coherent.stores found (buf.take volume.blockSize)
          exact ⟨stores_write coherent.stores length _ kept, coherent.frame⟩
      | some block =>
          have kept := cached_of_hit coherent.stores lba (buf.take volume.blockSize)
          exact ⟨stores_write coherent.stores length _ kept, coherent.frame⟩

end Ext2Volume

namespace Accounts

open Ext2Volume

variable {lru : BoundedMap Nat GroupAllocator} {self : Accounts lru} {base : Ext2Volume}
variable {volume : Ext2Volume}

def withoutCache (self : Accounts lru) : Accounts lru :=
  { self with volume := self.volume.withoutCache }

theorem write_device_simulated {lba offset : Nat} {bytes : List UInt8}
    (coherent : Coherent base volume) (missing : lba < volume.blockCount → volume.cached lba = none)
    (inside : offset + bytes.length ≤ volume.blockSize) :
    Simulated Ext2Volume.withoutCache
      (fun after => Coherent base after ∧ after.blockCache = volume.blockCache)
      (writeDevice lba offset bytes) volume := by
  unfold writeDevice
  have count : volume.withoutCache.blockCount = volume.blockCount := rfl
  constructor
  · rw [state_bind_ok (get_volume volume), state_bind_ok (get_volume volume.withoutCache), count]
    split_ifs with beyond atEnd
    · rfl
    · rfl
    · rfl
  · rw [state_bind_ok (get_volume volume)]
    split_ifs with beyond atEnd
    · exact ⟨coherent, rfl⟩
    · exact ⟨coherent, rfl⟩
    · have length : (splice (volume.device lba) offset bytes).length = volume.blockSize := by
        have sized := coherent.stores.sized lba
        rw [length_splice (by omega), sized]
      have kept := cached_of_miss coherent.stores (missing (by omega))
        (splice (volume.device lba) offset bytes)
      exact ⟨⟨stores_write coherent.stores length _ kept, coherent.frame⟩, rfl⟩

/-- The blocks that the copies of the superblock are written to, up to the first one past
the end of the device. -/
def superblockPlaces (volume : Ext2Volume) (blocksPerGroup : Nat) (groups : List Nat) : List Nat :=
  (groups.map fun group => group * blocksPerGroup + 1).takeWhile (· ≤ volume.blockCount)

theorem write_superblocks_simulated {bytes : List UInt8} {blocksPerGroup : Nat}
    (inside : bytes.length ≤ base.blockSize) (groups : List Nat) :
    ∀ {volume : Ext2Volume}, Coherent base volume →
      (∀ lba ∈ superblockPlaces volume blocksPerGroup groups, volume.cached lba = none) →
      Simulated Ext2Volume.withoutCache (Coherent base)
        (writeSuperblocks bytes blocksPerGroup groups) volume := by
  induction groups with
  | nil =>
      intro volume coherent _
      exact simulated_pure coherent
  | cons group groups ih =>
      intro volume coherent missing
      have size : volume.blockSize = base.blockSize := block_size_of_frame coherent.frame
      rw [writeSuperblocks]
      refine simulated_bind (write_device_simulated coherent ?_ ?_) ?_ ?_
      · intro below
        apply missing
        rw [superblockPlaces, List.map_cons, List.takeWhile_cons_of_pos (by simpa using below.le)]
        exact List.mem_cons_self
      · omega
      · intro after kept
        exact kept.1
      · intro _ after wrote kept
        apply ih kept.1
        intro lba place
        have within : group * blocksPerGroup + 1 ≤ volume.blockCount := by
          by_contra beyond
          unfold writeDevice at wrote
          rw [state_bind_ok (get_volume volume), if_pos (by omega)] at wrote
          cases wrote
        have count : after.blockCount = volume.blockCount := by
          rw [block_count_of_frame kept.1.frame, block_count_of_frame coherent.frame]
        have missed : volume.cached lba = none := by
          apply missing
          rw [superblockPlaces, List.map_cons, List.takeWhile_cons_of_pos (by simpa using within)]
          apply List.mem_cons_of_mem
          rwa [superblockPlaces, count] at place
        rw [cached, kept.2]
        exact missed

theorem on_volume_without_cache {Value : Type} (action : OnVolume Value) :
    onVolume action self.withoutCache =
    match action self.volume.withoutCache with
    | .ok value volume => .ok value { self.withoutCache with volume := volume }
    | .error failure volume => .error failure { self.withoutCache with volume := volume } :=
  rfl

theorem on_volume_simulated {Value : Type} {action : OnVolume Value}
    {Holds : Ext2Volume → Prop}
    (simulated : Simulated Ext2Volume.withoutCache Holds action self.volume) :
    Simulated withoutCache (fun after => Holds after.volume) (onVolume action) self := by
  have same := simulated.same
  have kept := simulated.kept
  constructor
  · rw [on_volume_without_cache, same, onVolume]
    cases action self.volume with
    | ok value after => rfl
    | error failure after => rfl
  · rw [onVolume]
    cases outcome : action self.volume with
    | ok value after =>
        rw [outcome] at kept
        exact kept
    | error failure after =>
        rw [outcome] at kept
        exact kept

theorem get_accounts (self : Accounts lru) :
    (get : OnAccounts lru (Accounts lru)) self = .ok self self :=
  rfl

def superblockBlocks (self : Accounts lru) (superblock : Superblock) : List Nat :=
  1024 / self.volume.blockSize ::
    superblockPlaces self.volume self.volume.blocksPerGroup
      ({ self with superblock := superblock }.getBackupGroups.drop 1)

def writesSuperblock (self : Accounts lru) (superblock : Superblock) : OnAccounts lru Unit := do
  onVolume (writeDevice (1024 / self.volume.blockSize) (1024 % self.volume.blockSize)
    superblock.bytes)
  onVolume (writeSuperblocks superblock.bytes self.volume.blocksPerGroup
    ({ self with superblock := superblock }.getBackupGroups.drop 1))

theorem set_superblock_eq (self : Accounts lru) (superblock : Superblock) :
    setSuperblock superblock self =
      if self.volume.readOnly then .error (.error .actionNotAllowed) self
      else writesSuperblock self superblock { self with superblock := superblock } := by
  unfold setSuperblock
  rw [state_bind_ok (get_accounts self)]
  split_ifs with denied
  · rfl
  · rfl

theorem superblock_fits {bytes : List UInt8} (size : ∃ log, base.blockSize = 1024 <<< log)
    (sized : bytes.length ≤ 1024) :
    bytes.length ≤ base.blockSize ∧ 1024 % base.blockSize + bytes.length ≤ base.blockSize := by
  obtain ⟨log, size⟩ := size
  rw [Nat.shiftLeft_eq] at size
  cases log with
  | zero =>
      have one : base.blockSize = 1024 := size
      rw [one]
      omega
  | succ log =>
      have positive : 0 < 2 ^ log := Nat.two_pow_pos log
      rw [Nat.pow_succ] at size
      have small : 1024 % base.blockSize = 1024 := Nat.mod_eq_of_lt (by omega)
      omega

theorem set_superblock_simulated {superblock : Superblock}
    (size : ∃ log, base.blockSize = 1024 <<< log)
    (sized : superblock.bytes.length ≤ 1024) (coherent : Coherent base self.volume)
    (missing : self.volume.readOnly = false →
      ∀ lba ∈ superblockBlocks self superblock, self.volume.cached lba = none) :
    Simulated withoutCache (fun after => Coherent base after.volume) (setSuperblock superblock)
      self := by
  have blockSize : self.volume.blockSize = base.blockSize := block_size_of_frame coherent.frame
  obtain ⟨fits, fitsFirst⟩ := superblock_fits size sized
  have writes : self.volume.readOnly = false → Simulated withoutCache
      (fun after => Coherent base after.volume) (writesSuperblock self superblock)
      { self with superblock := superblock } := by
    intro writable
    have free := missing writable
    refine simulated_bind (on_volume_simulated (write_device_simulated coherent ?_ ?_)) ?_ ?_
    · intro _
      exact free _ List.mem_cons_self
    · rw [blockSize]
      exact fitsFirst
    · intro after kept
      exact kept.1
    · intro _ after _ kept
      apply on_volume_simulated
      apply write_superblocks_simulated fits _ kept.1
      intro lba place
      have count : after.volume.blockCount = self.volume.blockCount := by
        rw [block_count_of_frame kept.1.frame, block_count_of_frame coherent.frame]
      have missed : self.volume.cached lba = none := by
        apply free
        apply List.mem_cons_of_mem
        rwa [superblockPlaces, count] at place
      rw [cached, kept.2]
      exact missed
  constructor
  · rw [set_superblock_eq, set_superblock_eq]
    have locked : self.withoutCache.volume.readOnly = self.volume.readOnly := rfl
    rw [locked]
    split_ifs with denied
    · rfl
    · exact (writes (by simpa using denied)).same
  · rw [set_superblock_eq]
    split_ifs with denied
    · exact coherent
    · exact (writes (by simpa using denied)).kept

theorem write_descriptors_simulated {raw : List UInt8} {blocksPerGroup blockIndex offset : Nat}
    (inside : offset + raw.length ≤ base.blockSize) (groups : List Nat) :
    ∀ {volume : Ext2Volume} {buffer : Block}, Coherent base volume →
      buffer.length = base.blockSize →
      Simulated Ext2Volume.withoutCache (Coherent base)
        (writeDescriptors raw blocksPerGroup blockIndex offset groups buffer) volume := by
  induction groups with
  | nil =>
      intro volume buffer coherent _
      exact simulated_pure coherent
  | cons group groups ih =>
      intro volume buffer coherent length
      have size : volume.blockSize = base.blockSize := block_size_of_frame coherent.frame
      rw [writeDescriptors]
      refine simulated_bind (read_block_simulated coherent fun _ => by omega)
        (fun _ kept => kept) ?_
      intro result after read kept
      have data : result.2.length = base.blockSize := by
        have spec := read_block_spec (group * blocksPerGroup + blockIndex + 2) coherent.stores
          (length.trans size.symm)
        rw [read] at spec
        cases spec with
        | ok holds =>
            rw [holds.1, ← size]
            exact coherent.stores.sized _
      have spliced : (splice result.2 offset raw).length = base.blockSize := by
        rw [length_splice (by omega), data]
      refine simulated_bind (write_block_simulated kept) (fun _ kept => kept) ?_
      intro _ final _ kept
      exact ih kept spliced

def writesDescriptor (self : Accounts lru) (group : Nat) (descriptor : BlockGroupDescriptor) :
    OnAccounts lru Unit :=
  onVolume (writeDescriptors descriptor.toRaw self.volume.blocksPerGroup
    (group * blockGroupDescriptorSize / self.volume.blockSize)
    (group * blockGroupDescriptorSize % self.volume.blockSize) self.getBackupGroups
    (List.replicate self.volume.blockSize 0))

theorem set_block_group_descriptor_eq (self : Accounts lru) (group : Nat)
    (descriptor : BlockGroupDescriptor) :
    setBlockGroupDescriptor group descriptor self =
      if self.volume.readOnly then .error (.error .actionNotAllowed) self
      else if group ≥ self.blockGroupDescriptorTable.length then .error .panic self
      else writesDescriptor self group descriptor
        { self with
          blockGroupDescriptorTable := self.blockGroupDescriptorTable.set group descriptor } := by
  unfold setBlockGroupDescriptor
  rw [state_bind_ok (get_accounts self)]
  split_ifs with denied outside
  · rfl
  · rfl
  · rfl

theorem descriptor_fits (size : ∃ log, base.blockSize = 1024 <<< log) (group : Nat) :
    group * blockGroupDescriptorSize % base.blockSize + 32 ≤ base.blockSize := by
  obtain ⟨log, size⟩ := size
  rw [Nat.shiftLeft_eq] at size
  have positive : 0 < 2 ^ log := Nat.two_pow_pos log
  have multiple : base.blockSize = 32 * (32 * 2 ^ log) := by omega
  have below : group % (32 * 2 ^ log) < 32 * 2 ^ log := Nat.mod_lt _ (by omega)
  rw [blockGroupDescriptorSize, multiple, Nat.mul_comm group, Nat.mul_mod_mul_left]
  omega

theorem set_descriptor_simulated {group : Nat} {descriptor : BlockGroupDescriptor}
    (size : ∃ log, base.blockSize = 1024 <<< log) (coherent : Coherent base self.volume) :
    Simulated withoutCache (fun after => Coherent base after.volume)
      (setBlockGroupDescriptor group descriptor) self := by
  have blockSize : self.volume.blockSize = base.blockSize := block_size_of_frame coherent.frame
  have inside : group * blockGroupDescriptorSize % self.volume.blockSize +
      descriptor.toRaw.length ≤ base.blockSize := by
    rw [blockSize, BlockGroupDescriptor.length_to_raw]
    exact descriptor_fits size group
  have writes : Simulated withoutCache (fun after => Coherent base after.volume)
      (writesDescriptor self group descriptor)
      { self with
        blockGroupDescriptorTable := self.blockGroupDescriptorTable.set group descriptor } := by
    apply on_volume_simulated
    apply write_descriptors_simulated inside _ coherent
    rw [List.length_replicate, blockSize]
  constructor
  · rw [set_block_group_descriptor_eq, set_block_group_descriptor_eq]
    have locked : self.withoutCache.volume.readOnly = self.volume.readOnly := rfl
    have table : self.withoutCache.blockGroupDescriptorTable = self.blockGroupDescriptorTable := rfl
    rw [locked, table]
    split_ifs with denied outside
    · rfl
    · rfl
    · exact writes.same
  · rw [set_block_group_descriptor_eq]
    split_ifs with denied outside
    · exact coherent
    · exact coherent
    · exact writes.kept

inductive BlockCall where
  | readBlock (lba : Nat) (buf : Block)
  | writeBlock (lba : Nat) (buf : Block)
  | setSuperblock (superblock : Superblock)
  | setBlockGroupDescriptor (group : Nat) (descriptor : BlockGroupDescriptor)

namespace BlockCall

def Typed : BlockCall → Prop
  | .setSuperblock superblock => superblock.bytes.length ≤ 1024
  | _ => True

def perform : BlockCall → OnAccounts lru (Nat × Block)
  | .readBlock lba buf => onVolume (Ext2Volume.readBlock lba buf)
  | .writeBlock lba buf => do
      let written ← onVolume (Ext2Volume.writeBlock lba buf)
      return (written, buf)
  | .setSuperblock superblock => do
      Accounts.setSuperblock superblock
      return (0, [])
  | .setBlockGroupDescriptor group descriptor => do
      Accounts.setBlockGroupDescriptor group descriptor
      return (0, [])

def Spares (self : Accounts lru) : BlockCall → Prop
  | .readBlock lba buf => self.volume.cached lba ≠ none → buf.length ≤ self.volume.blockSize
  | .setSuperblock superblock => self.volume.readOnly = false →
      ∀ lba ∈ superblockBlocks self superblock, self.volume.cached lba = none
  | _ => True

end BlockCall

def answers : Accounts lru → List BlockCall → List (Except Failure (Nat × Block))
  | _, [] => []
  | self, call :: calls =>
      (match call.perform self with
        | .ok result _ => .ok result
        | .error failure _ => .error failure) ::
      answers (stateAfter (call.perform self)) calls

def SparesCache : Accounts lru → List BlockCall → Prop
  | _, [] => True
  | self, call :: calls =>
      call.Spares self ∧ SparesCache (stateAfter (call.perform self)) calls

theorem perform_simulated {call : BlockCall} (size : ∃ log, base.blockSize = 1024 <<< log)
    (typed : call.Typed) (coherent : Coherent base self.volume) (spares : call.Spares self) :
    Simulated withoutCache (fun after => Coherent base after.volume) call.perform self := by
  cases call with
  | readBlock lba buf => exact on_volume_simulated (read_block_simulated coherent spares)
  | writeBlock lba buf =>
      apply simulated_bind (on_volume_simulated (write_block_simulated coherent))
        (fun _ kept => kept)
      intro written after _ kept
      exact simulated_pure kept
  | setSuperblock superblock =>
      apply simulated_bind (set_superblock_simulated size typed coherent spares)
        (fun _ kept => kept)
      intro _ after _ kept
      exact simulated_pure kept
  | setBlockGroupDescriptor group descriptor =>
      apply simulated_bind (set_descriptor_simulated size coherent) (fun _ kept => kept)
      intro _ after _ kept
      exact simulated_pure kept

/-- A run that spares the blocks in the cache returns what it would without the cache. -/
theorem cache_transparent (self : Accounts lru) (calls : List BlockCall)
    (size : ∃ log, self.volume.blockSize = 1024 <<< log)
    (stores : self.volume.Stores self.volume.device) (typed : ∀ call ∈ calls, call.Typed)
    (spares : SparesCache self calls) : answers self calls = answers self.withoutCache calls := by
  obtain ⟨base, shape, coherent⟩ : ∃ base : Ext2Volume,
      (∃ log, base.blockSize = 1024 <<< log) ∧ Coherent base self.volume :=
    ⟨self.volume, size, stores, rfl⟩
  clear stores size
  induction calls generalizing self with
  | nil => rfl
  | cons call calls ih =>
      have simulated := perform_simulated shape (typed call List.mem_cons_self) coherent spares.1
      have same := simulated.same
      have next := ih (stateAfter (call.perform self))
        (fun later member => typed later (List.mem_cons_of_mem call member)) spares.2 simulated.kept
      rw [answers, answers, same, next]
      cases call.perform self with
      | ok result after => rfl
      | error failure after => rfl

theorem one_group_transparent :
    answers (oneGroup 1024) [.readBlock 2 (List.replicate 1024 7),
        .setBlockGroupDescriptor 0 oneDescriptor, .readBlock 2 (List.replicate 1024 7)] =
      answers (oneGroup 1024).withoutCache [.readBlock 2 (List.replicate 1024 7),
        .setBlockGroupDescriptor 0 oneDescriptor, .readBlock 2 (List.replicate 1024 7)] := by
  refine cache_transparent _ _ ⟨0, rfl⟩ (one_group_stores (by decide)) ?_ ⟨?_, trivial, ?_, trivial⟩
  · intro call member
    rcases member with _ | ⟨_, _ | ⟨_, _ | ⟨_, impossible⟩⟩⟩
    · trivial
    · trivial
    · trivial
    · cases impossible
  · intro cached
    exact absurd rfl cached
  · intro _
    decide +kernel

def countByte : Except Failure (Nat × Block) → Option UInt8
  | .ok (_, buf) => some (buf.getD 12 0)
  | .error _ => none

/-- A cached block does not fit a longer buffer, and the cached copy of a block does not
see the new superblock. -/
theorem cached_blocks_differ :
    answers (oneGroup 1024) [.readBlock 0 (List.replicate 1024 0),
      .readBlock 0 (List.replicate 2048 0)] ≠
      answers (oneGroup 1024).withoutCache
        [.readBlock 0 (List.replicate 1024 0), .readBlock 0 (List.replicate 2048 0)] ∧
    answers (oneGroup 1024) [.readBlock 1 (List.replicate 1024 0),
        .setSuperblock { (oneGroup 1024).superblock with unallocated := fun _ => 5 },
        .readBlock 1 (List.replicate 1024 0)] ≠
      answers (oneGroup 1024).withoutCache [.readBlock 1 (List.replicate 1024 0),
        .setSuperblock { (oneGroup 1024).superblock with unallocated := fun _ => 5 },
        .readBlock 1 (List.replicate 1024 0)] := by
  constructor
  · exact mt (congrArg (List.map countByte)) (by decide +kernel)
  · exact mt (congrArg (List.map countByte)) (by decide +kernel)

end Accounts

end Campix.Ext2
