import Campix.Lib.Slice
import Campix.Lib.Word

/-!
# ELF files

`Elf64File::try_parse` and the iterator over the program headers of `formats/elf.rs`.
A file is its bytes; reading them does not fail here.
-/

namespace Campix.Formats

open Lib.Slice Lib.Word

set_option autoImplicit false

inductive ElfClass where
  | class32
  | class64

inductive ElfEndianness where
  | little
  | big

inductive ElfType where
  | relocatable
  | executable
  | shared
  | core

inductive ElfMachine where
  | x86_64

inductive ElfHeaderVersion where
  | current

inductive ElfVersion where
  | current

inductive InvalidElfFileReason where
  | noHeader
  | invalidMagic (magic : List UInt8)
  | invalidField (name : String)

inductive ElfError where
  | invalidElfFile (reason : InvalidElfFileReason)
  | invalidPageTableAllocation
  | invalidSegmentOffset (offset filesz : Nat)

def invalidField (name : String) : ElfError := .invalidElfFile (.invalidField name)

def ElfClass.tryFrom : Nat → Except ElfError ElfClass
  | 1 => .ok .class32
  | 2 => .ok .class64
  | _ => .error (invalidField "bits")

def ElfEndianness.tryFrom : Nat → Except ElfError ElfEndianness
  | 1 => .ok .little
  | 2 => .ok .big
  | _ => .error (invalidField "endianness")

def ElfType.tryFrom : Nat → Except ElfError ElfType
  | 1 => .ok .relocatable
  | 2 => .ok .executable
  | 3 => .ok .shared
  | 4 => .ok .core
  | _ => .error (invalidField "elf_type")

def ElfMachine.tryFrom : Nat → Except ElfError ElfMachine
  | 62 => .ok .x86_64
  | _ => .error (invalidField "instruction_set")

def ElfHeaderVersion.tryFrom : Nat → Except ElfError ElfHeaderVersion
  | 1 => .ok .current
  | _ => .error (invalidField "header_version")

def ElfVersion.tryFrom : Nat → Except ElfError ElfVersion
  | 1 => .ok .current
  | _ => .error (invalidField "elf_version")

structure Elf64Header where
  magic : List UInt8
  bits : ElfClass
  endianness : ElfEndianness
  headerVersion : ElfHeaderVersion
  osAbi : Nat
  elfType : ElfType
  instructionSet : ElfMachine
  elfVersion : ElfVersion
  entryOffset : Nat
  programHeaderTableOffset : Nat
  sectionHeaderTableOffset : Nat
  flags : Nat
  headerSize : Nat
  programHeaderEntrySize : Nat
  programHeaderEntryCount : Nat
  sectionHeaderEntrySize : Nat
  sectionHeaderEntryCount : Nat
  indexOfSectionHeaderStringTable : Nat

def elf64HeaderSize : Nat := 64

/-- The ELF version is taken from the byte of the header version, as in the source. -/
def Elf64Header.tryFrom (raw : List UInt8) : Except ElfError Elf64Header := do
  let bits ← ElfClass.tryFrom (readLe raw 4 1)
  let endianness ← ElfEndianness.tryFrom (readLe raw 5 1)
  let headerVersion ← ElfHeaderVersion.tryFrom (readLe raw 6 1)
  let elfType ← ElfType.tryFrom (readLe raw 16 2)
  let instructionSet ← ElfMachine.tryFrom (readLe raw 18 2)
  let elfVersion ← ElfVersion.tryFrom (readLe raw 6 1)
  return {
    magic := raw.take 4
    bits, endianness, headerVersion
    osAbi := readLe raw 7 1
    elfType, instructionSet, elfVersion
    entryOffset := readLe raw 24 8
    programHeaderTableOffset := readLe raw 32 8
    sectionHeaderTableOffset := readLe raw 40 8
    flags := readLe raw 48 4
    headerSize := readLe raw 52 2
    programHeaderEntrySize := readLe raw 54 2
    programHeaderEntryCount := readLe raw 56 2
    sectionHeaderEntrySize := readLe raw 58 2
    sectionHeaderEntryCount := readLe raw 60 2
    indexOfSectionHeaderStringTable := readLe raw 62 2 }

structure Elf64File where
  contents : List UInt8
  header : Elf64Header

def elfMagic : List UInt8 := [0x7F, 0x45, 0x4C, 0x46]

def Elf64File.tryParse (file : List UInt8) : Except ElfError Elf64File := do
  let buffer := file.take elf64HeaderSize
  if buffer.length ≠ elf64HeaderSize then
    throw (.invalidElfFile .noHeader)
  else if buffer.take 4 ≠ elfMagic then
    throw (.invalidElfFile (.invalidMagic (buffer.take 4)))
  else
    let header ← Elf64Header.tryFrom buffer
    return { contents := file, header := header }

inductive ElfSegmentType where
  | load
  | dynamic
  | interpreter
  | note
  | other (value : Nat)
  deriving DecidableEq

def ElfSegmentType.ofRaw : Nat → ElfSegmentType
  | 1 => .load
  | 2 => .dynamic
  | 3 => .interpreter
  | 4 => .note
  | value => .other value

/-- The addresses and sizes are `u64`. -/
structure Elf64ProgramHeader where
  segmentType : ElfSegmentType
  flags : Nat
  pOffset : UInt64
  pVaddr : UInt64
  pPaddr : UInt64
  pFilesz : UInt64
  pMemsz : UInt64
  align : UInt64

def elf64ProgramHeaderSize : Nat := 56

def Elf64ProgramHeader.ofRaw (raw : List UInt8) : Elf64ProgramHeader where
  segmentType := ElfSegmentType.ofRaw (readLe raw 0 4)
  flags := readLe raw 4 4
  pOffset := UInt64.ofNat (readLe raw 8 8)
  pVaddr := UInt64.ofNat (readLe raw 16 8)
  pPaddr := UInt64.ofNat (readLe raw 24 8)
  pFilesz := UInt64.ofNat (readLe raw 32 8)
  pMemsz := UInt64.ofNat (readLe raw 40 8)
  align := UInt64.ofNat (readLe raw 48 8)

def Elf64File.programHeadersFrom (file : Elf64File) : Nat → Nat → List Elf64ProgramHeader
  | 0, _ => []
  | left + 1, idx =>
      let ptr := add64 file.header.programHeaderTableOffset
        (mul64 idx file.header.programHeaderEntrySize)
      if ptr ≥ file.contents.length ∨ add64 ptr elf64ProgramHeaderSize > file.contents.length ∨
          add64 ptr elf64ProgramHeaderSize ≤ ptr then
        []
      else
        .ofRaw (file.contents.drop ptr) :: file.programHeadersFrom left (idx + 1)

def Elf64File.iterProgramHeaders (file : Elf64File) : List Elf64ProgramHeader :=
  file.programHeadersFrom file.header.programHeaderEntryCount 0

end Campix.Formats
