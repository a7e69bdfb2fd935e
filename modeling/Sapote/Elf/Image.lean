import Sapote.Library.Bytes
import Sapote.Library.Checks

/-!
The parser of `elf64.rs` for the one executable that runs in user mode, and the fixture
that its self test writes. Offsets into the file are constants below its length, so the
checked additions of `usize` to them are plain; those of addresses are not.
-/

namespace Sapote.Elf

open Library

inductive ElfStatus where
  | truncated | fileLength | magic | identClass | data | identVersion | abi | identPadding | type
  | machine | headerVersion | headerFlags | headerSize | programOffset | programSize | programCount
  | sectionTable | programTable | segmentType | segmentFlags | fileRange | loadSize | alignment
  | virtualAddress | addressOverflow | entry | physicalAddress | code
  deriving DecidableEq

structure ValidatedImage where
  (valid segmentCount elfType machine programFlags entry fileOffset virtualAddress fileSize : Nat)
  (memorySize alignment mappingStart mappingEnd : Nat)
  code : List UInt8
  deriving DecidableEq

structure Header where
  (elfType machine entry : Nat)
  deriving DecidableEq

def fileBytes : Nat := 128
def headerBytes : Nat := 64
def programHeaderBytes : Nat := 56
def pageBytes : Nat := 4096
def codeOffset : Nat := 120
def code : List UInt8 := [0xB8, 0x37, 0x50, 0x41, 0x53, 0xCD, 0x81, 0xF4]

def u64Bound : Nat := 2 ^ 64

def byte (input : List UInt8) (offset : Nat) : Except ElfStatus UInt8 :=
  okOr input[offset]? .truncated

def integerLe (input : List UInt8) (offset : Nat) : Nat → Except ElfStatus Nat
  | 0 => .ok 0
  | width + 1 => do
      let low ← byte input offset
      let high ← integerLe input (offset + 1) width
      return low.toNat + 256 * high

def u16Le (input : List UInt8) (offset : Nat) : Except ElfStatus Nat := integerLe input offset 2
def u32Le (input : List UInt8) (offset : Nat) : Except ElfStatus Nat := integerLe input offset 4
def u64Le (input : List UInt8) (offset : Nat) : Except ElfStatus Nat := integerLe input offset 8

def expectBytes (input : List UInt8) (status : ElfStatus) : Nat → List UInt8 → Except ElfStatus Unit
  | _, [] => .ok ()
  | offset, expected :: rest => do
      let found ← byte input offset
      accept (found = expected) status
      expectBytes input status (offset + 1) rest

def canonicalUser (address : Nat) : Bool := address ≤ 0x00007FFFFFFFFFFF

def isPowerOfTwo (n : Nat) : Bool := n ≠ 0 ∧ n &&& (n - 1) = 0

def parseIdent (input : List UInt8) : Except ElfStatus Unit := do
  expectBytes input .magic 0 [0x7F, 0x45, 0x4C, 0x46]
  expectBytes input .identClass 4 [2]
  expectBytes input .data 5 [1]
  expectBytes input .identVersion 6 [1]
  expectBytes input .abi 7 [0, 0]
  expectBytes input .identPadding 9 [0, 0, 0, 0, 0, 0, 0]

def parseHeader (input : List UInt8) : Except ElfStatus Header := do
  let elfType ← u16Le input 16
  let machine ← u16Le input 18
  let headerVersion ← u32Le input 20
  let entry ← u64Le input 24
  let programOffset ← u64Le input 32
  let sectionOffset ← u64Le input 40
  let headerFlags ← u32Le input 48
  let headerSize ← u16Le input 52
  let programSize ← u16Le input 54
  let programCount ← u16Le input 56
  let sectionSize ← u16Le input 58
  let sectionCount ← u16Le input 60
  let sectionNames ← u16Le input 62
  accept (elfType = 2) .type
  accept (machine = 62) .machine
  accept (headerVersion = 1) .headerVersion
  accept (headerFlags = 0) .headerFlags
  accept (headerSize = headerBytes) .headerSize
  accept (programOffset = headerBytes) .programOffset
  accept (programSize = programHeaderBytes) .programSize
  accept (programCount = 1) .programCount
  accept (sectionOffset = 0 && sectionSize = 0 && sectionCount = 0 && sectionNames = 0) .sectionTable
  let tableBytes ← okOr (checkedMul u64Bound programSize programCount) .programTable
  let tableEnd ← okOr (checkedAdd u64Bound programOffset tableBytes) .programTable
  accept (tableEnd = codeOffset && tableEnd ≤ input.length) .programTable
  return ⟨elfType, machine, entry⟩

/-- The pages of the segment in the user half and the entry in it; the result is the end
of the mapping. -/
def placeSegment (fileOffset virtualAddress fileSize memorySize alignment entry : Nat) :
    Except ElfStatus Nat := do
  accept (alignment = pageBytes && isPowerOfTwo alignment) .alignment
  accept (virtualAddress &&& (alignment - 1) = fileOffset &&& (alignment - 1)) .alignment
  accept (virtualAddress &&& (pageBytes - 1) = 0 && canonicalUser virtualAddress) .virtualAddress
  let virtualEnd ← okOr (checkedAdd u64Bound virtualAddress memorySize) .addressOverflow
  accept (virtualEnd ≠ 0 && canonicalUser (virtualEnd - 1)) .virtualAddress
  let rounded ← okOr (checkedAdd u64Bound virtualEnd (pageBytes - 1)) .addressOverflow
  let mappingEnd := rounded / pageBytes * pageBytes
  accept (virtualAddress < mappingEnd && canonicalUser (mappingEnd - 1)) .virtualAddress
  let expectedEntry ← okOr (checkedAdd u64Bound virtualAddress codeOffset) .addressOverflow
  let executableEnd ← okOr (checkedAdd u64Bound virtualAddress fileSize) .addressOverflow
  accept (entry = expectedEntry && virtualAddress ≤ entry && entry < executableEnd) .entry
  return mappingEnd

/-- The one program header and the code; the table stands right after the file's header. -/
def parseSegment (input : List UInt8) (header : Header) : Except ElfStatus ValidatedImage := do
  let segmentType ← u32Le input headerBytes
  let programFlags ← u32Le input (headerBytes + 4)
  let fileOffset ← u64Le input (headerBytes + 8)
  let virtualAddress ← u64Le input (headerBytes + 16)
  let physicalAddress ← u64Le input (headerBytes + 24)
  let fileSize ← u64Le input (headerBytes + 32)
  let memorySize ← u64Le input (headerBytes + 40)
  let alignment ← u64Le input (headerBytes + 48)
  accept (segmentType = 1) .segmentType
  accept (programFlags = 5) .segmentFlags
  accept (physicalAddress = 0) .physicalAddress
  accept (fileOffset = 0) .fileRange
  accept (fileSize = fileBytes && memorySize = fileBytes) .loadSize
  let fileEnd ← okOr (checkedAdd u64Bound fileOffset fileSize) .fileRange
  accept (fileEnd = input.length) .fileRange
  let mappingEnd ← placeSegment fileOffset virtualAddress fileSize memorySize alignment header.entry
  expectBytes input .code codeOffset code
  return {
    valid := 1
    segmentCount := 1
    elfType := header.elfType
    machine := header.machine
    programFlags := programFlags
    entry := header.entry
    fileOffset := fileOffset
    virtualAddress := virtualAddress
    fileSize := fileSize
    memorySize := memorySize
    alignment := alignment
    mappingStart := virtualAddress
    mappingEnd := mappingEnd
    code := code }

def parse (input : List UInt8) : Except ElfStatus ValidatedImage := do
  accept (fileBytes ≤ input.length) .truncated
  accept (input.length = fileBytes) .fileLength
  parseIdent input
  let header ← parseHeader input
  parseSegment input header

def putByte (image : List UInt8) (offset : Nat) (value : UInt8) : Option (List UInt8) :=
  if offset < image.length then some (image.set offset value) else none

def putInteger (image : List UInt8) (offset value : Nat) : Nat → Option (List UInt8)
  | 0 => some image
  | width + 1 => do
      let image ← putByte image offset (UInt8.ofNat value)
      putInteger image (offset + 1) (value / 256) width

def putBytes (image : List UInt8) (offset : Nat) : List UInt8 → Option (List UInt8)
  | [] => some image
  | value :: rest => do
      let image ← putByte image offset value
      putBytes image (offset + 1) rest

def writeFixture (image : List UInt8) : Option (List UInt8) := do
  let image ← putBytes image 0 [0x7F, 0x45, 0x4C, 0x46, 2, 1, 1, 0, 0, 0, 0, 0, 0, 0, 0, 0]
  let image ← putInteger image 16 2 2
  let image ← putInteger image 18 62 2
  let image ← putInteger image 20 1 4
  let image ← putInteger image 24 0x0000400000000078 8
  let image ← putInteger image 32 64 8
  let image ← putInteger image 52 64 2
  let image ← putInteger image 54 56 2
  let image ← putInteger image 56 1 2
  let image ← putInteger image 64 1 4
  let image ← putInteger image 68 5 4
  let image ← putInteger image 80 0x0000400000000000 8
  let image ← putInteger image 96 128 8
  let image ← putInteger image 104 128 8
  let image ← putInteger image 112 4096 8
  putBytes image 120 code

def fixtureAt (virtualAddress : Nat) : Option (List UInt8) := do
  let image ← writeFixture (List.replicate fileBytes 0)
  let image ← putInteger image 80 virtualAddress 8
  putInteger image 24 (virtualAddress + 120) 8

end Sapote.Elf
