import Sapote.Library.Reading

/-!
The parser of the Multiboot2 information, `multiboot2.c`. Pointers into the information are
addresses, a null pointer is `none`, and every load goes to a memory of which a part may be
missing. A refusal carries its status only: the context it leaves behind is used by no caller.
-/

namespace Sapote.Boot

open Library

inductive BootStatus where
  | badMagic | nullInformation | misalignedInformation | informationTooSmall | informationTooLarge
  | informationSizeMisaligned | informationOverflow | reservedFieldNonzero | truncatedTag
  | tagTooSmall | tagOverflow | duplicateMemoryMap | memoryMapTooSmall | memoryEntryTooSmall
  | memoryEntryVersion | memoryMapRemainder | memoryRegionOverflow | unsupportedModule
  | stringNotTerminated | acpiTagTooSmall | duplicateAcpiTag | badEndTag | missingEndTag
  | missingMemoryMap | duplicateFramebuffer | framebufferTagTooSmall | framebufferNotDirectColour
  | badFramebufferDepth | badFramebufferGeometry | badFramebufferPitch | badFramebufferAddress
  | badFramebufferChannel | framebufferOutsideEarlyMap
  deriving DecidableEq

def multiboot2BootMagic : Nat := 0x36D76289
def multiboot2MaxInformationSize : Nat := 16 * 1024 * 1024
def sapoteEarlyPhysicalLimit : Nat := 0x100000000
def uint64Max : Nat := 2 ^ 64 - 1
def acpiRsdpV1Size : Nat := 20
def acpiRsdpV2Size : Nat := 36

inductive TagType where
  | endTag | commandLine | bootLoaderName | moduleTag | memoryMap | framebuffer | acpiOld | acpiNew
  | other
  deriving DecidableEq

def tagType (number : Nat) : TagType :=
  match number with
  | 0 => .endTag
  | 1 => .commandLine
  | 2 => .bootLoaderName
  | 3 => .moduleTag
  | 6 => .memoryMap
  | 8 => .framebuffer
  | 14 => .acpiOld
  | 15 => .acpiNew
  | _ => .other

structure BootMemoryRegion where
  (baseAddress length type : Nat)
  deriving DecidableEq

structure BootFramebuffer where
  (address pitch width height size bitsPerPixel : Nat)
  (redPosition greenPosition bluePosition : UInt8)
  present : Bool
  deriving DecidableEq

structure BootInformation where
  (informationStart informationEnd : Nat)
  (memoryMap acpiOld acpiNew bootLoaderName commandLine : Option Nat)
  (bootLoaderNameLength commandLineLength memoryMapEntryCount reportedUsableBytes : Nat)
  highestReportedAddress : Nat
  framebuffer : BootFramebuffer
  deriving DecidableEq

def noFramebuffer : BootFramebuffer := ⟨0, 0, 0, 0, 0, 0, 0, 0, 0, false⟩

def bootInformationReset : BootInformation :=
  ⟨0, 0, none, none, none, none, none, 0, 0, 0, 0, 0, noFramebuffer⟩

def rangeFits (offset length total : Nat) : Bool := offset ≤ total ∧ length ≤ total - offset

def alignTagSize (size : Nat) : Nat := (size + 7) % 2 ^ 64 / 8 * 8

section
variable (memory : Memory UInt8)

/-- The search for the end of a string, over the bytes of the tag that are left. -/
def stringLengthFrom (tag : Nat) : Nat → Nat → Except (Stop BootStatus) (Option Nat)
  | 0, _ => .ok none
  | left + 1, index => do
      let byte ← readByte memory (tag + index)
      if byte = 0 then .ok (some (index - 8)) else stringLengthFrom tag left (index + 1)

def stringLengthWithin (tag tagSize : Nat) : Except (Stop BootStatus) (Option Nat) :=
  if tagSize ≤ 8 then .ok none else stringLengthFrom memory tag (tagSize - 8) 8

def bootInformationRegionAt (context : BootInformation) (index : Nat) :
    Except (Stop BootStatus) (Option BootMemoryRegion) :=
  match context.memoryMap with
  | none => .ok none
  | some map =>
    if context.memoryMapEntryCount ≤ index then .ok none
    else do
      let entrySize ← readField memory (map + 8) 4
      let baseAddress ← readField memory (map + (16 + index * entrySize)) 8
      let length ← readField memory (map + (16 + index * entrySize + 8)) 8
      let type ← readField memory (map + (16 + index * entrySize + 16)) 4
      .ok (some ⟨baseAddress, length, type⟩)

def reportRegion (context : BootInformation) (region : BootMemoryRegion) : BootInformation :=
  let regionEnd := region.baseAddress + region.length
  { context with
    highestReportedAddress :=
      if context.highestReportedAddress < regionEnd then regionEnd else context.highestReportedAddress
    reportedUsableBytes :=
      if region.type = 1 then
        if uint64Max - context.reportedUsableBytes < region.length then uint64Max
        else context.reportedUsableBytes + region.length
      else context.reportedUsableBytes }

def validateRegion (context : BootInformation) (index : Nat) : Except (Stop BootStatus) BootInformation := do
  let found ← bootInformationRegionAt memory context index
  let region ← okOr found (.refused .truncatedTag)
  accept (region.length ≤ uint64Max - region.baseAddress) (.refused .memoryRegionOverflow)
  .ok (reportRegion context region)

def validateMemoryMap (map : Nat) (context : BootInformation) : Except (Stop BootStatus) BootInformation := do
  let size ← readField memory (map + 4) 4
  accept (16 ≤ size) (.refused .memoryMapTooSmall)
  let entrySize ← readField memory (map + 8) 4
  accept (24 ≤ entrySize) (.refused .memoryEntryTooSmall)
  let entryVersion ← readField memory (map + 12) 4
  accept (entryVersion = 0) (.refused .memoryEntryVersion)
  accept ((size - 16) % entrySize = 0) (.refused .memoryMapRemainder)
  let entryCount := (size - 16) / entrySize
  (List.range entryCount).foldlM (validateRegion memory)
    { context with memoryMap := some map, memoryMapEntryCount := entryCount }

def channelFits (position maskSize : UInt8) : Bool :=
  maskSize = 8 ∧ position % 8 = 0 ∧ position < 32

def decodeFramebuffer (tag : Nat) : Except (Stop BootStatus) BootFramebuffer := do
  let tagSize ← readField memory (tag + 4) 4
  accept (32 ≤ tagSize) (.refused .framebufferTagTooSmall)
  let address ← readField memory (tag + 8) 8
  let pitch ← readField memory (tag + 16) 4
  let width ← readField memory (tag + 20) 4
  let height ← readField memory (tag + 24) 4
  let depth ← readByte memory (tag + 28)
  let kind ← readByte memory (tag + 29)
  accept (kind = 1) (.refused .framebufferNotDirectColour)
  accept (38 ≤ tagSize) (.refused .framebufferTagTooSmall)
  accept (depth = 32) (.refused .badFramebufferDepth)
  accept (width ≠ 0 ∧ height ≠ 0) (.refused .badFramebufferGeometry)
  accept (width * 4 ≤ pitch ∧ pitch % 4 = 0) (.refused .badFramebufferPitch)
  accept (address ≠ 0 ∧ address % 4 = 0) (.refused .badFramebufferAddress)
  let size := pitch * height
  accept (size ≠ 0 ∧ size ≤ sapoteEarlyPhysicalLimit ∧ address ≤ sapoteEarlyPhysicalLimit - size)
    (.refused .framebufferOutsideEarlyMap)
  let red ← readByte memory (tag + 32)
  let redMask ← readByte memory (tag + 33)
  let green ← readByte memory (tag + 34)
  let greenMask ← readByte memory (tag + 35)
  let blue ← readByte memory (tag + 36)
  let blueMask ← readByte memory (tag + 37)
  accept (channelFits red redMask) (.refused .badFramebufferChannel)
  accept (channelFits green greenMask) (.refused .badFramebufferChannel)
  accept (channelFits blue blueMask) (.refused .badFramebufferChannel)
  accept (red ≠ green ∧ green ≠ blue ∧ red ≠ blue) (.refused .badFramebufferChannel)
  .ok ⟨address, pitch, width, height, size, depth.toNat, red, green, blue, true⟩

def consumeTag (tag : Nat) (type : TagType) (size : Nat) (context : BootInformation) :
    Except (Stop BootStatus) BootInformation :=
  match type with
  | .memoryMap => do
      accept context.memoryMap.isNone (.refused .duplicateMemoryMap)
      validateMemoryMap memory tag context
  | .moduleTag => .error (.refused .unsupportedModule)
  | .acpiOld => do
      accept (8 + acpiRsdpV1Size ≤ size) (.refused .acpiTagTooSmall)
      accept context.acpiOld.isNone (.refused .duplicateAcpiTag)
      .ok { context with acpiOld := some tag }
  | .acpiNew => do
      accept (8 + acpiRsdpV2Size ≤ size) (.refused .acpiTagTooSmall)
      accept context.acpiNew.isNone (.refused .duplicateAcpiTag)
      .ok { context with acpiNew := some tag }
  | .framebuffer => do
      accept (!context.framebuffer.present) (.refused .duplicateFramebuffer)
      let framebuffer ← decodeFramebuffer memory tag
      .ok { context with framebuffer := framebuffer }
  | .bootLoaderName => do
      let found ← stringLengthWithin memory tag size
      let length ← okOr found (.refused .stringNotTerminated)
      .ok { context with bootLoaderName := some (tag + 8), bootLoaderNameLength := length }
  | .commandLine => do
      let found ← stringLengthWithin memory tag size
      let length ← okOr found (.refused .stringNotTerminated)
      .ok { context with commandLine := some (tag + 8), commandLineLength := length }
  | .endTag | .other => .ok context

def parseTags (start totalSize : Nat) :
    Nat → Nat → BootInformation → Except (Stop BootStatus) (Bool × BootInformation)
  | 0, _, _ => .error .unfinished
  | turns + 1, offset, context =>
    if offset < totalSize then do
      accept (rangeFits offset 8 totalSize) (.refused .truncatedTag)
      let size ← readField memory (start + (offset + 4)) 4
      accept (8 ≤ size) (.refused .tagTooSmall)
      accept (rangeFits offset size totalSize) (.refused .tagOverflow)
      let type ← readField memory (start + offset) 4
      if tagType type = .endTag then do
        accept (size = 8 ∧ offset + size = totalSize) (.refused .badEndTag)
        .ok (true, context)
      else do
        let context ← consumeTag memory (start + offset) (tagType type) size context
        accept (size ≤ alignTagSize size ∧ rangeFits offset (alignTagSize size) totalSize)
          (.refused .tagOverflow)
        parseTags start totalSize turns (offset + alignTagSize size) context
    else .ok (false, context)

def bootInformationParse (magic informationAddress : Nat) : Except (Stop BootStatus) BootInformation := do
  accept (magic = multiboot2BootMagic) (.refused .badMagic)
  accept (informationAddress ≠ 0) (.refused .nullInformation)
  accept (informationAddress % 8 = 0) (.refused .misalignedInformation)
  accept (informationAddress ≤ sapoteEarlyPhysicalLimit - 8) (.refused .informationTooLarge)
  let totalSize ← readField memory (informationAddress + 0) 4
  accept (16 ≤ totalSize) (.refused .informationTooSmall)
  accept (totalSize ≤ multiboot2MaxInformationSize) (.refused .informationTooLarge)
  accept (totalSize % 8 = 0) (.refused .informationSizeMisaligned)
  accept (informationAddress ≤ uint64Max - totalSize) (.refused .informationOverflow)
  accept (informationAddress + totalSize ≤ sapoteEarlyPhysicalLimit) (.refused .informationTooLarge)
  let reserved ← readField memory (informationAddress + 4) 4
  accept (reserved = 0) (.refused .reservedFieldNonzero)
  let context := { bootInformationReset with
    informationStart := informationAddress
    informationEnd := informationAddress + totalSize }
  -- Each turn passes eight bytes or more.
  let (foundEnd, context) ← parseTags memory informationAddress totalSize totalSize 8 context
  accept foundEnd (.refused .missingEndTag)
  accept context.memoryMap.isSome (.refused .missingMemoryMap)
  .ok context

end

end Sapote.Boot
