import Sapote.Library.Bytes
import Sapote.Library.Checks

/-!
The FAT16 parsers of `fat16.rs`: the boot block, the first block of the table, the root
directory, and the extent of the one file that they agree on. Blocks are slices of bytes of
any length; every checked operation of `u64` and `usize` is kept.
-/

namespace Sapote.Fat

open Library

inductive FatStatus where
  | truncated | bootSignature | bytesPerSector | sectorsPerCluster | reservedCount | fatCount
  | totalSectors | fatSize | rootGeometry | spanOverflow | spanRange | fatClass | media
  | fatReserved | rootEndMissing | targetAbsent | targetDuplicate | longName | deleted
  | unsupportedEntry | nameMalformed | clusterRange | fatEntry | multiCluster | fileSize
  | clusterTranslation | trailingState
  deriving DecidableEq

def blockBytes : Nat := 4096
def totalSectorsAccepted : Nat := 4096
def rootEntriesAccepted : Nat := 128
def fileBytes : Nat := 128
def fileCluster : Nat := 2
def sapoteName : List UInt8 := [0x53, 0x41, 0x50, 0x4F, 0x54, 0x45, 0x20, 0x20, 0x42, 0x49, 0x4E]
def fat12MaxClusters : Nat := 4084
def fat16MaxClusters : Nat := 65524
def fat16EocMin : Nat := 0xFFF8
def mediaFixed : Nat := 0xF8
def directoryEntryBytes : Nat := 32
def attrArchive : UInt8 := 0x20
def attrLongName : UInt8 := 0x0F

def wordBound : Nat := 2 ^ 64

structure Geometry where
  (totalSectors rootDirSectors firstFatSector fatSectors firstRootSector firstDataSector : Nat)
  (dataSectors clusterCount namespaceBlocks bytesPerSector sectorsPerCluster rootEntries : Nat)
  media : Nat
  deriving DecidableEq

structure RootQuery where
  canonicalName : List UInt8
  deriving DecidableEq

structure RootEntry where
  canonicalName : List UInt8
  attributes : UInt8
  (firstCluster fileSize : Nat)
  deriving DecidableEq

structure FatState where
  (mediaEntry reservedEntry fileCluster fileEntry : Nat)
  deriving DecidableEq

structure Extent where
  (cluster fatValue lba fileSize clusterBytes : Nat)
  deriving DecidableEq

def field (bytes : List UInt8) (offset length : Nat) : Except FatStatus (List UInt8) := do
  let past ← okOr (checkedAdd wordBound offset length) .spanOverflow
  accept (past ≤ bytes.length) .truncated
  return (bytes.drop offset).take length

def readU16 (bytes : List UInt8) (offset : Nat) : Except FatStatus Nat := do
  let value ← field bytes offset 2
  return littleEndian value

def readU32 (bytes : List UInt8) (offset : Nat) : Except FatStatus Nat := do
  let value ← field bytes offset 4
  return littleEndian value

def exactBlock (bytes : List UInt8) : Except FatStatus Unit :=
  accept (bytes.length = blockBytes) .truncated

/-- The loop of `canonical_component`: whether a character was seen, if nothing stopped it. -/
def scanComponent : List UInt8 → Bool → Bool → Option Bool
  | [], sawCharacter, _ => some sawCharacter
  | byte :: rest, sawCharacter, sawSpace =>
    if byte = 0x20 then scanComponent rest sawCharacter true
    else if (0x41 ≤ byte ∧ byte ≤ 0x5A) ∨ (0x30 ≤ byte ∧ byte ≤ 0x39) then
      if sawSpace then none else scanComponent rest true sawSpace
    else none

def canonicalComponent (component : List UInt8) (required : Bool) : Bool :=
  match scanComponent component false false with
  | some sawCharacter => sawCharacter || !required
  | none => false

def canonicalName (name : List UInt8) : Bool :=
  name.length = 11 && canonicalComponent (name.take 8) true && canonicalComponent (name.drop 8) true

def validateGeometry (geometry : Geometry) : Except FatStatus Unit := do
  let fatEnd ← okOr (checkedAdd wordBound geometry.firstFatSector geometry.fatSectors) .spanOverflow
  let rootEnd ← okOr (checkedAdd wordBound geometry.firstRootSector geometry.rootDirSectors)
    .spanOverflow
  let dataEnd ← okOr (checkedAdd wordBound geometry.firstDataSector geometry.dataSectors)
    .spanOverflow
  accept (geometry.bytesPerSector = blockBytes && geometry.sectorsPerCluster = 1 &&
    geometry.rootEntries = rootEntriesAccepted &&
    geometry.media = mediaFixed &&
    geometry.totalSectors = totalSectorsAccepted &&
    geometry.rootDirSectors = 1 &&
    geometry.firstFatSector = 1 &&
    geometry.fatSectors = 2 &&
    fatEnd = geometry.firstRootSector &&
    rootEnd = geometry.firstDataSector &&
    dataEnd = geometry.totalSectors &&
    geometry.totalSectors ≤ geometry.namespaceBlocks &&
    geometry.clusterCount = geometry.dataSectors) .spanRange

structure CandidateVolume where
  (bytesPerSector sectorsPerCluster reservedSectors fatCount rootEntries totalSectors16 : Nat)
  (totalSectors32 media fatSectors hiddenSectors : Nat)
  deriving DecidableEq

def readCandidate (block : List UInt8) : Except FatStatus CandidateVolume := do
  let bytesPerSector ← readU16 block 11
  let reservedSectors ← readU16 block 14
  let rootEntries ← readU16 block 17
  let totalSectors16 ← readU16 block 19
  let totalSectors32 ← readU32 block 32
  let fatSectors ← readU16 block 22
  let hiddenSectors ← readU32 block 28
  return {
    bytesPerSector := bytesPerSector
    sectorsPerCluster := (block.getD 13 0).toNat
    reservedSectors := reservedSectors
    fatCount := (block.getD 16 0).toNat
    rootEntries := rootEntries
    totalSectors16 := totalSectors16
    totalSectors32 := totalSectors32
    media := (block.getD 21 0).toNat
    fatSectors := fatSectors
    hiddenSectors := hiddenSectors }

def selectTotalSectors (candidate : CandidateVolume) : Except FatStatus Nat :=
  match candidate.totalSectors16, candidate.totalSectors32 with
  | 0, 0 => .error .totalSectors
  | _ + 1, _ + 1 => .error .totalSectors
  | value, 0 => .ok value
  | 0, value => .ok value

def checkCandidate (candidate : CandidateVolume) (namespaceBlockBytes : Nat) :
    Except FatStatus Unit := do
  accept (candidate.bytesPerSector = blockBytes && namespaceBlockBytes = blockBytes &&
    candidate.bytesPerSector = namespaceBlockBytes) .bytesPerSector
  accept (candidate.sectorsPerCluster = 1) .sectorsPerCluster
  accept (candidate.reservedSectors = 1) .reservedCount
  accept (candidate.fatCount = 1) .fatCount
  accept (candidate.rootEntries ≠ 0) .rootGeometry
  accept (candidate.fatSectors ≠ 0) .fatSize
  accept (candidate.media = mediaFixed) .media
  accept (candidate.hiddenSectors = 0) .spanRange

def deriveGeometry (candidate : CandidateVolume) (namespaceBlocks : Nat) :
    Except FatStatus Geometry := do
  let totalSectors ← selectTotalSectors candidate
  let rootBytes ← okOr (checkedMul wordBound candidate.rootEntries directoryEntryBytes) .spanOverflow
  let sectorBytes := candidate.bytesPerSector
  let lastByte ← okOr (checkedSub sectorBytes 1) .rootGeometry
  let roundedRoot ← okOr (checkedAdd wordBound rootBytes lastByte) .spanOverflow
  accept (sectorBytes ≠ 0) .rootGeometry
  let rootDirSectors := roundedRoot / sectorBytes
  accept (rootDirSectors ≠ 0 && rootBytes % sectorBytes = 0) .rootGeometry
  let fatSpan ← okOr (checkedMul wordBound candidate.fatCount candidate.fatSectors) .spanOverflow
  let firstFatSector := candidate.reservedSectors
  let firstRootSector ← okOr (checkedAdd wordBound firstFatSector fatSpan) .spanOverflow
  let firstDataSector ← okOr (checkedAdd wordBound firstRootSector rootDirSectors) .spanOverflow
  let dataSectors ← okOr (checkedSub totalSectors firstDataSector) .spanRange
  accept (candidate.sectorsPerCluster ≠ 0) .sectorsPerCluster
  let clusterCount := dataSectors / candidate.sectorsPerCluster
  accept (fat12MaxClusters < clusterCount && clusterCount ≤ fat16MaxClusters) .fatClass
  accept (candidate.totalSectors16 = totalSectorsAccepted && candidate.totalSectors32 = 0)
    .totalSectors
  accept (candidate.rootEntries = rootEntriesAccepted) .rootGeometry
  accept (candidate.fatSectors = 2) .fatSize
  let fatBytes ← okOr (checkedMul wordBound candidate.fatSectors sectorBytes) .spanOverflow
  let requiredEntries ← okOr (checkedAdd wordBound clusterCount 2) .spanOverflow
  accept (requiredEntries ≤ fatBytes / 2) .fatSize
  return {
    totalSectors := totalSectors
    rootDirSectors := rootDirSectors
    firstFatSector := firstFatSector
    fatSectors := candidate.fatSectors
    firstRootSector := firstRootSector
    firstDataSector := firstDataSector
    dataSectors := dataSectors
    clusterCount := clusterCount
    namespaceBlocks := namespaceBlocks
    bytesPerSector := candidate.bytesPerSector
    sectorsPerCluster := candidate.sectorsPerCluster
    rootEntries := candidate.rootEntries
    media := candidate.media }

def parseBpb (block : List UInt8) (namespaceBlocks namespaceBlockBytes : Nat) :
    Except FatStatus Geometry := do
  exactBlock block
  let signature ← field block 510 2
  accept (signature = [0x55, 0xAA] && block.getD 38 0 = 0x29 && block.getD 37 0 = 0) .bootSignature
  let candidate ← readCandidate block
  checkCandidate candidate namespaceBlockBytes
  let geometry ← deriveGeometry candidate namespaceBlocks
  validateGeometry geometry
  return geometry

def makeQuery (name : List UInt8) : Except FatStatus RootQuery := do
  accept (canonicalName name && name = sapoteName) .nameMalformed
  return ⟨name⟩

/-- The first pass: the index of the first entry that starts with a zero. -/
def findEnd (block : List UInt8) : Nat → Nat → Except FatStatus (Option Nat)
  | _, 0 => .ok none
  | index, left + 1 => do
      let offset ← okOr (checkedMul wordBound index 32) .spanOverflow
      let first ← field block offset 1
      if first.getD 0 0 = 0 then return some index else findEnd block (index + 1) left

def checkEntry (geometry : Geometry) (query : RootQuery) (destinationBytes : Nat)
    (entry : List UInt8) (found : Option RootEntry) : Except FatStatus RootEntry := do
  accept (entry.getD 0 0 ≠ 0xE5) .deleted
  let attributes := entry.getD 11 0
  accept (attributes &&& attrLongName ≠ attrLongName) .longName
  accept (attributes = attrArchive) .unsupportedEntry
  let name := entry.take 11
  accept (canonicalName name) .nameMalformed
  accept (name = query.canonicalName) .unsupportedEntry
  accept found.isNone .targetDuplicate
  let highCluster ← readU16 entry 20
  let firstCluster ← readU16 entry 26
  let fileSize ← readU32 entry 28
  let maximumCluster ← okOr (checkedAdd wordBound geometry.clusterCount 1) .spanOverflow
  accept (highCluster = 0 && 2 ≤ firstCluster && firstCluster ≤ maximumCluster &&
    firstCluster = fileCluster) .clusterRange
  let clusterBytes ← okOr (checkedMul (2 ^ 32) geometry.bytesPerSector geometry.sectorsPerCluster)
    .spanOverflow
  accept (fileSize ≠ 0 && fileSize = fileBytes && fileSize ≤ clusterBytes &&
    fileSize ≤ destinationBytes) .fileSize
  return ⟨name, attributes, firstCluster, fileSize⟩

def scanEntries (block : List UInt8) (geometry : Geometry) (query : RootQuery)
    (destinationBytes : Nat) : Nat → Nat → Option RootEntry → Except FatStatus (Option RootEntry)
  | _, 0, found => .ok found
  | index, left + 1, found => do
      let offset ← okOr (checkedMul wordBound index 32) .spanOverflow
      let entry ← field block offset 32
      let next ← checkEntry geometry query destinationBytes entry found
      scanEntries block geometry query destinationBytes (index + 1) left (some next)

/-- The third pass: nothing stands after the end, whose own first byte is known. -/
def scanTrailing (block : List UInt8) (past : Nat) : Nat → Nat → Except FatStatus Unit
  | _, 0 => .ok ()
  | index, left + 1 => do
      let offset ← okOr (checkedMul wordBound index 32) .spanOverflow
      let skip := if index = past then 1 else 0
      let trailingOffset ← okOr (checkedAdd wordBound offset skip) .spanOverflow
      let trailingLength ← okOr (checkedSub 32 skip) .spanOverflow
      let trailing ← field block trailingOffset trailingLength
      accept (trailing.all fun byte => byte = 0) .trailingState
      scanTrailing block past (index + 1) left

def findRoot (block : List UInt8) (geometry : Geometry) (query : RootQuery)
    (destinationBytes : Nat) : Except FatStatus RootEntry := do
  exactBlock block
  validateGeometry geometry
  accept (canonicalName query.canonicalName && query.canonicalName = sapoteName) .nameMalformed
  let entries := geometry.rootEntries
  let endIndex ← findEnd block 0 entries
  let past ← okOr endIndex .rootEndMissing
  let found ← scanEntries block geometry query destinationBytes 0 past none
  scanTrailing block past past (entries - past)
  okOr found .targetAbsent

def parseFat (block : List UInt8) (geometry : Geometry) : Except FatStatus FatState := do
  exactBlock block
  validateGeometry geometry
  let mediaEntry ← readU16 block 0
  let reservedEntry ← readU16 block 2
  accept (mediaEntry = 0xFFF8 && reservedEntry = 0xFFFF)
    (if (block.getD 0 0).toNat ≠ geometry.media % 256 then .media else .fatReserved)
  let maximumCluster ← okOr (checkedAdd wordBound geometry.clusterCount 1) .spanOverflow
  let fatOffset ← okOr (checkedMul wordBound fileCluster 2) .spanOverflow
  let fatValue ← readU16 block fatOffset
  accept (fat16EocMin ≤ fatValue)
    (if 2 ≤ fatValue ∧ fatValue ≤ maximumCluster then .multiCluster else .fatEntry)
  return ⟨mediaEntry, reservedEntry, fileCluster, fatValue⟩

def translateCluster (geometry : Geometry) (cluster : Nat) : Except FatStatus Nat := do
  let clusterIndex ← okOr (checkedSub cluster 2) .clusterTranslation
  let sectorDelta ← okOr (checkedMul wordBound clusterIndex geometry.sectorsPerCluster)
    .clusterTranslation
  let lba ← okOr (checkedAdd wordBound geometry.firstDataSector sectorDelta) .clusterTranslation
  let extentEnd ← okOr (checkedAdd wordBound lba geometry.sectorsPerCluster) .clusterTranslation
  let dataEnd ← okOr (checkedAdd wordBound geometry.firstDataSector geometry.dataSectors)
    .clusterTranslation
  accept (geometry.firstDataSector ≤ lba && extentEnd ≤ dataEnd && extentEnd ≤ geometry.totalSectors &&
    extentEnd ≤ geometry.namespaceBlocks && lba = 4) .clusterTranslation
  return lba

def validateExtent (geometry : Geometry) (entry : RootEntry) (fat : FatState) :
    Except FatStatus Extent := do
  validateGeometry geometry
  accept (entry.canonicalName = sapoteName && entry.attributes = attrArchive) .unsupportedEntry
  let maximumCluster ← okOr (checkedAdd wordBound geometry.clusterCount 1) .spanOverflow
  accept (2 ≤ entry.firstCluster && entry.firstCluster ≤ maximumCluster &&
    entry.firstCluster = fileCluster && fat.fileCluster = entry.firstCluster) .clusterRange
  accept (fat.mediaEntry = 0xFFF8 && fat.reservedEntry = 0xFFFF) .fatReserved
  accept (fat16EocMin ≤ fat.fileEntry) .fatEntry
  let lba ← translateCluster geometry entry.firstCluster
  let clusterBytes ← okOr (checkedMul (2 ^ 32) geometry.bytesPerSector geometry.sectorsPerCluster)
    .spanOverflow
  accept (entry.fileSize ≠ 0 && entry.fileSize = fileBytes && entry.fileSize ≤ clusterBytes) .fileSize
  return ⟨entry.firstCluster, fat.fileEntry, lba, entry.fileSize, clusterBytes⟩

end Sapote.Fat
