import Sapote.Paging.Supervisor
import Sapote.Pci.Enumeration

/-!
Ownership of PCI functions, `pci_resource.c`: sizing the base address registers,
the table of claims, and the arena that device memory is mapped into. What the
configuration ports answer, and whether they take a write, is an argument of each
call; so is the interrupt flag. Failure injection belongs to the self test and is
left out.
-/

namespace Sapote.Pci
open Frames Paging

def pciBarCount : Nat := 6
def pciClaimMappingCapacity : Nat := pciBarCount
def pciActiveClaimCapacity : Nat := 16
def pciBusMasterDmaCapacity : Nat := 8
def pciDeviceMmioArenaBase : Nat := 0xC00000000
def pciDeviceMmioArenaSize : Nat := 64 * 1024 * 1024
def mmioArenaPageCount : Nat := pciDeviceMmioArenaSize / pagingPageSize
def pciHeaderTypeEndpoint : Nat := 0x00

def pciCommandIoSpace : BitVec 16 := 0x0001
def pciCommandMemorySpace : BitVec 16 := 0x0002
def pciCommandBusMaster : BitVec 16 := 0x0004

def pciBarIoIndicator : BitVec 32 := 0x00000001
def pciBarIoBaseMask : BitVec 32 := 0xFFFFFFFC
def pciBarMemoryTypeMask : BitVec 32 := 0x00000006
def pciBarMemoryType32 : BitVec 32 := 0x00000000
def pciBarMemoryType64 : BitVec 32 := 0x00000004
def pciBarMemoryPrefetchable : BitVec 32 := 0x00000008
def pciBarMemoryBaseMask : BitVec 32 := 0xFFFFFFF0

inductive PciBarKind where
  | unimplemented | io | memory32 | memory64
  deriving DecidableEq

inductive PciResourceStatus where
  | ok | nullArgument | notInitialized | interruptsEnabled | functionNotEnumerated
  | unsupportedHeader | alreadyClaimed | claimTableFull | configAccess | decodeEnabled
  | restoreFailure | malformed64BitPair | reservedMemoryType | zeroBarSize | nonPowerOfTwoBar
  | unassignedBar | misalignedBar | barRangeOverflow | overlappingBar | badBarIndex
  | ioBarNotMappable | barAlreadyMapped | mappingOrder | mappingCapacity | mmioRangeOverflow
  | mmioRangeOverlap | mmioRamOverlap | mmioArenaExhausted | pagingFailure | badMmioSubregion
  | dmaNotPrepared | busMasterAlreadyEnabled | busMasterDisabled | claimInconsistent
  deriving DecidableEq

structure PciBarDescription where
  device : PciAddress
  index : Nat
  kind : PciBarKind
  (attributeBits pairIndex base size : Nat)
  (prefetchable implemented : Bool)
  deriving DecidableEq

structure PciMmioRegion where
  device : PciAddress
  (barIndex physicalBase size mappingPhysicalBase mappingVirtualBase mappingLength : Nat)
  virtualBase : Nat
  active : Bool
  deriving DecidableEq

/-- A caller's claim object. The counts of BARs and of mappings are the lengths of
the lists; what lies past them in the arrays is never read. -/
structure PciDeviceClaim where
  device : PciAddress
  (originalCommand currentCommand : BitVec 16)
  identifier : Nat
  bars : List PciBarDescription
  mappings : List PciMmioRegion
  (memoryDecodeEnabled busMasterEnabled active : Bool)
  deriving DecidableEq

structure ClaimRecord where
  device : PciAddress
  identifier : Nat
  bars : List PciBarDescription
  active : Bool
  deriving DecidableEq

/-- `struct pci_bus_master_request`; of an allocation only `dma_is_device_owned` is asked. -/
structure PciBusMasterRequest where
  allocationCount : Nat
  deviceOwned : Nat → Bool

/-- The statics of `pci_resource.c`, the tables it stands on, and the claim objects of
its callers under the names their pointers give them. -/
structure PciResources where
  paging : PagingState
  functions : List PciFunction
  claimRecords : Fin pciActiveClaimCapacity → ClaimRecord
  nextClaimIdentifier : Nat
  arenaBitmap : Bitmap
  (activeClaims activeMappings mappedPages busMasters : Nat)
  active : Bool
  claims : Nat → PciDeviceClaim

def rangeEndExclusive (base size : Nat) : Option Nat :=
  if size = 0 ∨ uint64Max - base < size then none else some (base + size)

def rangesOverlap (firstBase firstSize secondBase secondSize : Nat) : Bool :=
  match rangeEndExclusive firstBase firstSize, rangeEndExclusive secondBase secondSize with
  | some firstEnd, some secondEnd => firstBase < secondEnd && secondBase < firstEnd
  | _, _ => false

def validateBar (bar : PciBarDescription) : PciResourceStatus :=
  if !bar.implemented then .ok
  else if bar.size = 0 then .zeroBarSize
  else if !powerOfTwo bar.size then .nonPowerOfTwoBar
  else if bar.base = 0 then .unassignedBar
  else if uint64Max - bar.base < bar.size - 1 then .barRangeOverflow
  else if bar.base &&& (bar.size - 1) ≠ 0 then .misalignedBar
  else if (bar.base + bar.size - 1) % 2 ^ 64 < bar.base then .barRangeOverflow
  else .ok

/-- What the registers of a function answer while it is probed: `none` and `false`
are accesses that the ports refuse. -/
structure ProbeAnswers where
  command : Option (BitVec 16)
  /-- The BAR registers as they were found. -/
  original : Option (Nat → BitVec 32)
  /-- Decoding was switched off, and what the command register then shows. -/
  disabled : Bool
  observed : Option (BitVec 16)
  /-- Each BAR register after all ones were written to it. -/
  sizing : Nat → Option (BitVec 32)
  /-- Every register was written back and reads as before. -/
  restored : Bool
  /-- The command without bus mastering was written. -/
  rewritten : Bool

def answered {α : Type} (answer : Option α) : Except PciResourceStatus α :=
  match answer with
  | none => .error .configAccess
  | some value => .ok value

def requireStatus (status : PciResourceStatus) : Except PciResourceStatus Unit :=
  if status = .ok then .ok () else .error status

def barCountOf (headerType : Nat) : Except PciResourceStatus Nat :=
  if headerType = pciHeaderTypeEndpoint then .ok pciBarCount
  else if headerType = pciHeaderTypeBridge then .ok 2
  else .error .unsupportedHeader

def requireDecodeDisabled (command : BitVec 16) : PciResourceStatus :=
  if command &&& (pciCommandIoSpace ||| pciCommandMemorySpace) = 0 then .ok else .decodeEnabled

def validate64BitPair (barCount index : Nat) : PciResourceStatus :=
  if index + 1 < barCount then .ok else .malformed64BitPair

def barWord (high low : BitVec 32) : BitVec 64 :=
  (high.setWidth 64 <<< 32) ||| (low &&& pciBarMemoryBaseMask).setWidth 64

def blankBar (device : PciAddress) (index pairIndex : Nat) : PciBarDescription :=
  ⟨device, index, .unimplemented, 0, pairIndex, 0, 0, false, false⟩

/-- The bases and sizes a register describes; the upper half of a pair follows its
lower half. -/
def describeBar (answers : ProbeAnswers) (device : PciAddress) (original : Nat → BitVec 32)
    (barCount index : Nat) : Except PciResourceStatus (List PciBarDescription) := do
  let low := original index
  let blank := blankBar device index 255
  let maskLow ← answered (answers.sizing index)
  if maskLow = 0 then return [blank]
  else if low &&& pciBarIoIndicator ≠ 0 then
    return [{ blank with
      kind := .io
      attributeBits := (low &&& ~~~pciBarIoBaseMask).toNat
      base := (low &&& pciBarIoBaseMask).toNat
      size := (~~~(maskLow &&& pciBarIoBaseMask) + 1).toNat
      implemented := true }]
  else
    let bar := { blank with
      attributeBits := (low &&& ~~~pciBarMemoryBaseMask).toNat
      prefetchable := low &&& pciBarMemoryPrefetchable ≠ 0 }
    if low &&& pciBarMemoryTypeMask = pciBarMemoryType32 then
      return [{ bar with
        kind := .memory32
        base := (low &&& pciBarMemoryBaseMask).toNat
        size := (~~~(maskLow &&& pciBarMemoryBaseMask) + 1).toNat
        implemented := true }]
    else if low &&& pciBarMemoryTypeMask ≠ pciBarMemoryType64 then throw .reservedMemoryType
    else
      requireStatus (validate64BitPair barCount index)
      let maskHigh ← answered (answers.sizing (index + 1))
      return [{ bar with
          kind := .memory64
          pairIndex := index + 1
          base := (barWord (original (index + 1)) low).toNat
          size := (~~~barWord maskHigh maskLow + 1).toNat
          implemented := true },
        blankBar device (index + 1) index]

/-- The sizing loop. A pair takes two of its turns. -/
def sizeBars (answers : ProbeAnswers) (device : PciAddress) (original : Nat → BitVec 32)
    (barCount : Nat) : (fuel index : Nat) → Except PciResourceStatus (List PciBarDescription)
  | 0, _ => .ok []
  | fuel + 1, index =>
    if barCount ≤ index then .ok []
    else do
      let found ← describeBar answers device original barCount index
      found.forM fun bar => requireStatus (validateBar bar)
      let rest ← sizeBars answers device original barCount fuel (index + found.length)
      return found ++ rest

structure ProbedBars where
  bars : List PciBarDescription
  (originalCommand currentCommand : BitVec 16)

/-- `probe_bars`. Once decoding was switched off the registers are restored whatever
the sizing found, and a failure to restore them is reported first. -/
def probeBars (answers : ProbeAnswers) (function : PciFunction) :
    Except PciResourceStatus ProbedBars := do
  let barCount ← barCountOf function.headerType
  let command ← answered answers.command
  let original ← answered answers.original
  requireStatus (if answers.disabled then .ok else .configAccess)
  let sized := do
    let observed ← answered answers.observed
    requireStatus (requireDecodeDisabled observed)
    sizeBars answers function.address original barCount barCount 0
  requireStatus (if answers.restored then .ok else .restoreFailure)
  let bars ← sized
  let current := command &&& ~~~pciCommandBusMaster
  requireStatus (if current = command || answers.rewritten then .ok else .configAccess)
  return ⟨bars, command, current⟩

/-- The test `validate_claim_bars` makes of two BARs. -/
def barsConflict (first second : PciBarDescription) : Bool :=
  first.implemented && second.implemented && decide (first.kind = .io ↔ second.kind = .io) &&
    rangesOverlap first.base first.size second.base second.size

def conflictWithin : List PciBarDescription → Bool
  | [] => false
  | first :: rest => rest.any (barsConflict first) || conflictWithin rest

def validateClaimBars (records : Fin pciActiveClaimCapacity → ClaimRecord)
    (bars : List PciBarDescription) : PciResourceStatus :=
  if conflictWithin bars then .overlappingBar
  else if (List.finRange pciActiveClaimCapacity).any fun index =>
      (records index).active && bars.any fun current =>
        (records index).bars.any (barsConflict current) then .overlappingBar
  else .ok

def findClaimRecord (s : PciResources) (claim : PciDeviceClaim) :
    Option (Fin pciActiveClaimCapacity) :=
  (List.finRange pciActiveClaimCapacity).find? fun index =>
    (s.claimRecords index).active && (s.claimRecords index).identifier = claim.identifier &&
      (s.claimRecords index).device = claim.device

def validateActiveClaim (s : PciResources) (claim : PciDeviceClaim) : PciResourceStatus :=
  if !claim.active || (findClaimRecord s claim).isNone then .claimInconsistent else .ok

def PciResources.setClaim (s : PciResources) (name : Nat) (claim : PciDeviceClaim) : PciResources :=
  { s with claims := Function.update s.claims name claim }

def functionEnumerated (functions : List PciFunction) (function : PciFunction) : Bool :=
  functions.any fun known =>
    known.address = function.address && known.vendorId = function.vendorId &&
      known.deviceId = function.deviceId && known.headerType = function.headerType

/-- The claim object as it is cleared before the probe. A refused claim leaves it so;
what a failed probe wrote into it is never read. -/
def clearedClaim (device : PciAddress) : PciDeviceClaim :=
  ⟨device, 0, 0, 0, [], [], false, false, false⟩

def nextIdentifier (identifier : Nat) : Nat :=
  if (identifier + 1) % 2 ^ 64 = 0 then 1 else (identifier + 1) % 2 ^ 64

def freshClaim (identifier : Nat) (device : PciAddress) (probed : ProbedBars) : PciDeviceClaim where
  device := device
  originalCommand := probed.originalCommand
  currentCommand := probed.currentCommand
  identifier := identifier
  bars := probed.bars
  mappings := []
  memoryDecodeEnabled := probed.currentCommand &&& pciCommandMemorySpace ≠ 0
  busMasterEnabled := false
  active := true

def recordClaim (s : PciResources) (index : Fin pciActiveClaimCapacity) (name : Nat)
    (device : PciAddress) (probed : ProbedBars) : PciResources :=
  { s.setClaim name (freshClaim s.nextClaimIdentifier device probed) with
    claimRecords := Function.update s.claimRecords index
      ⟨device, s.nextClaimIdentifier, probed.bars, true⟩
    nextClaimIdentifier := nextIdentifier s.nextClaimIdentifier
    activeClaims := s.activeClaims + 1 }

def pciClaimDevice (interrupts : Bool) (answers : ProbeAnswers) (s : PciResources)
    (function : Option PciFunction) (claim : Option Nat) : PciResourceStatus × PciResources :=
  match function, claim with
  | some function, some name =>
    if !s.active then (.notInitialized, s)
    else if interrupts then (.interruptsEnabled, s)
    else if !functionEnumerated s.functions function then (.functionNotEnumerated, s)
    else if (List.finRange pciActiveClaimCapacity).any fun index =>
        (s.claimRecords index).active && (s.claimRecords index).device = function.address then
      (.alreadyClaimed, s)
    else
      match (List.finRange pciActiveClaimCapacity).find? fun index =>
          !(s.claimRecords index).active with
      | none => (.claimTableFull, s)
      | some index =>
        match probeBars answers function with
        | .error status => (status, s.setClaim name (clearedClaim function.address))
        | .ok probed =>
          let status := validateClaimBars s.claimRecords probed.bars
          if status ≠ .ok then (status, s.setClaim name (clearedClaim function.address))
          else (.ok, recordClaim s index name function.address probed)
  | _, _ => (.nullArgument, s)

def arenaBit (bitmap : Bitmap) (page : Nat) : Bool := bitmapGet bitmap page

def pciClaimMappedBar (claim : PciDeviceClaim) (barIndex : Nat) : Option PciMmioRegion :=
  claim.mappings.find? fun mapping => mapping.active && mapping.barIndex = barIndex

def findArenaPages (bitmap : Bitmap) (pageCount : Nat) : Option Nat :=
  if pageCount = 0 ∨ mmioArenaPageCount < pageCount then none
  else
    (List.range' 0 (mmioArenaPageCount - pageCount + 1)).find? fun first =>
      (List.range' first pageCount).all fun page => !arenaBit bitmap page

/-- The offset of a base in its page; the source masks with the page size less one. -/
def pageOffsetOf (base : Nat) : Nat := base % pagingPageSize

def roundedLengthOf (bar : PciBarDescription) : Nat :=
  (bar.size + pageOffsetOf bar.base + pagingPageSize - 1) / pagingPageSize * pagingPageSize

/-- The checks of `pci_claim_map_bar` from the BAR to the arena. -/
def mapBarAdmission (s : PciResources) (claim : PciDeviceClaim) (bar : PciBarDescription) :
    PciResourceStatus :=
  let pageOffset := pageOffsetOf bar.base
  if !bar.implemented || (bar.kind ≠ .memory32 && bar.kind ≠ .memory64) then .ioBarNotMappable
  else if uint64Max - pageOffset < bar.size ∨
      uint64Max - (pagingPageSize - 1) < bar.size + pageOffset then .mmioRangeOverflow
  else if roundedLengthOf bar = 0 ∨ pciDeviceMmioArenaSize < roundedLengthOf bar then
    .mmioArenaExhausted
  else if frameRangeOverlapsAllocatableMemory s.paging.liveHierarchy.frames
      (bar.base - pageOffset) (roundedLengthOf bar) then .mmioRamOverlap
  else if claim.mappings.any fun other =>
      other.active && rangesOverlap bar.base bar.size other.physicalBase other.size then
    .mmioRangeOverlap
  else .ok

def regionAt (claim : PciDeviceClaim) (bar : PciBarDescription) (barIndex first : Nat) :
    PciMmioRegion :=
  { device := claim.device
    barIndex := barIndex
    physicalBase := bar.base
    size := bar.size
    mappingPhysicalBase := bar.base - pageOffsetOf bar.base
    mappingVirtualBase := pciDeviceMmioArenaBase + first * pagingPageSize
    mappingLength := roundedLengthOf bar
    virtualBase := pciDeviceMmioArenaBase + first * pagingPageSize + pageOffsetOf bar.base
    active := true }

def PciMmioRegion.firstPage (mapping : PciMmioRegion) : Nat :=
  (mapping.mappingVirtualBase - pciDeviceMmioArenaBase) / pagingPageSize

def PciMmioRegion.pageCount (mapping : PciMmioRegion) : Nat :=
  mapping.mappingLength / pagingPageSize

def markArena (s : PciResources) (mapping : PciMmioRegion) (used : Bool) : Bitmap :=
  bitmapSetRun s.arenaBitmap mapping.firstPage mapping.pageCount used

def translationMatches (found : PagingStatus × PagingTranslation) (base : Nat) : Bool :=
  found.1 = .ok && found.2.physicalAddress = base && found.2.memoryType = .uncacheable &&
    found.2.permissions &&& pagingWrite ≠ 0 && found.2.permissions &&& pagingExecute = 0

def mmioPermissions : Permissions := pagingWrite ||| pagingUncached

def enterMapping (s : PciResources) (name : Nat) (mapping : PciMmioRegion) (paging : PagingState) :
    PciResources :=
  { s.setClaim name { s.claims name with mappings := (s.claims name).mappings ++ [mapping] } with
    paging := paging
    arenaBitmap := markArena s mapping true
    activeMappings := s.activeMappings + 1
    mappedPages := s.mappedPages + mapping.pageCount }

def enableDecode (s : PciResources) (name : Nat) : PciResources :=
  s.setClaim name { s.claims name with
    currentCommand := (s.claims name).currentCommand ||| pciCommandMemorySpace
    memoryDecodeEnabled := true }

/-- The call of `paging_map`; when `refused` it fails whatever the tables hold. -/
def mapRegion (refused : Bool) (paging : PagingState) (mapping : PciMmioRegion) :
    PagingStatus × PagingState :=
  if refused then (.outOfFrames, paging)
  else
    pagingMap paging mapping.mappingVirtualBase mapping.mappingPhysicalBase mapping.mappingLength
      mmioPermissions

def unmapRegion (paging : PagingState) (mapping : PciMmioRegion) : PagingStatus × PagingState :=
  pagingUnmap paging mapping.mappingVirtualBase mapping.mappingLength

/-- The pages mapped and memory decoding switched on; `port` says whether the command
register takes the write. -/
def installMapping (refused port : Bool) (s : PciResources) (name : Nat)
    (mapping : PciMmioRegion) : PciResourceStatus × PciResources :=
  let mapped := mapRegion refused s.paging mapping
  -- The undoing paths clear the bits they had set, and ignore what `paging_unmap` returns.
  let undone := (unmapRegion mapped.2 mapping).2
  let cleared := bitmapSetRun (markArena s mapping true) mapping.firstPage mapping.pageCount false
  if mapped.1 ≠ .ok then (.pagingFailure, { s with paging := mapped.2, arenaBitmap := cleared })
  else if !translationMatches (pagingTranslate mapped.2 mapping.virtualBase)
      mapping.physicalBase then
    (.pagingFailure, { s with paging := undone, arenaBitmap := cleared })
  else
    let entered := enterMapping s name mapping mapped.2
    if (s.claims name).currentCommand &&& pciCommandMemorySpace ≠ 0 then (.ok, entered)
    else if !port then (.configAccess, { s with paging := undone, arenaBitmap := cleared })
    else (.ok, enableDecode entered name)

def pciClaimMapBar (interrupts refused port : Bool) (s : PciResources) (claim : Option Nat)
    (barIndex : Nat) (region : Bool) : PciResourceStatus × PciResources :=
  match region, claim with
  | false, _ => (.nullArgument, s)
  | true, none => (.nullArgument, s)
  | true, some name =>
    let claim := s.claims name
    if validateActiveClaim s claim ≠ .ok then (validateActiveClaim s claim, s)
    else if interrupts then (.interruptsEnabled, s)
    else
      match claim.bars[barIndex]? with
      | none => (.badBarIndex, s)
      | some bar =>
        if (pciClaimMappedBar claim barIndex).isSome then (.barAlreadyMapped, s)
        else if pciClaimMappingCapacity ≤ claim.mappings.length then (.mappingCapacity, s)
        else if mapBarAdmission s claim bar ≠ .ok then (mapBarAdmission s claim bar, s)
        else
          match findArenaPages s.arenaBitmap (roundedLengthOf bar / pagingPageSize) with
          | none => (.mmioArenaExhausted, s)
          | some first => installMapping refused port s name (regionAt claim bar barIndex first)

def pciMmioSubregion (region : PciMmioRegion) (offset length : Nat) : Option Nat :=
  if !region.active ∨ length = 0 ∨ region.size < offset ∨ region.size - offset < length ∨
      uint64Max - offset < region.virtualBase then none
  else some (region.virtualBase + offset)

def leaveMapping (s : PciResources) (name : Nat) (mapping : PciMmioRegion) (paging : PagingState) :
    PciResources :=
  { s.setClaim name { s.claims name with mappings := (s.claims name).mappings.dropLast } with
    paging := paging
    arenaBitmap := markArena s mapping false
    activeMappings := sizeSub s.activeMappings 1
    mappedPages := sizeSub s.mappedPages mapping.pageCount }

/-- The last mapping of a claim taken down; the loop of `pci_release_device` repeats
the body of `pci_claim_unmap_last_bar`. -/
def dropMapping (s : PciResources) (name : Nat) (mapping : PciMmioRegion) :
    PciResourceStatus × PciResources :=
  let unmapped := unmapRegion s.paging mapping
  if unmapped.1 ≠ .ok then (.pagingFailure, { s with paging := unmapped.2 })
  else (.ok, leaveMapping s name mapping unmapped.2)

def pciClaimUnmapLastBar (interrupts : Bool) (s : PciResources) (claim : Option Nat)
    (barIndex : Nat) : PciResourceStatus × PciResources :=
  match claim with
  | none => (.nullArgument, s)
  | some name =>
    let claim := s.claims name
    if validateActiveClaim s claim ≠ .ok then (validateActiveClaim s claim, s)
    else if interrupts then (.interruptsEnabled, s)
    else
      match claim.mappings.getLast? with
      | none => (.badBarIndex, s)
      | some mapping =>
        if !mapping.active || mapping.barIndex ≠ barIndex then (.mappingOrder, s)
        else if claim.busMasterEnabled then (.busMasterAlreadyEnabled, s)
        else dropMapping s name mapping

def startMastering (s : PciResources) (name : Nat) : PciResources :=
  { s.setClaim name { s.claims name with
      currentCommand := (s.claims name).currentCommand ||| pciCommandBusMaster
      busMasterEnabled := true } with
    busMasters := s.busMasters + 1 }

def stopMastering (s : PciResources) (name : Nat) : PciResources :=
  { s.setClaim name { s.claims name with
      currentCommand := (s.claims name).currentCommand &&& ~~~pciCommandBusMaster
      busMasterEnabled := false } with
    busMasters := sizeSub s.busMasters 1 }

def pciClaimEnableBusMaster (interrupts port : Bool) (s : PciResources) (claim : Option Nat)
    (request : Option PciBusMasterRequest) : PciResourceStatus × PciResources :=
  match claim with
  | none => (.nullArgument, s)
  | some name =>
    let claim := s.claims name
    if validateActiveClaim s claim ≠ .ok then (validateActiveClaim s claim, s)
    else
      match request with
      | none => (.nullArgument, s)
      | some request =>
        if request.allocationCount = 0 ∨ pciBusMasterDmaCapacity < request.allocationCount then
          (.nullArgument, s)
        else if interrupts then (.interruptsEnabled, s)
        else if claim.busMasterEnabled then (.busMasterAlreadyEnabled, s)
        else if !claim.memoryDecodeEnabled || claim.mappings.isEmpty then (.dmaNotPrepared, s)
        else if (List.range request.allocationCount).any fun index =>
            !request.deviceOwned index then (.dmaNotPrepared, s)
        else if !port then (.configAccess, s)
        else (.ok, startMastering s name)

def pciClaimDisableBusMaster (interrupts port : Bool) (s : PciResources) (claim : Option Nat) :
    PciResourceStatus × PciResources :=
  match claim with
  | none => (.nullArgument, s)
  | some name =>
    let claim := s.claims name
    if validateActiveClaim s claim ≠ .ok then (validateActiveClaim s claim, s)
    else if interrupts then (.interruptsEnabled, s)
    else if !claim.busMasterEnabled then (.busMasterDisabled, s)
    else if !port then (.configAccess, s)
    else (.ok, stopMastering s name)

def dropMappings (name : Nat) : (fuel : Nat) → PciResources → PciResourceStatus × PciResources
  | 0, s => (.ok, s)
  | fuel + 1, s =>
    match (s.claims name).mappings.getLast? with
    | none => (.ok, s)
    | some mapping =>
      let dropped := dropMapping s name mapping
      if dropped.1 ≠ .ok then dropped else dropMappings name fuel dropped.2

def PciDeviceClaim.retired (claim : PciDeviceClaim) : PciDeviceClaim :=
  { claim with
    currentCommand := claim.originalCommand
    memoryDecodeEnabled := claim.originalCommand &&& pciCommandMemorySpace ≠ 0
    active := false }

def retireClaim (s : PciResources) (index : Fin pciActiveClaimCapacity) (name : Nat) :
    PciResources :=
  { s.setClaim name (s.claims name).retired with
    claimRecords := Function.update s.claimRecords index
      { s.claimRecords index with active := false }
    activeClaims := sizeSub s.activeClaims 1 }

def finishRelease (commandPort : Bool) (s : PciResources) (index : Fin pciActiveClaimCapacity)
    (name : Nat) : PciResourceStatus × PciResources :=
  let dropped := dropMappings name (s.claims name).mappings.length s
  if dropped.1 ≠ .ok then dropped
  else if !commandPort then (.restoreFailure, dropped.2)
  else (.ok, retireClaim dropped.2 index name)

/-- `pci_release_device`; `masterPort` and `commandPort` are its two register writes. -/
def pciReleaseDevice (interrupts masterPort commandPort : Bool) (s : PciResources)
    (claim : Option Nat) : PciResourceStatus × PciResources :=
  match claim with
  | none => (.nullArgument, s)
  | some name =>
    let claim := s.claims name
    match findClaimRecord s claim with
    | none => (.claimInconsistent, s)
    | some index =>
      if !claim.active then (.claimInconsistent, s)
      else if interrupts then (.interruptsEnabled, s)
      else
        let mastered := if claim.busMasterEnabled then
            pciClaimDisableBusMaster interrupts masterPort s (some name)
          else (.ok, s)
        if mastered.1 ≠ .ok then (.configAccess, mastered.2)
        else finishRelease commandPort mastered.2 index name

/-- The calls on a running subsystem, with what the hardware and the page tables answer. -/
inductive ResourceOp where
  | claimDevice (interrupts : Bool) (answers : ProbeAnswers) (function : Option PciFunction)
      (claim : Option Nat)
  | mapBar (interrupts refused port : Bool) (claim : Option Nat) (barIndex : Nat) (region : Bool)
  | unmapLastBar (interrupts : Bool) (claim : Option Nat) (barIndex : Nat)
  | enableBusMaster (interrupts port : Bool) (claim : Option Nat)
      (request : Option PciBusMasterRequest)
  | disableBusMaster (interrupts port : Bool) (claim : Option Nat)
  | releaseDevice (interrupts masterPort commandPort : Bool) (claim : Option Nat)

def resourceCall (s : PciResources) : ResourceOp → PciResourceStatus × PciResources
  | .claimDevice interrupts answers function claim =>
    pciClaimDevice interrupts answers s function claim
  | .mapBar interrupts refused port claim barIndex region =>
    pciClaimMapBar interrupts refused port s claim barIndex region
  | .unmapLastBar interrupts claim barIndex => pciClaimUnmapLastBar interrupts s claim barIndex
  | .enableBusMaster interrupts port claim request =>
    pciClaimEnableBusMaster interrupts port s claim request
  | .disableBusMaster interrupts port claim => pciClaimDisableBusMaster interrupts port s claim
  | .releaseDevice interrupts masterPort commandPort claim =>
    pciReleaseDevice interrupts masterPort commandPort s claim

def resourceStep (s : PciResources) (op : ResourceOp) : PciResources := (resourceCall s op).2

structure Initialized (s : PciResources) : Prop where
  active : s.active
  records : ∀ index, (s.claimRecords index).active = false
  arena : s.arenaBitmap = bitmapFill 0
  activeClaims : s.activeClaims = 0
  activeMappings : s.activeMappings = 0
  mappedPages : s.mappedPages = 0
  busMasters : s.busMasters = 0
  identifier : s.nextClaimIdentifier = 1

end Sapote.Pci
