import Sapote.Frames.Bitmap
import Sapote.Paging.Types

/-!
The physical frame allocator of `src/kernel/physical_memory.c`. Addresses,
lengths and counters are natural numbers; the counters the source moves by
unsigned subtraction use `sizeSub`, so a wrap would be visible in the state.
-/

namespace Sapote.Frames
open Paging

def sapotePageSize : Nat := 4096
def lowMemoryReservation : Nat := 0x100000
def contiguousAllocationCapacity : Nat := 32
def frameCount : Nat := earlyPhysicalLimit / sapotePageSize
def uint64Max : Nat := 2 ^ 64 - 1
def multiboot2MemoryAvailable : Nat := 1

inductive FrameStatus where
  | ok | nullArgument | notInitialized | badMemoryMap | rangeOverflow | rangeOutsideLimit
  | outOfMemory | unalignedAddress | frameNotAllocatable | frameInUse | doubleFree | zeroPageCount
  | badAlignment | alignmentUnsatisfiable | addressBoundUnsatisfied | tooManyContiguousAllocations
  | badContiguousAllocation
deriving DecidableEq

structure BootMemoryRegion where
  (baseAddress length type : Nat)
deriving DecidableEq

/-- What the allocator reads of `struct boot_information`. The map is the list of
entries `boot_information_region_at` yields; that accessor fails only past the
count, so `FRAME_STATUS_BAD_MEMORY_MAP` cannot come from a map that is there. -/
structure BootInformation where
  (informationStart informationEnd : Nat)
  memoryMap : Option (List BootMemoryRegion)
  end_word : informationEnd < 2 ^ 64

structure KernelImage where
  (kernelStart kernelEnd : Nat)

structure ContiguousRequest where
  (pageCount alignment maximumPhysicalAddress : Nat)
deriving DecidableEq

structure ContiguousAllocation where
  (physicalBase pageCount alignment maximumPhysicalAddress identifier : Nat)
  active : Bool
deriving DecidableEq

structure ContiguousRecord where
  (physicalBase pageCount identifier : Nat)
  active : Bool
deriving DecidableEq

structure FrameAllocatorStats where
  (addressableFrames allocatableFrames freeFrames allocatedFrames reservedFrames : Nat)
  highestAllocatableAddress : Nat
deriving DecidableEq

structure FrameAllocator where
  (eligibleBitmap usedBitmap : Bitmap)
  stats : FrameAllocatorStats
  nextSearchIndex : Nat
  initialized : Bool
  contiguousRecords : Fin contiguousAllocationCapacity → ContiguousRecord
  nextContiguousIdentifier : Nat

def FrameAllocator.eligible (allocator : FrameAllocator) (frame : Nat) : Bool :=
  bitmapGet allocator.eligibleBitmap frame

def FrameAllocator.used (allocator : FrameAllocator) (frame : Nat) : Bool :=
  bitmapGet allocator.usedBitmap frame

def FrameAllocator.free (allocator : FrameAllocator) (frame : Nat) : Bool :=
  allocator.eligible frame && !allocator.used frame

/-- `size_t` subtraction, for operands of that type. -/
def sizeSub (a b : Nat) : Nat := if b ≤ a then a - b else a + 2 ^ 64 - b

def checkedRangeEnd (base length : Nat) : Option Nat :=
  if uint64Max - base < length then none else some (base + length)

def powerOfTwo (value : Nat) : Bool :=
  decide (value ≠ 0) && decide (value &&& (value - 1) = 0)

def ContiguousRecord.firstFrame (record : ContiguousRecord) : Nat :=
  record.physicalBase / sapotePageSize

def ContiguousRecord.holds (record : ContiguousRecord) (frame : Nat) : Bool :=
  record.active && decide (record.firstFrame ≤ frame) &&
    decide (frame - record.firstFrame < record.pageCount)

def frameInContiguousAllocation (allocator : FrameAllocator) (frame : Nat) : Bool :=
  (List.finRange contiguousAllocationCapacity).any fun index =>
    (allocator.contiguousRecords index).holds frame

/-- Whole frames inside `[base, base + length)`. The source rounds with
`& ~page_mask`, which for a page mask is division. -/
def availableFrameBounds (base length : Nat) : Except FrameStatus (Nat × Nat) :=
  match checkedRangeEnd base length with
  | none => .error .rangeOverflow
  | some stop =>
    if length = 0 ∨ earlyPhysicalLimit ≤ base then .ok (0, 0)
    else
      let clippedEnd := if stop < earlyPhysicalLimit then stop else earlyPhysicalLimit
      let alignedBase := (base + (sapotePageSize - 1)) / sapotePageSize * sapotePageSize
      if clippedEnd ≤ alignedBase then .ok (0, 0)
      else .ok (alignedBase / sapotePageSize, clippedEnd / sapotePageSize)

def coveringFrameBounds (base length : Nat) : Except FrameStatus (Nat × Nat) :=
  match checkedRangeEnd base length with
  | none => .error .rangeOverflow
  | some stop =>
    if length = 0 then .ok (0, 0)
    else if earlyPhysicalLimit ≤ base then .error .rangeOutsideLimit
    else
      let clippedEnd := if stop < earlyPhysicalLimit then stop else earlyPhysicalLimit
      .ok (base / sapotePageSize,
        clippedEnd / sapotePageSize + if clippedEnd % sapotePageSize ≠ 0 then 1 else 0)

def markAvailableFrames (allocator : FrameAllocator) (first past : Nat) : FrameAllocator :=
  { allocator with
    eligibleBitmap := bitmapSetRun allocator.eligibleBitmap first (past - first) true
    usedBitmap := bitmapSetRun allocator.usedBitmap first (past - first) false }

def markReservedFrames (allocator : FrameAllocator) (first past : Nat) : FrameAllocator :=
  { allocator with
    eligibleBitmap := bitmapSetRun allocator.eligibleBitmap first (past - first) false
    usedBitmap := bitmapSetRun allocator.usedBitmap first (past - first) true }

def reserveInternal (allocator : FrameAllocator) (base length : Nat) :
    FrameStatus × FrameAllocator :=
  match coveringFrameBounds base length with
  | .error status => (status, allocator)
  | .ok (first, past) => (.ok, markReservedFrames allocator first past)

def recomputeFrame (allocator : FrameAllocator) (stats : FrameAllocatorStats) (frame : Nat) :
    FrameAllocatorStats :=
  if !allocator.eligible frame then { stats with reservedFrames := stats.reservedFrames + 1 }
  else
    let stats := { stats with
      allocatableFrames := stats.allocatableFrames + 1
      highestAllocatableAddress := (frame + 1) * sapotePageSize }
    if allocator.used frame then { stats with allocatedFrames := stats.allocatedFrames + 1 }
    else { stats with freeFrames := stats.freeFrames + 1 }

def recountedBelow (allocator : FrameAllocator) : Nat → FrameAllocatorStats
  | 0 => ⟨frameCount, 0, 0, 0, 0, 0⟩
  | n + 1 => recomputeFrame allocator (recountedBelow allocator n) n

def recountedStats (allocator : FrameAllocator) : FrameAllocatorStats :=
  recountedBelow allocator frameCount

def recomputeStats (allocator : FrameAllocator) : FrameAllocator :=
  { allocator with stats := recountedStats allocator }

/-- The body of the map loop: pass 0 opens available regions, pass 1 closes all
others. A closed region above the window is skipped, an overflowing one refuses. -/
def applyRegion (availablePass : Bool) (allocator : FrameAllocator) (region : BootMemoryRegion) :
    FrameStatus × FrameAllocator :=
  let available := decide (region.type = multiboot2MemoryAvailable)
  if availablePass ≠ available then (.ok, allocator)
  else if available then
    match availableFrameBounds region.baseAddress region.length with
    | .error status => (status, allocator)
    | .ok (first, past) => (.ok, markAvailableFrames allocator first past)
  else
    match coveringFrameBounds region.baseAddress region.length with
    | .error .rangeOutsideLimit => (.ok, allocator)
    | .error status => (status, allocator)
    | .ok (first, past) => (.ok, markReservedFrames allocator first past)

def applyPass (availablePass : Bool) (allocator : FrameAllocator) :
    List BootMemoryRegion → FrameStatus × FrameAllocator
  | [] => (.ok, allocator)
  | region :: regions =>
    let applied := applyRegion availablePass allocator region
    if applied.1 ≠ .ok then applied else applyPass availablePass applied.2 regions

def applyMemoryMap (allocator : FrameAllocator) (regions : List BootMemoryRegion) :
    FrameStatus × FrameAllocator :=
  let opened := applyPass true allocator regions
  if opened.1 ≠ .ok then opened else applyPass false opened.2 regions

def clearedAllocator (allocator : FrameAllocator) : FrameAllocator :=
  { allocator with
    initialized := false
    nextSearchIndex := 0
    nextContiguousIdentifier := 1
    eligibleBitmap := bitmapFill 0
    usedBitmap := bitmapFill 0xFF
    contiguousRecords := fun _ => ⟨0, 0, 0, false⟩ }

def reserveBootRanges (image : KernelImage) (context : BootInformation)
    (allocator : FrameAllocator) : FrameStatus × FrameAllocator :=
  let low := reserveInternal allocator 0 lowMemoryReservation
  if low.1 ≠ .ok then low
  else if image.kernelEnd < image.kernelStart then (.rangeOverflow, low.2)
  else
    let kernel := reserveInternal low.2 image.kernelStart (image.kernelEnd - image.kernelStart)
    if kernel.1 ≠ .ok then kernel
    else
      reserveInternal kernel.2 context.informationStart
        (sizeSub context.informationEnd context.informationStart)

def publishAllocator (counted : FrameAllocator) : FrameAllocator :=
  { counted with
    nextSearchIndex := lowMemoryReservation / sapotePageSize
    initialized := true }

/-- `frame_allocator_initialize`; a null context is `none`. -/
def frameAllocatorInitialize (image : KernelImage) (context : Option BootInformation)
    (allocator : FrameAllocator) : FrameStatus × FrameAllocator :=
  match context with
  | none => (.nullArgument, allocator)
  | some context =>
    match context.memoryMap with
    | none => (.nullArgument, allocator)
    | some regions =>
      let mapped := applyMemoryMap (clearedAllocator allocator) regions
      if mapped.1 ≠ .ok then mapped
      else
        let reserved := reserveBootRanges image context mapped.2
        if reserved.1 ≠ .ok then reserved
        else
          let counted := recomputeStats reserved.2
          if counted.stats.freeFrames = 0 then (.outOfMemory, counted)
          else (.ok, publishAllocator counted)

/-- What `frame_allocate` reports: `address` is `none` where the source leaves
the caller's pointer alone. -/
structure FrameResult where
  status : FrameStatus
  address : Option Nat
  allocator : FrameAllocator

def searchedFrame (start step : Nat) : Nat :=
  if frameCount ≤ start + step then start + step - frameCount else start + step

def findFreeFrameFrom (allocator : FrameAllocator) : Nat → Nat → Option Nat
  | 0, _ => none
  | remaining + 1, step =>
    let frame := searchedFrame allocator.nextSearchIndex step
    if allocator.free frame then some frame
    else findFreeFrameFrom allocator remaining (step + 1)

def findFreeFrame (allocator : FrameAllocator) : Option Nat :=
  findFreeFrameFrom allocator frameCount 0

/-- `frame_allocate(physical_address)`; `output` says the pointer is not null. -/
def frameAllocate (allocator : FrameAllocator) (output : Bool) : FrameResult :=
  if !output then ⟨.nullArgument, none, allocator⟩
  else if !allocator.initialized then ⟨.notInitialized, none, allocator⟩
  else if allocator.stats.freeFrames = 0 then ⟨.outOfMemory, none, allocator⟩
  else
    match findFreeFrame allocator with
    | none => ⟨.outOfMemory, none, allocator⟩
    | some frame =>
      ⟨.ok, some (frame * sapotePageSize),
        { allocator with
          usedBitmap := bitmapSet allocator.usedBitmap frame true
          stats := { allocator.stats with
            freeFrames := sizeSub allocator.stats.freeFrames 1
            allocatedFrames := allocator.stats.allocatedFrames + 1 }
          nextSearchIndex := if frame + 1 = frameCount then 0 else frame + 1 }⟩

def frameRelease (allocator : FrameAllocator) (physicalAddress : Nat) :
    FrameStatus × FrameAllocator :=
  let frame := physicalAddress / sapotePageSize
  if !allocator.initialized then (.notInitialized, allocator)
  else if physicalAddress % sapotePageSize ≠ 0 then (.unalignedAddress, allocator)
  else if earlyPhysicalLimit ≤ physicalAddress then (.rangeOutsideLimit, allocator)
  else if !allocator.eligible frame then (.frameNotAllocatable, allocator)
  else if !allocator.used frame then (.doubleFree, allocator)
  else if frameInContiguousAllocation allocator frame then (.frameInUse, allocator)
  else
    (.ok, { allocator with
      usedBitmap := bitmapSet allocator.usedBitmap frame false
      stats := { allocator.stats with
        freeFrames := allocator.stats.freeFrames + 1
        allocatedFrames := sizeSub allocator.stats.allocatedFrames 1 }
      nextSearchIndex :=
        if frame < allocator.nextSearchIndex then frame else allocator.nextSearchIndex })

def maximumPastFrame (request : ContiguousRequest) : Nat :=
  let boundEnd :=
    if request.maximumPhysicalAddress = uint64Max then uint64Max
    else request.maximumPhysicalAddress + 1
  (if earlyPhysicalLimit < boundEnd then earlyPhysicalLimit else boundEnd) / sapotePageSize

/-- The checks of `frame_allocate_contiguous` that read only the request, in
order. -/
def contiguousRequestStatus (request : ContiguousRequest) : FrameStatus :=
  if request.pageCount = 0 then .zeroPageCount
  else if !powerOfTwo request.alignment ∨ request.alignment < sapotePageSize ∨
      request.alignment % sapotePageSize ≠ 0 then .badAlignment
  else if earlyPhysicalLimit < request.alignment ∨
      request.maximumPhysicalAddress +
        (if request.maximumPhysicalAddress ≠ uint64Max then 1 else 0) < request.alignment then
    .alignmentUnsatisfiable
  else if uint64Max / sapotePageSize < request.pageCount then .rangeOverflow
  else if request.pageCount * sapotePageSize = 0 ∨
      request.maximumPhysicalAddress < request.pageCount * sapotePageSize - 1 then
    .addressBoundUnsatisfied
  else if maximumPastFrame request < request.pageCount then .addressBoundUnsatisfied
  else .ok

def freeRecordIndex (allocator : FrameAllocator) : Option (Fin contiguousAllocationCapacity) :=
  (List.finRange contiguousAllocationCapacity).find? fun index =>
    !(allocator.contiguousRecords index).active

def findContiguousRun (allocator : FrameAllocator) (request : ContiguousRequest) : Option Nat :=
  (List.range (maximumPastFrame request - request.pageCount + 1)).find? fun first =>
    decide (first * sapotePageSize &&& (request.alignment - 1) = 0) &&
      (List.range' first request.pageCount).all allocator.free

def nextIdentifier (identifier : Nat) : Nat :=
  if (identifier + 1) % 2 ^ 64 = 0 then 1 else (identifier + 1) % 2 ^ 64

/-- What `frame_allocate_contiguous` reports: `allocation` is the caller's
structure after the call, `none` where it is not written. -/
structure ContiguousResult where
  status : FrameStatus
  allocation : Option ContiguousAllocation
  allocator : FrameAllocator

def clearedAllocation : ContiguousAllocation := ⟨0, 0, 0, 0, 0, false⟩

/-- The commit of a found run: bitmap, record, identifier, counters, cursor. -/
def takeContiguousRun (allocator : FrameAllocator) (request : ContiguousRequest)
    (slot : Fin contiguousAllocationCapacity) (first : Nat) : FrameAllocator :=
  { allocator with
    usedBitmap := bitmapSetRun allocator.usedBitmap first request.pageCount true
    contiguousRecords := Function.update allocator.contiguousRecords slot
      ⟨first * sapotePageSize, request.pageCount, allocator.nextContiguousIdentifier, true⟩
    nextContiguousIdentifier := nextIdentifier allocator.nextContiguousIdentifier
    stats := { allocator.stats with
      freeFrames := sizeSub allocator.stats.freeFrames request.pageCount
      allocatedFrames := allocator.stats.allocatedFrames + request.pageCount }
    nextSearchIndex :=
      if frameCount ≤ first + request.pageCount then 0 else first + request.pageCount }

/-- `frame_allocate_contiguous(request, allocation)`; `output` says the second
pointer is not null. -/
def frameAllocateContiguous (allocator : FrameAllocator) (request : Option ContiguousRequest)
    (output : Bool) : ContiguousResult :=
  match request with
  | none => ⟨.nullArgument, none, allocator⟩
  | some request =>
    if !output then ⟨.nullArgument, none, allocator⟩
    else if !allocator.initialized then ⟨.notInitialized, some clearedAllocation, allocator⟩
    else if contiguousRequestStatus request ≠ .ok then
      ⟨contiguousRequestStatus request, some clearedAllocation, allocator⟩
    else
      match freeRecordIndex allocator with
      | none => ⟨.tooManyContiguousAllocations, some clearedAllocation, allocator⟩
      | some slot =>
        match findContiguousRun allocator request with
        | none => ⟨.outOfMemory, some clearedAllocation, allocator⟩
        | some first =>
          ⟨.ok, some ⟨first * sapotePageSize, request.pageCount, request.alignment,
              request.maximumPhysicalAddress, allocator.nextContiguousIdentifier, true⟩,
            takeContiguousRun allocator request slot first⟩

def recordIndexFor (allocator : FrameAllocator) (identifier : Nat) :
    Option (Fin contiguousAllocationCapacity) :=
  (List.finRange contiguousAllocationCapacity).find? fun index =>
    (allocator.contiguousRecords index).active &&
      decide ((allocator.contiguousRecords index).identifier = identifier)

def giveContiguousRun (allocator : FrameAllocator) (slot : Fin contiguousAllocationCapacity) :
    FrameAllocator :=
  let record := allocator.contiguousRecords slot
  { allocator with
    usedBitmap := bitmapSetRun allocator.usedBitmap record.firstFrame record.pageCount false
    contiguousRecords :=
      Function.update allocator.contiguousRecords slot { record with active := false }
    stats := { allocator.stats with
      freeFrames := allocator.stats.freeFrames + record.pageCount
      allocatedFrames := sizeSub allocator.stats.allocatedFrames record.pageCount }
    nextSearchIndex :=
      if record.firstFrame < allocator.nextSearchIndex then record.firstFrame
      else allocator.nextSearchIndex }

/-- `frame_release_contiguous(allocation)`: the handle's `active` flag is cleared
exactly when the status is `ok`, so the caller's copy is not reported again. -/
def frameReleaseContiguous (allocator : FrameAllocator)
    (allocation : Option ContiguousAllocation) : FrameStatus × FrameAllocator :=
  match allocation with
  | none => (.nullArgument, allocator)
  | some allocation =>
    if !allocator.initialized then (.notInitialized, allocator)
    else if !allocation.active then (.doubleFree, allocator)
    else
      match recordIndexFor allocator allocation.identifier with
      | none => (.doubleFree, allocator)
      | some slot =>
        let record := allocator.contiguousRecords slot
        if record.physicalBase ≠ allocation.physicalBase ∨
            record.pageCount ≠ allocation.pageCount then
          (.badContiguousAllocation, allocator)
        else if !(List.range' record.firstFrame record.pageCount).all
            (fun frame => allocator.eligible frame && allocator.used frame) then
          (.badContiguousAllocation, allocator)
        else (.ok, giveContiguousRun allocator slot)

def frameReserveRange (allocator : FrameAllocator) (base length : Nat) :
    FrameStatus × FrameAllocator :=
  if !allocator.initialized then (.notInitialized, allocator)
  else
    match coveringFrameBounds base length with
    | .error status => (status, allocator)
    | .ok (first, past) =>
      if (List.range' first (past - first)).any
          (fun frame => allocator.eligible frame && allocator.used frame) then
        (.frameInUse, allocator)
      else (.ok, recomputeStats (markReservedFrames allocator first past))

def frameRangeOverlapsAllocatableMemory (allocator : FrameAllocator) (base length : Nat) : Bool :=
  if !allocator.initialized ∨ length = 0 then false
  else
    match checkedRangeEnd base length with
    | none => false
    | some stop =>
      if earlyPhysicalLimit ≤ base then false
      else
        let stop := if earlyPhysicalLimit < stop then earlyPhysicalLimit else stop
        let past := stop / sapotePageSize + if stop % sapotePageSize ≠ 0 then 1 else 0
        (List.range' (base / sapotePageSize) (past - base / sapotePageSize)).any allocator.eligible

inductive FrameOp where
  | allocate (output : Bool)
  | release (physicalAddress : Nat)
  | allocateContiguous (request : Option ContiguousRequest) (output : Bool)
  | releaseContiguous (allocation : Option ContiguousAllocation)
  | reserveRange (base length : Nat)

def frameStep (allocator : FrameAllocator) : FrameOp → FrameAllocator
  | .allocate output => (frameAllocate allocator output).allocator
  | .release physicalAddress => (frameRelease allocator physicalAddress).2
  | .allocateContiguous request output =>
    (frameAllocateContiguous allocator request output).allocator
  | .releaseContiguous allocation => (frameReleaseContiguous allocator allocation).2
  | .reserveRange base length => (frameReserveRange allocator base length).2

end Sapote.Frames
