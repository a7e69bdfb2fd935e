import Sapote.Frames.Allocator

/-!
Memory shared with devices, `dma.c`. A handle is a structure its caller holds; the model
keeps the caller-held structures in a store of their own, under the names their
addresses give them, and a null pointer is `none`. What `paging_translate` answers is up
to the caller of the model.
-/

namespace Sapote.Dma

open Frames

inductive DmaOwner where
  | none | cpu | device
  | unknown (value : Nat)
  deriving DecidableEq

inductive DmaStatus where
  | ok | nullArgument | alreadyInitialized | notInitialized | frameAllocationFailure
  | notIdentityMapped | notPrepared | wrongOwner | doubleFree | badAllocation
  deriving DecidableEq

/-- `struct dma_allocation`; a null `cpu_address` is zero. -/
structure DmaAllocation where
  frames : ContiguousAllocation
  (cpuAddress byteLength : Nat)
  owner : DmaOwner
  (initialized active : Bool)
  deriving DecidableEq

structure DmaRecord where
  handle : Option Nat
  frames : ContiguousAllocation
  owner : DmaOwner
  (initialized active : Bool)
  deriving DecidableEq

abbrev RecordIndex := Fin contiguousAllocationCapacity

/-- The statics of `dma.c`, the frame allocator below and the structures of the callers. -/
structure DmaSystem where
  frames : FrameAllocator
  records : RecordIndex → DmaRecord
  (activeAllocations cpuOwnedAllocations deviceOwnedAllocations : Nat)
  active : Bool
  handles : Nat → DmaAllocation

abbrev DmaRequest := ContiguousRequest

structure DmaTranslation where
  physicalAddress : Nat
  (writeBack writable : Bool)
  deriving DecidableEq

def recordFor (s : DmaSystem) (allocation : DmaAllocation) : Option RecordIndex :=
  (List.finRange contiguousAllocationCapacity).find? fun index =>
    (s.records index).active ∧ (s.records index).frames.identifier = allocation.frames.identifier

/-- The record a handle claims agrees with it in everything they both say. -/
def recordAgrees (record : DmaRecord) (name : Nat) (allocation : DmaAllocation) : Bool :=
  record.handle = some name ∧
    record.frames.physicalBase = allocation.frames.physicalBase ∧
    record.frames.pageCount = allocation.frames.pageCount ∧
    record.frames.alignment = allocation.frames.alignment ∧
    record.frames.maximumPhysicalAddress = allocation.frames.maximumPhysicalAddress ∧
    record.frames.active ∧
    allocation.cpuAddress = record.frames.physicalBase ∧
    record.frames.pageCount ≤ uint64Max / sapotePageSize ∧
    allocation.byteLength = record.frames.pageCount * sapotePageSize ∧
    record.owner = allocation.owner ∧
    record.initialized = allocation.initialized

def allocationPlausible (allocation : DmaAllocation) : Bool :=
  allocation.active ∧ allocation.frames.active ∧ allocation.cpuAddress ≠ 0 ∧
    allocation.byteLength ≠ 0 ∧ (allocation.owner = .cpu ∨ allocation.owner = .device)

def validateAllocation (s : DmaSystem) (handle : Option Nat) : DmaStatus :=
  match handle with
  | none => .nullArgument
  | some name =>
    if !allocationPlausible (s.handles name) then .badAllocation
    else
      match recordFor s (s.handles name) with
      | none => .badAllocation
      | some index =>
        if !recordAgrees (s.records index) name (s.handles name) then .badAllocation else .ok

def dmaInitialize (s : DmaSystem) : DmaStatus × DmaSystem :=
  if s.active then (.alreadyInitialized, s)
  else
    (.ok,
      { s with
        activeAllocations := 0
        cpuOwnedAllocations := 0
        deviceOwnedAllocations := 0
        records := fun index => { s.records index with handle := none, active := false }
        active := true })

def clearedHandle : DmaAllocation := ⟨clearedAllocation, 0, 0, .none, false, false⟩

def writeHandle (s : DmaSystem) (name : Nat) (allocation : DmaAllocation) : DmaSystem :=
  { s with handles := Function.update s.handles name allocation }

def freeDmaRecord (s : DmaSystem) : Option RecordIndex :=
  (List.finRange contiguousAllocationCapacity).find? fun index => !(s.records index).active

/-- The first and the last byte translate to themselves, as writable write-back memory. -/
def identityMapped (translate : Nat → Option DmaTranslation) (base byteLength : Nat) : Bool :=
  match translate base, translate (base + byteLength - 1) with
  | some first, some last =>
    first.physicalAddress = base ∧ last.physicalAddress = base + byteLength - 1 ∧
      first.writeBack ∧ last.writeBack ∧ first.writable ∧
      last.writable
  | _, _ => false

def grantAllocation (s : DmaSystem) (name : Nat) (index : RecordIndex) (frames : ContiguousAllocation)
    (allocator : FrameAllocator) : DmaSystem :=
  { s with
    frames := allocator
    handles := Function.update s.handles name
      ⟨frames, frames.physicalBase, frames.pageCount * sapotePageSize, .cpu, false, true⟩
    records := Function.update s.records index ⟨some name, frames, .cpu, false, true⟩
    activeAllocations := s.activeAllocations + 1
    cpuOwnedAllocations := s.cpuOwnedAllocations + 1 }

/-- The frames are given back and the handle keeps only their description. -/
def withdrawFrames (s : DmaSystem) (name : Nat) (frames : ContiguousAllocation)
    (allocator : FrameAllocator) : DmaSystem :=
  let released := frameReleaseContiguous allocator (some frames)
  { writeHandle s name
      { clearedHandle with
        frames := { frames with active := if released.1 = .ok then false else frames.active } } with
    frames := released.2 }

def dmaAllocate (s : DmaSystem) (request : Option DmaRequest) (handle : Option Nat)
    (translate : Nat → Option DmaTranslation) : DmaStatus × DmaSystem :=
  match request, handle with
  | some request, some name =>
    if !s.active then (.notInitialized, writeHandle s name clearedHandle)
    else
      match freeDmaRecord s with
      | none => (.frameAllocationFailure, writeHandle s name clearedHandle)
      | some index =>
        let result := frameAllocateContiguous s.frames (some request) true
        match result.status, result.allocation with
        | .ok, some frames =>
          if !identityMapped translate frames.physicalBase (frames.pageCount * sapotePageSize) then
            (.notIdentityMapped, withdrawFrames s name frames result.allocator)
          else (.ok, grantAllocation s name index frames result.allocator)
        | _, _ =>
          (.frameAllocationFailure,
            { writeHandle s name clearedHandle with frames := result.allocator })
  | _, _ => (.nullArgument, s)

def dmaMarkInitialized (s : DmaSystem) (handle : Option Nat) : DmaStatus × DmaSystem :=
  match validateAllocation s handle, handle with
  | .ok, some name =>
    let allocation := s.handles name
    if allocation.owner ≠ .cpu then (.wrongOwner, s)
    else
      match recordFor s allocation with
      | none => (.badAllocation, s)
      | some index =>
        (.ok,
          { writeHandle s name { allocation with initialized := true } with
            records := Function.update s.records index
              { s.records index with initialized := true } })
  | status, _ => (status, s)

def dmaTransferToDevice (s : DmaSystem) (handle : Option Nat) : DmaStatus × DmaSystem :=
  match validateAllocation s handle, handle with
  | .ok, some name =>
    let allocation := s.handles name
    if allocation.owner ≠ .cpu then (.wrongOwner, s)
    else if !allocation.initialized then (.notPrepared, s)
    else
      match recordFor s allocation with
      | none => (.badAllocation, s)
      | some index =>
        (.ok,
          { writeHandle s name { allocation with owner := .device } with
            records := Function.update s.records index { s.records index with owner := .device }
            cpuOwnedAllocations := sizeSub s.cpuOwnedAllocations 1
            deviceOwnedAllocations := s.deviceOwnedAllocations + 1 })
  | status, _ => (status, s)

def dmaTransferToCpu (s : DmaSystem) (handle : Option Nat) : DmaStatus × DmaSystem :=
  match validateAllocation s handle, handle with
  | .ok, some name =>
    let allocation := s.handles name
    if allocation.owner ≠ .device then (.wrongOwner, s)
    else
      match recordFor s allocation with
      | none => (.badAllocation, s)
      | some index =>
        (.ok,
          { writeHandle s name { allocation with owner := .cpu } with
            records := Function.update s.records index { s.records index with owner := .cpu }
            deviceOwnedAllocations := sizeSub s.deviceOwnedAllocations 1
            cpuOwnedAllocations := s.cpuOwnedAllocations + 1 })
  | status, _ => (status, s)

def retiredRecord (record : DmaRecord) : DmaRecord :=
  ⟨none, { record.frames with active := false }, .none, false, false⟩

/-- The handle and the record of an allocation whose frames have been given back. -/
def retireAllocation (s : DmaSystem) (name : Nat) (index : RecordIndex) (allocator : FrameAllocator) :
    DmaSystem :=
  { writeHandle s name
      ⟨{ (s.handles name).frames with active := false }, 0, 0, .none, false, false⟩ with
    frames := allocator
    records := Function.update s.records index (retiredRecord (s.records index))
    activeAllocations := sizeSub s.activeAllocations 1
    cpuOwnedAllocations := sizeSub s.cpuOwnedAllocations 1 }

def dmaRelease (s : DmaSystem) (handle : Option Nat) : DmaStatus × DmaSystem :=
  match handle with
  | none => (.nullArgument, s)
  | some name =>
    if !s.active then (.notInitialized, s)
    else if !(s.handles name).active then (.doubleFree, s)
    else if validateAllocation s handle ≠ .ok then (validateAllocation s handle, s)
    else if (s.handles name).owner ≠ .cpu then (.wrongOwner, s)
    else
      match recordFor s (s.handles name) with
      | none => (.badAllocation, s)
      | some index =>
        let released := frameReleaseContiguous s.frames (some (s.handles name).frames)
        if released.1 ≠ .ok then (.badAllocation, s)
        else (.ok, retireAllocation s name index released.2)

structure DmaTally where
  (active cpuOwned deviceOwned : Nat)
  deriving DecidableEq

/-- The verification loop over the records that are left; `none` is a bad record. -/
def tallyRecords (s : DmaSystem) : List RecordIndex → DmaTally → Option DmaTally
  | [], tally => some tally
  | index :: rest, tally =>
    if !(s.records index).active then tallyRecords s rest tally
    else if (s.records index).handle = none ∨ validateAllocation s (s.records index).handle ≠ .ok then
      none
    else
      match (s.records index).owner with
      | .cpu =>
        tallyRecords s rest
          { tally with active := tally.active + 1, cpuOwned := tally.cpuOwned + 1 }
      | .device =>
        tallyRecords s rest
          { tally with active := tally.active + 1, deviceOwned := tally.deviceOwned + 1 }
      | _ => none

def dmaVerify (s : DmaSystem) : DmaStatus :=
  if !s.active then .notInitialized
  else
    match tallyRecords s (List.finRange contiguousAllocationCapacity) ⟨0, 0, 0⟩ with
    | none => .badAllocation
    | some tally =>
      if tally.active ≠ s.activeAllocations ∨ tally.cpuOwned ≠ s.cpuOwnedAllocations ∨
          tally.deviceOwned ≠ s.deviceOwnedAllocations ∨
          tally.cpuOwned + tally.deviceOwned ≠ tally.active then
        .badAllocation
      else .ok

def DmaSystem.held (s : DmaSystem) (name : Nat) : Bool :=
  (List.finRange contiguousAllocationCapacity).any fun index =>
    (s.records index).active ∧ (s.records index).handle = some name

/-- The calls, and `edit`, with which a caller writes anything into a structure that is
not an original active handle. -/
inductive DmaCall where
  | allocate (request : Option DmaRequest) (handle : Option Nat)
      (translate : Nat → Option DmaTranslation)
  | markInitialized (handle : Option Nat)
  | transferToDevice (handle : Option Nat)
  | transferToCpu (handle : Option Nat)
  | release (handle : Option Nat)
  | edit (name : Nat) (allocation : DmaAllocation)

def dmaStep (s : DmaSystem) : DmaCall → DmaSystem
  | .allocate request handle translate =>
    if handle.any s.held then s else (dmaAllocate s request handle translate).2
  | .markInitialized handle => (dmaMarkInitialized s handle).2
  | .transferToDevice handle => (dmaTransferToDevice s handle).2
  | .transferToCpu handle => (dmaTransferToCpu s handle).2
  | .release handle => (dmaRelease s handle).2
  | .edit name allocation => if s.held name then s else writeHandle s name allocation

end Sapote.Dma
