import Sapote.Acpi.Topology
import Sapote.Library.Checks

/-!
The lookup of the firmware tables that the root table lists, `acpi_tables.c`. A refusal carries
its status and what it leaves in the caller's structure.
-/

namespace Sapote.Acpi

open Library

def acpiSdtHeaderSize : Nat := 36
def acpiMaxRootEntries : Nat := 256
def fadtMinimumSize : Nat := 116
def fadtXPmTmrBlkEnd : Nat := 220
def acpiMcfgFixedSize : Nat := 44
def acpiMcfgAllocationSize : Nat := 16
def acpiMaxEcamAllocations : Nat := 8
def acpiEcamBusSize : Nat := 0x100000
def wordLimit : Nat := 2 ^ 64

def rsdtSignature : List Byte := [0x52, 0x53, 0x44, 0x54]
def xsdtSignature : List Byte := [0x58, 0x53, 0x44, 0x54]
def madtSignature : List Byte := [0x41, 0x50, 0x49, 0x43]
def fadtSignature : List Byte := [0x46, 0x41, 0x43, 0x50]
def mcfgSignature : List Byte := [0x4D, 0x43, 0x46, 0x47]

inductive AcpiRootKind where
  | none | rsdt | xsdt
  deriving DecidableEq

structure AcpiRoot where
  kind : AcpiRootKind
  physicalAddress : Nat
  deriving DecidableEq

/-- What `acpi_madt_discover` finds, with the fields that the topology does not use. -/
structure AcpiMadtRecord extends AcpiMadt where
  (rootEntryCount revision : Nat)
  (oemId oemTableId : List Byte)
  deriving DecidableEq

structure AcpiFadt where
  (physicalAddress length : Nat)
  flags : BitVec 32
  (pmTimerPort pmTimerCounterBits revision : Nat)
  pmTimerExtendedAddress : Bool
  (oemId oemTableId : List Byte)
  deriving DecidableEq

structure AcpiEcamAllocation where
  (baseAddress segment startBus endBus : Nat)
  deriving DecidableEq

/-- The slots of the array that have been written, and the count of them that is published. -/
structure AcpiMcfg where
  (physicalAddress length allocationCount revision : Nat)
  (oemId oemTableId : List Byte)
  allocations : List AcpiEcamAllocation
  deriving DecidableEq

def madtReset : AcpiMadtRecord := ⟨⟨0, 0, 0, 0⟩, 0, 0, List.replicate 7 0, List.replicate 9 0⟩
def fadtReset : AcpiFadt := ⟨0, 0, 0, 0, 0, 0, false, List.replicate 7 0, List.replicate 9 0⟩
def mcfgReset : AcpiMcfg := ⟨0, 0, 0, 0, List.replicate 7 0, List.replicate 9 0, []⟩

section
variable (memory : Nat → Byte)

def span (address length : Nat) : List Byte := (List.range length).map fun index => memory (address + index)

def tableLength (address : Nat) : Nat := acpiReadU32 (span memory (address + 4) 4) 0

def tableAt (address : Nat) : List Byte := span memory address (tableLength memory address)

def rootFormat : AcpiRootKind → Option (List Byte × Nat)
  | .xsdt => some (xsdtSignature, 8)
  | .rsdt => some (rsdtSignature, 4)
  | .none => none

def validateRootTable (root : AcpiRoot) : Except AcpiStatus (Nat × Nat) := do
  accept (root.physicalAddress ≠ 0) .nullRoot
  accept (acpiSpanIsEarlyMapped root.physicalAddress acpiSdtHeaderSize) .rootOutsideEarlyMap
  let (signature, entrySize) ← okOr (rootFormat root.kind) .badRootSignature
  accept (span memory root.physicalAddress 4 = signature) .badRootSignature
  let length := tableLength memory root.physicalAddress
  accept (acpiSdtHeaderSize ≤ length ∧ length ≤ acpiMaxTableSize) .badRootLength
  accept ((length - acpiSdtHeaderSize) % entrySize = 0) .badRootEntrySize
  let entryCount := (length - acpiSdtHeaderSize) / entrySize
  accept (entryCount ≤ acpiMaxRootEntries) .tooManyRootEntries
  accept (acpiSpanIsEarlyMapped root.physicalAddress length) .rootOutsideEarlyMap
  accept (acpiByteSum (tableAt memory root.physicalAddress) = 0) .badRootChecksum
  .ok (entrySize, entryCount)

def validateReferencedTable (physicalAddress : Nat) : Except AcpiStatus Unit := do
  accept (physicalAddress ≠ 0) .nullTable
  accept (acpiSpanIsEarlyMapped physicalAddress acpiSdtHeaderSize) .tableOutsideEarlyMap
  let length := tableLength memory physicalAddress
  accept (acpiSdtHeaderSize ≤ length ∧ length ≤ acpiMaxTableSize) .badTableLength
  accept (acpiSpanIsEarlyMapped physicalAddress length) .tableOutsideEarlyMap
  accept (acpiByteSum (tableAt memory physicalAddress) = 0) .badTableChecksum

def entryBytes (root : AcpiRoot) (entrySize index : Nat) : List Byte :=
  span memory (root.physicalAddress + acpiSdtHeaderSize + index * entrySize) entrySize

def entryAddress (bytes : List Byte) : Nat :=
  if bytes.length = 8 then acpiReadU64 bytes 0 else acpiReadU32 bytes 0

def examineEntry (root : AcpiRoot) (signature : List Byte) (duplicateStatus : AcpiStatus) (entrySize : Nat)
    (found : Option Nat) (index : Nat) : Except AcpiStatus (Option Nat) := do
  let physicalAddress := entryAddress (entryBytes memory root entrySize index)
  validateReferencedTable memory physicalAddress
  if span memory physicalAddress 4 ≠ signature then .ok found
  else if found.isSome then .error duplicateStatus
  else .ok (some physicalAddress)

def findUniqueTable (root : AcpiRoot) (signature : List Byte) (missingStatus duplicateStatus : AcpiStatus) :
    Except AcpiStatus (Nat × Nat) := do
  let (entrySize, entryCount) ← validateRootTable memory root
  let found ← (List.range entryCount).foldlM
    (examineEntry memory root signature duplicateStatus entrySize) none
  let physicalAddress ← okOr found missingStatus
  .ok (physicalAddress, entryCount)

variable (table : List Byte)

def oemId : List Byte := (table.drop 10).take 6 ++ [0]
def oemTableId : List Byte := (table.drop 16).take 8 ++ [0]

def pmTimerPort : Except AcpiStatus (Nat × Bool) :=
  if fadtXPmTmrBlkEnd ≤ table.length ∧ acpiReadU64 table 212 ≠ 0 ∧ byteAt table 208 = 1 then
    if byteAt table 209 ≠ 32 ∨ byteAt table 210 ≠ 0 then .error .badPmTimerBlock
    else .ok (acpiReadU64 table 212, true)
  else if acpiReadU32 table 76 = 0 then .error .missingPmTimer
  else .ok (acpiReadU32 table 76, false)

def counterBits (flags : BitVec 32) : Nat := if flags &&& 0x100 ≠ 0 then 32 else 24

def decodePmTimer (fadt : AcpiFadt) : Except (AcpiStatus × AcpiFadt) AcpiFadt := do
  accept (fadtMinimumSize ≤ table.length) (.badFadtLength, fadt)
  accept (byteAt table 91 = 4) (.badPmTimerLength, fadt)
  let flags : BitVec 32 := acpiReadU32 table 112
  let (port, extended) ← (pmTimerPort table).mapError fun status => (status, fadt)
  accept (port ≤ 0xFFFF - 3) (.badPmTimerPort, fadt)
  .ok { fadt with
    flags := flags
    pmTimerPort := port
    pmTimerExtendedAddress := extended
    pmTimerCounterBits := counterBits flags }

def acpiEcamAllocationSize (allocation : AcpiEcamAllocation) : Nat :=
  (allocation.endBus + wordLimit - allocation.startBus + 1) % wordLimit * acpiEcamBusSize % wordLimit

def ecamAllocationsConflict (left right : AcpiEcamAllocation) : Bool :=
  let leftEnd := (left.baseAddress + acpiEcamAllocationSize left) % wordLimit
  let rightEnd := (right.baseAddress + acpiEcamAllocationSize right) % wordLimit
  (left.segment = right.segment ∧ left.startBus ≤ right.endBus ∧ right.startBus ≤ left.endBus) ∨
    (left.baseAddress < rightEnd ∧ right.baseAddress < leftEnd)

def ecamAllocationAt (index : Nat) : AcpiEcamAllocation :=
  let record := acpiMcfgFixedSize + index * acpiMcfgAllocationSize
  ⟨acpiReadU64 table record, acpiReadU16 table (record + 8), byteAt table (record + 10), byteAt table (record + 11)⟩

def decodeEcamAllocation (mcfg : AcpiMcfg) (index : Nat) : Except (AcpiStatus × AcpiMcfg) AcpiMcfg := do
  let allocation := ecamAllocationAt table index
  accept (allocation.startBus ≤ allocation.endBus) (.badEcamBusRange, mcfg)
  accept (allocation.baseAddress ≠ 0 ∧ allocation.baseAddress % acpiEcamBusSize = 0) (.badEcamBase, mcfg)
  accept (allocation.baseAddress ≤ wordLimit - 1 - acpiEcamAllocationSize allocation) (.badEcamBase, mcfg)
  accept (!mcfg.allocations.any fun earlier => ecamAllocationsConflict earlier allocation)
    (.overlappingEcamRange, mcfg)
  .ok { mcfg with allocations := mcfg.allocations ++ [allocation] }

def decodeEcamAllocations (mcfg : AcpiMcfg) : Except (AcpiStatus × AcpiMcfg) AcpiMcfg := do
  accept (acpiMcfgFixedSize ≤ table.length) (.badMcfgLength, mcfg)
  let payload := table.length - acpiMcfgFixedSize
  accept (payload % acpiMcfgAllocationSize = 0) (.badMcfgLength, mcfg)
  let count := payload / acpiMcfgAllocationSize
  accept (count ≠ 0) (.noEcamAllocations, mcfg)
  accept (count ≤ acpiMaxEcamAllocations) (.tooManyEcamAllocations, mcfg)
  let mcfg ← (List.range count).foldlM (decodeEcamAllocation table) mcfg
  .ok { mcfg with allocationCount := count }

variable (root : AcpiRoot)

def acpiMadtDiscover (_madt : AcpiMadtRecord) : Except (AcpiStatus × AcpiMadtRecord) AcpiMadtRecord := do
  let madt := madtReset
  let (physicalAddress, entryCount) ←
    (findUniqueTable memory root madtSignature .missingMadt .duplicateMadt).mapError fun status => (status, madt)
  let table := tableAt memory physicalAddress
  accept (acpiMadtFixedSize ≤ table.length) (.badMadtLength, madt)
  let flags : BitVec 32 := acpiReadU32 table 40
  accept (flags &&& ~~~1 = 0) (.badMadtFlags, madt)
  .ok { madt with
    physicalAddress := physicalAddress
    length := table.length
    localApicAddress := acpiReadU32 table 36
    flags := flags
    rootEntryCount := entryCount
    revision := byteAt table 8
    oemId := oemId table
    oemTableId := oemTableId table }

def acpiFadtDiscover (_fadt : AcpiFadt) : Except (AcpiStatus × AcpiFadt) AcpiFadt := do
  let fadt := fadtReset
  let (physicalAddress, _) ←
    (findUniqueTable memory root fadtSignature .missingFadt .duplicateFadt).mapError fun status => (status, fadt)
  let table := tableAt memory physicalAddress
  let fadt ← (decodePmTimer table fadt).mapError fun refusal => (refusal.1, fadtReset)
  .ok { fadt with
    physicalAddress := physicalAddress
    length := table.length
    revision := byteAt table 8
    oemId := oemId table
    oemTableId := oemTableId table }

def acpiMcfgDiscover (_mcfg : AcpiMcfg) : Except (AcpiStatus × AcpiMcfg) AcpiMcfg := do
  let mcfg := mcfgReset
  let (physicalAddress, _) ←
    (findUniqueTable memory root mcfgSignature .missingMcfg .duplicateMcfg).mapError fun status => (status, mcfg)
  let table := tableAt memory physicalAddress
  let mcfg ← (decodeEcamAllocations table mcfg).mapError fun refusal => (refusal.1, mcfgReset)
  .ok { mcfg with
    physicalAddress := physicalAddress
    length := table.length
    revision := byteAt table 8
    oemId := oemId table
    oemTableId := oemTableId table }

end

end Sapote.Acpi
