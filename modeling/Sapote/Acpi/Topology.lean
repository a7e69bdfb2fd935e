import Mathlib.Algebra.Group.Nat.Defs

/-!
The interrupt topology that firmware declares, `acpi_madt.c`. The table is the bytes of
its span. The counted arrays of the description are lists, and a refusal, after which
the source leaves the description zeroed, carries only its status.
-/

namespace Sapote.Acpi

abbrev Byte := BitVec 8

def acpiMadtFixedSize : Nat := 44
def acpiMaxTableSize : Nat := 1024 * 1024
def acpiMaxLocalApics : Nat := 64
def acpiMaxIoApics : Nat := 8
def sapoteEarlyPhysicalLimit : Nat := 0x100000000
def localApicWindowSize : Nat := 0x1000
def ioApicWindowSize : Nat := 0x20
def madtIsaIrqCount : Nat := 16

inductive AcpiStatus where
  | nullTable | badMadtLength | tableOutsideEarlyMap | badTableChecksum | badProcessorFlags
  | duplicateProcessorUid | tooManyLocalApics | apicOutsideEarlyMap | duplicateIoApicId
  | tooManyIoApics | badOverrideBus | badOverrideSource | badOverrideFlags | duplicateOverrideSource
  | duplicateApicAddressOverride | badMadtEntryLength | truncatedMadtEntry | missingBootProcessor
  | missingIoApic | nullRoot | rootOutsideEarlyMap | badRootSignature | badRootLength
  | badRootEntrySize | tooManyRootEntries | badRootChecksum | badTableLength | missingMadt
  | duplicateMadt | badMadtFlags | missingFadt | duplicateFadt | badFadtLength | badPmTimerLength
  | missingPmTimer | badPmTimerBlock | badPmTimerPort | missingMcfg | duplicateMcfg | badMcfgLength
  | noEcamAllocations | tooManyEcamAllocations | badEcamBusRange | badEcamBase
  | overlappingEcamRange
  deriving DecidableEq

structure AcpiMadt where
  (physicalAddress length localApicAddress : Nat)
  flags : BitVec 32
  deriving DecidableEq

structure AcpiLocalApic where
  (processorUid apicId : Nat)
  (enabled onlineCapable : Bool)
  deriving DecidableEq

structure AcpiIoApic where
  (identifier address interruptBase : Nat)
  deriving DecidableEq

structure AcpiInterruptOverride where
  globalSystemInterrupt : Nat
  flags : BitVec 16
  (bus source : Nat)
  deriving DecidableEq

structure AcpiTopology where
  localApicAddress : Nat
  (localApicAddressOverridden legacyPicPresent : Bool)
  (enabledProcessorCount nmiEntryCount ignoredEntryCount : Nat)
  localApics : List AcpiLocalApic
  ioApics : List AcpiIoApic
  interruptOverrides : List AcpiInterruptOverride
  deriving DecidableEq

def acpiSpanIsEarlyMapped (address length : Nat) : Bool :=
  address < sapoteEarlyPhysicalLimit ∧ length ≤ sapoteEarlyPhysicalLimit - address

def acpiByteSum (bytes : List Byte) : Byte := bytes.foldl (· + ·) 0

def byteAt (bytes : List Byte) (offset : Nat) : Nat := (bytes.getD offset 0).toNat

def acpiReadU16 (bytes : List Byte) (offset : Nat) : Nat :=
  byteAt bytes offset + 2 ^ 8 * byteAt bytes (offset + 1)

def acpiReadU32 (bytes : List Byte) (offset : Nat) : Nat :=
  acpiReadU16 bytes offset + 2 ^ 16 * acpiReadU16 bytes (offset + 2)

def acpiReadU64 (bytes : List Byte) (offset : Nat) : Nat :=
  acpiReadU32 bytes offset + 2 ^ 32 * acpiReadU32 bytes (offset + 4)

def recordLocalApic (topology : AcpiTopology) (processorUid apicId : Nat) (flags : BitVec 32) :
    Except AcpiStatus AcpiTopology :=
  if flags &&& ~~~3 ≠ 0 then .error .badProcessorFlags
  else if topology.localApics.any fun entry => entry.processorUid = processorUid then
    .error .duplicateProcessorUid
  else if topology.localApics.length = acpiMaxLocalApics then .error .tooManyLocalApics
  else
    let entry : AcpiLocalApic := ⟨processorUid, apicId, flags &&& 1 ≠ 0, flags &&& 2 ≠ 0⟩
    .ok { topology with
      localApics := topology.localApics ++ [entry]
      enabledProcessorCount := topology.enabledProcessorCount + if entry.enabled then 1 else 0 }

def recordIoApic (topology : AcpiTopology) (identifier address interruptBase : Nat) :
    Except AcpiStatus AcpiTopology :=
  if address = 0 ∨ !acpiSpanIsEarlyMapped address ioApicWindowSize then
    .error .apicOutsideEarlyMap
  else if topology.ioApics.any fun entry => entry.identifier = identifier then
    .error .duplicateIoApicId
  else if topology.ioApics.length = acpiMaxIoApics then .error .tooManyIoApics
  else .ok { topology with ioApics := topology.ioApics ++ [⟨identifier, address, interruptBase⟩] }

def recordInterruptOverride (topology : AcpiTopology) (bus source globalSystemInterrupt : Nat)
    (flags : BitVec 16) : Except AcpiStatus AcpiTopology :=
  if bus ≠ 0 then .error .badOverrideBus
  else if madtIsaIrqCount ≤ source then .error .badOverrideSource
  else if flags &&& ~~~0xF ≠ 0 then .error .badOverrideFlags
  else if topology.interruptOverrides.any fun entry => entry.source = source then
    .error .duplicateOverrideSource
  else .ok { topology with interruptOverrides :=
    topology.interruptOverrides ++ [⟨globalSystemInterrupt, flags, bus, source⟩] }

def recordLocalApicOverride (topology : AcpiTopology) (address : Nat) :
    Except AcpiStatus AcpiTopology :=
  if topology.localApicAddressOverridden then .error .duplicateApicAddressOverride
  else if address = 0 ∨ !acpiSpanIsEarlyMapped address localApicWindowSize then
    .error .apicOutsideEarlyMap
  else .ok { topology with localApicAddress := address, localApicAddressOverridden := true }

inductive MadtType where
  | localApic | ioApic | interruptOverride | nmiSource | localApicNmi | localApicOverride
  | localX2apic | other
  deriving DecidableEq

def madtType (byte : Nat) : MadtType :=
  match byte with
  | 0 => .localApic
  | 1 => .ioApic
  | 2 => .interruptOverride
  | 3 => .nmiSource
  | 4 => .localApicNmi
  | 5 => .localApicOverride
  | 9 => .localX2apic
  | _ => .other

def MadtType.size : MadtType → Option Nat
  | .localApic => some 8
  | .ioApic => some 12
  | .interruptOverride => some 10
  | .nmiSource => some 8
  | .localApicNmi => some 6
  | .localApicOverride => some 12
  | .localX2apic => some 16
  | .other => none

def consumeEntry (topology : AcpiTopology) (entry : List Byte) (length : Nat) :
    Except AcpiStatus AcpiTopology :=
  let type := madtType (byteAt entry 0)
  match type.size with
  | none => .ok { topology with ignoredEntryCount := topology.ignoredEntryCount + 1 }
  | some expected =>
    if length ≠ expected then .error .badMadtEntryLength
    else
      match type with
      | .localApic =>
        recordLocalApic topology (byteAt entry 2) (byteAt entry 3) (acpiReadU32 entry 4)
      | .ioApic =>
        recordIoApic topology (byteAt entry 2) (acpiReadU32 entry 4) (acpiReadU32 entry 8)
      | .interruptOverride =>
        recordInterruptOverride topology (byteAt entry 2) (byteAt entry 3)
          (acpiReadU32 entry 4) (acpiReadU16 entry 8)
      | .localApicOverride => recordLocalApicOverride topology (acpiReadU64 entry 4)
      | .localX2apic =>
        recordLocalApic topology (acpiReadU32 entry 12) (acpiReadU32 entry 4) (acpiReadU32 entry 8)
      | _ => .ok { topology with nmiEntryCount := topology.nmiEntryCount + 1 }

/-- The loop over the structures of the table: `skip` bytes of the structure just
consumed are still to be passed over. -/
def consumeEntries (topology : AcpiTopology) : Nat → List Byte → Except AcpiStatus AcpiTopology
  | _, [] => .ok topology
  | skip + 1, _ :: rest => consumeEntries topology skip rest
  | 0, first :: rest =>
    if rest.length + 1 < 2 then .error .truncatedMadtEntry
    else if byteAt rest 0 < 2 then .error .badMadtEntryLength
    else if rest.length + 1 < byteAt rest 0 then .error .truncatedMadtEntry
    else
      match consumeEntry topology (first :: rest) (byteAt rest 0) with
      | .error status => .error status
      | .ok topology => consumeEntries topology (byteAt rest 0 - 1) rest

def madtBytes (memory : Nat → Byte) (madt : AcpiMadt) : List Byte :=
  (List.range madt.length).map fun index => memory (madt.physicalAddress + index)

def revalidateMadt (memory : Nat → Byte) (madt : AcpiMadt) : Except AcpiStatus (List Byte) :=
  if madt.physicalAddress = 0 then .error .nullTable
  else if madt.length < acpiMadtFixedSize ∨ acpiMaxTableSize < madt.length then
    .error .badMadtLength
  else if !acpiSpanIsEarlyMapped madt.physicalAddress madt.length then
    .error .tableOutsideEarlyMap
  else if acpiByteSum (madtBytes memory madt) ≠ 0 then .error .badTableChecksum
  else .ok (madtBytes memory madt)

def emptyTopology (madt : AcpiMadt) : AcpiTopology :=
  ⟨madt.localApicAddress, false, madt.flags &&& 1 ≠ 0, 0, 0, 0, [], [], []⟩

def acpiTopologyDiscover (memory : Nat → Byte) (madt : AcpiMadt) :
    Except AcpiStatus AcpiTopology :=
  match revalidateMadt memory madt with
  | .error status => .error status
  | .ok table =>
    match consumeEntries (emptyTopology madt) 0 (table.drop acpiMadtFixedSize) with
    | .error status => .error status
    | .ok topology =>
      if topology.enabledProcessorCount = 0 then .error .missingBootProcessor
      else if topology.ioApics.length = 0 then .error .missingIoApic
      else .ok topology

end Sapote.Acpi
