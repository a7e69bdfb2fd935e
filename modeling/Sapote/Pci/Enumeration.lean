import Mathlib.Algebra.Group.Nat.Defs
import Mathlib.Data.List.Basic

/-!
PCI enumeration through the configuration ports, `pci.c`. What the ports answer is an
arbitrary function of the address and the register; enumerating only reads. A refusal
is returned without the tables, which `pci_initialize` resets anyway.
-/

namespace Sapote.Pci

def pciMaxBuses : Nat := 256
def pciDevicesPerBus : Nat := 32
def pciFunctionsPerDevice : Nat := 8
def pciConfigSpaceSize : Nat := 256
def pciMaxFunctions : Nat := 64
def pciCapabilityFirstOffset : Nat := 0x40
def pciMaxCapabilities : Nat := (pciConfigSpaceSize - pciCapabilityFirstOffset) / 4
def pciVendorAbsent : Nat := 0xFFFF
def pciStatusCapabilityList : Nat := 0x0010
def pciHeaderTypeMask : Nat := 0x7F
def pciHeaderTypeMultifunction : Nat := 0x80
def pciHeaderTypeBridge : Nat := 0x01

def pciRegisterVendorId : Nat := 0x00
def pciRegisterDeviceId : Nat := 0x02
def pciRegisterCommand : Nat := 0x04
def pciRegisterStatus : Nat := 0x06
def pciRegisterRevision : Nat := 0x08
def pciRegisterProgIf : Nat := 0x09
def pciRegisterSubclass : Nat := 0x0A
def pciRegisterClass : Nat := 0x0B
def pciRegisterHeaderType : Nat := 0x0E
def pciRegisterSecondaryBus : Nat := 0x19
def pciRegisterSubordinateBus : Nat := 0x1A
def pciRegisterCapabilityPointer : Nat := 0x34

def pciCapabilityMsi : Nat := 0x05
def pciCapabilityExpress : Nat := 0x10
def pciCapabilityMsiX : Nat := 0x11

inductive PciStatus where
  | badAddress | badOffset | tooManyFunctions | badCapabilityPointer | capabilityLoop | badBridgeBus
  | validationFailure
  deriving DecidableEq

structure PciAddress where
  (segment bus device function : Nat)
  deriving DecidableEq

structure PciCapability where
  (identifier offset : Nat)
  deriving DecidableEq

structure PciFunction where
  address : PciAddress
  (vendorId deviceId command status classCode subclass progIf revision headerType : Nat)
  multifunction : Bool
  (secondaryBus subordinateBus msiOffset msiXOffset expressOffset : Nat)
  capabilities : List PciCapability
  deriving DecidableEq

/-- What the data port answers for a function and an aligned register. -/
abbrev ConfigSpace := PciAddress → Nat → BitVec 32

def byteOf (dword : BitVec 32) (offset : Nat) : Nat := (dword >>> (offset % 4 * 8)).toNat % 2 ^ 8
def wordOf (dword : BitVec 32) (offset : Nat) : Nat := (dword >>> (offset % 4 * 8)).toNat % 2 ^ 16

section
variable (config : ConfigSpace)

def pciConfigReadPort (address : PciAddress) (offset : Nat) : Except PciStatus (BitVec 32) :=
  if pciDevicesPerBus ≤ address.device ∨ pciFunctionsPerDevice ≤ address.function then
    .error .badAddress
  else if offset % 4 ≠ 0 ∨ pciConfigSpaceSize - 4 < offset then .error .badOffset
  else if address.segment ≠ 0 then .error .badAddress
  else .ok (config address offset)

def readAligned (address : PciAddress) (offset : Nat) : Except PciStatus (BitVec 32) :=
  pciConfigReadPort config address (offset / 4 * 4)

def noteCapability (function : PciFunction) (identifier offset : Nat) : PciFunction :=
  let function := { function with
    capabilities := function.capabilities ++ [⟨identifier, offset⟩] }
  if identifier = pciCapabilityMsi then { function with msiOffset := offset }
  else if identifier = pciCapabilityMsiX then { function with msiXOffset := offset }
  else if identifier = pciCapabilityExpress then { function with expressOffset := offset }
  else function

/-- The walk along the capability list. `room` is what is left of the table. -/
def walkCapabilities : (room : Nat) → (offset : Nat) → (visited : List Nat) → PciFunction →
    Except PciStatus PciFunction
  | room, offset, visited, function =>
    if offset = 0 then .ok function
    else if offset < pciCapabilityFirstOffset then .error .badCapabilityPointer
    else if offset / 4 ∈ visited then .error .capabilityLoop
    else
      match room with
      | 0 => .error .capabilityLoop
      | room + 1 =>
        match readAligned config function.address offset with
        | .error _ => .error .validationFailure
        | .ok dword =>
          walkCapabilities room (byteOf dword (offset + 1) / 4 * 4) (offset / 4 :: visited)
            (noteCapability function (byteOf dword offset) offset)

def collectCapabilities (function : PciFunction) : Except PciStatus PciFunction :=
  let function := { function with
    capabilities := [], msiOffset := 0, msiXOffset := 0, expressOffset := 0 }
  if function.status &&& pciStatusCapabilityList = 0 then .ok function
  else
    match readAligned config function.address pciRegisterCapabilityPointer with
    | .error _ => .error .validationFailure
    | .ok dword =>
      walkCapabilities config pciMaxCapabilities
        (byteOf dword pciRegisterCapabilityPointer / 4 * 4) [] function

def describeFunction (address : PciAddress) (identity : BitVec 32) :
    Except PciStatus PciFunction := do
  let command ← readAligned config address pciRegisterCommand
  let revision ← readAligned config address pciRegisterRevision
  let header ← readAligned config address pciRegisterHeaderType
  let function : PciFunction :=
    { address := address
      vendorId := wordOf identity pciRegisterVendorId
      deviceId := wordOf identity pciRegisterDeviceId
      command := wordOf command pciRegisterCommand
      status := wordOf command pciRegisterStatus
      revision := byteOf revision pciRegisterRevision
      progIf := byteOf revision pciRegisterProgIf
      subclass := byteOf revision pciRegisterSubclass
      classCode := byteOf revision pciRegisterClass
      headerType := byteOf header pciRegisterHeaderType &&& pciHeaderTypeMask
      multifunction :=
        byteOf header pciRegisterHeaderType &&& pciHeaderTypeMultifunction ≠ 0
      secondaryBus := 0
      subordinateBus := 0
      msiOffset := 0
      msiXOffset := 0
      expressOffset := 0
      capabilities := [] }
  if function.headerType = pciHeaderTypeBridge then
    let buses ← readAligned config address pciRegisterSecondaryBus
    collectCapabilities config { function with
      secondaryBus := byteOf buses pciRegisterSecondaryBus
      subordinateBus := byteOf buses pciRegisterSubordinateBus }
  else collectCapabilities config function

end

/-- The table, the counters, and the two bus maps of `enumerate`. -/
structure Scan where
  functions : List PciFunction
  (busCount bridgeCount : Nat)
  (scanned pending : Nat → Bool)

section
variable (config : ConfigSpace)

def recordFunction (address : PciAddress) (identity : BitVec 32) (scan : Scan) :
    Except PciStatus (PciFunction × Scan) :=
  if pciMaxFunctions ≤ scan.functions.length then .error .tooManyFunctions
  else do
    let function ← describeFunction config address identity
    return (function, { scan with
      functions := scan.functions ++ [function]
      bridgeCount := if function.headerType = pciHeaderTypeBridge then scan.bridgeCount + 1
        else scan.bridgeCount })

def followBridge (function : PciFunction) (scan : Scan) : Except PciStatus Scan :=
  if function.headerType = pciHeaderTypeBridge then
    if function.secondaryBus = function.address.bus then .error .badBridgeBus
    else if scan.scanned function.secondaryBus then .ok scan
    else .ok { scan with pending := Function.update scan.pending function.secondaryBus true }
  else .ok scan

def scanFunction (bus device : Nat) (state : Nat × Scan) (function : Nat) :
    Except PciStatus (Nat × Scan) :=
  if state.1 ≤ function then .ok state
  else do
    let address : PciAddress := ⟨0, bus, device, function⟩
    let identity ← readAligned config address pciRegisterVendorId
    if wordOf identity pciRegisterVendorId = pciVendorAbsent then return state
    else
      let (recorded, scan) ← recordFunction config address identity state.2
      let limit := if function = 0 ∧ recorded.multifunction then pciFunctionsPerDevice else state.1
      let scan ← followBridge recorded scan
      return (limit, scan)

def scanDevice (bus : Nat) (scan : Scan) (device : Nat) : Except PciStatus Scan := do
  let state ← (List.range pciFunctionsPerDevice).foldlM (scanFunction config bus device) (1, scan)
  return state.2

def scanBus (bus : Nat) (scan : Scan) : Except PciStatus Scan :=
  (List.range pciDevicesPerBus).foldlM (scanDevice config bus) { scan with
    pending := Function.update scan.pending bus false
    scanned := Function.update scan.scanned bus true
    busCount := scan.busCount + 1 }

def visitBus (state : Bool × Scan) (bus : Nat) : Except PciStatus (Bool × Scan) :=
  if !state.2.pending bus || state.2.scanned bus then .ok state
  else do
    let scan ← scanBus config bus state.2
    return (true, scan)

/-- The outer loop, for at most `fuel` turns; `none` is a loop that has not ended. -/
def scanPasses : (fuel : Nat) → Scan → Option (Except PciStatus Scan)
  | 0, _ => none
  | fuel + 1, scan =>
    match (List.range pciMaxBuses).foldlM (visitBus config) (false, scan) with
    | .error status => some (.error status)
    | .ok (progress, scan) => if progress then scanPasses fuel scan else some (.ok scan)

def scanStart : Scan where
  functions := []
  busCount := 0
  bridgeCount := 0
  scanned := fun _ => false
  pending := fun bus => bus = 0

/-- `enumerate`, with more turns of the outer loop than there are buses. -/
def enumerate : Option (Except PciStatus Scan) := scanPasses config (pciMaxBuses + 1) scanStart

end

end Sapote.Pci
