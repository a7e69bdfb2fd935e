import Sapote.Acpi.Topology
import Sapote.Interrupts.Gate

/-!
Routing of ISA interrupts through the I/O APICs, `ioapic.c`.

A unit is reached through the address firmware declares for it; which device answers
there is the hardware's business, so two units may turn out to be one device. Of a
device the model keeps its two constant registers and its redirection entries. A mask
write takes effect; what an entry holds after it has been programmed is up to the
device. A route record that is not routed is blank, so records are optional. The
request behind a route is remembered beside it; no function of the source reads it.
-/

namespace Sapote.Ioapic

open Acpi Interrupts

def ioapicMasked : BitVec 32 := 0x10000
def ioapicTriggerLevel : BitVec 32 := 0x8000
def ioapicRemoteIrr : BitVec 32 := 0x4000
def ioapicPolarityActiveLow : BitVec 32 := 0x2000
def ioapicVectorMask : BitVec 32 := 0xFF
def ioapicIsaIrqCount : Nat := 16
def ioapicMinEntries : Nat := 16
def ioapicVersionDirectedEoi : Nat := 0x20
def interruptIoapicLimit : Nat := 64
def ioapicRoutableVectors : Nat := interruptIoapicLimit - interruptIoapicBase

inductive IoapicStatus where
  | ok | interruptsEnabled | missingIoApic | idDisagreesWithAcpi | tooFewEntries
  | overlappingInterruptBase | badIrq | badVector | badDestination | badTrigger | reservedPolarity
  | reservedTrigger | unroutableInterrupt | noDirectedEoi | vectorInUse | readbackMismatch
  | localEoiSuppressionFailure | vectorNotRouted | notLevelTriggered
  deriving DecidableEq

/-- A value of `enum ioapic_trigger`, which the caller may have cast from anything. -/
inductive IoapicTrigger where
  | firmware | forceLevel
  | unknown (value : Nat)
  deriving DecidableEq

structure IoapicUnit where
  (identifier address interruptBase version entryCount : Nat)
  directedEoi : Bool
  deriving DecidableEq

structure IoapicSource where
  globalInterrupt : Nat
  (activeLow levelTriggered : Bool)
  deriving DecidableEq

structure IoapicRoute where
  levelTriggered : Bool
  (unit entry : Nat)
  deriving DecidableEq

structure IoapicRedirection where
  (vector destination : Nat)
  (activeLow levelTriggered masked remoteIrr : Bool)
  deriving DecidableEq

structure RedirectionWords where
  (low high : BitVec 32)
  deriving DecidableEq

/-- Which device answers at an address, and what its constant registers read. -/
structure IoapicHardware where
  device : Nat → Nat
  (versionRegister identifierRegister : Nat → BitVec 32)

abbrev RedirectionTable := Nat → Nat → RedirectionWords

structure RouteRequest where
  (irq vector destination : Nat)
  trigger : IoapicTrigger
  deriving DecidableEq

def ioapicRegisterSelect : Nat := 0x00
def ioapicRegisterWindow : Nat := 0x10
def ioapicRegisterEoi : Nat := 0x40

/-- An access to four bytes of a unit, at a physical address. -/
structure RegisterAccess where
  unit : IoapicUnit
  address : Nat
  deriving DecidableEq

/-- `ioapic_read` and `ioapic_write`, each of which selects a register and then uses the
data window, `count` times. -/
def indexedAccesses (unit : IoapicUnit) (count : Nat) : List RegisterAccess :=
  (List.replicate count [⟨unit, unit.address + ioapicRegisterSelect⟩,
    ⟨unit, unit.address + ioapicRegisterWindow⟩]).flatten

/-- `accesses` is every access that was made to a unit, in order. -/
structure IoapicState where
  units : List IoapicUnit
  routes : Fin ioapicRoutableVectors → Option IoapicRoute
  levelRoutes : Nat
  (directedEoiMode levelEoiModeSelected : Bool)
  routingTopology : AcpiTopology
  table : RedirectionTable
  requested : Fin ioapicRoutableVectors → Option RouteRequest
  accesses : List RegisterAccess

def IoapicState.touch (s : IoapicState) (unit : IoapicUnit) (count : Nat) : IoapicState :=
  { s with accesses := s.accesses ++ indexedAccesses unit count }

def entryLow (entry : IoapicRedirection) : BitVec 32 :=
  BitVec.ofNat 32 entry.vector ||| (if entry.activeLow then ioapicPolarityActiveLow else 0) |||
    (if entry.levelTriggered then ioapicTriggerLevel else 0) |||
    (if entry.masked then ioapicMasked else 0)

def entryHigh (entry : IoapicRedirection) : BitVec 32 := BitVec.ofNat 32 entry.destination <<< 24

def entryDecompose (words : RedirectionWords) : IoapicRedirection where
  vector := (words.low &&& ioapicVectorMask).toNat
  destination := ((words.high >>> 24) &&& ioapicVectorMask).toNat
  activeLow := words.low &&& ioapicPolarityActiveLow ≠ 0
  levelTriggered := words.low &&& ioapicTriggerLevel ≠ 0
  masked := words.low &&& ioapicMasked ≠ 0
  remoteIrr := words.low &&& ioapicRemoteIrr ≠ 0

def writeEntry (table : RedirectionTable) (device entry : Nat) (words : RedirectionWords) :
    RedirectionTable :=
  Function.update table device (Function.update (table device) entry words)

def maskEntry (table : RedirectionTable) (device entry : Nat) : RedirectionTable :=
  writeEntry table device entry ⟨ioapicMasked, 0⟩

def versionHasDirectedEoi (version : Nat) : Bool := ioapicVersionDirectedEoi ≤ version

def canSelectDirectedEoi (localApicSuppressionSupported ioapicDirectedEoiSupported : Bool) : Bool :=
  localApicSuppressionSupported && ioapicDirectedEoiSupported

/-- A unit as its version register describes it; the entry count is a byte, and a
register that reports 256 entries wraps it to none. -/
def probeUnit (hardware : IoapicHardware) (described : AcpiIoApic) : IoapicUnit :=
  let version := hardware.versionRegister (hardware.device described.address)
  let byte := (version &&& 0xFF).toNat
  ⟨described.identifier, described.address, described.interruptBase, byte,
    (((version >>> 16) &&& 0xFF).toNat + 1) % 2 ^ 8, versionHasDirectedEoi byte⟩

/-- The ranges of two units overlap, the limits computed in 32 bits. -/
def unitsOverlap (unit other : IoapicUnit) : Bool :=
  unit.interruptBase < (other.interruptBase + other.entryCount) % 2 ^ 32 ∧
    other.interruptBase < (unit.interruptBase + unit.entryCount) % 2 ^ 32

def maskUnit (hardware : IoapicHardware) (table : RedirectionTable) (unit : IoapicUnit) :
    RedirectionTable :=
  (List.range unit.entryCount).foldl
    (fun table entry => maskEntry table (hardware.device unit.address) entry) table

/-- The version and the identifier of each unit are read, and once it is accepted both halves of
its entries are written. -/
def initializeUnits (hardware : IoapicHardware) : List AcpiIoApic → List IoapicUnit →
    RedirectionTable → List RegisterAccess →
      Except (IoapicStatus × List RegisterAccess)
        (List IoapicUnit × RedirectionTable × List RegisterAccess)
  | [], units, table, accesses => .ok (units, table, accesses)
  | described :: rest, units, table, accesses =>
    let unit := probeUnit hardware described
    let probed := accesses ++ indexedAccesses unit 2
    if ((hardware.identifierRegister (hardware.device unit.address) >>> 24) &&& 0xF).toNat ≠
        described.identifier then
      .error (.idDisagreesWithAcpi, probed)
    else if unit.entryCount < ioapicMinEntries then .error (.tooFewEntries, probed)
    else if units.any (unitsOverlap unit) then .error (.overlappingInterruptBase, probed)
    else
      initializeUnits hardware rest (units ++ [unit]) (maskUnit hardware table unit)
        (probed ++ indexedAccesses unit (2 * unit.entryCount))

/-- `ioapic_initialize`, the first time: `table` is what firmware left in the entries. A refusal
comes with the accesses that were made before it. -/
def ioapicInitialize (hardware : IoapicHardware) (interrupts : Bool) (topology : AcpiTopology)
    (table : RedirectionTable) : Except (IoapicStatus × List RegisterAccess) IoapicState :=
  if interrupts then .error (.interruptsEnabled, [])
  else if topology.ioApics.length = 0 then .error (.missingIoApic, [])
  else
    match initializeUnits hardware topology.ioApics [] table [] with
    | .error refused => .error refused
    | .ok (units, table, accesses) =>
      .ok ⟨units, fun _ => none, 0, false, false, topology, table, fun _ => none, accesses⟩

/-- The polarity and trigger bits of an override, both of which reserve one encoding. -/
def resolveOverride (entry : AcpiInterruptOverride) : Except IoapicStatus IoapicSource :=
  if entry.flags &&& 3 = 2 then .error .reservedPolarity
  else if entry.flags &&& 12 = 8 then .error .reservedTrigger
  else .ok ⟨entry.globalSystemInterrupt, entry.flags &&& 3 = 3, entry.flags &&& 12 = 12⟩

def resolveIsaIrq (topology : AcpiTopology) (irq : Nat) : Except IoapicStatus IoapicSource :=
  match topology.interruptOverrides.find? fun entry => entry.source = irq with
  | none => .ok ⟨irq, false, false⟩
  | some entry => resolveOverride entry

def validateRouteRequest (request : RouteRequest) : IoapicStatus :=
  if ioapicIsaIrqCount ≤ request.irq then .badIrq
  else if request.vector < interruptIoapicBase ∨ interruptIoapicLimit ≤ request.vector then
    .badVector
  else if 0xFF < request.destination then .badDestination
  else
    match request.trigger with
    | .unknown _ => .badTrigger
    | _ => .ok

def unitAnswers (globalInterrupt : Nat) (unit : IoapicUnit) : Bool :=
  unit.interruptBase ≤ globalInterrupt ∧ globalInterrupt - unit.interruptBase < unit.entryCount

def unitForInterrupt (s : IoapicState) (globalInterrupt : Nat) : Option (Nat × IoapicUnit) :=
  match s.units.findIdx? (unitAnswers globalInterrupt) with
  | none => none
  | some index =>
    match s.units[index]? with
    | none => none
    | some unit => some (index, unit)

def routeForVector (vector : Nat) : Option (Fin ioapicRoutableVectors) :=
  if inside : interruptIoapicBase ≤ vector ∧ vector < interruptIoapicLimit then
    some ⟨vector - interruptIoapicBase, by
      unfold ioapicRoutableVectors
      omega⟩
  else none

def forgetRoute (s : IoapicState) (index : Fin ioapicRoutableVectors) : IoapicState :=
  { s with
    routes := Function.update s.routes index none
    levelRoutes :=
      if (s.routes index).any (·.levelTriggered) && s.levelRoutes ≠ 0 then s.levelRoutes - 1
      else s.levelRoutes }

def namesPin (unit entry : Nat) (route : IoapicRoute) : Bool :=
  route.unit = unit ∧ route.entry = entry

def forgetEntry (s : IoapicState) (unit entry : Nat) : IoapicState :=
  (List.finRange ioapicRoutableVectors).foldl
    (fun s index => if (s.routes index).any (namesPin unit entry) then forgetRoute s index else s) s

/-- What the rest of the machine answers a routing call: whether interrupts are enabled,
whether the local APIC can suppress its broadcasts and does so when asked, and what the
entry holds once it has been written. -/
structure RouteAnswers where
  (interrupts suppressionSupported suppressed : Bool)
  stored : RedirectionWords → RedirectionWords

/-- The end-of-interrupt mode, chosen once, at the first level-triggered request. -/
def selectEoiMode (s : IoapicState) (answers : RouteAnswers) (unit : IoapicUnit)
    (levelTriggered : Bool) : Except IoapicStatus IoapicState :=
  if levelTriggered && !s.levelEoiModeSelected then
    if canSelectDirectedEoi answers.suppressionSupported unit.directedEoi then
      if !answers.suppressed then .error .localEoiSuppressionFailure
      else .ok { s with directedEoiMode := true, levelEoiModeSelected := true }
    else .ok { s with levelEoiModeSelected := true }
  else .ok s

def routeIntent (request : RouteRequest) (source : IoapicSource) : IoapicRedirection :=
  ⟨request.vector, request.destination, source.activeLow, source.levelTriggered, false, false⟩

def readbackMatches (intent observed : IoapicRedirection) : Bool :=
  observed.vector = intent.vector ∧ observed.destination = intent.destination ∧
    observed.activeLow = intent.activeLow ∧ observed.levelTriggered = intent.levelTriggered ∧
    observed.masked = false

/-- `mask_entry` writes both halves of an entry. -/
def maskPin (hardware : IoapicHardware) (s : IoapicState) (unit : IoapicUnit) (entry : Nat) :
    IoapicState :=
  { s.touch unit 2 with table := maskEntry s.table (hardware.device unit.address) entry }

/-- The pin is masked and no record names it or the vector any more. -/
def clearPin (hardware : IoapicHardware) (s : IoapicState) (slot : Fin ioapicRoutableVectors)
    (index : Nat) (unit : IoapicUnit) (entry : Nat) : IoapicState :=
  forgetEntry (forgetRoute (maskPin hardware s unit entry) slot) index entry

def programRoute (hardware : IoapicHardware) (s : IoapicState) (answers : RouteAnswers)
    (request : RouteRequest) (source : IoapicSource) (slot : Fin ioapicRoutableVectors)
    (index : Nat) (unit : IoapicUnit) (entry : Nat) : IoapicStatus × IoapicState :=
  let intent := routeIntent request source
  let cleared := clearPin hardware s slot index unit entry
  let stored := answers.stored ⟨entryLow intent, entryHigh intent⟩
  -- Both halves are written and both are read back.
  let written := { cleared.touch unit 4 with
    table := writeEntry cleared.table (hardware.device unit.address) entry stored }
  if !readbackMatches intent (entryDecompose stored) then
    (.readbackMismatch, maskPin hardware written unit entry)
  else
    (.ok,
      { written with
        routes := Function.update written.routes slot (some ⟨source.levelTriggered, index, entry⟩)
        levelRoutes := written.levelRoutes + if source.levelTriggered then 1 else 0
        requested := Function.update written.requested slot (some request) })

def requestedSource (s : IoapicState) (request : RouteRequest) : Except IoapicStatus IoapicSource :=
  match resolveIsaIrq s.routingTopology request.irq with
  | .error status => .error status
  | .ok source =>
    .ok { source with
      levelTriggered := source.levelTriggered || request.trigger = .forceLevel }

def ioapicRouteIsaIrqAs (hardware : IoapicHardware) (answers : RouteAnswers) (s : IoapicState)
    (request : RouteRequest) : IoapicStatus × IoapicState :=
  if answers.interrupts then (.interruptsEnabled, s)
  else if validateRouteRequest request ≠ .ok then (validateRouteRequest request, s)
  else
    match requestedSource s request with
    | .error status => (status, s)
    | .ok source =>
      match unitForInterrupt s source.globalInterrupt with
      | none => (.unroutableInterrupt, s)
      | some (index, unit) =>
        match selectEoiMode s answers unit source.levelTriggered with
        | .error status => (status, s)
        | .ok s =>
          let entry := source.globalInterrupt - unit.interruptBase
          if source.levelTriggered && s.directedEoiMode && !unit.directedEoi then
            (.noDirectedEoi, s)
          else
            match routeForVector request.vector with
            | none => (.badVector, s)
            | some slot =>
              if (s.routes slot).any fun route => !namesPin index entry route then
                (.vectorInUse, s)
              else programRoute hardware s answers request source slot index unit entry

def ioapicRouteIsaIrq (hardware : IoapicHardware) (answers : RouteAnswers) (s : IoapicState)
    (irq vector destination : Nat) : IoapicStatus × IoapicState :=
  ioapicRouteIsaIrqAs hardware answers s ⟨irq, vector, destination, .firmware⟩

def ioapicMaskIsaIrq (hardware : IoapicHardware) (interrupts : Bool) (s : IoapicState) (irq : Nat) :
    IoapicStatus × IoapicState :=
  if interrupts then (.interruptsEnabled, s)
  else if ioapicIsaIrqCount ≤ irq then (.badIrq, s)
  else
    match resolveIsaIrq s.routingTopology irq with
    | .error status => (status, s)
    | .ok source =>
      match unitForInterrupt s source.globalInterrupt with
      | none => (.unroutableInterrupt, s)
      | some (index, unit) =>
        let entry := source.globalInterrupt - unit.interruptBase
        (.ok, forgetEntry (maskPin hardware s unit entry) index entry)

/-- What `ioapic_send_eoi` does: it reads the entry, ends the interrupt at the local APIC
and, where broadcasts are suppressed, at the unit. -/
inductive EoiStep where
  | observe (unit : IoapicUnit)
  | localEoi
  | directedEoi (unit : IoapicUnit)
  deriving DecidableEq

def unitOf (s : IoapicState) (route : IoapicRoute) : IoapicUnit :=
  s.units.getD route.unit ⟨0, 0, 0, 0, 0, false⟩

def ioapicSendEoi (interrupts : Bool) (s : IoapicState) (vector : Nat) :
    IoapicStatus × List EoiStep :=
  if interrupts then (.interruptsEnabled, [])
  else
    match routeForVector vector with
    | none => (.badVector, [])
    | some slot =>
      match s.routes slot with
      | none => (.vectorNotRouted, [])
      | some route =>
        if !route.levelTriggered then (.notLevelTriggered, [])
        else
          (.ok, .observe (unitOf s route) :: .localEoi ::
            if s.directedEoiMode then [.directedEoi (unitOf s route)] else [])

inductive IoapicCall where
  | routeIsaIrq (answers : RouteAnswers) (irq vector destination : Nat)
  | routeIsaIrqAs (answers : RouteAnswers) (request : RouteRequest)
  | maskIsaIrq (interrupts : Bool) (irq : Nat)

def ioapicStep (hardware : IoapicHardware) (s : IoapicState) : IoapicCall → IoapicState
  | .routeIsaIrq answers irq vector destination =>
    (ioapicRouteIsaIrq hardware answers s irq vector destination).2
  | .routeIsaIrqAs answers request => (ioapicRouteIsaIrqAs hardware answers s request).2
  | .maskIsaIrq interrupts irq => (ioapicMaskIsaIrq hardware interrupts s irq).2

end Sapote.Ioapic
