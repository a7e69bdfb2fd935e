import Sapote.Ledger.Types

/-!
`boot_ledger_validate`: the checks of every descriptor, the provider table, the
irreversible prerequisites and the selection of the canonical order.
-/

namespace Sapote.Ledger

variable {σ : Type}

def irreversibleRequirements : IrreversibleClass → List Nat
  | .patCr3 =>
    [bootCapabilityDeviceWindowRegistryValidated, bootCapabilityPhysicalFrameAllocatorAvailable]
  | .interruptEnable =>
    [bootCapabilityIdtInstalled, bootCapabilityInterruptControllersConfigured]
  | .framebufferOutput => [bootCapabilityFramebufferWcIndependentlyProved]
  | .apicTimer =>
    [bootCapabilityIdtInstalled, bootCapabilityInterruptControllersConfigured,
      bootCapabilityInterruptsEnabled, bootCapabilityClocksDiscovered]
  | .scheduler =>
    [bootCapabilityHeapAvailable, bootCapabilityThreadingAvailable,
      bootCapabilityTimerCalibrationComplete, bootCapabilityInterruptsEnabled]
  | .none | .other _ => []

/-- The `providers` array; `none` is `BOOT_NO_PROVIDER`. -/
abbrev Providers := Nat → Option Nat

def checkRequirements (id : Nat) : List Nat → List Nat → Option Refusal
  | _, [] => none
  | earlier, capability :: rest =>
    if !capabilityIsKnown capability then some (.mk .unknownCapability id capability)
    else if earlier.contains capability then
      some (.mk .duplicateCapabilityRequirement id capability)
    else checkRequirements id (earlier ++ [capability]) rest

/-- One turn of the provider loop. `earlier` are the capabilities of the same list
before this one. -/
def registerProvider (index : Nat) (descriptor : StageDescriptor σ) (skipped : Bool)
    (earlier : List Nat) (capability : Nat) (providers : Providers) : Except Refusal Providers :=
  if !capabilityIsKnown capability then .error (.mk .unknownCapability descriptor.id capability)
  else
    let commonOutcome := skipped && providers capability == some index &&
      descriptor.providedCapabilities.contains capability && !earlier.contains capability
    if (providers capability).isSome && !commonOutcome then
      .error (.mk .duplicateCapabilityProvider descriptor.id capability)
    else if providers capability = none then
      .ok (Function.update providers capability (some index))
    else .ok providers

def registerProviders (index : Nat) (descriptor : StageDescriptor σ) (skipped : Bool) :
    List Nat → List Nat → Providers → Except Refusal Providers
  | _, [], providers => .ok providers
  | earlier, capability :: rest, providers =>
    match registerProvider index descriptor skipped earlier capability providers with
    | .error refusal => .error refusal
    | .ok providers =>
      registerProviders index descriptor skipped (earlier ++ [capability]) rest providers

def checkStage (earlier : List (StageDescriptor σ)) (descriptor : StageDescriptor σ) :
    Option Refusal :=
  if !stageIsKnown descriptor.id then
    some (.mk .unknownStageIdentifier descriptor.id bootCapabilityInvalid)
  else if bootPhaseCount ≤ descriptor.phase ∨
      bootIrreversibleCount ≤ descriptor.irreversibleClass.code ∨
      descriptor.name.isNone ∨ descriptor.execute.isNone then
    some (.mk .invalidPhaseTransition descriptor.id bootCapabilityInvalid)
  else if bootStageCapabilityCapacity < descriptor.requiredCapabilities.length ∨
      bootStageCapabilityCapacity < descriptor.providedCapabilities.length ∨
      bootStageCapabilityCapacity < descriptor.skippedCapabilities.length then
    some (.mk .tooManyStageCapabilities descriptor.id bootCapabilityInvalid)
  else if descriptor.skipPreservesHealth ∧
      (descriptor.required ∨ descriptor.skippedCapabilities.length = 0) then
    some (.mk .invalidNeutralSkip descriptor.id bootCapabilityInvalid)
  else if earlier.any (·.id == descriptor.id) then
    some (.mk .duplicateStage descriptor.id bootCapabilityInvalid)
  else checkRequirements descriptor.id [] descriptor.requiredCapabilities

def checkStages : List (StageDescriptor σ) → List (StageDescriptor σ) → Providers →
    Except Refusal Providers
  | _, [], providers => .ok providers
  | earlier, descriptor :: rest, providers =>
    match checkStage earlier descriptor with
    | some refusal => .error refusal
    | none =>
      match registerProviders earlier.length descriptor false []
          descriptor.providedCapabilities providers with
      | .error refusal => .error refusal
      | .ok providers =>
        match registerProviders earlier.length descriptor true []
            descriptor.skippedCapabilities providers with
        | .error refusal => .error refusal
        | .ok providers => checkStages (earlier ++ [descriptor]) rest providers

def missingProvider (descriptors : List (StageDescriptor σ)) (providers : Providers) :
    Option Refusal :=
  descriptors.findSome? fun descriptor =>
    descriptor.requiredCapabilities.findSome? fun capability =>
      if providers capability = none then
        some (.mk .missingCapabilityProvider descriptor.id capability)
      else none

def providerLater (ledger : BootLedger σ) (providers : Providers) (descriptor : StageDescriptor σ)
    (capability : Nat) : Bool :=
  match providers capability with
  | none => false
  | some provider => descriptor.phase < (ledger.descriptorAt provider).phase

def irreversibleTooEarly (ledger : BootLedger σ) (providers : Providers) : Option Refusal :=
  ledger.descriptors.findSome? fun descriptor =>
    (irreversibleRequirements descriptor.irreversibleClass).findSome? fun capability =>
      if !descriptor.requiredCapabilities.contains capability ∨ providers capability = none ∨
          providerLater ledger providers descriptor capability then
        some (.mk .irreversibleStageOrderedTooEarly descriptor.id capability)
      else none

def phaseTransition (ledger : BootLedger σ) (providers : Providers) : Option Refusal :=
  ledger.descriptors.findSome? fun descriptor =>
    descriptor.requiredCapabilities.findSome? fun capability =>
      if providerLater ledger providers descriptor capability then
        some (.mk .invalidPhaseTransition descriptor.id capability)
      else none

def stageReady (ledger : BootLedger σ) (providers : Providers) (order : List Nat) (index : Nat) :
    Bool :=
  !order.contains index &&
    (ledger.descriptorAt index).requiredCapabilities.all fun capability =>
      match providers capability with
      | none => false
      | some provider => order.contains provider

def selectStage (ledger : BootLedger σ) (providers : Providers) (order : List Nat) : Option Nat :=
  (List.range ledger.descriptors.length).foldl (fun selected index =>
    if !stageReady ledger providers order index then selected
    else
      match selected with
      | none => some index
      | some best =>
        if (ledger.descriptorAt index).phase < (ledger.descriptorAt best).phase ∨
            ((ledger.descriptorAt index).phase = (ledger.descriptorAt best).phase ∧
              (ledger.descriptorAt index).id < (ledger.descriptorAt best).id) then
          some index
        else some best) none

def cycleStage (ledger : BootLedger σ) (order : List Nat) : Nat :=
  (List.range ledger.descriptors.length).foldl (fun stage index =>
    if !order.contains index ∧
        (stage = bootStageInvalid ∨ (ledger.descriptorAt index).id < stage) then
      (ledger.descriptorAt index).id
    else stage) bootStageInvalid

/-- The `while` loop with `remaining` stages to plan: the order so far and the
refusal, if the loop found no ready stage. -/
def planStages (ledger : BootLedger σ) (providers : Providers) :
    (remaining : Nat) → List Nat → List Nat × Option Refusal
  | 0, order => (order, none)
  | remaining + 1, order =>
    match selectStage ledger providers order with
    | none =>
      (order, some (.mk .capabilityDependencyCycle (cycleStage ledger order) bootCapabilityInvalid))
    | some selected => planStages ledger providers remaining (order ++ [selected])

def refuse (ledger : BootLedger σ) (refusal : Refusal) : LedgerStatus × BootLedger σ :=
  (refusal.status, setRefusal ledger refusal)

theorem refuse_ne_ok (ledger : BootLedger σ) (refusal : Refusal) : (refuse ledger refusal).1 ≠ .ok :=
  refusal.refused

def planLedger (ledger : BootLedger σ) (providers : Providers) : LedgerStatus × BootLedger σ :=
  match missingProvider ledger.descriptors providers with
  | some refusal => refuse ledger refusal
  | none =>
    match irreversibleTooEarly ledger providers with
    | some refusal => refuse ledger refusal
    | none =>
      let plan := planStages ledger providers ledger.descriptors.length []
      let ledger := { ledger with
        canonicalOrder := plan.1
        validatedStageIds := plan.1.map fun index => (ledger.descriptorAt index).id }
      match plan.2 with
      | some refusal => refuse ledger refusal
      | none =>
        match phaseTransition ledger providers with
        | some refusal => refuse ledger refusal
        | none =>
          (.ok, { ledger with
            validatedPlanFingerprint := fingerprintPlan ledger
            fingerprint := 0
            validated := true
            status := .ok })

def clearPlan (ledger : BootLedger σ) : BootLedger σ :=
  { ledger with
    validated := false
    executed := false
    canonicalOrder := []
    validatedStageIds := []
    receipts := []
    refusalStage := bootStageInvalid
    refusalCapability := bootCapabilityInvalid }

def bootLedgerValidate (ledger : BootLedger σ) : LedgerStatus × BootLedger σ :=
  let ledger := clearPlan ledger
  if ledger.descriptors.length = 0 then
    refuse ledger (.mk .emptyPlan bootStageInvalid bootCapabilityInvalid)
  else if bootLedgerStageCapacity < ledger.descriptors.length then
    refuse ledger (.mk .tooManyStages bootStageInvalid bootCapabilityInvalid)
  else
    match checkStages [] ledger.descriptors fun _ => none with
    | .error refusal => refuse ledger refusal
    | .ok providers => planLedger ledger providers

end Sapote.Ledger
