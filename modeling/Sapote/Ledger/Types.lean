import Mathlib.Algebra.Group.Nat.Defs
import Mathlib.Data.List.Basic

/-!
The boot ledger: stage descriptors, receipts, the ledger record and its
fingerprints. Stage identifiers, capabilities and phases are the raw values of
their C enumerations, because the code checks their range itself. An array with
its count is the list of the counted entries.
-/

namespace Sapote.Ledger

abbrev Fingerprint := BitVec 64

def bootLedgerStageCapacity : Nat := 43
def bootLedgerReceiptCapacity : Nat := 43
def bootStageCapabilityCapacity : Nat := 18
def bootStageProofCounterCapacity : Nat := 2
def bootStageInvalid : Nat := 0
def bootStageCount : Nat := 44
def bootCapabilityInvalid : Nat := 0
def bootCapabilityCount : Nat := 57
def bootPhaseCount : Nat := 8
def bootIrreversibleCount : Nat := 6
def bootReceiptResultCount : Nat := 3

def bootCapabilityPhysicalFrameAllocatorAvailable : Nat := 4
def bootCapabilityClocksDiscovered : Nat := 7
def bootCapabilityDeviceWindowRegistryValidated : Nat := 8
def bootCapabilityHeapAvailable : Nat := 12
def bootCapabilityIdtInstalled : Nat := 13
def bootCapabilityInterruptControllersConfigured : Nat := 14
def bootCapabilityInterruptsEnabled : Nat := 15
def bootCapabilityTimerCalibrationComplete : Nat := 17
def bootCapabilityFramebufferWcIndependentlyProved : Nat := 20
def bootCapabilityThreadingAvailable : Nat := 23

/-- `enum boot_irreversible_class`; `other` is a value past the enumeration. -/
inductive IrreversibleClass where
  | none | patCr3 | interruptEnable | framebufferOutput | apicTimer | scheduler
  | other (excess : Nat)
  deriving DecidableEq

def IrreversibleClass.code : IrreversibleClass → Nat
  | .none => 0
  | .patCr3 => 1
  | .interruptEnable => 2
  | .framebufferOutput => 3
  | .apicTimer => 4
  | .scheduler => 5
  | .other excess => bootIrreversibleCount + excess

inductive LedgerStatus where
  | ok | nullArgument | emptyPlan | notValidated | alreadyExecuted | unknownStageIdentifier
  | unknownCapability | tooManyStages | tooManyReceipts | tooManyStageCapabilities
  | invalidNeutralSkip | duplicateStage | duplicateCapabilityRequirement
  | duplicateCapabilityProvider | missingCapabilityProvider | capabilityDependencyCycle
  | invalidPhaseTransition | irreversibleStageOrderedTooEarly | requiredStageSkipped
  | undeclaredCapabilityProvided | stageExecutedBeforeRequirements | requiredStageFailed
  | optionalStageFailed | optionalStageSkipped | receiptMismatch | planFingerprintMismatch
  | installedPlanDiffersValidatedPlan
  deriving DecidableEq

/-- `enum boot_receipt_result`; `other` is a value past the enumeration. -/
inductive ReceiptResult where
  | ran | skipped | failed
  | other (excess : Nat)
  deriving DecidableEq

def ReceiptResult.code : ReceiptResult → Nat
  | .ran => 0
  | .skipped => 1
  | .failed => 2
  | .other excess => bootReceiptResultCount + excess

structure StageResult where
  result : ReceiptResult
  provided : List Nat
  proofCounters : List (BitVec 64)

structure BootContext (σ : Type) where
  stageFailureDetail : Option String
  stages : σ

abbrev StageFunction (σ : Type) :=
  BootContext σ → StageResult → BootContext σ × StageResult

structure StageDescriptor (σ : Type) where
  id : Nat
  name : Option String
  (requiredCapabilities providedCapabilities skippedCapabilities : List Nat)
  (required skipPreservesHealth : Bool)
  phase : Nat
  irreversibleClass : IrreversibleClass
  execute : Option (StageFunction σ)

def zeroDescriptor {σ : Type} : StageDescriptor σ :=
  ⟨0, none, [], [], [], false, false, 0, .none, none⟩

structure StageReceipt where
  (stageId sequence : Nat)
  providedCapabilities : List Nat
  status : LedgerStatus
  result : ReceiptResult
  proofCounters : List (BitVec 64)
  deriving DecidableEq

/-- `canonicalOrder` and `validatedStageIds` hold `planned_count` entries each. -/
structure BootLedger (σ : Type) where
  descriptors : List (StageDescriptor σ)
  (canonicalOrder validatedStageIds : List Nat)
  receipts : List StageReceipt
  establishedCapabilities : List Nat
  status : LedgerStatus
  (refusalStage refusalCapability : Nat)
  (validatedPlanFingerprint fingerprint : Fingerprint)
  (executedCount optionalSkipCount : Nat)
  (validated executed degraded : Bool)

def stageIsKnown (stage : Nat) : Bool := bootStageInvalid < stage ∧ stage < bootStageCount

def capabilityIsKnown (capability : Nat) : Bool :=
  bootCapabilityInvalid < capability ∧ capability < bootCapabilityCount

/-- What `set_refusal` records; no caller passes it the OK status. -/
structure Refusal where
  status : LedgerStatus
  (stage capability : Nat)
  refusing : decide (status ≠ .ok) := by exact Eq.refl true

theorem Refusal.refused (refusal : Refusal) : refusal.status ≠ .ok :=
  of_decide_eq_true refusal.refusing

section
variable {σ : Type}

def BootLedger.descriptorAt (ledger : BootLedger σ) (index : Nat) : StageDescriptor σ :=
  ledger.descriptors.getD index zeroDescriptor

def setRefusal (ledger : BootLedger σ) (refusal : Refusal) : BootLedger σ :=
  { ledger with
    status := refusal.status
    refusalStage := refusal.stage
    refusalCapability := refusal.capability }

def bootLedgerReset : BootLedger σ :=
  ⟨[], [], [], [], [], .notValidated, bootStageInvalid, bootCapabilityInvalid, 0, 0, 0, 0,
    false, false, false⟩

def bootFingerprintOffset : Fingerprint := 14695981039346656037#64
def bootFingerprintPrime : Fingerprint := 1099511628211#64
def bootFingerprintVersion : Fingerprint := 1#64

/-- The bytes of `value`, least significant first, folded into the fingerprint. -/
def fingerprintU64 (fingerprint : Fingerprint) (value : BitVec 64) : Fingerprint :=
  ((List.range 8).foldl (fun state _ =>
    ((state.1 ^^^ (state.2 &&& 0xFF#64)) * bootFingerprintPrime, state.2 >>> 8))
    (fingerprint, value)).1

def fingerprintCapabilitySet (fingerprint : Fingerprint) (capabilities : List Nat)
    (tag : BitVec 64) : Fingerprint :=
  (List.range' 1 (bootCapabilityCount - 1)).foldl (fun fingerprint capability =>
      if capabilities.contains capability then
        fingerprintU64 fingerprint (BitVec.ofNat 64 capability)
      else fingerprint)
    (fingerprintU64 (fingerprintU64 fingerprint tag) (BitVec.ofNat 64 capabilities.length))

def fingerprintStage (fingerprint : Fingerprint) (descriptor : StageDescriptor σ) : Fingerprint :=
  let fingerprint := fingerprintU64 fingerprint (BitVec.ofNat 64 descriptor.id)
  let fingerprint := fingerprintU64 fingerprint (BitVec.ofNat 64 descriptor.required.toNat)
  let fingerprint :=
    fingerprintU64 fingerprint (BitVec.ofNat 64 descriptor.skipPreservesHealth.toNat)
  let fingerprint := fingerprintU64 fingerprint (BitVec.ofNat 64 descriptor.phase)
  let fingerprint :=
    fingerprintU64 fingerprint (BitVec.ofNat 64 descriptor.irreversibleClass.code)
  let fingerprint := fingerprintCapabilitySet fingerprint descriptor.requiredCapabilities 0xA1#64
  let fingerprint := fingerprintCapabilitySet fingerprint descriptor.providedCapabilities 0xA2#64
  fingerprintCapabilitySet fingerprint descriptor.skippedCapabilities 0xA3#64

def fingerprintPlan (ledger : BootLedger σ) : Fingerprint :=
  ledger.canonicalOrder.foldl
    (fun fingerprint index => fingerprintStage fingerprint (ledger.descriptorAt index))
    (fingerprintU64 (fingerprintU64 bootFingerprintOffset bootFingerprintVersion)
      (BitVec.ofNat 64 ledger.canonicalOrder.length))

def fingerprintReceipt (fingerprint : Fingerprint) (receipt : StageReceipt) : Fingerprint :=
  let fingerprint := fingerprintU64 fingerprint (BitVec.ofNat 64 receipt.stageId)
  let fingerprint := fingerprintU64 fingerprint (BitVec.ofNat 64 receipt.sequence)
  let fingerprint := fingerprintU64 fingerprint (BitVec.ofNat 64 receipt.result.code)
  let fingerprint := fingerprintU64 fingerprint (BitVec.ofNat 64 receipt.status.ctorIdx)
  fingerprintCapabilitySet fingerprint receipt.providedCapabilities 0xB1#64

def fingerprintReceipts (ledger : BootLedger σ) : Fingerprint :=
  ledger.receipts.foldl fingerprintReceipt
    (fingerprintU64 (fingerprintU64 ledger.validatedPlanFingerprint 0xB001ED6E#64)
      (BitVec.ofNat 64 ledger.receipts.length))

end

end Sapote.Ledger
