import Sapote.Ledger.Planner

/-!
`boot_ledger_execute` over stage functions that may do anything to the context and
return any result, and `verify_receipt_set`, which replays the receipts afterwards.
-/

namespace Sapote.Ledger

variable {σ : Type}

def bootStageResultSkip (descriptor : StageDescriptor σ) : StageResult :=
  ⟨.skipped, descriptor.skippedCapabilities, []⟩

def bootStageResultFail : StageResult := ⟨.failed, [], []⟩

def bootLedgerHasCapability (ledger : BootLedger σ) (capability : Nat) : Bool :=
  capabilityIsKnown capability && ledger.establishedCapabilities.contains capability

def requirementsMissing (ledger : BootLedger σ) (descriptor : StageDescriptor σ) : Option Nat :=
  descriptor.requiredCapabilities.find? fun capability =>
    !bootLedgerHasCapability ledger capability

/-- The list a result must reproduce; `none` for a result outside the enumeration. -/
def declaredOutcome (descriptor : StageDescriptor σ) : ReceiptResult → Option (List Nat)
  | .ran => some descriptor.providedCapabilities
  | .skipped => some descriptor.skippedCapabilities
  | .failed => some []
  | .other _ => none

def validateResult (descriptor : StageDescriptor σ) (result : StageResult) :
    LedgerStatus × Nat :=
  match declaredOutcome descriptor result.result with
  | none => (.receiptMismatch, bootCapabilityInvalid)
  | some declared =>
    if bootStageCapabilityCapacity < result.provided.length ∨
        bootStageProofCounterCapacity < result.proofCounters.length then
      (.receiptMismatch, bootCapabilityInvalid)
    else
      match result.provided.find? fun capability => !declared.contains capability with
      | some bad => (.undeclaredCapabilityProvided, bad)
      | none =>
        if result.provided.length ≠ declared.length then
          (.receiptMismatch, bootCapabilityInvalid)
        else
          match declared.find? fun capability => !result.provided.contains capability with
          | some bad => (.receiptMismatch, bad)
          | none => (.ok, bootCapabilityInvalid)

/-- The loop of `append_receipt`: the established capabilities, and the capability
for which there was no room. -/
def establish : List Nat → List Nat → List Nat × Option Nat
  | established, [] => (established, none)
  | established, capability :: rest =>
    if capabilityIsKnown capability && established.contains capability then
      establish established rest
    else if bootCapabilityCount ≤ established.length then (established, some capability)
    else establish (established ++ [capability]) rest

def appendReceipt (ledger : BootLedger σ) (descriptor : StageDescriptor σ) (result : StageResult)
    (status : LedgerStatus) : LedgerStatus × BootLedger σ :=
  if bootLedgerReceiptCapacity ≤ ledger.receipts.length then
    refuse ledger (.mk .tooManyReceipts descriptor.id bootCapabilityInvalid)
  else
    let established := establish ledger.establishedCapabilities result.provided
    match established.2 with
    | some capability =>
      refuse { ledger with establishedCapabilities := established.1 }
        (.mk .receiptMismatch descriptor.id capability)
    | none =>
      (.ok, { ledger with
        receipts := ledger.receipts ++
          [⟨descriptor.id, (ledger.receipts.length + 1) % 2 ^ 32, result.provided, status,
            result.result, result.proofCounters⟩]
        establishedCapabilities := established.1
        executedCount := if result.result ≠ .skipped then ledger.executedCount + 1
          else ledger.executedCount
        degraded := ledger.degraded || (result.result ≠ .ran &&
          (result.result ≠ .skipped || !descriptor.skipPreservesHealth))
        optionalSkipCount := if result.result = .skipped then ledger.optionalSkipCount + 1
          else ledger.optionalSkipCount })

structure StageCall where
  stage : Nat
  established : List Nat
  result : StageResult

/-- The ledger and the context during an execution. `calls` records the stage
functions called; the code keeps no such record. -/
structure Execution (σ : Type) where
  ledger : BootLedger σ
  context : BootContext σ
  calls : List StageCall

/-- `descriptor->execute(context, descriptor, &result)` on a result preset to failed.
Validation refuses a null function, so that case is never reached. -/
def callStage (run : Execution σ) (descriptor : StageDescriptor σ) : StageResult × Execution σ :=
  match descriptor.execute with
  | none => (bootStageResultFail, run)
  | some execute =>
    let returned := execute run.context bootStageResultFail
    (returned.2, { run with
      context := returned.1
      calls := run.calls ++ [⟨descriptor.id, run.ledger.establishedCapabilities, returned.2⟩] })

def recordResult (ledger : BootLedger σ) (descriptor : StageDescriptor σ) (result : StageResult) :
    LedgerStatus × BootLedger σ :=
  let checked := validateResult descriptor result
  if invalid : checked.1 ≠ .ok then
    refuse ledger ⟨checked.1, descriptor.id, checked.2, decide_eq_true invalid⟩
  else if result.result = .skipped ∧ descriptor.required then
    refuse (appendReceipt ledger descriptor result .requiredStageSkipped).2
      (.mk .requiredStageSkipped descriptor.id bootCapabilityInvalid)
  else if result.result = .failed then
    if descriptor.required then
      refuse (appendReceipt ledger descriptor result .requiredStageFailed).2
        (.mk .requiredStageFailed descriptor.id bootCapabilityInvalid)
    else
      (.ok, { (appendReceipt ledger descriptor result .optionalStageFailed).2 with
        degraded := true })
  else if result.result = .skipped then
    appendReceipt ledger descriptor result .optionalStageSkipped
  else appendReceipt ledger descriptor result .ok

def executeStage (run : Execution σ) (descriptor : StageDescriptor σ) :
    LedgerStatus × Execution σ :=
  let run := { run with context := { run.context with stageFailureDetail := none } }
  match requirementsMissing run.ledger descriptor with
  | some missing =>
    if descriptor.required then
      let refused := refuse run.ledger (.mk .stageExecutedBeforeRequirements descriptor.id missing)
      (refused.1, { run with ledger := refused.2 })
    else
      let appended := appendReceipt run.ledger descriptor (bootStageResultSkip descriptor)
        .optionalStageSkipped
      (appended.1, { run with ledger := appended.2 })
  | none =>
    let called := callStage run descriptor
    let recorded := recordResult called.2.ledger descriptor called.1
    (recorded.1, { called.2 with ledger := recorded.2 })

def plannedStages (ledger : BootLedger σ) : List (StageDescriptor σ × Nat) :=
  (ledger.canonicalOrder.map ledger.descriptorAt).zip ledger.validatedStageIds

def executePlan : List (StageDescriptor σ × Nat) → Execution σ → LedgerStatus × Execution σ
  | [], run => (.ok, run)
  | (descriptor, validatedId) :: rest, run =>
    if descriptor.id ≠ validatedId then
      let refused := refuse run.ledger
        (.mk .installedPlanDiffersValidatedPlan descriptor.id bootCapabilityInvalid)
      (refused.1, { run with ledger := refused.2 })
    else
      let stage := executeStage run descriptor
      if stage.1 ≠ .ok then stage else executePlan rest stage.2

def beginExecution (ledger : BootLedger σ) : BootLedger σ :=
  { ledger with
    receipts := []
    establishedCapabilities := []
    executedCount := 0
    optionalSkipCount := 0
    degraded := false }

def bootLedgerExecute (ledger : BootLedger σ) (context : BootContext σ) :
    LedgerStatus × Execution σ :=
  if !ledger.validated then
    let refused := refuse ledger (.mk .notValidated bootStageInvalid bootCapabilityInvalid)
    (refused.1, ⟨refused.2, context, []⟩)
  else if ledger.executed then
    let refused := refuse ledger (.mk .alreadyExecuted bootStageInvalid bootCapabilityInvalid)
    (refused.1, ⟨refused.2, context, []⟩)
  else if fingerprintPlan ledger ≠ ledger.validatedPlanFingerprint then
    let refused := refuse ledger
      (.mk .planFingerprintMismatch bootStageInvalid bootCapabilityInvalid)
    (refused.1, ⟨refused.2, context, []⟩)
  else
    let finished := executePlan (plannedStages ledger) ⟨beginExecution ledger, context, []⟩
    if finished.1 ≠ .ok then finished
    else
      (.ok, { finished.2 with
        ledger := { finished.2.ledger with
          fingerprint := fingerprintReceipts finished.2.ledger
          executed := true
          status := .ok } })

def bootLedgerFingerprintValid (ledger : BootLedger σ) : Bool :=
  ledger.validated && ledger.executed &&
    fingerprintPlan ledger == ledger.validatedPlanFingerprint &&
    fingerprintReceipts ledger == ledger.fingerprint

def bootLedgerPlannedStageAt (ledger : BootLedger σ) (index : Nat) : Option (StageDescriptor σ) :=
  match ledger.canonicalOrder[index]? with
  | none => none
  | some stage =>
    if ledger.descriptors.length ≤ stage then none else some (ledger.descriptorAt stage)

/-- The status a receipt of this result must carry; `none` past the enumeration. -/
def receiptStatus : ReceiptResult → Option LedgerStatus
  | .ran => some .ok
  | .skipped => some .optionalStageSkipped
  | .failed => some .optionalStageFailed
  | .other _ => none

/-- The loop over the capabilities of one receipt; `earlier` are those of the same
receipt before this one, `capabilities` all that were collected. -/
def verifyProvided (descriptor : StageDescriptor σ) (declared : List Nat) :
    List Nat → List Nat → List Nat → Except Refusal (List Nat)
  | _, [], capabilities => .ok capabilities
  | earlier, capability :: rest, capabilities =>
    if !capabilityIsKnown capability then
      .error (.mk .unknownCapability descriptor.id capability)
    else if !declared.contains capability then
      .error (.mk .undeclaredCapabilityProvided descriptor.id capability)
    else if earlier.contains capability then
      .error (.mk .receiptMismatch descriptor.id capability)
    else if capabilities.contains capability then
      .error (.mk .duplicateCapabilityProvider descriptor.id capability)
    else if bootCapabilityCount ≤ capabilities.length then
      .error (.mk .receiptMismatch descriptor.id capability)
    else
      verifyProvided descriptor declared (earlier ++ [capability]) rest
        (capabilities ++ [capability])

/-- One turn of `verify_receipt_set` at a receipt whose descriptor was found. -/
def verifyReceipt (receipt : StageReceipt) (descriptor : StageDescriptor σ)
    (capabilities : List Nat) : Except Refusal (List Nat) :=
  if bootStageCapabilityCapacity < receipt.providedCapabilities.length ∨
      bootStageProofCounterCapacity < receipt.proofCounters.length ∨
      receiptStatus receipt.result ≠ some receipt.status then
    .error (.mk .receiptMismatch descriptor.id bootCapabilityInvalid)
  else if descriptor.required ∧ (receipt.result ≠ .ran ∨ receipt.status ≠ .ok) then
    .error (.mk .receiptMismatch descriptor.id bootCapabilityInvalid)
  else
    match if receipt.result ≠ .skipped then
        descriptor.requiredCapabilities.find? fun capability => !capabilities.contains capability
      else none with
    | some missing =>
      .error (.mk .stageExecutedBeforeRequirements descriptor.id missing)
    | none =>
      let declared := (declaredOutcome descriptor receipt.result).getD []
      if receipt.providedCapabilities.length ≠ declared.length then
        .error (.mk .receiptMismatch descriptor.id bootCapabilityInvalid)
      else
        match verifyProvided descriptor declared [] receipt.providedCapabilities
            capabilities with
        | .error refusal => .error refusal
        | .ok capabilities =>
          match declared.find? fun capability =>
              !receipt.providedCapabilities.contains capability with
          | some missing => .error (.mk .receiptMismatch descriptor.id missing)
          | none => .ok capabilities

/-- The loop of `verify_receipt_set`, with the index of the next receipt, the stages
seen and the capabilities collected so far. -/
def verifyReceipts (ledger : BootLedger σ) : (index : Nat) → (seen capabilities : List Nat) →
    List StageReceipt → Except Refusal (List Nat)
  | _, _, capabilities, [] => .ok capabilities
  | index, seen, capabilities, receipt :: rest =>
    if !stageIsKnown receipt.stageId then
      .error (.mk .unknownStageIdentifier receipt.stageId bootCapabilityInvalid)
    else
      match bootLedgerPlannedStageAt ledger index with
      | none =>
        .error (.mk .installedPlanDiffersValidatedPlan receipt.stageId bootCapabilityInvalid)
      | some descriptor =>
        if receipt.stageId ≠ descriptor.id ∨ receipt.sequence ≠ index + 1 ∨
            seen.contains receipt.stageId then
          .error (.mk .installedPlanDiffersValidatedPlan receipt.stageId bootCapabilityInvalid)
        else
          match verifyReceipt receipt descriptor capabilities with
          | .error refusal => .error refusal
          | .ok capabilities =>
            verifyReceipts ledger (index + 1) (receipt.stageId :: seen) capabilities rest

def verifyReceiptSet (ledger : BootLedger σ) : LedgerStatus × BootLedger σ :=
  if ledger.receipts.length ≠ ledger.canonicalOrder.length then
    refuse ledger (.mk .receiptMismatch bootStageInvalid bootCapabilityInvalid)
  else
    match verifyReceipts ledger 0 [] [] ledger.receipts with
    | .error refusal => refuse ledger refusal
    | .ok capabilities =>
      if capabilities.length ≠ ledger.establishedCapabilities.length then
        refuse ledger (.mk .receiptMismatch bootStageInvalid bootCapabilityInvalid)
      else
        match capabilities.find? fun capability =>
            !bootLedgerHasCapability ledger capability with
        | some missing => refuse ledger (.mk .receiptMismatch bootStageInvalid missing)
        | none => (.ok, ledger)

end Sapote.Ledger
