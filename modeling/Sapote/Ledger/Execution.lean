import Sapote.Ledger.Executor
import Sapote.Ledger.Validation

/-!
An execution of a validated plan, one stage at a time: which receipts it can
append, what it establishes and which stage functions it calls.
-/

namespace Sapote.Ledger
open List
variable {σ : Type}

variable {d : StageDescriptor σ} {ds : List (StageDescriptor σ)} {l : List Nat}
  {rs : List StageReceipt} {status : LedgerStatus} {run : Execution σ} {m declared : List Nat}
  {result : ReceiptResult} {c : Nat} {r : StageReceipt}

def mintedBy (receipts : List StageReceipt) : List Nat :=
  receipts.flatMap (·.providedCapabilities)

structure Recorded (d : StageDescriptor σ) (r : StageReceipt) : Prop where
  stage : r.stageId = d.id
  outcome : ∃ declared, declaredOutcome d r.result = some declared ∧
    r.providedCapabilities.Perm declared

structure Accepted (d : StageDescriptor σ) (rs : List StageReceipt) (r : StageReceipt) : Prop
    extends Recorded d r where
  sequence : r.sequence = rs.length + 1
  status : receiptStatus r.result = some r.status
  counters : r.proofCounters.length ≤ bootStageProofCounterCapacity
  required : d.required → r.result = .ran
  ready : r.result ≠ .skipped → ∀ c ∈ d.requiredCapabilities, c ∈ mintedBy rs

inductive History : List (StageDescriptor σ) → List StageReceipt → Prop where
  | nil : History [] []
  | add {ds : List (StageDescriptor σ)} {rs : List StageReceipt} {d : StageDescriptor σ}
      {r : StageReceipt} : History ds rs → Accepted d rs r → History (ds ++ [d]) (rs ++ [r])

theorem find?_not_contains : (l.find? fun c => !m.contains c) = none ↔ ∀ c ∈ l, c ∈ m := by
  simp

theorem declaredOutcome_nodup (formed : d.WellFormed)
    (here : declaredOutcome d result = some declared) : declared.Nodup := by
  cases result with
  | ran => exact Option.some.inj here ▸ formed.providedOnce
  | skipped => exact Option.some.inj here ▸ formed.skippedOnce
  | failed => exact Option.some.inj here ▸ nodup_nil
  | other excess => cases here

theorem mem_declaredOutcome (here : declaredOutcome d result = some declared)
    (member : c ∈ declared) : result = .ran ∧ c ∈ d.providedCapabilities ∨
      result = .skipped ∧ c ∈ d.skippedCapabilities := by
  cases result with
  | ran => exact .inl ⟨rfl, Option.some.inj here ▸ member⟩
  | skipped => exact .inr ⟨rfl, Option.some.inj here ▸ member⟩
  | failed =>
    obtain rfl := Option.some.inj here
    cases member
  | other excess => cases here

theorem declaredOutcome_declares (here : declaredOutcome d result = some declared)
    (member : c ∈ declared) : d.Declares c :=
  (mem_declaredOutcome here member).imp And.right And.right

/-- As many entries, all of them among each other: the lists agree up to order. -/
theorem perm_of_mutual (once : m.Nodup) (length : l.length = m.length) (cover : ∀ c ∈ m, c ∈ l) :
    l.Perm m :=
  ((once.subperm cover).perm_of_length_le (le_of_eq length)).symm

theorem validateResult_ok (formed : d.WellFormed) {r : StageResult} :
    (validateResult d r).1 = .ok ↔ r.provided.length ≤ bootStageCapabilityCapacity ∧
      r.proofCounters.length ≤ bootStageProofCounterCapacity ∧
      ∃ declared, declaredOutcome d r.result = some declared ∧ r.provided.Perm declared := by
  unfold validateResult
  cases outcome : declaredOutcome d r.result with
  | none => simp
  | some declared => ?_
  have agree : r.provided.Perm declared ↔ (∀ c ∈ r.provided, c ∈ declared) ∧
      r.provided.length = declared.length ∧ ∀ c ∈ declared, c ∈ r.provided :=
    ⟨fun perm => ⟨fun _ => perm.mem_iff.mp, perm.length_eq, fun _ => perm.mem_iff.mpr⟩,
      fun h => perm_of_mutual (declaredOutcome_nodup formed outcome) h.2.1 h.2.2⟩
  simp only [Option.some.injEq, exists_eq_left', agree, ← find?_not_contains]
  split
  · exact iff_of_false nofun fun h => by omega
  split
  · next undeclared =>
    exact iff_of_false nofun fun h => nomatch undeclared.symm.trans h.2.2.1
  next provided =>
  split
  · next short => simp [short]
  next length =>
  split
  · next lost => exact iff_of_false nofun fun h => nomatch lost.symm.trans h.2.2.2.2
  · next kept => exact iff_of_true rfl ⟨by omega, by omega, provided, not_not.mp length, kept⟩

/-- There are fewer known capabilities than room for them. -/
theorem known_length_lt (once : l.Nodup) (known : ∀ c ∈ l, capabilityIsKnown c) :
    l.length < bootCapabilityCount := by
  have inside : l ⊆ List.range' 1 (bootCapabilityCount - 1) := by
    intro c member
    have range := known c member
    rw [capabilityIsKnown, decide_eq_true_iff] at range
    rw [mem_range'_1]
    omega
  have length := (once.subperm inside).length_le
  rw [length_range'] at length
  unfold bootCapabilityCount at *
  omega

theorem establish_eq {established : List Nat} (once : (established ++ l).Nodup)
    (known : ∀ c ∈ established ++ l, capabilityIsKnown c) :
    establish established l = (established ++ l, none) := by
  induction l generalizing established with
  | nil => rw [establish, append_nil]
  | cons c l ih =>
    have shape : established ++ c :: l = (established ++ [c]) ++ l := by simp
    have new : c ∉ established := fun member =>
      (nodup_append.mp once).2.2 c member c mem_cons_self rfl
    have room : ¬bootCapabilityCount ≤ established.length := not_le.mpr
      (known_length_lt (nodup_append.mp once).1 fun x member =>
        known x (mem_append_left _ member))
    rw [shape] at once known
    rw [establish, if_neg (by simp [new]), if_neg room, ih once known, shape]

structure Going (done : List (StageDescriptor σ)) (ledger : BootLedger σ) : Prop where
  history : History done ledger.receipts
  established : ledger.establishedCapabilities = mintedBy ledger.receipts
  once : ledger.establishedCapabilities.Nodup
  known : ∀ c ∈ ledger.establishedCapabilities, capabilityIsKnown c
  declared : ∀ c ∈ ledger.establishedCapabilities, ∃ e ∈ done, e.Declares c

structure Follows (done : List (StageDescriptor σ)) (d : StageDescriptor σ) : Prop where
  formed : d.WellFormed
  apart : ∀ e ∈ done, Exclusive e d
  room : done.length < bootLedgerReceiptCapacity

theorem History.length (history : History ds rs) : rs.length = ds.length := by
  induction history with
  | nil => rfl
  | add _ _ ih => rw [length_append, length_append, ih, length_singleton,
      length_singleton]

section
variable {done : List (StageDescriptor σ)} {ledger : BootLedger σ} {d : StageDescriptor σ}

def receiptFor (ledger : BootLedger σ) (d : StageDescriptor σ) (result : StageResult)
    (status : LedgerStatus) : StageReceipt :=
  ⟨d.id, ledger.receipts.length + 1, result.provided, status, result.result, result.proofCounters⟩

def appended (ledger : BootLedger σ) (d : StageDescriptor σ) (result : StageResult)
    (status : LedgerStatus) : BootLedger σ :=
  { ledger with
    receipts := ledger.receipts ++ [receiptFor ledger d result status]
    establishedCapabilities := ledger.establishedCapabilities ++ result.provided
    executedCount := if result.result ≠ .skipped then ledger.executedCount + 1
      else ledger.executedCount
    degraded := ledger.degraded || (result.result ≠ .ran &&
      (result.result ≠ .skipped || !d.skipPreservesHealth))
    optionalSkipCount := if result.result = .skipped then ledger.optionalSkipCount + 1
      else ledger.optionalSkipCount }

/-- Distinct known capabilities that the stages declare. -/
structure Minted (done : List (StageDescriptor σ)) (l : List Nat) : Prop where
  once : l.Nodup
  known : ∀ c ∈ l, capabilityIsKnown c
  declared : ∀ c ∈ l, ∃ e ∈ done, e.Declares c

/-- The outcome of a stage shares nothing with what was established before it. -/
theorem Minted.add (minted : Minted done l) (formed : d.WellFormed)
    (apart : ∀ e ∈ done, Exclusive e d) (outcome : declaredOutcome d result = some declared)
    (perm : m.Perm declared) : Minted (done ++ [d]) (l ++ m) := by
  have own : ∀ c ∈ m, d.Declares c := fun c member =>
    declaredOutcome_declares outcome (perm.mem_iff.mp member)
  refine ⟨nodup_append.mpr ⟨minted.once,
    perm.nodup_iff.mpr (declaredOutcome_nodup formed outcome), ?_⟩, ?_, ?_⟩
  · intro c old x new same
    obtain ⟨e, member, declares⟩ := minted.declared c old
    exact apart e member c declares (same ▸ own x new)
  · exact forall_mem_append.mpr ⟨minted.known, fun c new => formed.outcomes c (own c new)⟩
  · refine forall_mem_append.mpr ⟨fun c old => ?_, fun c new =>
      ⟨d, mem_append_right _ mem_cons_self, own c new⟩⟩
    obtain ⟨e, there, declares⟩ := minted.declared c old
    exact ⟨e, mem_append_left _ there, declares⟩

theorem Going.minted (going : Going done ledger) : Minted done ledger.establishedCapabilities :=
  ⟨going.once, going.known, going.declared⟩

theorem mintedBy_concat : mintedBy (rs ++ [r]) = mintedBy rs ++ r.providedCapabilities := by
  simp only [mintedBy, flatMap_append, flatMap_singleton]

theorem appendReceipt_eq (going : Going done ledger) (next : Follows done d)
    {result : StageResult} {declared : List Nat}
    (outcome : declaredOutcome d result.result = some declared)
    (perm : result.provided.Perm declared) (status : LedgerStatus) :
    appendReceipt ledger d result status = (.ok, appended ledger d result status) := by
  have length := going.history.length
  have small : ledger.receipts.length < bootLedgerReceiptCapacity := length ▸ next.room
  have sequence : (ledger.receipts.length + 1) % 2 ^ 32 = ledger.receipts.length + 1 := by
    unfold bootLedgerReceiptCapacity at small
    omega
  obtain ⟨once, known, -⟩ := going.minted.add next.formed next.apart outcome perm
  rw [appendReceipt, if_neg (not_le.mpr small), establish_eq once known, sequence]
  rfl

theorem Going.appended (going : Going done ledger) (next : Follows done d) {result : StageResult}
    (accepted : Accepted d ledger.receipts (receiptFor ledger d result status)) :
    Going (done ++ [d]) (appended ledger d result status) := by
  obtain ⟨declared, outcome, perm⟩ := accepted.outcome
  obtain ⟨once, known, also⟩ := going.minted.add next.formed next.apart outcome perm
  refine ⟨going.history.add accepted, ?_, once, known, also⟩
  rw [Ledger.appended, mintedBy_concat, ← going.established]
  rfl

theorem requirementsMissing_eq_none (formed : d.WellFormed) :
    requirementsMissing ledger d = none ↔
      ∀ c ∈ d.requiredCapabilities, c ∈ ledger.establishedCapabilities := by
  rw [requirementsMissing, find?_eq_none]
  apply forall₂_congr
  intro c member
  simp [bootLedgerHasCapability, formed.requirements c member]

/-- What `execute_stage` does with a result: refuse it, record it and stop, or go on. -/
theorem recordResult_cases (going : Going done ledger) (next : Follows done d)
    (result : StageResult) :
    ((validateResult d result).1 ≠ .ok ∧
        ∃ refusal, recordResult ledger d result = refuse ledger refusal) ∨
      ((validateResult d result).1 = .ok ∧ d.required ∧ result.result ≠ .ran ∧
        ∃ status refusal, recordResult ledger d result =
          refuse (appended ledger d result status) refusal) ∨
      ((validateResult d result).1 = .ok ∧ (d.required → result.result = .ran) ∧
        ∃ status, receiptStatus result.result = some status ∧
          recordResult ledger d result = (.ok, appended ledger d result status)) := by
  by_cases valid : (validateResult d result).1 = .ok
  swap
  · left
    refine ⟨valid, ⟨(validateResult d result).1, d.id, (validateResult d result).2,
      decide_eq_true valid⟩, ?_⟩
    rw [recordResult, dif_pos valid]
  obtain ⟨-, -, declared, outcome, perm⟩ := (validateResult_ok next.formed).mp valid
  have append := appendReceipt_eq going next outcome perm
  right
  simp only [recordResult, ne_eq, valid, not_true_eq_false, dif_neg, not_false_eq_true]
  cases kind : result.result with
  | ran =>
    refine .inr ⟨trivial, fun _ => rfl, .ok, rfl, ?_⟩
    simp [append]
  | skipped =>
    cases needed : d.required with
    | true =>
      refine .inl ⟨trivial, rfl, by simp, .requiredStageSkipped,
        .mk .requiredStageSkipped d.id bootCapabilityInvalid, ?_⟩
      rw [append, if_pos ⟨rfl, rfl⟩]
    | false =>
      refine .inr ⟨trivial, by simp, .optionalStageSkipped, rfl, ?_⟩
      simp [append]
  | failed =>
    cases needed : d.required with
    | true =>
      refine .inl ⟨trivial, rfl, by simp, .requiredStageFailed,
        .mk .requiredStageFailed d.id bootCapabilityInvalid, ?_⟩
      rw [if_neg (by simp), if_pos rfl, if_pos rfl, append]
    | false =>
      refine .inr ⟨trivial, by simp, .optionalStageFailed, rfl, ?_⟩
      simp [append, Ledger.appended, kind]
  | other excess =>
    rw [kind] at outcome
    cases outcome

structure SamePlan (before after : BootLedger σ) : Prop where
  descriptors : after.descriptors = before.descriptors
  canonicalOrder : after.canonicalOrder = before.canonicalOrder
  planFingerprint : after.validatedPlanFingerprint = before.validatedPlanFingerprint
  validated : after.validated = before.validated

/-- The receipts have not been sealed yet. -/
structure Unsealed (before after : BootLedger σ) : Prop extends SamePlan before after where
  fingerprint : after.fingerprint = before.fingerprint

theorem Unsealed.trans {a b c : BootLedger σ} (first : Unsealed a b) (second : Unsealed b c) :
    Unsealed a c :=
  ⟨⟨second.descriptors.trans first.descriptors, second.canonicalOrder.trans first.canonicalOrder,
    second.planFingerprint.trans first.planFingerprint, second.validated.trans first.validated⟩,
    second.fingerprint.trans first.fingerprint⟩

structure StageStep (done : List (StageDescriptor σ)) (d : StageDescriptor σ)
    (before : Execution σ) (status : LedgerStatus) (after : Execution σ) : Prop where
  plan : Unsealed before.ledger after.ledger
  calls : after.calls = before.calls ∨
    ∃ result, after.calls = before.calls ++
        [⟨d.id, before.ledger.establishedCapabilities, result⟩] ∧
      ∀ c ∈ d.requiredCapabilities, c ∈ before.ledger.establishedCapabilities
  receipts : (after.ledger.receipts = before.ledger.receipts ∧
      after.ledger.establishedCapabilities = before.ledger.establishedCapabilities) ∨
    ∃ r, after.ledger.receipts = before.ledger.receipts ++ [r] ∧ Recorded d r ∧
      after.ledger.establishedCapabilities =
        before.ledger.establishedCapabilities ++ r.providedCapabilities
  goes : status = .ok → Going (done ++ [d]) after.ledger

theorem receiptFor_recorded {result : StageResult}
    (outcome : declaredOutcome d result.result = some declared)
    (perm : result.provided.Perm declared) : Recorded d (receiptFor ledger d result status) :=
  ⟨rfl, declared, outcome, perm⟩

theorem executeStage_step (going : Going done run.ledger) (next : Follows done d) :
    StageStep done d run (executeStage run d).1 (executeStage run d).2 := by
  have missing_iff := @requirementsMissing_eq_none _ run.ledger _ next.formed
  unfold executeStage
  dsimp only
  cases missing : requirementsMissing run.ledger d with
  | some c =>
    cases needed : d.required with
    | true =>
      exact ⟨⟨⟨rfl, rfl, rfl, rfl⟩, rfl⟩, .inl rfl, .inl ⟨rfl, rfl⟩, nofun⟩
    | false =>
      have append := @appendReceipt_eq _ _ _ _ going next (bootStageResultSkip d) _ rfl
        (.refl _) .optionalStageSkipped
      rw [append]
      refine ⟨⟨⟨rfl, rfl, rfl, rfl⟩, rfl⟩, .inl rfl, .inr ⟨_, rfl,
        receiptFor_recorded rfl (.refl _), rfl⟩, fun _ => ?_⟩
      refine going.appended next ⟨receiptFor_recorded rfl (.refl _), rfl, rfl,
        Nat.zero_le _, ?_, fun run => absurd rfl run⟩
      rw [needed]
      nofun
  | none => ?_
  have ready := missing_iff.mp missing
  obtain ⟨execute, function⟩ := Option.isSome_iff_exists.mp next.formed.execute
  simp only [callStage, function]
  -- Whatever the function returns, `record` says what happens to it.
  generalize execute { run.context with stageFailureDetail := none } bootStageResultFail = returned
  obtain invalid | valid := recordResult_cases going next returned.2
  · obtain ⟨-, refusal, result⟩ := invalid
    rw [result]
    exact ⟨⟨⟨rfl, rfl, rfl, rfl⟩, rfl⟩, .inr ⟨_, rfl, ready⟩, .inl ⟨rfl, rfl⟩,
      fun ok => absurd ok refusal.refused⟩
  obtain stopped | ⟨valid, ran, status, named, result⟩ := valid
  · obtain ⟨valid, -, -, status, refusal, result⟩ := stopped
    obtain ⟨-, -, declared, outcome, perm⟩ := (validateResult_ok next.formed).mp valid
    rw [result]
    exact ⟨⟨⟨rfl, rfl, rfl, rfl⟩, rfl⟩, .inr ⟨_, rfl, ready⟩, .inr ⟨_, rfl,
      receiptFor_recorded outcome perm, rfl⟩, fun ok => absurd ok refusal.refused⟩
  obtain ⟨-, counters, declared, outcome, perm⟩ :=
    (validateResult_ok next.formed).mp valid
  rw [result]
  refine ⟨⟨⟨rfl, rfl, rfl, rfl⟩, rfl⟩, .inr ⟨_, rfl, ready⟩, .inr ⟨_, rfl,
    receiptFor_recorded outcome perm, rfl⟩, fun _ => ?_⟩
  refine going.appended next ⟨receiptFor_recorded outcome perm, rfl, named, counters,
    ran, fun _ c required => ?_⟩
  rw [← going.established]
  exact ready c required

end

structure Safe (stages : List (StageDescriptor σ)) (run : Execution σ) : Prop where
  established : run.ledger.establishedCapabilities = mintedBy run.ledger.receipts
  recorded : ∀ (i : Nat) (r : StageReceipt), run.ledger.receipts[i]? = some r →
    ∃ d, stages[i]? = some d ∧ Recorded d r
  order : (run.calls.map (·.stage)).Sublist (stages.map (·.id))
  calls : ∀ call ∈ run.calls, ∃ before d after, stages = before ++ d :: after ∧
    call.stage = d.id ∧ (∀ c ∈ d.requiredCapabilities, c ∈ call.established) ∧
    call.established = mintedBy (run.ledger.receipts.take before.length) ∧
    ∀ e ∈ before, e.required →
      ∃ r ∈ run.ledger.receipts, r.stageId = e.id ∧ r.result = .ran

theorem getElem?_concat {α : Type} {xs : List α} {x y : α} {i : Nat} :
    (xs ++ [x])[i]? = some y ↔ xs[i]? = some y ∨ i = xs.length ∧ x = y := by
  obtain low | rfl | high := Nat.lt_trichotomy i xs.length
  · simp [List.getElem?_append_left low, low.ne]
  · simp
  · rw [getElem?_eq_none (by simp; omega), getElem?_eq_none high.le]
    simp [high.ne']

theorem History.recorded (history : History ds rs) {i : Nat} (here : rs[i]? = some r) :
    ∃ d, ds[i]? = some d ∧ Accepted d (rs.take i) r := by
  induction history with
  | nil => simp at here
  | @add ds rs d r' history accepted ih =>
    obtain old | ⟨rfl, rfl⟩ := getElem?_concat.mp here
    · obtain ⟨e, there, accepted⟩ := ih old
      refine ⟨e, getElem?_concat.mpr (.inl there), ?_⟩
      rw [List.take_append_of_le_length (List.getElem?_eq_some_iff.mp old).1.le]
      exact accepted
    · refine ⟨d, getElem?_concat.mpr (.inr ⟨history.length, rfl⟩), ?_⟩
      rw [take_left]
      exact accepted

theorem History.required_ran (history : History ds rs) {e : StageDescriptor σ} (member : e ∈ ds)
    (needed : e.required) : ∃ r ∈ rs, r.stageId = e.id ∧ r.result = .ran := by
  obtain ⟨i, here⟩ := List.mem_iff_getElem?.mp member
  have bound := (List.getElem?_eq_some_iff.mp here).1
  have inside : i < rs.length := history.length ▸ bound
  obtain ⟨d, there, accepted⟩ := history.recorded (List.getElem?_eq_getElem inside)
  obtain rfl := Option.some.inj (there.symm.trans here)
  exact ⟨_, getElem_mem inside, accepted.stage, accepted.required needed⟩

/-- More stages to come change nothing. -/
theorem Safe.append {stages : List (StageDescriptor σ)} (safe : Safe stages run)
    (rest : List (StageDescriptor σ)) : Safe (stages ++ rest) run := by
  refine ⟨safe.established, ?_, ?_, ?_⟩
  · intro i r here
    obtain ⟨d, there, recorded⟩ := safe.recorded i r here
    refine ⟨d, ?_, recorded⟩
    rw [List.getElem?_append_left (List.getElem?_eq_some_iff.mp there).1]
    exact there
  · rw [List.map_append]
    exact safe.order.trans (sublist_append_left _ _)
  · intro call member
    obtain ⟨before, d, after, rfl, facts⟩ := safe.calls call member
    exact ⟨before, d, after ++ rest, by simp, facts⟩

theorem Safe.step {done : List (StageDescriptor σ)} {before after : Execution σ}
    (safe : Safe done before) (going : Going done before.ledger)
    (step : StageStep done d before status after) : Safe (done ++ [d]) after := by
  have length := going.history.length
  have old := safe.append [d]
  have grown : ∃ new, after.ledger.receipts = before.ledger.receipts ++ new := by
    obtain ⟨same, -⟩ | ⟨r, added, -⟩ := step.receipts
    · exact ⟨[], by rw [same, append_nil]⟩
    · exact ⟨[r], added⟩
  obtain ⟨new, receipts⟩ := grown
  have keep : ∀ {r : StageReceipt}, r ∈ before.ledger.receipts → r ∈ after.ledger.receipts := by
    intro r member
    rw [receipts]
    exact mem_append_left _ member
  refine ⟨?_, ?_, ?_, ?_⟩
  · obtain ⟨same, established⟩ | ⟨r, added, -, established⟩ := step.receipts
    · rw [established, same, safe.established]
    · rw [established, added, going.established, mintedBy_concat]
  · intro i r here
    obtain ⟨same, -⟩ | ⟨r', added, recorded, -⟩ := step.receipts
    · exact old.recorded i r (same ▸ here)
    rw [added, getElem?_concat] at here
    obtain here | ⟨rfl, rfl⟩ := here
    · exact old.recorded i r here
    · exact ⟨d, getElem?_concat.mpr (.inr ⟨length, rfl⟩), recorded⟩
  · obtain same | ⟨result, calls, -⟩ := step.calls
    · rw [same]
      exact old.order
    · simp only [calls, List.map_append]
      exact safe.order.append (.refl _)
  · intro call member
    have place : call ∈ before.calls ∨
        ∃ result, call = ⟨d.id, before.ledger.establishedCapabilities, result⟩ ∧
          ∀ c ∈ d.requiredCapabilities, c ∈ before.ledger.establishedCapabilities := by
      obtain same | ⟨result, calls, ready⟩ := step.calls
      · exact .inl (same ▸ member)
      · rw [calls, mem_append, mem_singleton] at member
        exact member.imp_right fun last => ⟨result, last, ready⟩
    obtain earlier | ⟨result, rfl, ready⟩ := place
    · obtain ⟨first, e, rest, stages, stage, requirements, snapshot, ran⟩ := old.calls call earlier
      have short := congrArg List.length stages
      simp only [length_append, length_cons, length_nil] at short
      refine ⟨first, e, rest, stages, stage, requirements, ?_, fun x inside needed => ?_⟩
      · rw [receipts, List.take_append_of_le_length (by omega)]
        exact snapshot
      · obtain ⟨r, there, facts⟩ := ran x inside needed
        exact ⟨r, keep there, facts⟩
    · refine ⟨done, d, [], rfl, rfl, ready, ?_, fun x inside needed => ?_⟩
      · rw [receipts, List.take_append_of_le_length (by omega), ← length, take_length]
        exact going.established
      · obtain ⟨r, there, facts⟩ := going.history.required_ran inside needed
        exact ⟨r, keep there, facts⟩

structure Sequence (stages : List (StageDescriptor σ)) : Prop where
  formed : ∀ d ∈ stages, d.WellFormed
  exclusive : stages.Pairwise Exclusive
  count : stages.length ≤ bootLedgerReceiptCapacity

theorem Sequence.follows {done rest : List (StageDescriptor σ)}
    (sequence : Sequence (done ++ d :: rest)) : Follows done d := by
  refine ⟨sequence.formed d (by simp), ?_, ?_⟩
  · intro e member
    exact (pairwise_append.mp sequence.exclusive).2.2 e member d mem_cons_self
  · have := sequence.count
    rw [length_append, length_cons] at this
    omega

theorem executePlan_cons (d : StageDescriptor σ) (rest : List (StageDescriptor σ × Nat))
    (run : Execution σ) : executePlan ((d, d.id) :: rest) run =
      if (executeStage run d).1 ≠ .ok then executeStage run d
      else executePlan rest (executeStage run d).2 := by
  rw [executePlan, if_neg (fun h => h rfl)]

/-- The loop of `boot_ledger_execute`, from a plan that went through `done`. -/
theorem executePlan_safe (done rest : List (StageDescriptor σ))
    (sequence : Sequence (done ++ rest)) (going : Going done run.ledger) (safe : Safe done run) :
    let result := executePlan (rest.map fun d => (d, d.id)) run
    Unsealed run.ledger result.2.ledger ∧ Safe (done ++ rest) result.2 ∧
      (result.1 = .ok → Going (done ++ rest) result.2.ledger) := by
  induction rest generalizing done run with
  | nil =>
    rw [append_nil]
    exact ⟨⟨⟨rfl, rfl, rfl, rfl⟩, rfl⟩, safe, fun _ => going⟩
  | cons d rest ih =>
    have shape : done ++ d :: rest = (done ++ [d]) ++ rest := by simp
    have step := executeStage_step going sequence.follows
    have safe' := safe.step going step
    rw [map_cons, executePlan_cons, shape]
    by_cases ok : (executeStage run d).1 = .ok
    · rw [if_neg (not_not.mpr ok)]
      obtain ⟨plan, facts⟩ := ih _ (shape ▸ sequence) (step.goes ok) safe'
      exact ⟨step.plan.trans plan, facts⟩
    · rw [if_pos ok]
      exact ⟨step.plan, safe'.append rest, fun h => absurd h ok⟩

section
variable {ledger : BootLedger σ}

def orderedStages (ledger : BootLedger σ) : List (StageDescriptor σ) :=
  ledger.canonicalOrder.map ledger.descriptorAt

section
variable (validated : Validated ledger)
include validated

theorem Validated.plannedStages_eq :
    plannedStages ledger = (orderedStages ledger).map fun d => (d, d.id) := by
  rw [plannedStages, validated.stageIds, orderedStages, map_map, zip_map']
  rfl

theorem Validated.stageIds_eq : ledger.validatedStageIds = (orderedStages ledger).map (·.id) := by
  rw [validated.stageIds, orderedStages, map_map]
  rfl

theorem Validated.perm : (orderedStages ledger).Perm ledger.descriptors := by
  have order := (validated.plan.perm validated.complete).map ledger.descriptorAt
  have all : (List.range ledger.descriptors.length).map ledger.descriptorAt =
      ledger.descriptors := by
    apply ext_getElem?
    intro i
    rw [getElem?_map]
    by_cases bound : i < ledger.descriptors.length
    · rw [getElem?_range bound, Option.map_some, descriptorAt_getElem? bound]
    · rw [getElem?_eq_none (by simpa using bound), getElem?_eq_none (by omega),
        Option.map_none]
  rwa [all] at order

theorem Validated.sequence : Sequence (orderedStages ledger) := by
  have perm := validated.perm
  refine ⟨?_, ?_, ?_⟩
  · intro d member
    exact validated.plannable.wellFormed d (perm.mem_iff.mp member)
  · exact (perm.pairwise_iff fun h => Std.Symm.symm _ _ h).mpr validated.plannable.exclusive
  · rw [perm.length_eq]
    exact validated.count

theorem Validated.stageIds_nodup :
    ledger.validatedStageIds.Nodup := by
  rw [validated.stageIds_eq]
  exact ((validated.perm.map _).nodup_iff).mpr validated.plannable.stages

theorem Validated.unique {e : StageDescriptor σ}
    (first : d ∈ ledger.descriptors) (second : e ∈ ledger.descriptors) (same : d.id = e.id) :
    d = e :=
  inj_on_of_nodup_map validated.plannable.stages first second same

end

def afterStages (ledger : BootLedger σ) (context : BootContext σ) (k : Nat) : Execution σ :=
  (executePlan ((plannedStages ledger).take k) ⟨beginExecution ledger, context, []⟩).2

theorem going_begin (ledger : BootLedger σ) : Going [] (beginExecution ledger) :=
  ⟨.nil, rfl, nodup_nil, nofun, nofun⟩

theorem safe_begin (ledger : BootLedger σ) (context : BootContext σ) :
    Safe [] ⟨beginExecution ledger, context, []⟩ :=
  ⟨rfl, fun i r here => by simp [beginExecution] at here, .refl _, nofun⟩

theorem Validated.afterStages_safe (validated : Validated ledger) (context : BootContext σ)
    (k : Nat) : Safe (orderedStages ledger) (afterStages ledger context k) := by
  have split := take_append_drop k (orderedStages ledger)
  have sequence : Sequence ((orderedStages ledger).take k) := by
    have all := validated.sequence
    exact ⟨fun d member => all.formed d (mem_of_mem_take member),
      all.exclusive.sublist (take_sublist _ _),
      le_trans ((take_sublist _ _).length_le) all.count⟩
  have safe := (executePlan_safe [] _ sequence (going_begin ledger) (safe_begin ledger context)).2.1
  rw [map_take, ← validated.plannedStages_eq, nil_append] at safe
  rw [← split]
  exact safe.append _

/-- What `boot_ledger_execute` leaves after the loop is what the loop left. -/
theorem Validated.execute_eq (validated : Validated ledger) (context : BootContext σ) :
    let finished := executePlan (plannedStages ledger) ⟨beginExecution ledger, context, []⟩
    bootLedgerExecute ledger context =
      if finished.1 ≠ .ok then finished
      else (.ok, { finished.2 with
        ledger := { finished.2.ledger with
          fingerprint := fingerprintReceipts finished.2.ledger
          executed := true
          status := .ok } }) := by
  rw [bootLedgerExecute, validated.validated, validated.executed, if_neg (by simp),
    if_neg (by simp), if_neg (not_not.mpr validated.planFingerprint.symm)]

theorem Safe.receipts_prefix (validated : Validated ledger)
    (safe : Safe (orderedStages ledger) run) :
    (run.ledger.receipts.map (·.stageId)) <+: ledger.validatedStageIds := by
  rw [prefix_iff_getElem?]
  intro i bound
  rw [length_map] at bound
  obtain ⟨d, here, recorded⟩ := safe.recorded i _ (List.getElem?_eq_getElem bound)
  rw [validated.stageIds_eq, getElem?_map, here, getElem_map, recorded.stage,
    Option.map_some]

/-- A capability is established by a receipt of the one stage that declares it. -/
theorem Safe.minted (validated : Validated ledger) (safe : Safe (orderedStages ledger) run)
    (member : c ∈ run.ledger.establishedCapabilities) :
    ∃ r ∈ run.ledger.receipts, ∃ d ∈ ledger.descriptors, r.stageId = d.id ∧
      c ∈ r.providedCapabilities ∧ (∀ e ∈ ledger.descriptors, e.Declares c → e = d) ∧
      ((r.result = .ran ∧ c ∈ d.providedCapabilities) ∨
        (r.result = .skipped ∧ c ∈ d.skippedCapabilities)) := by
  rw [safe.established, mintedBy, mem_flatMap] at member
  obtain ⟨r, inside, minted⟩ := member
  obtain ⟨i, here⟩ := List.mem_iff_getElem?.mp inside
  obtain ⟨d, there, recorded⟩ := safe.recorded i r here
  obtain ⟨declared, outcome, perm⟩ := recorded.outcome
  have minted' := perm.mem_iff.mp minted
  have planned : d ∈ ledger.descriptors :=
    validated.perm.mem_iff.mp (mem_of_getElem? there)
  refine ⟨r, inside, d, planned, recorded.stage, minted, ?_, mem_declaredOutcome outcome minted'⟩
  intro e other also
  by_contra different
  exact validated.plannable.exclusive.forall other planned different c also
    (declaredOutcome_declares outcome minted')

theorem Safe.failed (safe : Safe (orderedStages ledger) run) (member : r ∈ run.ledger.receipts)
    (failed : r.result = .failed) : r.providedCapabilities = [] := by
  obtain ⟨i, here⟩ := List.mem_iff_getElem?.mp member
  obtain ⟨d, -, recorded⟩ := safe.recorded i r here
  obtain ⟨declared, outcome, perm⟩ := recorded.outcome
  rw [failed] at outcome
  obtain rfl := Option.some.inj outcome
  exact perm.eq_nil

/-- When a stage function is called, the required stages before it have run. -/
theorem Safe.required_before (validated : Validated ledger)
    (safe : Safe (orderedStages ledger) run) {call : StageCall} (member : call ∈ run.calls)
    {before after : List Nat} (split : ledger.validatedStageIds = before ++ call.stage :: after)
    (planned : d ∈ ledger.descriptors) (needed : d.required) (earlier : d.id ∈ before) :
    ∃ r ∈ run.ledger.receipts, r.stageId = d.id ∧ r.result = .ran := by
  obtain ⟨first, e, rest, stages, stage, -, -, ran⟩ := safe.calls call member
  have ids : ledger.validatedStageIds = first.map (·.id) ++ call.stage :: rest.map (·.id) := by
    rw [validated.stageIds_eq, stages, List.map_append, map_cons, stage]
  -- The stage has one place in the plan, so both splits are the same.
  have once := validated.stageIds_nodup
  rw [split, nodup_append, nodup_cons] at once
  rw [split] at ids
  have same : before = first.map (·.id) :=
    ((append_cons_inj_of_notMem (fun inside => once.2.2 _ inside _ mem_cons_self rfl)
      once.2.1.1).mp ids).1
  rw [same] at earlier
  obtain ⟨x, inside, equal⟩ := mem_map.mp earlier
  have there : x ∈ ledger.descriptors := by
    refine validated.perm.mem_iff.mp ?_
    rw [stages]
    exact mem_append_left _ inside
  obtain rfl := validated.unique there planned equal
  exact ran x inside needed

/-- The finished execution is the one after all planned stages. -/
theorem Validated.execute_after (validated : Validated ledger) (context : BootContext σ) :
    let finished := (bootLedgerExecute ledger context).2
    let last := afterStages ledger context ledger.canonicalOrder.length
    finished.calls = last.calls ∧ finished.ledger.receipts = last.ledger.receipts ∧
      finished.ledger.establishedCapabilities = last.ledger.establishedCapabilities := by
  have all : (plannedStages ledger).take ledger.canonicalOrder.length = plannedStages ledger := by
    apply take_of_length_le
    rw [validated.plannedStages_eq, orderedStages, length_map, length_map]
  rw [validated.execute_eq, afterStages, all]
  split <;> exact ⟨rfl, rfl, rfl⟩

/-- An execution of a validated plan never outruns the capabilities established. -/
theorem boot_ledger_execute_within_capabilities {ledger : BootLedger σ}
    (ok : (bootLedgerValidate ledger).1 = .ok) (context : BootContext σ) :
    let plan := (bootLedgerValidate ledger).2
    plan.validatedStageIds.Nodup ∧
    (∀ k, let run := afterStages plan context k
      (∀ call ∈ run.calls, ∀ d ∈ plan.descriptors, d.id = call.stage →
        ∀ c ∈ d.requiredCapabilities, c ∈ call.established) ∧
      (run.calls.map (·.stage)).Sublist plan.validatedStageIds ∧
      (run.ledger.receipts.map (·.stageId)) <+: plan.validatedStageIds ∧
      (∀ c ∈ run.ledger.establishedCapabilities, ∃ r ∈ run.ledger.receipts,
        ∃ d ∈ plan.descriptors, r.stageId = d.id ∧ c ∈ r.providedCapabilities ∧
          (∀ e ∈ plan.descriptors, e.Declares c → e = d) ∧
          ((r.result = .ran ∧ c ∈ d.providedCapabilities) ∨
            (r.result = .skipped ∧ c ∈ d.skippedCapabilities))) ∧
      (∀ r ∈ run.ledger.receipts, r.result = .failed → r.providedCapabilities = []) ∧
      (∀ call ∈ run.calls, ∀ before after,
        plan.validatedStageIds = before ++ call.stage :: after →
        ∀ d ∈ plan.descriptors, d.required = true → d.id ∈ before →
          ∃ r ∈ run.ledger.receipts, r.stageId = d.id ∧ r.result = .ran)) ∧
    let finished := (bootLedgerExecute plan context).2
    let last := afterStages plan context plan.canonicalOrder.length
    finished.calls = last.calls ∧ finished.ledger.receipts = last.ledger.receipts ∧
      finished.ledger.establishedCapabilities = last.ledger.establishedCapabilities := by
  obtain ⟨-, outcome⟩ := bootLedgerValidate_cases ledger
  obtain ⟨-, validated⟩ := outcome.resolve_right fun h => h.1 ok
  refine ⟨validated.stageIds_nodup, fun k => ?_, validated.execute_after context⟩
  have safe := validated.afterStages_safe context k
  refine ⟨?_, ?_, safe.receipts_prefix validated, fun c => safe.minted validated,
    fun r => safe.failed, ?_⟩
  · intro call member d planned same
    obtain ⟨before, e, after, stages, stage, requirements, -⟩ := safe.calls call member
    have there : e ∈ (bootLedgerValidate ledger).2.descriptors := by
      refine validated.perm.mem_iff.mp ?_
      rw [stages]
      exact mem_append_right _ mem_cons_self
    obtain rfl := validated.unique planned there (same.trans stage)
    exact requirements
  · rw [validated.stageIds_eq]
    exact safe.order
  · intro call member before after split d planned needed earlier
    exact safe.required_before validated member split planned needed earlier

/-- Both stages of the small plan are called, early serial first. -/
theorem boot_ledger_execute_two_stages :
    (bootLedgerValidate twoStageLedger).1 = .ok ∧
      ((bootLedgerExecute (bootLedgerValidate twoStageLedger).2 ⟨none, ()⟩).2.calls.map
        (·.stage)) = [1, 4] ∧
      (afterStages (bootLedgerValidate twoStageLedger).2 ⟨none, ()⟩ 2).ledger.receipts.map
        (·.stageId) <+: (bootLedgerValidate twoStageLedger).2.validatedStageIds := by
  have ok : (bootLedgerValidate twoStageLedger).1 = .ok := by decide
  have safe := boot_ledger_execute_within_capabilities ok ⟨none, ()⟩
  refine ⟨ok, ?_, (safe.2.1 2).2.2.1⟩
  rw [safe.2.2.1]
  decide

end

end Sapote.Ledger
