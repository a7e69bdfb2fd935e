import Sapote.Ledger.Execution

/-!
`verify_receipt_set` replays the receipts with checks of its own. On the plan of a
validated ledger it accepts exactly the histories an execution can leave.
-/

namespace Sapote.Ledger
open Library List
variable {σ : Type} {r r' : StageReceipt} {result : ReceiptResult} {status : LedgerStatus}
  {rs : List StageReceipt}

section
variable {ds : List (StageDescriptor σ)} {rs : List StageReceipt}

theorem History.last {d : StageDescriptor σ} (history : History (ds ++ [d]) (rs ++ [r])) :
    History ds rs ∧ Accepted d rs r := by
  generalize stages : ds ++ [d] = stages' at history
  generalize receipts : rs ++ [r] = receipts' at history
  cases history with
  | nil => simp at stages
  | add history accepted =>
    obtain ⟨rfl, last⟩ := append_inj' stages rfl
    obtain ⟨rfl, final⟩ := append_inj' receipts rfl
    obtain rfl := singleton_inj.mp last
    obtain rfl := singleton_inj.mp final
    exact ⟨history, accepted⟩

theorem History.initial {ds' : List (StageDescriptor σ)} {rs' : List StageReceipt}
    (length : rs.length = ds.length) (history : History (ds ++ ds') (rs ++ rs')) :
    History ds rs := by
  induction ds' using List.reverseRecOn generalizing rs' with
  | nil =>
    have same := history.length
    rw [append_nil, length_append] at same
    obtain rfl := length_eq_zero_iff.mp (show rs'.length = 0 by omega)
    simpa using history
  | append_singleton ds' d ih =>
    cases rs' using List.reverseRecOn with
    | nil =>
      have same := history.length
      simp at same
      omega
    | append_singleton rs' r =>
      simp only [← append_assoc] at history
      exact ih history.last.1

variable {d : StageDescriptor σ} {capabilities : List Nat}

theorem verifyProvided_eq_ok {declared earlier rest result : List Nat}
    (collected : ∀ c ∈ earlier, c ∈ capabilities) (once : capabilities.Nodup)
    (known : ∀ c ∈ capabilities, capabilityIsKnown c) :
    verifyProvided d declared earlier rest capabilities = .ok result ↔
      (∀ c ∈ rest, capabilityIsKnown c ∧ c ∈ declared) ∧
        (capabilities ++ rest).Nodup ∧ result = capabilities ++ rest := by
  induction rest generalizing earlier capabilities with
  | nil =>
    rw [verifyProvided, Except.ok.injEq, append_nil]
    simp [once, eq_comm (a := capabilities)]
  | cons c rest ih =>
    have shape : capabilities ++ c :: rest = (capabilities ++ [c]) ++ rest := by simp
    have continued := fun (fresh : c ∉ capabilities) (valid : capabilityIsKnown c) =>
      @ih (capabilities ++ [c]) (earlier ++ [c])
        (forall_mem_append.mpr ⟨fun x old => mem_append_left _ (collected x old), by simp⟩)
        (concat_eq_append ▸ once.concat fresh)
        (forall_mem_append.mpr ⟨known, by simp [valid]⟩)
    simp only [verifyProvided, guard_eq_ok, Bool.not_eq_true', Bool.not_eq_false,
      contains_iff_mem, shape, forall_mem_cons]
    constructor
    · rintro ⟨valid, named, -, fresh, -, provided⟩
      obtain ⟨others, distinct, rfl⟩ := (continued fresh valid).mp provided
      exact ⟨⟨⟨valid, named⟩, others⟩, distinct, rfl⟩
    · rintro ⟨⟨⟨valid, named⟩, others⟩, distinct, rfl⟩
      have fresh : c ∉ capabilities := fun old =>
        (nodup_append.mp (shape ▸ distinct)).2.2 c old c mem_cons_self rfl
      exact ⟨valid, named, fun old => fresh (collected c old), fresh,
        not_le.mpr (known_length_lt once known),
        (continued fresh valid).mpr ⟨others, distinct, rfl⟩⟩

theorem declaredOutcome_of_status (named : receiptStatus result = some status) :
    ∃ declared, declaredOutcome d result = some declared := by
  cases result with
  | ran => exact ⟨_, rfl⟩
  | skipped => exact ⟨_, rfl⟩
  | failed => exact ⟨_, rfl⟩
  | other excess => cases named

theorem declaredOutcome_length (formed : d.WellFormed) {declared : List Nat}
    (here : declaredOutcome d result = some declared) :
    declared.length ≤ bootStageCapabilityCapacity := by
  cases result with
  | ran => exact Option.some.inj here ▸ formed.providedCount
  | skipped => exact Option.some.inj here ▸ formed.skippedCount
  | failed => exact Option.some.inj here ▸ Nat.zero_le _
  | other excess => cases here

/-- One turn of the replay, after capabilities that the stage does not declare. -/
theorem verifyReceipt_eq_ok (formed : d.WellFormed) (once : capabilities.Nodup)
    (known : ∀ c ∈ capabilities, capabilityIsKnown c)
    (apart : ∀ c ∈ capabilities, ¬d.Declares c) {r : StageReceipt} {result : List Nat} :
    verifyReceipt r d capabilities = .ok result ↔
      (∃ declared, declaredOutcome d r.result = some declared ∧
        r.providedCapabilities.Perm declared) ∧
      receiptStatus r.result = some r.status ∧
      r.proofCounters.length ≤ bootStageProofCounterCapacity ∧
      (d.required → r.result = .ran) ∧
      (r.result ≠ .skipped → ∀ c ∈ d.requiredCapabilities, c ∈ capabilities) ∧
      result = capabilities ++ r.providedCapabilities := by
  have stops : receiptStatus r.result = some r.status →
      ((d.required ∧ (r.result ≠ .ran ∨ r.status ≠ .ok)) ↔
        ¬(d.required → r.result = .ran)) := by
    intro named
    rw [Classical.not_imp]
    apply and_congr_right
    refine fun _ => ⟨fun h => h.elim id fun other ran => other ?_, .inl⟩
    rw [ran] at named
    exact (Option.some.inj named).symm
  have lacking : (if r.result ≠ .skipped then d.requiredCapabilities.find? fun c =>
        !capabilities.contains c else none) = none ↔
      (r.result ≠ .skipped → ∀ c ∈ d.requiredCapabilities, c ∈ capabilities) := by
    by_cases skipped : r.result = .skipped
    · simp [skipped]
    · simp [skipped]
  simp only [verifyReceipt, guard_eq_ok, not_or, not_not, not_lt]
  constructor
  · rintro ⟨⟨-, counters, named⟩, runs, accepted⟩
    obtain ⟨declared, outcome⟩ := declaredOutcome_of_status (d := d) named
    split at accepted
    · cases accepted
    next met =>
    rw [outcome, Option.getD_some, guard_eq_ok, not_not] at accepted
    obtain ⟨length, accepted⟩ := accepted
    split at accepted
    · cases accepted
    next collected provided =>
    split at accepted
    · cases accepted
    · next complete =>
      obtain ⟨-, -, rfl⟩ :=
        (verifyProvided_eq_ok (forall_mem_nil _) once known).mp provided
      have perm := perm_of_mutual (declaredOutcome_nodup formed outcome) length
        (find?_not_contains.mp complete)
      exact ⟨⟨declared, outcome, perm⟩, named, counters,
        not_not.mp fun h => runs ((stops named).mpr h), lacking.mp met,
        (Except.ok.inj accepted).symm⟩
  · rintro ⟨⟨declared, outcome, perm⟩, named, counters, ran, ready, rfl⟩
    have own : ∀ c ∈ r.providedCapabilities, d.Declares c := fun c member =>
      declaredOutcome_declares outcome (perm.mem_iff.mp member)
    have disjoint : (capabilities ++ r.providedCapabilities).Nodup := by
      refine nodup_append.mpr ⟨once,
        perm.nodup_iff.mpr (declaredOutcome_nodup formed outcome), ?_⟩
      intro c old x new equal
      exact apart c old (equal ▸ own x new)
    have provided := (@verifyProvided_eq_ok _ d _ declared [] r.providedCapabilities _
      (forall_mem_nil _) once known).mpr
      ⟨fun c member => ⟨formed.outcomes c (own c member), perm.mem_iff.mp member⟩, disjoint, rfl⟩
    refine ⟨⟨perm.length_eq ▸ declaredOutcome_length formed outcome, counters, named⟩,
      fun stop => (stops named).mp stop ran, ?_⟩
    rw [lacking.mpr ready]
    simp only [outcome, Option.getD_some, ne_eq, perm.length_eq, not_true_eq_false, if_false,
      provided, find?_not_contains.mpr fun c member => perm.mem_iff.mpr member]

variable {ledger : BootLedger σ}

structure Replayable (ledger : BootLedger σ) : Prop where
  sequence : Sequence (orderedStages ledger)
  stages : ((orderedStages ledger).map (·.id)).Nodup
  inside : ∀ i ∈ ledger.canonicalOrder, i < ledger.descriptors.length

theorem Replayable.plannedStageAt (plan : Replayable ledger) (i : Nat) :
    bootLedgerPlannedStageAt ledger i = (orderedStages ledger)[i]? := by
  rw [bootLedgerPlannedStageAt, orderedStages, getElem?_map]
  cases here : ledger.canonicalOrder[i]? with
  | none => rfl
  | some index =>
    have bound := plan.inside index (mem_of_getElem? here)
    simp only [not_le.mpr bound, if_false, Option.map_some]

/-- What the receipts of a history establish, under the plan's exclusive outcomes. -/
theorem History.minted {ds : List (StageDescriptor σ)} (history : History ds rs)
    (formed : ∀ d ∈ ds, d.WellFormed) (exclusive : ds.Pairwise Exclusive) :
    Minted ds (mintedBy rs) := by
  induction history with
  | nil => exact ⟨nodup_nil, nofun, nofun⟩
  | add history accepted ih =>
    obtain ⟨before, last⟩ := forall_mem_append.mp formed
    obtain ⟨earlier, -, apart⟩ := pairwise_append.mp exclusive
    obtain ⟨declared, outcome, perm⟩ := accepted.outcome
    rw [mintedBy_concat]
    exact (ih before earlier).add (forall_mem_singleton.mp last)
      (fun e member => forall_mem_singleton.mp (apart e member)) outcome perm

/-- The replay accepts the receipts that continue the history. -/
theorem verifyReceipts_eq_ok (plan : Replayable ledger) {done rest : List (StageDescriptor σ)}
    {rs receipts : List StageReceipt} {seen result : List Nat}
    (stages : orderedStages ledger = done ++ rest) (history : History done rs)
    (ids : ∀ s, s ∈ seen ↔ s ∈ done.map (·.id)) (length : receipts.length = rest.length) :
    verifyReceipts ledger done.length seen (mintedBy rs) receipts = .ok result ↔
      History (done ++ rest) (rs ++ receipts) ∧ result = mintedBy (rs ++ receipts) := by
  induction receipts generalizing done rest rs seen with
  | nil =>
    obtain rfl := length_eq_zero_iff.mp (length.symm.trans rfl)
    simp only [verifyReceipts, Except.ok.injEq, append_nil]
    simp [history, eq_comm (a := mintedBy rs)]
  | cons r receipts ih =>
    cases rest with
    | nil => cases length
    | cons d rest => ?_
    have shape : done ++ d :: rest = (done ++ [d]) ++ rest := by simp
    have receipts_shape : rs ++ r :: receipts = (rs ++ [r]) ++ receipts := by simp
    have count := history.length
    have sequence := plan.sequence
    rw [stages] at sequence
    obtain ⟨formed, apart, -⟩ := sequence.follows
    obtain ⟨once, known, declared⟩ := history.minted
      (fun e member => sequence.formed e (mem_append_left _ member))
      (sequence.exclusive.sublist (sublist_append_left _ _))
    have outside : ∀ c ∈ mintedBy rs, ¬d.Declares c := by
      intro c member
      obtain ⟨e, there, declares⟩ := declared c member
      exact apart e there c declares
    have turn := fun result => @verifyReceipt_eq_ok _ _ _ formed once known outside r result
    have new : d.id ∉ done.map (·.id) := by
      have distinct := plan.stages
      rw [stages, map_append, map_cons] at distinct
      exact fun member => (nodup_append.mp distinct).2.2 _ member _ mem_cons_self rfl
    have stageAt : bootLedgerPlannedStageAt ledger done.length = some d := by
      rw [plan.plannedStageAt, stages, getElem?_append_right (Nat.le_refl _), Nat.sub_self]
      rfl
    have seen' : ∀ s, s ∈ d.id :: seen ↔ s ∈ (done ++ [d]).map (·.id) := by
      intro s
      rw [mem_cons, ids, map_append, mem_append, map_singleton,
        mem_singleton]
      exact or_comm
    have continued := fun accepted : Accepted d rs r =>
      ih (stages.trans shape) (history.add accepted) seen' (Nat.succ.inj length)
    rw [length_append, length_singleton] at continued
    rw [verifyReceipts, stageAt, shape, receipts_shape, guard_eq_ok]
    simp only [guard_eq_ok, not_or, not_not]
    constructor
    · rintro ⟨-, ⟨stage, order, -⟩, accepted⟩
      split at accepted
      · cases accepted
      next next own =>
        obtain ⟨outcome, status, counters, ran, ready, rfl⟩ := (turn next).mp own
        have good : Accepted d rs r := ⟨⟨stage, outcome⟩, by rw [order, count],
          status, counters, ran, ready⟩
        rw [← mintedBy_concat, stage] at accepted
        exact (continued good).mp accepted
    · intro replayed
      have good := (replayed.1.initial (by simp [count])).last.2
      have own := (turn (mintedBy (rs ++ [r]))).mpr ⟨good.outcome, good.status,
        good.counters, good.required, good.ready, mintedBy_concat⟩
      refine ⟨by simp [good.stage, formed.known], ⟨good.stage, by rw [good.sequence, count], ?_⟩, ?_⟩
      · rw [good.stage, contains_iff_mem, ids]
        exact new
      · rw [own, good.stage]
        exact (continued good).mpr replayed

/-- `verify_receipt_set` accepts the histories whose capabilities are the established ones. -/
theorem verifyReceiptSet_ok (plan : Replayable ledger) :
    (verifyReceiptSet ledger).1 = .ok ↔ History (orderedStages ledger) ledger.receipts ∧
      (mintedBy ledger.receipts).length = ledger.establishedCapabilities.length ∧
      ∀ c ∈ mintedBy ledger.receipts, bootLedgerHasCapability ledger c := by
  have total : (orderedStages ledger).length = ledger.canonicalOrder.length := by
    rw [orderedStages, length_map]
  rw [verifyReceiptSet]
  by_cases length : ledger.receipts.length = ledger.canonicalOrder.length
  swap
  · rw [if_pos length]
    refine iff_of_false (refuse_ne_ok _ _) fun accepted => length ?_
    rw [accepted.1.length, total]
  rw [if_neg (not_not.mpr length)]
  have replay := fun result => @verifyReceipts_eq_ok _ _ plan [] _ [] ledger.receipts []
    result rfl History.nil (fun s => by simp) (length.trans total.symm)
  cases outcome : verifyReceipts ledger 0 [] [] ledger.receipts with
  | error refusal =>
    refine iff_of_false refusal.refused fun accepted => ?_
    cases outcome.symm.trans ((replay _).mpr ⟨accepted.1, rfl⟩)
  | ok capabilities => ?_
  obtain ⟨history, rfl⟩ := (replay capabilities).mp outcome
  rw [nil_append] at history ⊢
  by_cases count : (mintedBy ledger.receipts).length = ledger.establishedCapabilities.length
  swap
  · simp only [ne_eq, count, not_false_eq_true, if_true]
    exact iff_of_false (refuse_ne_ok _ _) fun accepted => accepted.2.1.elim
  simp only [ne_eq, count, not_true_eq_false, if_false, true_and]
  cases lost : (mintedBy ledger.receipts).find? fun c =>
      !bootLedgerHasCapability ledger c with
  | some c =>
    refine iff_of_false (refuse_ne_ok _ _) fun accepted => ?_
    have present := accepted.2 c (mem_of_find?_eq_some lost)
    have absent := find?_some lost
    rw [present] at absent
    cases absent
  | none =>
    refine iff_of_true rfl ⟨history, fun c member => ?_⟩
    simpa using find?_eq_none.mp lost c member

theorem descriptorAt_congr {other : BootLedger σ} (same : ledger.descriptors = other.descriptors) :
    ledger.descriptorAt = other.descriptorAt := by
  funext i
  simp only [BootLedger.descriptorAt, same]

section
variable {plan : BootLedger σ} (descriptors : ledger.descriptors = plan.descriptors)
  (order : ledger.canonicalOrder = plan.canonicalOrder)
include descriptors order

theorem orderedStages_congr : orderedStages ledger = orderedStages plan := by
  simp only [orderedStages, order, descriptorAt_congr descriptors]

/-- The plan fields decide whether a ledger can be replayed. -/
theorem Validated.replayable (validated : Validated plan) : Replayable ledger := by
  have same := orderedStages_congr descriptors order
  refine ⟨same ▸ validated.sequence, ?_, ?_⟩
  · rw [same, ← validated.stageIds_eq]
    exact validated.stageIds_nodup
  · intro i member
    rw [descriptors]
    exact validated.plan.mem_nodes (order ▸ member)

end

end

/-- One field of one receipt changed; the capabilities as a set. -/
inductive Tampered (r : StageReceipt) : StageReceipt → Prop where
  | stageId {x : Nat} : x ≠ r.stageId → Tampered r { r with stageId := x }
  | sequence {x : Nat} : x ≠ r.sequence → Tampered r { r with sequence := x }
  | result {x : ReceiptResult} : x ≠ r.result → Tampered r { r with result := x }
  | status {x : LedgerStatus} : x ≠ r.status → Tampered r { r with status := x }
  | provided {l : List Nat} : ¬(∀ c, c ∈ l ↔ c ∈ r.providedCapabilities) →
      Tampered r { r with providedCapabilities := l }

theorem receiptStatus_injective {first second : ReceiptResult}
    (left : receiptStatus first = some status) (right : receiptStatus second = some status) :
    first = second := by
  cases first <;> cases second <;> simp_all [receiptStatus]
  all_goals subst left; cases right

/-- After the same receipts, a stage has no second acceptable receipt that differs in
one field. -/
theorem Accepted.not_tampered {d : StageDescriptor σ} (accepted : Accepted d rs r)
    (tampered : Tampered r r') : ¬Accepted d rs r' := by
  intro other
  cases tampered with
  | stageId differs => exact differs (other.stage.trans accepted.stage.symm)
  | sequence differs => exact differs (other.sequence.trans accepted.sequence.symm)
  | result differs => exact differs (receiptStatus_injective other.status accepted.status)
  | status differs =>
    exact differs (Option.some.inj (other.status.symm.trans accepted.status))
  | provided differs =>
    obtain ⟨declared, outcome, perm⟩ := accepted.outcome
    obtain ⟨declared', outcome', perm'⟩ := other.outcome
    obtain rfl := Option.some.inj (outcome.symm.trans outcome')
    exact differs fun c => perm'.mem_iff.trans perm.mem_iff.symm

theorem History.not_tampered {ds : List (StageDescriptor σ)} (history : History ds rs) {j : Nat}
    (here : rs[j]? = some r) (tampered : Tampered r r') : ¬History ds (rs.set j r') := by
  intro other
  have bound := (List.getElem?_eq_some_iff.mp here).1
  obtain ⟨d, there, accepted⟩ := history.recorded here
  obtain ⟨d', there', accepted'⟩ := other.recorded (List.getElem?_set_self bound)
  obtain rfl := Option.some.inj (there.symm.trans there')
  rw [take_set_of_le (le_refl j)] at accepted'
  exact accepted.not_tampered tampered accepted'

structure Executed (plan final : BootLedger σ) : Prop extends SamePlan plan final where
  executed : final.executed
  fingerprint : final.fingerprint = fingerprintReceipts final
  history : History (orderedStages plan) final.receipts
  established : final.establishedCapabilities = mintedBy final.receipts
  known : ∀ c ∈ final.establishedCapabilities, capabilityIsKnown c

theorem Validated.executed_of_ok {plan : BootLedger σ} (validated : Validated plan)
    {context : BootContext σ} (ok : (bootLedgerExecute plan context).1 = .ok) :
    Executed plan (bootLedgerExecute plan context).2.ledger := by
  have run := executePlan_safe [] (orderedStages plan) validated.sequence
    (going_begin plan) (safe_begin plan context)
  rw [← validated.plannedStages_eq, nil_append] at run
  rw [validated.execute_eq] at ok ⊢
  generalize executePlan (plannedStages plan) ⟨beginExecution plan, context, []⟩ = finished
    at run ok ⊢
  by_cases failed : finished.1 = .ok
  · rw [if_neg (not_not.mpr failed)]
    obtain ⟨same, -, goes⟩ := run
    have going := goes failed
    exact ⟨{ same with }, rfl, rfl, going.history, going.established, going.known⟩
  · rw [if_pos failed] at ok
    exact absurd ok failed

/-- The verifier accepts what the executor leaves, and notices any one change. -/
theorem verify_receipt_set_agrees_with_execution {ledger : BootLedger σ}
    (ok : (bootLedgerValidate ledger).1 = .ok) (context : BootContext σ)
    (executed : (bootLedgerExecute (bootLedgerValidate ledger).2 context).1 = .ok) :
    let final := (bootLedgerExecute (bootLedgerValidate ledger).2 context).2.ledger
    (verifyReceiptSet final).1 = .ok ∧ bootLedgerFingerprintValid final = true ∧
      ∀ (j : Nat) (r r' : StageReceipt), final.receipts[j]? = some r → Tampered r r' →
        (verifyReceiptSet { final with receipts := final.receipts.set j r' }).1 ≠ .ok := by
  obtain ⟨-, outcome⟩ := bootLedgerValidate_cases ledger
  obtain ⟨-, validated⟩ := outcome.resolve_right fun h => h.1 ok
  have facts := validated.executed_of_ok executed
  generalize (bootLedgerValidate ledger).2 = plan at executed validated facts ⊢
  generalize (bootLedgerExecute plan context).2.ledger = final at facts ⊢
  refine ⟨?_, ?_, ?_⟩
  · apply (verifyReceiptSet_ok (validated.replayable facts.descriptors facts.canonicalOrder)).mpr
    rw [orderedStages_congr facts.descriptors facts.canonicalOrder]
    refine ⟨facts.history, by rw [facts.established], fun c member => ?_⟩
    rw [← facts.established] at member
    rw [bootLedgerHasCapability, facts.known c member]
    simpa using member
  · rw [bootLedgerFingerprintValid, facts.validated, validated.validated, facts.executed,
      fingerprintPlan, facts.canonicalOrder, descriptorAt_congr facts.descriptors, ← fingerprintPlan,
      facts.planFingerprint, validated.planFingerprint, facts.fingerprint]
    simp
  · intro j r r' here tampered accepted
    have replayed := ((@verifyReceiptSet_ok _ { final with receipts := final.receipts.set j r' }
      (validated.replayable facts.descriptors facts.canonicalOrder)).mp accepted).1
    exact facts.history.not_tampered here tampered
      (orderedStages_congr facts.descriptors facts.canonicalOrder ▸ replayed)

/-- The small plan, executed: its receipts are accepted, and a changed sequence number
is noticed. -/
theorem verify_receipt_set_two_stages :
    let final := (bootLedgerExecute (bootLedgerValidate twoStageLedger).2 ⟨none, ()⟩).2.ledger
    (bootLedgerValidate twoStageLedger).1 = .ok ∧
      (bootLedgerExecute (bootLedgerValidate twoStageLedger).2 ⟨none, ()⟩).1 = .ok ∧
      (verifyReceiptSet final).1 = .ok ∧
      (verifyReceiptSet { final with
        receipts := final.receipts.set 0 ⟨1, 2, [1], .ok, .ran, []⟩ }).1 ≠ .ok := by
  have ok : (bootLedgerValidate twoStageLedger).1 = .ok := by decide
  have executed : (bootLedgerExecute (bootLedgerValidate twoStageLedger).2 ⟨none, ()⟩).1 = .ok := by
    decide +kernel
  have agrees := verify_receipt_set_agrees_with_execution ok ⟨none, ()⟩ executed
  refine ⟨ok, executed, agrees.1, agrees.2.2 0 ⟨1, 1, [1], .ok, .ran, []⟩ _ ?_ ?_⟩
  · decide +kernel
  · exact .sequence (r := ⟨1, 1, [1], .ok, .ran, []⟩) (x := 2) (by decide)

end Sapote.Ledger
