import Sapote.Ledger.Receipts

/-!
Declaration order is not policy: two ledgers that list the same stages in another
order, with their capability lists in another order, get the same plan, and stage
functions that answer alike get the same receipts.
-/

namespace Sapote.Ledger
open Library List
variable {σ τ : Type} {R : BootContext σ → BootContext τ → Prop}

variable {ds : List (StageDescriptor σ)} {es : List (StageDescriptor τ)} {d : StageDescriptor σ}

structure SameResult (r s : StageResult) : Prop where
  result : r.result = s.result
  provided : r.provided.Perm s.provided
  proofCounters : r.proofCounters = s.proofCounters

/-- Functions that answer alike in related contexts and leave related contexts. -/
def SameFunction (R : BootContext σ → BootContext τ → Prop) :
    Option (StageFunction σ) → Option (StageFunction τ) → Prop
  | some f, some g => ∀ c c', R c c' →
      R (f c bootStageResultFail).1 (g c' bootStageResultFail).1 ∧
        SameResult (f c bootStageResultFail).2 (g c' bootStageResultFail).2
  | none, none => True
  | _, _ => False

structure SameStage (R : BootContext σ → BootContext τ → Prop) (d : StageDescriptor σ)
    (e : StageDescriptor τ) : Prop where
  id : d.id = e.id
  name : d.name = e.name
  requiredCapabilities : d.requiredCapabilities.Perm e.requiredCapabilities
  providedCapabilities : d.providedCapabilities.Perm e.providedCapabilities
  skippedCapabilities : d.skippedCapabilities.Perm e.skippedCapabilities
  required : d.required = e.required
  skipPreservesHealth : d.skipPreservesHealth = e.skipPreservesHealth
  phase : d.phase = e.phase
  irreversibleClass : d.irreversibleClass = e.irreversibleClass
  execute : SameFunction R d.execute e.execute

def Reordered (R : BootContext σ → BootContext τ → Prop) (ds : List (StageDescriptor σ))
    (es : List (StageDescriptor τ)) : Prop :=
  ∃ l, ds.Perm l ∧ List.Forall₂ (SameStage R) l es

section
variable {d : StageDescriptor σ} {e : StageDescriptor τ}

theorem SameStage.declares (same : SameStage R d e) {c : Nat} : d.Declares c ↔ e.Declares c :=
  or_congr same.providedCapabilities.mem_iff same.skippedCapabilities.mem_iff

theorem SameFunction.isSome {f : Option (StageFunction σ)} {g : Option (StageFunction τ)}
    (same : SameFunction R f g) : f.isSome ↔ g.isSome := by
  cases f <;> cases g <;> first | exact .rfl | cases same

theorem SameResult.symm {r s : StageResult} (same : SameResult r s) : SameResult s r :=
  ⟨same.result.symm, same.provided.symm, same.proofCounters.symm⟩

theorem SameFunction.symm {f : Option (StageFunction σ)} {g : Option (StageFunction τ)}
    (same : SameFunction R f g) : SameFunction (flip R) g f := by
  cases f with
  | none =>
    cases g with
    | none => trivial
    | some g => cases same
  | some f =>
    cases g with
    | none => cases same
    | some g => exact fun c c' related => ⟨(same c' c related).1, (same c' c related).2.symm⟩

theorem SameStage.symm (same : SameStage R d e) : SameStage (flip R) e d :=
  ⟨same.id.symm, same.name.symm, same.requiredCapabilities.symm, same.providedCapabilities.symm,
    same.skippedCapabilities.symm, same.required.symm, same.skipPreservesHealth.symm,
    same.phase.symm, same.irreversibleClass.symm, same.execute.symm⟩

theorem SameStage.wellFormed (same : SameStage R d e) (formed : d.WellFormed) : e.WellFormed := by
  refine ⟨same.id ▸ formed.known, same.phase ▸ formed.phase,
    same.irreversibleClass ▸ formed.irreversible, same.name ▸ formed.name,
    same.execute.isSome.mp formed.execute,
    same.requiredCapabilities.length_eq ▸ formed.requiredCount,
    same.providedCapabilities.length_eq ▸ formed.providedCount,
    same.skippedCapabilities.length_eq ▸ formed.skippedCount, ?_, ?_,
    same.requiredCapabilities.nodup_iff.mp formed.requirementsOnce, ?_,
    same.providedCapabilities.nodup_iff.mp formed.providedOnce,
    same.skippedCapabilities.nodup_iff.mp formed.skippedOnce⟩
  · intro neutral
    obtain ⟨optional, nonempty⟩ := formed.neutral (same.skipPreservesHealth.trans neutral)
    refine ⟨same.required.symm.trans optional, fun empty => nonempty ?_⟩
    exact (empty ▸ same.skippedCapabilities).eq_nil
  · exact fun c member => formed.requirements c (same.requiredCapabilities.mem_iff.mpr member)
  · exact fun c declared => formed.outcomes c (same.declares.mpr declared)

end

structure Matching (R : BootContext σ → BootContext τ → Prop) (ds : List (StageDescriptor σ))
    (es : List (StageDescriptor τ)) : Prop where
  length : ds.length = es.length
  ids : (ds.map (·.id)).Perm (es.map (·.id))
  forth : ∀ d ∈ ds, ∃ e ∈ es, SameStage R d e
  back : ∀ e ∈ es, ∃ d ∈ ds, SameStage R d e

theorem matching_of_forall₂ (related : List.Forall₂ (SameStage R) ds es) : Matching R ds es := by
  induction related with
  | nil => exact ⟨rfl, .refl _, nofun, nofun⟩
  | @cons d e ds es same _ ih =>
    refine ⟨congrArg Nat.succ ih.length, ?_, ?_, ?_⟩
    · simp only [map_cons, same.id]
      exact ih.ids.cons _
    · exact forall_mem_cons.mpr ⟨⟨e, .head _, same⟩, fun x member =>
        (ih.forth x member).imp fun _ => .imp_left (.tail _)⟩
    · exact forall_mem_cons.mpr ⟨⟨d, .head _, same⟩, fun y member =>
        (ih.back y member).imp fun _ => .imp_left (.tail _)⟩

theorem Reordered.matching (same : Reordered R ds es) : Matching R ds es := by
  obtain ⟨l, perm, related⟩ := same
  have aligned := matching_of_forall₂ related
  refine ⟨perm.length_eq.trans aligned.length, (perm.map _).trans aligned.ids, ?_, ?_⟩
  · exact fun d member => aligned.forth d (perm.mem_iff.mp member)
  · exact fun e member => (aligned.back e member).imp fun _ => .imp_left perm.mem_iff.mpr

theorem Matching.symm (same : Matching R ds es) : Matching (flip R) es ds := by
  refine ⟨same.length.symm, same.ids.symm, ?_, ?_⟩
  · exact fun e member => (same.back e member).imp fun _ => .imp_right SameStage.symm
  · exact fun d member => (same.forth d member).imp fun _ => .imp_right SameStage.symm

section

def NeedsStage (ds : List (StageDescriptor σ)) (s t : Nat) : Prop :=
  ∃ d ∈ ds, ∃ e ∈ ds, d.id = s ∧ e.id = t ∧ ∃ c ∈ d.requiredCapabilities, e.Declares c

variable {ds : List (StageDescriptor σ)} {es : List (StageDescriptor τ)}

theorem Matching.needsStage (same : Matching R ds es) {s t : Nat} (need : NeedsStage ds s t) :
    NeedsStage es s t := by
  obtain ⟨d, member, p, there, rfl, rfl, c, required, declared⟩ := need
  obtain ⟨e, member', also⟩ := same.forth d member
  obtain ⟨q, there', alsoProvider⟩ := same.forth p there
  exact ⟨e, member', q, there', also.id.symm, alsoProvider.id.symm, c,
    also.requiredCapabilities.mem_iff.mp required, alsoProvider.declares.mp declared⟩

theorem Matching.needsStage_eq (same : Matching R ds es) : NeedsStage ds = NeedsStage es := by
  funext s t
  exact propext ⟨same.needsStage, same.symm.needsStage⟩

theorem needs_needsStage {i p : Nat} {e : StageDescriptor σ} (here : ds[i]? = some d)
    (there : ds[p]? = some e) (need : Needs ds i p) : NeedsStage ds d.id e.id := by
  obtain ⟨d', e', first, second, shared⟩ := need
  obtain rfl := Option.some.inj (first.symm.trans here)
  obtain rfl := Option.some.inj (second.symm.trans there)
  exact ⟨d', mem_of_getElem? here, e', mem_of_getElem? there, rfl, rfl, shared⟩

section
variable (stages : (ds.map (·.id)).Nodup)
include stages

/-- The place of a stage in a list of distinct stages. -/
theorem findIdx_of_id (member : d ∈ ds) : ds[ds.findIdx (·.id == d.id)]? = some d := by
  have bound : ds.findIdx (·.id == d.id) < ds.length :=
    findIdx_lt_length_of_exists ⟨d, member, by simp⟩
  have same : (ds[ds.findIdx (·.id == d.id)]).id = d.id := by
    simpa using findIdx_getElem (w := bound)
  rw [getElem?_eq_getElem bound]
  exact congrArg some (inj_on_of_nodup_map stages (getElem_mem bound) member same)

theorem acyclic_needsStage : Acyclic (Needs ds) ↔ Acyclic (NeedsStage ds) := by
  constructor
  · intro acyclic s cycle
    refine acyclic _ (cycle.lift (fun s => ds.findIdx (·.id == s)) ?_)
    rintro s t ⟨d, member, e, there, rfl, rfl, shared⟩
    exact ⟨d, e, findIdx_of_id stages member, findIdx_of_id stages there, shared⟩
  · intro acyclic i cycle
    refine acyclic _ (cycle.lift (fun i => (ds.getD i zeroDescriptor).id) ?_)
    rintro i p ⟨d, e, here, there, shared⟩
    change NeedsStage ds (ds.getD i zeroDescriptor).id (ds.getD p zeroDescriptor).id
    simp only [getD_eq_getElem?_getD, here, there]
    exact needs_needsStage here there ⟨d, e, here, there, shared⟩

theorem exclusive_iff :
    ds.Pairwise Exclusive ↔ ∀ d ∈ ds, ∀ e ∈ ds, d.id ≠ e.id → Exclusive d e := by
  constructor
  · intro exclusive d first e second different
    exact exclusive.forall first second fun same => different (congrArg _ same)
  · intro apart
    have distinct : ds.Pairwise fun d e => d.id ≠ e.id := pairwise_map.mp stages
    exact distinct.imp_of_mem fun first second different => apart _ first _ second different

end

theorem Matching.plannable (same : Matching R ds es) (sound : Plannable ds) : Plannable es := by
  have stages : (es.map (·.id)).Nodup := same.ids.nodup_iff.mp sound.stages
  refine ⟨?_, stages, (exclusive_iff stages).mpr ?_, ?_, ?_, ?_⟩
  · intro e member
    obtain ⟨d, there, also⟩ := same.back e member
    exact also.wellFormed (sound.wellFormed d there)
  · intro e first f second different c declared also
    obtain ⟨d, there, likewise⟩ := same.back e first
    obtain ⟨d', there', likewise'⟩ := same.back f second
    refine (exclusive_iff sound.stages).mp sound.exclusive d there d' there' ?_ c
      (likewise.declares.mpr declared) (likewise'.declares.mpr also)
    rw [likewise.id, likewise'.id]
    exact different
  · intro e member c required
    obtain ⟨d, there, likewise⟩ := same.back e member
    obtain ⟨p, provider, declared, phase⟩ := sound.provided d there c
      (likewise.requiredCapabilities.mem_iff.mpr required)
    obtain ⟨q, provider', likewise'⟩ := same.forth p provider
    exact ⟨q, provider', likewise'.declares.mp declared,
      by rw [← likewise'.phase, ← likewise.phase]; exact phase⟩
  · intro e member c mandatory
    obtain ⟨d, there, likewise⟩ := same.back e member
    rw [← likewise.irreversibleClass] at mandatory
    exact likewise.requiredCapabilities.mem_iff.mp (sound.irreversible d there c mandatory)
  · rw [acyclic_needsStage stages, ← same.needsStage_eq, ← acyclic_needsStage sound.stages]
    exact sound.acyclic

def phaseOf (ds : List (StageDescriptor σ)) (s : Nat) : Nat :=
  ((ds.find? (·.id == s)).map (·.phase)).getD 0

theorem phaseOf_id (stages : (ds.map (·.id)).Nodup) (member : d ∈ ds) :
    phaseOf ds d.id = d.phase := by
  rw [phaseOf]
  cases found : ds.find? (·.id == d.id) with
  | none => exact absurd (find?_eq_none.mp found d member) (by simp)
  | some e =>
    have same : e.id = d.id := by simpa using find?_some found
    obtain rfl := inj_on_of_nodup_map stages (mem_of_find?_eq_some found) member same
    rfl

theorem Matching.phaseOf_eq (same : Matching R ds es) (stages : (ds.map (·.id)).Nodup) :
    phaseOf ds = phaseOf es := by
  have stages' := same.ids.nodup_iff.mp stages
  funext s
  by_cases here : s ∈ ds.map (·.id)
  · obtain ⟨d, member, rfl⟩ := mem_map.mp here
    obtain ⟨e, there, also⟩ := same.forth d member
    rw [phaseOf_id stages member, also.id, phaseOf_id stages' there, also.phase]
  have absent : s ∉ es.map (·.id) := fun there => here (same.ids.mem_iff.mpr there)
  have none : ∀ {υ : Type} {l : List (StageDescriptor υ)}, s ∉ l.map (·.id) →
      l.find? (·.id == s) = none := by
    intro υ l missing
    apply find?_eq_none.mpr
    intro d member found
    exact missing (mem_map.mpr ⟨d, member, by simpa using found⟩)
  simp only [phaseOf, none here, none absent]
  rfl

/-- The validated identifiers are the greedy plan of the graph on identifiers. -/
theorem Validated.stagePlan {ledger : BootLedger σ} (validated : Validated ledger) :
    Greedy (NeedsStage ledger.descriptors) {s | s ∈ ledger.descriptors.map (·.id)}
      (fun s => toLex (phaseOf ledger.descriptors s, s)) ledger.validatedStageIds := by
  have stages := validated.plannable.stages
  have member : ∀ i, i < ledger.descriptors.length →
      ledger.descriptorAt i ∈ ledger.descriptors := fun i => descriptorAt_mem
  have nodes : (fun i => (ledger.descriptorAt i).id) '' {i | i < ledger.descriptors.length} =
      {s | s ∈ ledger.descriptors.map (·.id)} := by
    ext s
    constructor
    · rintro ⟨i, bound, rfl⟩
      exact mem_map_of_mem (member i bound)
    · intro here
      obtain ⟨d, there, rfl⟩ := mem_map.mp here
      obtain ⟨i, place⟩ := List.mem_iff_getElem?.mp there
      exact ⟨i, (List.getElem?_eq_some_iff.mp place).1,
        congrArg StageDescriptor.id (descriptorAt_of place)⟩
  rw [validated.stageIds, ← nodes]
  refine .map _ ?_ ?_ (fun i _ p need => ?_) ?_ validated.plan
  · intro i first j second same
    have equal := inj_on_of_nodup_map stages (member i first) (member j second) same
    have places := @List.Nodup.getElem_inj_iff _ _ stages.of_map _ first _ second
    have here := List.getElem?_eq_some_iff.mp (descriptorAt_getElem? first)
    have there := List.getElem?_eq_some_iff.mp (descriptorAt_getElem? second)
    exact places.mp (here.2.trans (equal.trans there.2.symm))
  · intro i bound s
    have here := @descriptorAt_getElem? _ ledger _ bound
    constructor
    · rintro ⟨d, inside, e, provider, same, rfl, shared⟩
      obtain rfl := validated.unique inside (member i bound) same
      obtain ⟨p, there⟩ := List.mem_iff_getElem?.mp provider
      exact ⟨p, ⟨_, e, here, there, shared⟩, by rw [descriptorAt_of there]⟩
    · rintro ⟨p, need, rfl⟩
      exact needs_needsStage here (descriptorAt_getElem? (needs_lt need).2) need
  · exact (needs_lt need).2
  · intro i bound
    rw [phaseOf_id stages (member i bound)]
    rfl

theorem fingerprintCapabilitySet_perm {l m : List Nat} (perm : l.Perm m)
    (fingerprint : Fingerprint) (tag : BitVec 64) :
    fingerprintCapabilitySet fingerprint l tag = fingerprintCapabilitySet fingerprint m tag := by
  have contains : ∀ c, l.contains c = m.contains c := by
    intro c
    rw [Bool.eq_iff_iff, contains_iff_mem, contains_iff_mem]
    exact perm.mem_iff
  simp only [fingerprintCapabilitySet, contains, perm.length_eq]

theorem SameStage.fingerprint {e : StageDescriptor τ} (same : SameStage R d e)
    (fingerprint : Fingerprint) :
    fingerprintStage fingerprint d = fingerprintStage fingerprint e := by
  simp only [fingerprintStage, same.id, same.required, same.skipPreservesHealth, same.phase,
    same.irreversibleClass, fingerprintCapabilitySet_perm same.requiredCapabilities,
    fingerprintCapabilitySet_perm same.providedCapabilities,
    fingerprintCapabilitySet_perm same.skippedCapabilities]

/-- A fold over related lists, with a step that does not tell related entries apart. -/
theorem foldl_congr_forall₂ {α β γ : Type} {S : α → β → Prop} {l : List α} {m : List β}
    (related : List.Forall₂ S l m) {f : γ → α → γ} {g : γ → β → γ}
    (step : ∀ x y z, S y z → f x y = g x z) (x : γ) : l.foldl f x = m.foldl g x := by
  induction related generalizing x with
  | nil => rfl
  | cons same _ ih => rw [foldl_cons, foldl_cons, step x _ _ same, ih]

variable {a : BootLedger σ} {b : BootLedger τ} (same : Matching R a.descriptors b.descriptors)
  (first : Validated a) (second : Validated b)
include same first second

theorem Matching.stageIds_eq : a.validatedStageIds = b.validatedStageIds := by
  have plan := first.stagePlan
  have other := second.stagePlan
  have nodes : {s | s ∈ a.descriptors.map (·.id)} = {s | s ∈ b.descriptors.map (·.id)} := by
    ext s
    exact same.ids.mem_iff
  rw [same.needsStage_eq, same.phaseOf_eq first.plannable.stages, nodes] at plan
  refine plan.eq_of_length ?_ other ?_
  · intro s _ t _ equal
    exact (Prod.mk.inj (toLex.injective equal)).2
  · simp only [first.stageIds, second.stageIds, length_map, first.complete, second.complete,
      same.length]

theorem Matching.stages_alike :
    List.Forall₂ (SameStage R) (orderedStages a) (orderedStages b) := by
  have ids : (orderedStages a).map (·.id) = (orderedStages b).map (·.id) := by
    rw [← first.stageIds_eq, ← second.stageIds_eq]
    exact same.stageIds_eq first second
  have inA : ∀ d ∈ orderedStages a, d ∈ a.descriptors := fun d => first.perm.mem_iff.mp
  have inB : ∀ e ∈ orderedStages b, e ∈ b.descriptors := fun e => second.perm.mem_iff.mp
  generalize orderedStages a = l at ids inA
  generalize orderedStages b = m at ids inB
  induction l generalizing m with
  | nil =>
    obtain rfl := map_eq_nil_iff.mp ids.symm
    exact .nil
  | cons d l ih =>
    cases m with
    | nil => simp at ids
    | cons e m =>
      simp only [map_cons, List.cons.injEq] at ids
      obtain ⟨f, there, also⟩ := same.forth d (inA d mem_cons_self)
      obtain rfl := second.unique there (inB e mem_cons_self) (also.id.symm.trans ids.1)
      exact .cons also
        (ih (fun x member => inA x (.tail _ member)) m ids.2
          fun x member => inB x (.tail _ member))

theorem Matching.fingerprint :
    a.validatedPlanFingerprint = b.validatedPlanFingerprint := by
  have related := same.stages_alike first second
  have length : a.canonicalOrder.length = b.canonicalOrder.length := by
    rw [first.complete, second.complete, same.length]
  have fold : ∀ {υ : Type} (l : BootLedger υ), fingerprintPlan l =
      (orderedStages l).foldl fingerprintStage
        (fingerprintU64 (fingerprintU64 bootFingerprintOffset bootFingerprintVersion)
          (.ofNat 64 l.canonicalOrder.length)) := by
    intro υ l
    rw [orderedStages, foldl_map, fingerprintPlan]
  rw [first.planFingerprint, second.planFingerprint, fold, fold, length]
  exact foldl_congr_forall₂ related (fun x d e also => also.fingerprint x) _

end

structure SameReceipt (r s : StageReceipt) : Prop where
  stageId : r.stageId = s.stageId
  sequence : r.sequence = s.sequence
  status : r.status = s.status
  result : r.result = s.result
  proofCounters : r.proofCounters = s.proofCounters
  provided : r.providedCapabilities.Perm s.providedCapabilities

section

theorem mintedBy_alike {rs ss : List StageReceipt} (same : List.Forall₂ SameReceipt rs ss)
    (c : Nat) : c ∈ mintedBy rs ↔ c ∈ mintedBy ss := by
  induction same with
  | nil => exact .rfl
  | cons same _ ih =>
    simp only [mintedBy, flatMap_cons, mem_append] at ih ⊢
    rw [same.provided.mem_iff, ih]

theorem SameReceipt.fingerprint {r s : StageReceipt} (same : SameReceipt r s)
    (fingerprint : Fingerprint) :
    fingerprintReceipt fingerprint r = fingerprintReceipt fingerprint s := by
  simp only [fingerprintReceipt, same.stageId, same.sequence, same.status, same.result,
    fingerprintCapabilitySet_perm same.provided]

variable {d : StageDescriptor σ} {e : StageDescriptor τ} {r s : StageResult}

theorem SameStage.declaredOutcome (same : SameStage R d e) (result : ReceiptResult) :
    Option.Rel List.Perm (declaredOutcome d result) (declaredOutcome e result) := by
  cases result with
  | ran => exact .some same.providedCapabilities
  | skipped => exact .some same.skippedCapabilities
  | failed => exact .some (.refl _)
  | other excess => exact .none

/-- Permuted lists lack something from permuted lists or do not. -/
theorem find?_missing_perm {l l' m m' : List Nat} (first : l.Perm l') (second : m.Perm m') :
    Option.Rel (fun _ _ => True) (l.find? fun c => !m.contains c)
      (l'.find? fun c => !m'.contains c) := by
  have same : (l.find? fun c => !m.contains c) = none ↔
      (l'.find? fun c => !m'.contains c) = none := by
    simp only [find?_not_contains]
    exact forall_congr' fun c => imp_congr first.mem_iff second.mem_iff
  cases left : l.find? fun c => !m.contains c with
  | none =>
    rw [same.mp left]
    exact .none
  | some c =>
    cases right : l'.find? fun c => !m'.contains c with
    | none =>
      rw [same.mpr right] at left
      cases left
    | some c' => exact .some trivial

/-- The status of a result does not depend on the order of the lists. -/
theorem SameStage.validateResult (same : SameStage R d e) (results : SameResult r s) :
    (validateResult d r).1 = (validateResult e s).1 := by
  have outcome := same.declaredOutcome s.result
  simp only [Ledger.validateResult, results.result, results.provided.length_eq,
    results.proofCounters]
  generalize Ledger.declaredOutcome d s.result = declared at outcome
  generalize Ledger.declaredOutcome e s.result = declared' at outcome
  cases outcome with
  | none => rfl
  | @some declared declared' perm => ?_
  have undeclared := find?_missing_perm results.provided perm
  have missing := find?_missing_perm perm results.provided
  simp only [perm.length_eq]
  generalize r.provided.find? (fun c => !declared.contains c) = bad at undeclared
  generalize s.provided.find? (fun c => !declared'.contains c) = bad' at undeclared
  generalize declared.find? (fun c => !r.provided.contains c) = lost at missing
  generalize declared'.find? (fun c => !s.provided.contains c) = lost' at missing
  split
  · rfl
  cases undeclared with
  | some => rfl
  | none =>
    dsimp only
    split
    · rfl
    · cases missing with
      | some => rfl
      | none => rfl

structure SameProgress (a : BootLedger σ) (b : BootLedger τ) : Prop where
  receipts : List.Forall₂ SameReceipt a.receipts b.receipts
  degraded : a.degraded = b.degraded

variable {a : BootLedger σ} {b : BootLedger τ}

theorem SameProgress.appended (progress : SameProgress a b) (same : SameStage R d e)
    (results : SameResult r s) (status : LedgerStatus) :
    SameProgress (appended a d r status) (appended b e s status) := by
  constructor
  · refine rel_append progress.receipts (.cons ?_ List.Forall₂.nil)
    exact ⟨same.id, congrArg (· + 1) progress.receipts.length_eq, rfl, results.result,
      results.proofCounters, results.provided⟩
  · simp only [Ledger.appended, progress.degraded, results.result, same.skipPreservesHealth]

theorem SameProgress.recordResult {done : List (StageDescriptor σ)}
    {done' : List (StageDescriptor τ)} (progress : SameProgress a b) (same : SameStage R d e)
    (results : SameResult r s) (going : Going done a) (next : Follows done d)
    (going' : Going done' b) (next' : Follows done' e) :
    (recordResult a d r).1 = (recordResult b e s).1 ∧
      SameProgress (recordResult a d r).2 (recordResult b e s).2 := by
  have status := same.validateResult results
  unfold Ledger.recordResult
  by_cases valid : (Ledger.validateResult d r).1 = .ok
  swap
  · have invalid' : ¬(Ledger.validateResult e s).1 = .ok := fun h => valid (status.trans h)
    simp only [ne_eq, valid, invalid', not_false_eq_true, dif_pos]
    exact ⟨status, progress.receipts, progress.degraded⟩
  have valid' := status.symm.trans valid
  obtain ⟨-, -, declared, outcome, perm⟩ := (validateResult_ok next.formed).mp valid
  obtain ⟨-, -, declared', outcome', perm'⟩ := (validateResult_ok next'.formed).mp valid'
  simp only [ne_eq, valid, valid', not_true_eq_false, dif_neg, not_false_eq_true,
    appendReceipt_eq going next outcome perm, appendReceipt_eq going' next' outcome' perm',
    results.result, same.required]
  have appends := fun status => progress.appended same results status
  split
  · exact ⟨rfl, (appends .requiredStageSkipped).receipts, (appends .requiredStageSkipped).degraded⟩
  split
  · split
    · exact ⟨rfl, (appends .requiredStageFailed).receipts, (appends .requiredStageFailed).degraded⟩
    · exact ⟨rfl, (appends .optionalStageFailed).receipts, rfl⟩
  · split
    · exact ⟨rfl, appends _⟩
    · exact ⟨rfl, appends _⟩

structure Alike (R : BootContext σ → BootContext τ → Prop) (a : Execution σ) (b : Execution τ) :
    Prop extends SameProgress a.ledger b.ledger where
  context : R a.context b.context

/-- What two executions of the same plan have in common at their end. -/
structure SameOutcome (a : BootLedger σ) (b : BootLedger τ) : Prop where
  receipts : List.Forall₂ SameReceipt a.receipts b.receipts
  established : ∀ c, c ∈ a.establishedCapabilities ↔ c ∈ b.establishedCapabilities
  degraded : a.degraded = b.degraded
  fingerprint : a.fingerprint = b.fingerprint

section
variable (reset : ∀ c c', R c c' →
  R { c with stageFailureDetail := none } { c' with stageFailureDetail := none })
include reset

/-- One stage, executed in two runs that are alike. -/
theorem Alike.executeStage {done : List (StageDescriptor σ)} {done' : List (StageDescriptor τ)}
    {a : Execution σ} {b : Execution τ} (alike : Alike R a b) (same : SameStage R d e) (going : Going done a.ledger)
    (next : Follows done d) (going' : Going done' b.ledger) (next' : Follows done' e) :
    (executeStage a d).1 = (executeStage b e).1 ∧
      Alike R (executeStage a d).2 (executeStage b e).2 := by
  have context := reset _ _ alike.context
  have missing : requirementsMissing a.ledger d = none ↔ requirementsMissing b.ledger e = none := by
    rw [requirementsMissing_eq_none next.formed, requirementsMissing_eq_none next'.formed,
      going.established, going'.established]
    exact forall_congr' fun c => imp_congr same.requiredCapabilities.mem_iff
      (mintedBy_alike alike.receipts c)
  unfold Ledger.executeStage
  dsimp only
  cases left : requirementsMissing a.ledger d with
  | some c =>
    cases right : requirementsMissing b.ledger e with
    | none =>
      rw [missing.mpr right] at left
      cases left
    | some c' =>
      dsimp only
      have skip : SameResult (bootStageResultSkip d) (bootStageResultSkip e) :=
        ⟨rfl, same.skippedCapabilities, rfl⟩
      rw [@appendReceipt_eq _ _ _ _ going next (bootStageResultSkip d) _ rfl (List.Perm.refl _),
        @appendReceipt_eq _ _ _ _ going' next' (bootStageResultSkip e) _ rfl
          (.refl _), same.required]
      split
      · exact ⟨rfl, ⟨alike.receipts, alike.degraded⟩, context⟩
      · exact ⟨rfl, alike.appended same skip _, context⟩
  | none =>
    rw [missing.mp left]
    obtain ⟨f, first⟩ := Option.isSome_iff_exists.mp next.formed.execute
    obtain ⟨g, second⟩ := Option.isSome_iff_exists.mp next'.formed.execute
    have related := same.execute
    rw [first, second] at related
    obtain ⟨after, results⟩ := related _ _ context
    simp only [callStage, first, second]
    obtain ⟨status, progress⟩ := alike.recordResult same results going next going' next'
    exact ⟨status, progress, after⟩

/-- The loop of `boot_ledger_execute`, over the same stages. -/
theorem Alike.executePlan (done : List (StageDescriptor σ)) (done' : List (StageDescriptor τ))
    {rest : List (StageDescriptor σ)} {rest' : List (StageDescriptor τ)} {a : Execution σ}
    {b : Execution τ} (alike : Alike R a b) (related : List.Forall₂ (SameStage R) rest rest')
    (sequence : Sequence (done ++ rest)) (going : Going done a.ledger)
    (sequence' : Sequence (done' ++ rest')) (going' : Going done' b.ledger) :
    let first := executePlan (rest.map fun d => (d, d.id)) a
    let second := executePlan (rest'.map fun d => (d, d.id)) b
    first.1 = second.1 ∧ Alike R first.2 second.2 := by
  induction related generalizing done done' a b with
  | nil => exact ⟨rfl, alike⟩
  | @cons d e rest rest' same _ ih =>
    obtain ⟨status, after⟩ := alike.executeStage reset same going sequence.follows going'
      sequence'.follows
    have step := executeStage_step going sequence.follows
    have step' := executeStage_step going' sequence'.follows
    simp only [map_cons, executePlan_cons, status]
    split
    · exact ⟨status, after⟩
    · next ok =>
      rw [not_not] at ok
      exact ih _ _ after (by simpa using sequence) (step.goes (status.trans ok))
        (by simpa using sequence') (step'.goes ok)

theorem Matching.execute (same : Matching R a.descriptors b.descriptors) (first : Validated a) (second : Validated b)
    {c : BootContext σ} {c' : BootContext τ} (contexts : R c c') :
    (bootLedgerExecute a c).1 = (bootLedgerExecute b c').1 ∧
      SameOutcome (bootLedgerExecute a c).2.ledger (bootLedgerExecute b c').2.ledger := by
  have start : Alike R ⟨beginExecution a, c, []⟩ ⟨beginExecution b, c', []⟩ :=
    ⟨⟨.nil, rfl⟩, contexts⟩
  obtain ⟨status, alike⟩ := start.executePlan reset [] []
    (same.stages_alike first second) first.sequence (going_begin a) second.sequence
    (going_begin b)
  have left := executePlan_safe [] (orderedStages a) first.sequence (going_begin a) (safe_begin a c)
  have right := executePlan_safe [] (orderedStages b) second.sequence
    (going_begin b) (safe_begin b c')
  rw [first.execute_eq, second.execute_eq, first.plannedStages_eq, second.plannedStages_eq]
  generalize executePlan ((orderedStages a).map fun d => (d, d.id)) _ = x at status alike left ⊢
  generalize executePlan ((orderedStages b).map fun d => (d, d.id)) _ = y at status alike right ⊢
  obtain ⟨plan, safe, -⟩ := left
  obtain ⟨plan', safe', -⟩ := right
  have established : ∀ c, c ∈ x.2.ledger.establishedCapabilities ↔
      c ∈ y.2.ledger.establishedCapabilities := by
    intro c
    rw [safe.established, safe'.established]
    exact mintedBy_alike alike.receipts c
  rw [status]
  split
  · refine ⟨status, alike.receipts, established, alike.degraded, ?_⟩
    rw [plan.fingerprint, plan'.fingerprint]
    exact first.fingerprint.trans second.fingerprint.symm
  · have planned := plan.planFingerprint.trans
      ((same.fingerprint first second).trans plan'.planFingerprint.symm)
    have receipts : fingerprintReceipts x.2.ledger = fingerprintReceipts y.2.ledger := by
      simp only [fingerprintReceipts, planned, alike.receipts.length_eq]
      exact foldl_congr_forall₂ alike.receipts (fun z _ _ also => also.fingerprint z) _
    exact ⟨rfl, alike.receipts, established, alike.degraded, receipts⟩

end

end

theorem Matching.validates {a : BootLedger σ} {b : BootLedger τ}
    (same : Matching R a.descriptors b.descriptors) (ok : (bootLedgerValidate a).1 = .ok) :
    (bootLedgerValidate b).1 = .ok := by
  obtain ⟨kept, outcome⟩ := bootLedgerValidate_cases a
  obtain ⟨-, validated⟩ := outcome.resolve_right fun h => h.1 ok
  by_contra refused
  obtain ⟨-, unsound⟩ := (bootLedgerValidate_cases b).2.resolve_left fun h => refused h.1
  refine unsound ⟨?_, ?_, same.plannable (kept ▸ validated.plannable)⟩
  · rw [← length_pos_iff, ← same.length, ← kept]
    exact length_pos_iff.mpr validated.nonempty
  · rw [← same.length, ← kept]
    exact validated.count

/-- Declaration order is not policy. -/
theorem declaration_order_is_not_policy {a : BootLedger σ} {b : BootLedger τ}
    (reset : ∀ c c', R c c' →
      R { c with stageFailureDetail := none } { c' with stageFailureDetail := none })
    (same : Reordered R a.descriptors b.descriptors) :
    ((bootLedgerValidate a).1 = .ok ↔ (bootLedgerValidate b).1 = .ok) ∧
    ((bootLedgerValidate a).1 = .ok →
      (bootLedgerValidate a).2.validatedStageIds = (bootLedgerValidate b).2.validatedStageIds ∧
      (bootLedgerValidate a).2.validatedPlanFingerprint =
        (bootLedgerValidate b).2.validatedPlanFingerprint ∧
      ∀ c c', R c c' →
        (bootLedgerExecute (bootLedgerValidate a).2 c).1 =
          (bootLedgerExecute (bootLedgerValidate b).2 c').1 ∧
        SameOutcome (bootLedgerExecute (bootLedgerValidate a).2 c).2.ledger
          (bootLedgerExecute (bootLedgerValidate b).2 c').2.ledger) := by
  have matching := same.matching
  obtain ⟨sameA, outcomeA⟩ := bootLedgerValidate_cases a
  obtain ⟨sameB, outcomeB⟩ := bootLedgerValidate_cases b
  have accepts : (bootLedgerValidate a).1 = .ok ↔ (bootLedgerValidate b).1 = .ok :=
    ⟨matching.validates, matching.symm.validates⟩
  refine ⟨accepts, fun ok => ?_⟩
  obtain ⟨-, first⟩ := outcomeA.resolve_right fun h => h.1 ok
  obtain ⟨-, second⟩ := outcomeB.resolve_right fun h => h.1 (accepts.mp ok)
  rw [← sameA, ← sameB] at matching
  exact ⟨matching.stageIds_eq first second, matching.fingerprint first second,
    fun c c' contexts => matching.execute reset first second contexts⟩

def twoStageReversed : BootLedger Unit :=
  { twoStageLedger with descriptors := twoStageLedger.descriptors.reverse }

/-- The small plan, declared both ways round. -/
theorem declaration_order_two_stages :
    Reordered (fun _ _ => True) twoStageLedger.descriptors twoStageReversed.descriptors ∧
      (bootLedgerValidate twoStageReversed).1 = .ok ∧
      (bootLedgerValidate twoStageLedger).2.validatedPlanFingerprint =
        (bootLedgerValidate twoStageReversed).2.validatedPlanFingerprint := by
  have same : ∀ d ∈ twoStageLedger.descriptors.reverse, SameStage (fun _ _ => True) d d := by
    intro d member
    refine ⟨rfl, rfl, .refl _, .refl _, .refl _, rfl, rfl, rfl, rfl, ?_⟩
    obtain first | rest := mem_cons.mp (mem_reverse.mp member)
    · rw [first]
      exact fun _ _ _ => ⟨trivial, rfl, .refl _, rfl⟩
    · rw [mem_singleton.mp rest]
      exact fun _ _ _ => ⟨trivial, rfl, .refl _, rfl⟩
  have reordered : Reordered (fun _ _ => True) twoStageLedger.descriptors
      twoStageReversed.descriptors :=
    ⟨_, (reverse_perm _).symm, forall₂_same.mpr same⟩
  have policy := declaration_order_is_not_policy (fun _ _ _ => trivial) reordered
  have ok : (bootLedgerValidate twoStageLedger).1 = .ok := by decide
  exact ⟨reordered, policy.1.mp ok, (policy.2 ok).2.1⟩

end Sapote.Ledger
