import Sapote.Ledger.Planner
import Sapote.Library.Checks
import Sapote.Library.Planning

/-!
What `boot_ledger_validate` accepts: the checks as conditions on the descriptor
list, and the canonical order as a greedy topological plan.
-/

namespace Sapote.Ledger
open Library List Function
variable {σ : Type}

variable {ds : List (StageDescriptor σ)} {ledger : BootLedger σ} {d : StageDescriptor σ} {i c : Nat}
  {index p : Nat} {skipped : Bool} {providers result : Providers} {order : List Nat}

def StageDescriptor.Declares (descriptor : StageDescriptor σ) (capability : Nat) : Prop :=
  capability ∈ descriptor.providedCapabilities ∨ capability ∈ descriptor.skippedCapabilities

instance (descriptor : StageDescriptor σ) (capability : Nat) :
    Decidable (descriptor.Declares capability) := inferInstanceAs (Decidable (_ ∨ _))

structure StageDescriptor.WellFormed (descriptor : StageDescriptor σ) : Prop where
  known : stageIsKnown descriptor.id
  phase : descriptor.phase < bootPhaseCount
  irreversible : descriptor.irreversibleClass.code < bootIrreversibleCount
  name : descriptor.name.isSome
  execute : descriptor.execute.isSome
  requiredCount : descriptor.requiredCapabilities.length ≤ bootStageCapabilityCapacity
  providedCount : descriptor.providedCapabilities.length ≤ bootStageCapabilityCapacity
  skippedCount : descriptor.skippedCapabilities.length ≤ bootStageCapabilityCapacity
  neutral : descriptor.skipPreservesHealth →
    descriptor.required = false ∧ descriptor.skippedCapabilities ≠ []
  requirements : ∀ c ∈ descriptor.requiredCapabilities, capabilityIsKnown c
  requirementsOnce : descriptor.requiredCapabilities.Nodup
  outcomes : ∀ c, descriptor.Declares c → capabilityIsKnown c
  providedOnce : descriptor.providedCapabilities.Nodup
  skippedOnce : descriptor.skippedCapabilities.Nodup

def Exclusive (first second : StageDescriptor σ) : Prop :=
  ∀ c, first.Declares c → ¬second.Declares c

instance : Std.Symm (Exclusive (σ := σ)) :=
  ⟨fun _ _ apart c second first => apart c first second⟩

/-- The provider graph: stage `i` requires a capability that stage `p` declares. -/
def Needs (descriptors : List (StageDescriptor σ)) (i p : Nat) : Prop :=
  ∃ d e, descriptors[i]? = some d ∧ descriptors[p]? = some e ∧
    ∃ c ∈ d.requiredCapabilities, e.Declares c

/-- The descriptor lists of a sound boot plan. -/
structure Plannable (descriptors : List (StageDescriptor σ)) : Prop where
  wellFormed : ∀ d ∈ descriptors, d.WellFormed
  stages : (descriptors.map (·.id)).Nodup
  exclusive : descriptors.Pairwise Exclusive
  provided : ∀ d ∈ descriptors, ∀ c ∈ d.requiredCapabilities,
    ∃ e ∈ descriptors, e.Declares c ∧ e.phase ≤ d.phase
  irreversible : ∀ d ∈ descriptors, ∀ c ∈ irreversibleRequirements d.irreversibleClass,
    c ∈ d.requiredCapabilities
  acyclic : Acyclic (Needs descriptors)

def providersOf (descriptors : List (StageDescriptor σ)) : Providers := fun capability =>
  descriptors.findIdx? fun d => decide (d.Declares capability)

/-- A chain of checks passes when the first one does and the others do. -/
theorem check_eq_none {c : Prop} [Decidable c] {refusal : Refusal} {rest : Option Refusal} :
    (if c then some refusal else rest) = none ↔ ¬c ∧ rest = none := by
  by_cases h : c
  · simp [h]
  · simp [h]

theorem checkRequirements_eq_none {id : Nat} {earlier rest : List Nat} (once : earlier.Nodup) :
    checkRequirements id earlier rest = none ↔
      (∀ c ∈ rest, capabilityIsKnown c) ∧ (earlier ++ rest).Nodup := by
  induction rest generalizing earlier with
  | nil => simp [checkRequirements, once]
  | cons c rest ih =>
    rw [checkRequirements, forall_mem_cons]
    cases known : capabilityIsKnown c with
    | false => simp
    | true =>
      by_cases seen : c ∈ earlier
      · have repeated : ¬(earlier ++ c :: rest).Nodup := fun h =>
          (nodup_append.mp h).2.2 c seen c mem_cons_self rfl
        simp [seen, repeated]
      · have longer : (earlier ++ [c]).Nodup := by
          rw [← concat_eq_append]
          exact once.concat seen
        simp [seen, ih longer]

theorem checkStage_eq_none {earlier : List (StageDescriptor σ)} :
    checkStage earlier d = none ↔ stageIsKnown d.id ∧ d.phase < bootPhaseCount ∧
      d.irreversibleClass.code < bootIrreversibleCount ∧ d.name.isSome ∧ d.execute.isSome ∧
      d.requiredCapabilities.length ≤ bootStageCapabilityCapacity ∧
      d.providedCapabilities.length ≤ bootStageCapabilityCapacity ∧
      d.skippedCapabilities.length ≤ bootStageCapabilityCapacity ∧
      (d.skipPreservesHealth → d.required = false ∧ d.skippedCapabilities ≠ []) ∧
      d.id ∉ earlier.map (·.id) ∧
      (∀ c ∈ d.requiredCapabilities, capabilityIsKnown c) ∧
      d.requiredCapabilities.Nodup := by
  have requirements := @checkRequirements_eq_none d.id [] d.requiredCapabilities nodup_nil
  rw [nil_append] at requirements
  have distinct : (earlier.any (·.id == d.id)) ↔ d.id ∈ earlier.map (·.id) := by
    simp
  simp only [checkStage, check_eq_none, distinct, requirements, not_or, not_and, not_le,
    not_lt, Bool.not_eq_true, Bool.not_eq_false', Option.isNone_eq_false_iff,
    length_eq_zero_iff, and_assoc, ne_eq]

/-- What one turn of the provider loop asks of a capability. -/
def Registers (index : Nat) (d : StageDescriptor σ) (skipped : Bool) (earlier : List Nat)
    (providers : Providers) (c : Nat) : Prop :=
  capabilityIsKnown c ∧ (providers c = none ∨ (skipped ∧
    providers c = some index ∧ c ∈ d.providedCapabilities ∧ c ∉ earlier))

/-- One accepted turn makes the stage the provider. -/
theorem registerProvider_eq_ok {earlier : List Nat} :
    registerProvider index d skipped earlier c providers = .ok result ↔
      Registers index d skipped earlier providers c ∧
        result = Function.update providers c (some index) := by
  unfold registerProvider Registers
  cases capabilityIsKnown c with
  | false => simp
  | true => ?_
  cases here : providers c with
  | none => simp [eq_comm]
  | some provider => ?_
  by_cases common : skipped ∧ provider = index ∧ c ∈ d.providedCapabilities ∧
      c ∉ earlier
  · obtain ⟨rfl, rfl, declared, fresh⟩ := common
    have same : update providers c (some provider) = providers := by
      rw [← here, update_eq_self]
    simp [declared, fresh, same, eq_comm]
  have refused : ((skipped = false ∨ ¬provider = index) ∨
      c ∉ d.providedCapabilities) ∨ c ∈ earlier := by
    by_contra pass
    simp only [not_or, not_not, Bool.not_eq_false] at pass
    exact common ⟨pass.1.1.1, pass.1.1.2, pass.1.2, pass.2⟩
  simp [refused, common]

theorem registerProviders_eq_ok {earlier rest : List Nat}
    (taken : ∀ c ∈ earlier, providers c ≠ none) :
    registerProviders index d skipped earlier rest providers = .ok result ↔
      rest.Nodup ∧ (∀ c ∈ rest, Registers index d skipped earlier providers c) ∧
        result = fun c => if c ∈ rest then some index else providers c := by
  induction rest generalizing earlier providers with
  | nil =>
    rw [registerProviders, Except.ok.injEq]
    simp [eq_comm (a := providers)]
  | cons c rest ih =>
    have longer : ∀ x ∈ earlier ++ [c], update providers c (some index) x ≠ none := by
      intro x member
      by_cases same : x = c
      · simp [same]
      · simpa [same] using taken x (by simpa [same] using member)
    -- A repeated capability is refused at its second place, so `c` is not in `rest`.
    have later : ∀ x, Registers index d skipped (earlier ++ [c])
        (update providers c (some index)) x ↔
          ¬x = c ∧ Registers index d skipped earlier providers x := by
      intro x
      by_cases same : x = c
      · simp [Registers, same]
      · simp [Registers, same]
    have table : (fun x => if x ∈ rest then some index else
        update providers c (some index) x) =
        fun x => if x ∈ c :: rest then some index else providers x := by
      funext x
      by_cases same : x = c
      · simp [same]
      · simp [same]
    have step : registerProviders index d skipped earlier (c :: rest) providers =
        (registerProvider index d skipped earlier c providers >>=
          registerProviders index d skipped (earlier ++ [c]) rest) := by
      rw [registerProviders]
      cases registerProvider index d skipped earlier c providers <;> rfl
    rw [step, bind_eq_ok, nodup_cons, forall_mem_cons]
    simp only [registerProvider_eq_ok, and_assoc, exists_and_left, exists_eq_left, ih longer, later,
      forall₂_and, forall_mem_ne', table]
    tauto

theorem providersOf_eq_none : providersOf ds c = none ↔ ∀ d ∈ ds, ¬d.Declares c := by
  rw [providersOf, findIdx?_eq_none_iff]
  simp only [decide_eq_false_iff_not]

theorem providersOf_append_singleton (ds : List (StageDescriptor σ)) (d : StageDescriptor σ)
    (c : Nat) : providersOf (ds ++ [d]) c =
      (providersOf ds c).or (if d.Declares c then some ds.length else none) := by
  by_cases declared : d.Declares c
  · simp [providersOf, declared]
  · simp [providersOf, declared]

def registerStage (index : Nat) (d : StageDescriptor σ) (providers : Providers) :
    Except Refusal Providers :=
  match registerProviders index d false [] d.providedCapabilities providers with
  | .error refusal => .error refusal
  | .ok providers => registerProviders index d true [] d.skippedCapabilities providers

theorem registerStage_eq_ok :
    registerStage ds.length d (providersOf ds) = .ok result ↔
      d.providedCapabilities.Nodup ∧ d.skippedCapabilities.Nodup ∧
        (∀ c, d.Declares c → capabilityIsKnown c) ∧
        (∀ c, d.Declares c → ∀ e ∈ ds, ¬e.Declares c) ∧ result = providersOf (ds ++ [d]) := by
  have table : (∀ c, d.Declares c → providersOf ds c = none) →
      (fun c => if c ∈ d.skippedCapabilities then some ds.length else
        if c ∈ d.providedCapabilities then some ds.length else providersOf ds c) =
      providersOf (ds ++ [d]) := by
    intro free
    funext c
    rw [providersOf_append_singleton]
    by_cases declared : d.Declares c
    · rw [free c declared, if_pos declared, Option.none_or]
      obtain provided | skipped := declared
      · simp [provided]
      · simp [skipped]
    · rw [if_neg declared, Option.or_none]
      obtain ⟨provided, skipped⟩ := not_or.mp declared
      rw [if_neg skipped, if_neg provided]
  have steps : registerStage ds.length d (providersOf ds) =
      (registerProviders ds.length d false [] d.providedCapabilities (providersOf ds) >>=
        registerProviders ds.length d true [] d.skippedCapabilities) := by
    rw [registerStage]
    cases registerProviders ds.length d false [] d.providedCapabilities (providersOf ds) <;> rfl
  rw [steps, bind_eq_ok]
  simp only [registerProviders_eq_ok (forall_mem_nil _)]
  constructor
  · rintro ⟨_, ⟨once, known, rfl⟩, once', known', rfl⟩
    have free : ∀ c, d.Declares c → providersOf ds c = none := by
      intro c declared
      by_cases provided : c ∈ d.providedCapabilities
      · exact (known c provided).2.resolve_right fun h => absurd h.1 (by decide)
      · have outcome := (known' c (declared.resolve_left provided)).2
        exact (if_neg provided).symm.trans (outcome.resolve_right fun h => provided h.2.2.1)
    refine ⟨once, once', ?_, fun c declared => providersOf_eq_none.mp (free c declared), table free⟩
    rintro c (provided | skipped)
    · exact (known c provided).1
    · exact (known' c skipped).1
  · rintro ⟨once, once', known, exclusive, rfl⟩
    have free : ∀ c, d.Declares c → providersOf ds c = none := fun c declared =>
      providersOf_eq_none.mpr (exclusive c declared)
    refine ⟨_, ⟨once, fun c provided =>
      ⟨known c (.inl provided), .inl (free c (.inl provided))⟩, rfl⟩, once',
      fun c skipped => ⟨known c (.inr skipped), ?_⟩, (table free).symm⟩
    by_cases provided : c ∈ d.providedCapabilities
    · exact .inr ⟨rfl, if_pos provided, provided, not_mem_nil⟩
    · exact .inl ((if_neg provided).trans (free c (.inr skipped)))

theorem checkStages_cons_eq_ok {earlier rest : List (StageDescriptor σ)} :
    checkStages earlier (d :: rest) providers = .ok result ↔ checkStage earlier d = none ∧
      ∃ next, registerStage earlier.length d providers = .ok next ∧
        checkStages (earlier ++ [d]) rest next = .ok result := by
  rw [checkStages, registerStage, ← bind_eq_ok]
  cases checkStage earlier d with
  | some refusal => exact iff_of_false nofun fun h => nomatch h.1
  | none =>
    rw [and_iff_right rfl]
    cases registerProviders earlier.length d false [] d.providedCapabilities providers with
    | error refusal => rfl
    | ok providers =>
      dsimp only
      cases registerProviders earlier.length d true [] d.skippedCapabilities providers <;> rfl

/-- The first loop accepts well-formed stages with their own identifiers and outcomes. -/
theorem checkStages_eq_ok {earlier rest : List (StageDescriptor σ)} {result : Providers}
    (stages : (earlier.map (·.id)).Nodup) (exclusive : earlier.Pairwise Exclusive) :
    checkStages earlier rest (providersOf earlier) = .ok result ↔
      (∀ d ∈ rest, d.WellFormed) ∧ ((earlier ++ rest).map (·.id)).Nodup ∧
        (earlier ++ rest).Pairwise Exclusive ∧ result = providersOf (earlier ++ rest) := by
  induction rest generalizing earlier with
  | nil =>
    rw [checkStages, Except.ok.injEq]
    simp [stages, exclusive, eq_comm (a := providersOf earlier)]
  | cons d rest ih =>
    have shape : earlier ++ d :: rest = (earlier ++ [d]) ++ rest := by simp
    have stages_iff : ((earlier ++ [d]).map (·.id)).Nodup ↔ d.id ∉ earlier.map (·.id) := by
      rw [map_append, map_singleton, ← concat_eq_append, nodup_concat,
        and_iff_left stages]
    have exclusive_iff : (earlier ++ [d]).Pairwise Exclusive ↔
        ∀ c, d.Declares c → ∀ e ∈ earlier, ¬e.Declares c := by
      simp only [pairwise_append, exclusive, pairwise_singleton, mem_singleton,
        forall_eq, true_and]
      exact ⟨fun apart c own e member there => apart e member c there own,
        fun apart e member c there own => apart c own e member there⟩
    rw [checkStages_cons_eq_ok, checkStage_eq_none, forall_mem_cons, shape]
    simp only [registerStage_eq_ok]
    constructor
    · rintro ⟨⟨known, phase, irreversible, name, execute, required, provided, skipped, neutral,
        new, requirements, once⟩, _, ⟨providedOnce, skippedOnce, outcomes, apart, rfl⟩, accepted⟩
      obtain ⟨others, distinct⟩ := (ih (stages_iff.mpr new) (exclusive_iff.mpr apart)).mp accepted
      exact ⟨⟨⟨known, phase, irreversible, name, execute, required, provided, skipped,
        neutral, requirements, once, outcomes, providedOnce, skippedOnce⟩, others⟩, distinct⟩
    · rintro ⟨⟨own, others⟩, ids, pairs, rfl⟩
      have stages' : ((earlier ++ [d]).map (·.id)).Nodup :=
        ids.sublist ((sublist_append_left _ _).map _)
      have exclusive' := pairs.sublist (sublist_append_left (earlier ++ [d]) rest)
      exact ⟨⟨own.known, own.phase, own.irreversible, own.name, own.execute, own.requiredCount,
        own.providedCount, own.skippedCount, own.neutral, stages_iff.mp stages', own.requirements,
        own.requirementsOnce⟩, _, ⟨own.providedOnce, own.skippedOnce, own.outcomes,
        exclusive_iff.mp exclusive', rfl⟩, (ih stages' exclusive').mpr ⟨others, ids, pairs, rfl⟩⟩

section

def planKey (ledger : BootLedger σ) (index : Nat) : ℕ ×ₗ ℕ :=
  toLex ((ledger.descriptorAt index).phase, (ledger.descriptorAt index).id)

theorem selectStage_eq_argmin (ledger : BootLedger σ) (providers : Providers) (order : List Nat) :
    selectStage ledger providers order = List.argmin (planKey ledger)
      ((List.range ledger.descriptors.length).filter (stageReady ledger providers order)) := by
  rw [selectStage, List.argmin, foldl_filter]
  congr 1
  funext selected index
  cases stageReady ledger providers order index with
  | false => rfl
  | true =>
    cases selected with
    | none => rfl
    | some best => simp [List.argAux, planKey, Prod.Lex.toLex_lt_toLex]

theorem descriptorAt_of (here : ledger.descriptors[i]? = some d) : ledger.descriptorAt i = d := by
  rw [BootLedger.descriptorAt, getD_eq_getElem?_getD, here, Option.getD_some]

theorem descriptorAt_getElem? (bound : i < ledger.descriptors.length) :
    ledger.descriptors[i]? = some (ledger.descriptorAt i) := by
  rw [BootLedger.descriptorAt, getD_eq_getElem?_getD, getElem?_eq_getElem bound,
    Option.getD_some]

theorem descriptorAt_mem (bound : i < ledger.descriptors.length) :
    ledger.descriptorAt i ∈ ledger.descriptors :=
  mem_of_getElem? (descriptorAt_getElem? bound)

theorem providersOf_eq_some (exclusive : ds.Pairwise Exclusive) :
    providersOf ds c = some i ↔ ∃ d, ds[i]? = some d ∧ d.Declares c := by
  rw [providersOf, findIdx?_eq_some_iff_getElem]
  constructor
  · rintro ⟨bound, declared, -⟩
    exact ⟨ds[i], getElem?_eq_getElem bound, of_decide_eq_true declared⟩
  · rintro ⟨d, here, declared⟩
    obtain ⟨bound, rfl⟩ := List.getElem?_eq_some_iff.mp here
    refine ⟨bound, decide_eq_true declared, ?_⟩
    intro j earlier there
    exact pairwise_iff_getElem.mp exclusive j i (by omega) bound earlier c
      (of_decide_eq_true there) declared

def Provided (ds : List (StageDescriptor σ)) : Prop :=
  ∀ d ∈ ds, ∀ c ∈ d.requiredCapabilities, ∃ e ∈ ds, e.Declares c

theorem missingProvider_eq_none : missingProvider ds (providersOf ds) = none ↔ Provided ds := by
  simp only [missingProvider, findSome?_eq_none_iff, check_eq_none, and_true,
    providersOf_eq_none, not_forall, not_not, exists_prop]
  rfl

abbrev StagePlan (ledger : BootLedger σ) : List Nat → Prop :=
  Greedy (Needs ledger.descriptors) {i | i < ledger.descriptors.length} (planKey ledger)

theorem StagePlan.perm (plan : StagePlan ledger order)
    (complete : order.length = ledger.descriptors.length) :
    order.Perm (List.range ledger.descriptors.length) := by
  refine (plan.nodup.subperm fun i member => ?_).perm_of_length_le ?_
  · exact mem_range.mpr (plan.mem_nodes member)
  · rw [length_range, complete]

theorem needs_lt (need : Needs ds i p) : i < ds.length ∧ p < ds.length := by
  obtain ⟨d, e, here, there, -⟩ := need
  exact ⟨(List.getElem?_eq_some_iff.mp here).1, (List.getElem?_eq_some_iff.mp there).1⟩

variable (exclusive : ledger.descriptors.Pairwise Exclusive)
include exclusive

theorem needs_iff (bound : i < ledger.descriptors.length) :
    Needs ledger.descriptors i p ↔ ∃ c ∈ (ledger.descriptorAt i).requiredCapabilities,
      providersOf ledger.descriptors c = some p := by
  constructor
  · rintro ⟨d, e, here, there, c, required, declared⟩
    rw [descriptorAt_of here]
    exact ⟨c, required, (providersOf_eq_some exclusive).mpr ⟨e, there, declared⟩⟩
  · rintro ⟨c, required, provider⟩
    obtain ⟨e, there, declared⟩ := (providersOf_eq_some exclusive).mp provider
    exact ⟨_, e, descriptorAt_getElem? bound, there, c, required, declared⟩

theorem providerLater_eq_false :
    providerLater ledger (providersOf ledger.descriptors) d c = false ↔
      ∀ e ∈ ledger.descriptors, e.Declares c → e.phase ≤ d.phase := by
  rw [providerLater]
  cases provider : providersOf ledger.descriptors c with
  | none => exact iff_of_true rfl fun e member there =>
      absurd there (providersOf_eq_none.mp provider e member)
  | some p =>
    obtain ⟨e, there, declared⟩ := (providersOf_eq_some exclusive).mp provider
    simp only [descriptorAt_of there, decide_eq_false_iff_not, not_lt]
    constructor
    · intro earlier x member also
      obtain ⟨q, here⟩ := mem_iff_getElem?.mp member
      have same := (providersOf_eq_some exclusive).mpr ⟨x, here, also⟩
      obtain rfl := Option.some.inj (same.symm.trans provider)
      obtain rfl := Option.some.inj (here.symm.trans there)
      exact earlier
    · intro all
      exact all e (mem_of_getElem? there) declared

theorem phaseTransition_eq_none :
    phaseTransition ledger (providersOf ledger.descriptors) = none ↔
      ∀ d ∈ ledger.descriptors, ∀ c ∈ d.requiredCapabilities, ∀ e ∈ ledger.descriptors,
        e.Declares c → e.phase ≤ d.phase := by
  simp only [phaseTransition, findSome?_eq_none_iff, check_eq_none, and_true,
    Bool.not_eq_true, providerLater_eq_false exclusive]

theorem irreversibleTooEarly_eq_none :
    irreversibleTooEarly ledger (providersOf ledger.descriptors) = none ↔
      ∀ d ∈ ledger.descriptors, ∀ c ∈ irreversibleRequirements d.irreversibleClass,
        c ∈ d.requiredCapabilities ∧ (∃ e ∈ ledger.descriptors, e.Declares c) ∧
          ∀ e ∈ ledger.descriptors, e.Declares c → e.phase ≤ d.phase := by
  simp only [irreversibleTooEarly, findSome?_eq_none_iff, check_eq_none, and_true, not_or,
    Bool.not_eq_true, Bool.not_eq_false', contains_iff_mem, providersOf_eq_none, not_forall,
    not_not, exists_prop, providerLater_eq_false exclusive]

variable (provided : Provided ledger.descriptors)
include provided

theorem stageReady_iff (bound : i < ledger.descriptors.length) :
    stageReady ledger (providersOf ledger.descriptors) order i ↔
      Ready (Needs ledger.descriptors) order i := by
  rw [stageReady, Bool.and_eq_true, all_eq_true, Ready]
  apply and_congr (by simp)
  constructor
  · intro ready p need
    obtain ⟨c, required, provider⟩ := (needs_iff exclusive bound).mp need
    have planned := ready c required
    rw [provider] at planned
    simpa using planned
  · intro ready c required
    obtain ⟨e, member, declared⟩ := provided _ (descriptorAt_mem bound) c required
    obtain ⟨p, there⟩ := mem_iff_getElem?.mp member
    have provider := (providersOf_eq_some exclusive).mpr ⟨e, there, declared⟩
    rw [provider]
    simpa using ready p ((needs_iff exclusive bound).mpr ⟨c, required, provider⟩)

/-- The planning loop extends the plan until it is complete or nothing is ready. -/
theorem planStages_cases {remaining : Nat} {order : List Nat}
    (plan : StagePlan ledger order) (count : order.length + remaining = ledger.descriptors.length) :
    let result := planStages ledger (providersOf ledger.descriptors) remaining order
    StagePlan ledger result.1 ∧
      ((result.2 = none ∧ result.1.length = ledger.descriptors.length) ∨
        (result.2 ≠ none ∧ result.1.length < ledger.descriptors.length ∧
          ∀ i < ledger.descriptors.length, ¬Ready (Needs ledger.descriptors) result.1 i)) := by
  induction remaining generalizing order with
  | zero => exact ⟨plan, .inl ⟨rfl, count⟩⟩
  | succ remaining ih =>
    have select := selectStage_eq_argmin ledger (providersOf ledger.descriptors) order
    rw [planStages]
    cases selected : selectStage ledger (providersOf ledger.descriptors) order with
    | none =>
      refine ⟨plan, .inr ⟨nofun, show order.length < _ by omega, ?_⟩⟩
      intro i bound ready
      rw [selected, eq_comm, argmin_eq_none, filter_eq_nil_iff] at select
      exact select i (mem_range.mpr bound)
        ((stageReady_iff exclusive provided bound).mpr ready)
    | some i =>
      rw [selected, eq_comm, argmin_eq_some_iff] at select
      obtain ⟨member, least, -⟩ := select
      obtain ⟨range, ready⟩ := mem_filter.mp member
      have bound := mem_range.mp range
      refine ih (plan.add bound ((stageReady_iff exclusive provided bound).mp ready) ?_) ?_
      · intro j there other
        exact least j (mem_filter.mpr ⟨mem_range.mpr there,
          (stageReady_iff exclusive provided there).mpr other⟩)
      · rw [length_append, length_singleton]
        omega

/-- The loop completes exactly when the provider graph has no cycle. -/
theorem planStages_complete :
    (planStages ledger (providersOf ledger.descriptors) ledger.descriptors.length []).2 = none ↔
      Acyclic (Needs ledger.descriptors) := by
  obtain ⟨plan, outcome⟩ := @planStages_cases _ _ exclusive provided
    ledger.descriptors.length [] Greedy.nil (zero_add _)
  generalize planStages ledger _ ledger.descriptors.length [] = planned at plan outcome ⊢
  obtain complete | ⟨refusal, short, blocked⟩ := outcome
  · have perm := StagePlan.perm plan complete.2
    refine iff_of_true complete.1 (plan.acyclic fun i p need => ?_)
    exact perm.mem_iff.mpr (mem_range.mpr (needs_lt need).1)
  refine iff_of_false refusal fun acyclic => ?_
  -- Some stage is left, and one of those left would be ready.
  have waiting : ∃ i < ledger.descriptors.length, i ∉ planned.1 := by
    by_contra all
    simp only [not_exists, not_and, not_not] at all
    have cover : List.range ledger.descriptors.length ⊆ planned.1 :=
      fun i member => all i (mem_range.mp member)
    have := (nodup_range.subperm cover).length_le
    rw [length_range] at this
    omega
  obtain ⟨i, bound, outside⟩ := waiting
  obtain ⟨j, inside, ready⟩ := exists_ready acyclic (Set.finite_lt_nat _)
    (fun i _ p need => (needs_lt need).2) bound outside
  exact blocked j inside ready

end

section
variable {ledger : BootLedger σ}

structure Validated (ledger : BootLedger σ) : Prop where
  nonempty : ledger.descriptors ≠ []
  count : ledger.descriptors.length ≤ bootLedgerStageCapacity
  plannable : Plannable ledger.descriptors
  plan : StagePlan ledger ledger.canonicalOrder
  complete : ledger.canonicalOrder.length = ledger.descriptors.length
  stageIds : ledger.validatedStageIds =
    ledger.canonicalOrder.map fun index => (ledger.descriptorAt index).id
  planFingerprint : ledger.validatedPlanFingerprint = fingerprintPlan ledger
  fingerprint : ledger.fingerprint = 0
  validated : ledger.validated
  executed : ledger.executed = false

/-- The phase rule and the other checks on the provider table together. -/
theorem plannable_iff :
    Plannable ds ↔ (∀ d ∈ ds, d.WellFormed) ∧ (ds.map (·.id)).Nodup ∧ ds.Pairwise Exclusive ∧
      Provided ds ∧
      (∀ d ∈ ds, ∀ c ∈ irreversibleRequirements d.irreversibleClass,
        c ∈ d.requiredCapabilities ∧ (∃ e ∈ ds, e.Declares c) ∧
          ∀ e ∈ ds, e.Declares c → e.phase ≤ d.phase) ∧
      Acyclic (Needs ds) ∧
      ∀ d ∈ ds, ∀ c ∈ d.requiredCapabilities, ∀ e ∈ ds, e.Declares c → e.phase ≤ d.phase := by
  constructor
  · intro sound
    -- The only stage that declares `c` is the one the plan names.
    have phases : ∀ d ∈ ds, ∀ c ∈ d.requiredCapabilities, ∀ e ∈ ds, e.Declares c →
        e.phase ≤ d.phase := by
      intro d member c required e there declared
      obtain ⟨x, inside, also, earlier⟩ := sound.provided d member c required
      by_cases same : x = e
      · exact same ▸ earlier
      · exact absurd declared (sound.exclusive.forall inside there same c also)
    have provided : Provided ds := fun d member c required => by
      obtain ⟨e, inside, declared, -⟩ := sound.provided d member c required
      exact ⟨e, inside, declared⟩
    refine ⟨sound.wellFormed, sound.stages, sound.exclusive, provided, ?_, sound.acyclic, phases⟩
    intro d member c mandatory
    have required := sound.irreversible d member c mandatory
    exact ⟨required, provided d member c required, phases d member c required⟩
  · rintro ⟨formed, stages, exclusive, provided, mandatory, acyclic, phases⟩
    refine ⟨formed, stages, exclusive, ?_, fun d member c h => (mandatory d member c h).1, acyclic⟩
    intro d member c required
    obtain ⟨e, inside, declared⟩ := provided d member c required
    exact ⟨e, inside, declared, phases d member c required e inside declared⟩

theorem planLedger_cases (formed : ∀ d ∈ ledger.descriptors, d.WellFormed)
    (stages : (ledger.descriptors.map (·.id)).Nodup)
    (exclusive : ledger.descriptors.Pairwise Exclusive)
    (nonempty : ledger.descriptors ≠ [])
    (count : ledger.descriptors.length ≤ bootLedgerStageCapacity)
    (fresh : ledger.executed = false) :
    let result := planLedger ledger (providersOf ledger.descriptors)
    result.2.descriptors = ledger.descriptors ∧
      ((result.1 = .ok ∧ Validated result.2) ∨
        (result.1 ≠ .ok ∧ ¬Plannable ledger.descriptors)) := by
  rw [planLedger]
  cases missing : missingProvider ledger.descriptors (providersOf ledger.descriptors) with
  | some refusal =>
    refine ⟨rfl, .inr ⟨refusal.refused, fun sound => ?_⟩⟩
    have provided := missingProvider_eq_none.mpr (plannable_iff.mp sound).2.2.2.1
    cases missing.symm.trans provided
  | none => ?_
  have provided := missingProvider_eq_none.mp missing
  cases early : irreversibleTooEarly ledger (providersOf ledger.descriptors) with
  | some refusal =>
    refine ⟨rfl, .inr ⟨refusal.refused, fun sound => ?_⟩⟩
    have mandatory := (irreversibleTooEarly_eq_none exclusive).mpr
      (plannable_iff.mp sound).2.2.2.2.1
    cases early.symm.trans mandatory
  | none => ?_
  have mandatory := (irreversibleTooEarly_eq_none exclusive).mp early
  have complete := planStages_complete exclusive provided
  obtain ⟨plan, outcome⟩ := @planStages_cases _ _ exclusive provided
    ledger.descriptors.length [] Greedy.nil (zero_add _)
  generalize planStages ledger (providersOf ledger.descriptors)
    ledger.descriptors.length [] = planned at plan outcome complete
  obtain ⟨order, stuck⟩ := planned
  cases stuck with
  | some refusal =>
    refine ⟨rfl, .inr ⟨refusal.refused, fun sound => ?_⟩⟩
    cases complete.mpr sound.acyclic
  | none => ?_
  have length := (outcome.resolve_right fun h => h.1 rfl).2
  have acyclic := complete.mp rfl
  have transition := @phaseTransition_eq_none _ { ledger with
    canonicalOrder := order
    validatedStageIds := order.map fun index => (ledger.descriptorAt index).id }
    exclusive
  dsimp only at transition ⊢
  generalize phaseTransition _ (providersOf ledger.descriptors) = late at transition ⊢
  cases late with
  | some refusal =>
    refine ⟨rfl, .inr ⟨refusal.refused, fun sound => ?_⟩⟩
    cases transition.mpr (plannable_iff.mp sound).2.2.2.2.2.2
  | none =>
    have sound := plannable_iff.mpr ⟨formed, stages, exclusive, provided, mandatory,
      acyclic, transition.mp rfl⟩
    exact ⟨rfl, .inl ⟨rfl, nonempty, count, sound, plan, length, rfl, rfl, rfl, rfl, fresh⟩⟩

theorem bootLedgerValidate_cases (ledger : BootLedger σ) :
    let result := bootLedgerValidate ledger
    result.2.descriptors = ledger.descriptors ∧
      ((result.1 = .ok ∧ Validated result.2) ∨
        (result.1 ≠ .ok ∧ ¬(ledger.descriptors ≠ [] ∧
          ledger.descriptors.length ≤ bootLedgerStageCapacity ∧ Plannable ledger.descriptors))) := by
  have checks : ∀ {result : Providers}, checkStages [] ledger.descriptors (fun _ => none) =
      .ok result ↔ (∀ d ∈ ledger.descriptors, d.WellFormed) ∧
        (ledger.descriptors.map (·.id)).Nodup ∧ ledger.descriptors.Pairwise Exclusive ∧
        result = providersOf ledger.descriptors :=
    fun {result} => @checkStages_eq_ok _ [] _ result nodup_nil List.Pairwise.nil
  unfold bootLedgerValidate
  by_cases empty : (clearPlan ledger).descriptors.length = 0
  · rw [if_pos empty]
    exact ⟨rfl, .inr ⟨refuse_ne_ok _ _, fun h => h.1 (length_eq_zero_iff.mp empty)⟩⟩
  rw [if_neg empty]
  split
  · next many =>
        exact ⟨rfl, .inr ⟨refuse_ne_ok _ _, fun h => not_le.mpr many h.2.1⟩⟩
  next many =>
  cases table : checkStages [] (clearPlan ledger).descriptors fun _ => none with
  | error refusal =>
    refine ⟨rfl, .inr ⟨refusal.refused, fun h => ?_⟩⟩
    have accepted := checks.mpr ⟨h.2.2.wellFormed, h.2.2.stages, h.2.2.exclusive, rfl⟩
    cases table.symm.trans accepted
  | ok providers =>
    obtain ⟨formed, stages, exclusive, rfl⟩ := checks.mp table
    have nonempty : ledger.descriptors ≠ [] := fun nil =>
      empty (length_eq_zero_iff.mpr nil)
    obtain ⟨same, outcome⟩ := @planLedger_cases _ (clearPlan ledger) formed stages
      exclusive nonempty (not_lt.mp many) rfl
    exact ⟨same, outcome.imp_right fun h => ⟨h.1, fun sound => h.2 sound.2.2⟩⟩

end

/-- `boot_ledger_validate` accepts exactly the sound plans, and its order puts every
provider before its consumers. -/
theorem boot_ledger_validate_sound_and_complete (ledger : BootLedger σ)
    (count : ledger.descriptors.length ≤ bootLedgerStageCapacity) :
    ((bootLedgerValidate ledger).1 = .ok ↔
      ledger.descriptors ≠ [] ∧ Plannable ledger.descriptors) ∧
    ((bootLedgerValidate ledger).1 = .ok →
      (bootLedgerValidate ledger).2.canonicalOrder.Perm (List.range ledger.descriptors.length) ∧
      ∀ before after consumer provider,
        (bootLedgerValidate ledger).2.canonicalOrder = before ++ consumer :: after →
        Needs ledger.descriptors consumer provider → provider ∈ before) := by
  obtain ⟨same, outcome⟩ := bootLedgerValidate_cases ledger
  constructor
  · constructor
    · intro ok
      obtain ⟨-, validated⟩ := outcome.resolve_right fun h => h.1 ok
      exact same ▸ ⟨validated.nonempty, validated.plannable⟩
    · intro sound
      by_contra refused
      obtain ⟨-, unsound⟩ := outcome.resolve_left fun h => refused h.1
      exact unsound ⟨sound.1, count, sound.2⟩
  · intro ok
    obtain ⟨-, validated⟩ := outcome.resolve_right fun h => h.1 ok
    rw [← same]
    exact ⟨validated.plan.perm validated.complete, fun before after consumer provider split need =>
      validated.plan.precedes split need⟩

def twoStageLedger : BootLedger Unit :=
  { (bootLedgerReset : BootLedger Unit) with
    descriptors :=
      [⟨4, some "boot information", [1], [3], [], true, false, 1, .none,
          some fun context _ => (context, ⟨.ran, [3], []⟩)⟩,
        ⟨1, some "early serial", [], [1], [], true, false, 0, .none,
          some fun context _ => (context, ⟨.ran, [1], []⟩)⟩] }

theorem boot_ledger_validate_two_stages :
    twoStageLedger.descriptors.length ≤ bootLedgerStageCapacity ∧
      (bootLedgerValidate twoStageLedger).1 = .ok ∧
      Plannable twoStageLedger.descriptors ∧
      (bootLedgerValidate twoStageLedger).2.canonicalOrder = [1, 0] := by
  have ok : (bootLedgerValidate twoStageLedger).1 = .ok := by decide
  refine ⟨by decide, ok, ?_, by decide⟩
  exact ((boot_ledger_validate_sound_and_complete twoStageLedger (by decide)).1.mp ok).2

/-- The empty list meets every condition and is refused. -/
theorem boot_ledger_validate_refuses_empty :
    Plannable (bootLedgerReset : BootLedger Unit).descriptors ∧
      (bootLedgerValidate (bootLedgerReset : BootLedger Unit)).1 = .emptyPlan := by
  refine ⟨⟨nofun, nodup_nil, .nil, nofun, nofun, ?_⟩, rfl⟩
  intro i cycle
  obtain ⟨p, need, -⟩ := Relation.TransGen.head'_iff.mp cycle
  exact absurd (needs_lt need).1 (Nat.not_lt_zero i)

end Sapote.Ledger
