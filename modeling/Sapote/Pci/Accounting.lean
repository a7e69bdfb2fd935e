import Sapote.Pci.Arena

/-!
The accounting over whole runs: claims enter and leave the set of live claims, and
every call keeps the state accounted for.
-/

namespace Sapote.Pci
open Frames Paging Library Finset
variable {index : Fin pciActiveClaimCapacity}

section
variable {s : PciResources} {live : Finset Nat} {name : Nat}

/-- An inactive claim is written into an object that is not live or has nothing mapped,
and the object is taken out of the live ones. -/
theorem Accounted.withdrawn (accounted : Accounted s live) {claim : PciDeviceClaim}
    (inactive : claim.active = false) (idle : name ∈ live → (s.claims name).mappings = [] ∧
      (s.claims name).busMasterEnabled = false)
    {records : Fin pciActiveClaimCapacity → ClaimRecord}
    (recorded : ∀ n ∈ live, n ≠ name → ∃ i, records i =
      ⟨(s.claims n).device, (s.claims n).identifier, (s.claims n).bars, true⟩)
    {count : Nat} (counted : count = (live.erase name).card) :
    Accounted { s.setClaim name claim with claimRecords := records, activeClaims := count }
      (live.erase name) := by
  have kept : ∀ {n}, n ≠ name → (s.setClaim name claim).claims n = s.claims n :=
    fun other => Function.update_of_ne other _ _
  have none : ∀ f : PciDeviceClaim → Nat, (name ∈ live → f (s.claims name) = 0) →
      total f s.claims live = total f (s.setClaim name claim).claims (live.erase name) := by
    intro f zero
    by_cases here : name ∈ live
    · rw [← total_erase here claim, zero here, zero_add]
      rfl
    · rw [erase_eq_of_notMem here]
      exact (total_outside here claim).symm
  constructor
  case paging => exact accounted.paging
  case member =>
    intro n
    by_cases mine : n = name
    · subst mine
      rw [show (s.setClaim n claim).claims n = claim from Function.update_self _ _ _, inactive]
      exact iff_of_false (notMem_erase n live) Bool.false_ne_true
    · rw [kept mine, mem_erase, and_iff_right mine]
      exact accounted.member n
  case recorded =>
    intro n member
    obtain ⟨other, old⟩ := mem_erase.mp member
    rw [kept other]
    exact recorded n old other
  case devices =>
    intro m hm n hn
    obtain ⟨otherM, oldM⟩ := mem_erase.mp hm
    obtain ⟨otherN, oldN⟩ := mem_erase.mp hn
    rw [kept otherM, kept otherN]
    exact accounted.devices m oldM n oldN
  case activeClaims => exact counted
  case activeMappings =>
    exact accounted.activeMappings.trans (none _ fun here => by rw [(idle here).1]; rfl)
  case mappedPages =>
    refine accounted.mappedPages.trans (none _ fun here => ?_)
    rw [PciDeviceClaim.pages, (idle here).1]
    rfl
  case busMasters =>
    refine accounted.busMasters.trans (none _ fun here => ?_)
    rw [PciDeviceClaim.mastering, (idle here).2]
    rfl
  case arena =>
    intro page
    refine (accounted.arena page).trans (none _ fun here => ?_)
    rw [PciDeviceClaim.coverage, (idle here).1]
    rfl
  case mappings =>
    intro n member mapping held
    obtain ⟨other, old⟩ := mem_erase.mp member
    rw [kept other] at held ⊢
    exact (accounted.mappings n old mapping held).carried accounted.paging accounted.paging rfl
      (fun _ _ => rfl) rfl rfl
  case mastering =>
    intro n member
    obtain ⟨other, old⟩ := mem_erase.mp member
    rw [kept other]
    exact accounted.mastering n old

/-- A claim object outside the live ones may be written. -/
theorem Accounted.cleared (accounted : Accounted s live) (away : name ∉ live)
    (claim : PciDeviceClaim) (inactive : claim.active = false) :
    Accounted (s.setClaim name claim) live := by
  have same := erase_eq_of_notMem away
  have cleared := accounted.withdrawn inactive (fun here => absurd here away)
    (fun n here _ => accounted.recorded n here) (same.symm ▸ accounted.activeClaims)
  rwa [same] at cleared

/-- A claim with nothing mapped taken out of the live ones, with its record. -/
theorem Accounted.retired (accounted : Accounted s live) (here : name ∈ live)
    (unmapped : (s.claims name).mappings = []) (idle : (s.claims name).busMasterEnabled = false)
    (record : (s.claimRecords index).device = (s.claims name).device) :
    Accounted (retireClaim s index name) (live.erase name) := by
  refine accounted.withdrawn rfl (fun _ => ⟨unmapped, idle⟩) ?_ ?_
  · intro n old other
    obtain ⟨i, found⟩ := accounted.recorded n old
    refine ⟨i, Eq.trans (Function.update_of_ne ?_ _ _) found⟩
    intro same
    rw [same] at found
    rw [found] at record
    exact other (accounted.devices n old name here record)
  · have positive := card_pos.mpr ⟨name, here⟩
    rw [card_erase_of_mem here, ← accounted.activeClaims]
    rw [← accounted.activeClaims] at positive
    exact if_pos positive

/-- A new claim, into an object that was not live and a free record. -/
theorem Accounted.claimed (accounted : Accounted s live) (away : name ∉ live) {device : PciAddress}
    (probed : ProbedBars)
    (unclaimed : ∀ i, (s.claimRecords i).active → (s.claimRecords i).device ≠ device)
    (free : (s.claimRecords index).active = false) :
    Accounted (recordClaim s index name device probed) (insert name live) := by
  have kept : ∀ {n}, n ∈ live → (recordClaim s index name device probed).claims n = s.claims n := by
    intro n here
    have other : n ≠ name := fun same => away (same ▸ here)
    rw [claims_recordClaim, Function.update_of_ne other]
  have mine : (recordClaim s index name device probed).claims name =
      freshClaim s.nextClaimIdentifier device probed := by
    rw [claims_recordClaim, Function.update_self]
  have foreign : ∀ {n}, n ∈ live → (s.claims n).device ≠ device := by
    intro n here same
    obtain ⟨i, record⟩ := accounted.recorded n here
    refine unclaimed i (by rw [record]) ?_
    rw [record]
    exact same
  have none : ∀ (f : PciDeviceClaim → Nat) (claim : PciDeviceClaim), f claim = 0 →
      total f (Function.update s.claims name claim) (insert name live) = total f s.claims live := by
    intro f claim zero
    rw [total_insert away, zero, zero_add]
  constructor
  case paging => exact accounted.paging
  case member =>
    intro n
    by_cases new : n = name
    · rw [new, mine]
      exact iff_of_true (mem_insert_self name live) rfl
    · rw [claims_recordClaim, Function.update_of_ne new, mem_insert, or_iff_right new]
      exact accounted.member n
  case recorded =>
    refine (forall_mem_insert _ _ _).mpr ⟨?_, fun n old => ?_⟩
    · rw [mine]
      exact ⟨index, Function.update_self _ _ _⟩
    · rw [kept old]
      obtain ⟨i, record⟩ := accounted.recorded n old
      refine ⟨i, Eq.trans (Function.update_of_ne ?_ _ _) record⟩
      intro same
      rw [← same, record] at free
      cases free
  case devices =>
    refine (forall_mem_insert _ _ _).mpr ⟨?_, fun m oldM => ?_⟩ <;>
      refine (forall_mem_insert _ _ _).mpr ⟨fun same => ?_, fun n oldN same => ?_⟩
    · rfl
    · rw [mine, kept oldN] at same
      exact absurd same.symm (foreign oldN)
    · rw [mine, kept oldM] at same
      exact absurd same (foreign oldM)
    · rw [kept oldM, kept oldN] at same
      exact accounted.devices m oldM n oldN same
  case activeClaims =>
    rw [card_insert_of_notMem away, ← accounted.activeClaims]
    rfl
  case activeMappings => exact accounted.activeMappings.trans (none _ _ rfl).symm
  case mappedPages => exact accounted.mappedPages.trans (none _ _ rfl).symm
  case busMasters => exact accounted.busMasters.trans (none _ _ rfl).symm
  case arena =>
    intro page
    exact (accounted.arena page).trans (none _ _ rfl).symm
  case mappings =>
    refine (forall_mem_insert _ _ _).mpr ⟨?_, fun n old mapping held => ?_⟩
    · rw [mine]
      exact List.forall_mem_nil _
    · rw [kept old] at held ⊢
      exact (accounted.mappings n old mapping held).carried accounted.paging accounted.paging rfl
        (fun _ _ => rfl) rfl rfl
  case mastering =>
    refine (forall_mem_insert _ _ _).mpr ⟨?_, fun n old => ?_⟩
    · rw [mine]
      nofun
    · rw [kept old]
      exact accounted.mastering n old

theorem accounted_of_initialized (start : Initialized s) (paging : PagingSound s.paging)
    (idle : ∀ n, (s.claims n).active = false) : Accounted s ∅ := by
  constructor
  case paging => exact paging
  case member =>
    intro n
    rw [idle n]
    exact iff_of_false (notMem_empty n) Bool.false_ne_true
  case activeClaims => rw [start.activeClaims, card_empty]
  case activeMappings => rw [start.activeMappings, total_empty]
  case mappedPages => rw [start.mappedPages, total_empty]
  case busMasters => rw [start.busMasters, total_empty]
  case arena =>
    intro page
    rw [start.arena, arenaBit, bitmapGet_bitmapFill_zero, total_empty]
    rfl
  all_goals
    intro n here
    exact absurd here (notMem_empty n)

theorem Accounted.started (accounted : Accounted s live) (here : name ∈ live)
    (off : (s.claims name).busMasterEnabled = false) (mapped : (s.claims name).mappings ≠ []) :
    Accounted (startMastering s name) live := by
  refine accounted.commanded here _ _ _ _ ?_ fun _ => mapped
  rw [PciDeviceClaim.mastering, off]
  rfl

theorem Accounted.stopped (accounted : Accounted s live) (here : name ∈ live)
    (on : (s.claims name).busMasterEnabled) : Accounted (stopMastering s name) live := by
  have mastering : (s.claims name).mastering = 1 := by
    rw [PciDeviceClaim.mastering, on]
    rfl
  have counted : (s.claims name).mastering ≤ s.busMasters := by
    rw [accounted.busMasters]
    exact le_total here
  refine accounted.commanded here _ _ _ _ ?_ fun on => by cases on
  rw [sizeSub, if_pos (by omega), Bool.toNat_false]
  omega

structure Releasing (s : PciResources) (name : Nat) (live : Finset Nat) (t : PciResources) :
    Prop where
  accounted : Accounted t live
  idle : (t.claims name).busMasterEnabled = false
  device : (t.claims name).device = (s.claims name).device
  records : t.claimRecords = s.claimRecords

theorem releasing_start (accounted : Accounted s live) (here : name ∈ live) :
    Releasing s name live (released s name) := by
  by_cases on : (s.claims name).busMasterEnabled
  · have stopped : released s name = stopMastering s name := if_pos on
    have claim : (stopMastering s name).claims name = _ := Function.update_self _ _ _
    rw [stopped]
    refine ⟨accounted.stopped here on, ?_, ?_, rfl⟩ <;> rw [claim]
  · have kept : released s name = s := if_neg on
    rw [kept]
    exact ⟨accounted, eq_false_of_ne_true on, rfl, rfl⟩

theorem Releasing.dropped {t : PciResources} (releasing : Releasing s name live t)
    (here : name ∈ live) {mapping : PciMmioRegion}
    (last : (t.claims name).mappings.getLast? = some mapping) :
    Releasing s name live (dropMapping t name mapping).2 := by
  refine ⟨releasing.accounted.dropped here last releasing.idle, ?_, ?_,
    (claimRecords_dropMapping t name mapping).trans releasing.records⟩
  all_goals
    obtain failed | left := dropMapping_cases t name mapping
    · first
        | (rw [failed.2]; exact releasing.idle)
        | (rw [failed.2]; exact releasing.device)
    · rw [left.2, claims_leaveMapping, Function.update_self]
      first
        | exact releasing.idle
        | exact releasing.device

theorem Accounted.finished (accounted : Accounted s live) (here : name ∈ live) (commandPort : Bool)
    (record : (s.claimRecords index).device = (s.claims name).device) :
    ∃ live', Accounted (finishRelease commandPort (released s name) index name).2 live' := by
  have releasing := dropMappings_induction (P := Releasing s name live)
    (fun t mapping releasing last => releasing.dropped here last)
    ((released s name).claims name).mappings.length (released s name)
    (releasing_start accounted here)
  obtain stopped | retired := finishRelease_cases commandPort (released s name) index name
  · rw [stopped]
    exact ⟨live, releasing.accounted⟩
  · rw [retired.2]
    refine ⟨live.erase name, releasing.accounted.retired here
      (dropMappings_ok _ _ (le_refl _) retired.1) releasing.idle ?_⟩
    rw [releasing.records, releasing.device, record]

/-- The claim object that a claim is made into is not in use. -/
def IntoInactive (s : PciResources) : ResourceOp → Prop
  | .claimDevice _ _ _ (some name) => (s.claims name).active = false
  | _ => True

theorem Accounted.step (accounted : Accounted s live) (op : ResourceOp)
    (fresh : IntoInactive s op) : ∃ live', Accounted (resourceStep s op) live' := by
  have member : ∀ {name}, (s.claims name).active → name ∈ live := (accounted.member _).mpr
  have away : ∀ {name}, (s.claims name).active = false → name ∉ live := by
    intro name inactive here
    rw [(accounted.member name).mp here] at inactive
    cases inactive
  have change := resourceStep_changes s op
  generalize resourceStep s op = t at change ⊢
  cases change with
  | kept => exact ⟨live, accounted⟩
  | cleared device => exact ⟨live, accounted.cleared (away fresh) _ rfl⟩
  | claimed unclaimed free => exact ⟨_, accounted.claimed (away fresh) _ unclaimed free⟩
  | mapped refused port admitted => exact ⟨live, accounted.installed admitted refused port⟩
  | unmapped active last idle => exact ⟨live, accounted.dropped (member active) last idle⟩
  | started active off mapped => exact ⟨live, accounted.started (member active) off mapped⟩
  | stopped active on => exact ⟨live, accounted.stopped (member active) on⟩
  | finished commandPort active found =>
    have fits := List.find?_some found
    simp only [Bool.and_eq_true, decide_eq_true_eq] at fits
    exact accounted.finished (member active) commandPort fits.2

/-- With no live claim the arena is empty and every count is zero. -/
theorem Accounted.all_released (accounted : Accounted s live)
    (none : ∀ n, (s.claims n).active = false) :
    (∀ page, arenaBit s.arenaBitmap page = false) ∧ s.activeClaims = 0 ∧ s.activeMappings = 0 ∧
      s.mappedPages = 0 ∧ s.busMasters = 0 := by
  have empty : live = ∅ := by
    apply eq_empty_of_forall_notMem
    intro n here
    have active := (accounted.member n).mp here
    rw [none n] at active
    cases active
  subst empty
  refine ⟨?_, accounted.activeClaims, accounted.activeMappings, accounted.mappedPages,
    accounted.busMasters⟩
  intro page
  have bit := accounted.arena page
  exact Bool.toNat_eq_zero.mp bit

end

/-- The arena and the claims stay accounted for through every run of calls that claims
into objects not in use, whatever the tables and the command registers refuse. -/
theorem arena_accounted_over_runs {s : PciResources} (start : Initialized s)
    (paging : PagingSound s.paging) (idle : ∀ n, (s.claims n).active = false)
    (ops : List ResourceOp) (fresh : Along resourceStep IntoInactive s ops) :
    Throughout resourceStep (fun t => (∃ live, Accounted t live) ∧
      ((∀ n, (t.claims n).active = false) →
        (∀ page, arenaBit t.arenaBitmap page = false) ∧ t.activeClaims = 0 ∧
          t.activeMappings = 0 ∧ t.mappedPages = 0 ∧ t.busMasters = 0)) s ops := by
  intro done pre
  obtain ⟨live, accounted⟩ := throughout_of_along resourceStep (fun t => ∃ live, Accounted t live)
    IntoInactive (fun _ op inv => inv.elim fun _ accounted => accounted.step op) ops s
    ⟨∅, accounted_of_initialized start paging idle⟩ fresh done pre
  exact ⟨⟨live, accounted⟩, accounted.all_released⟩

def mappedRun : List ResourceOp :=
  [claimPage 1 1 0x00000004, .mapBar false false true (some 1) 0 true,
    .enableBusMaster false true (some 1) (some ⟨1, fun _ => true⟩),
    .releaseDevice false true true (some 1)]

theorem arena_accounted_mapped_run :
    Along resourceStep IntoInactive pairResources mappedRun ∧
      (run resourceStep pairResources (mappedRun.take 3)).mappedPages = 1 ∧
      (run resourceStep pairResources (mappedRun.take 3)).busMasters = 1 ∧
      (run resourceStep pairResources mappedRun).activeClaims = 0 ∧
      (∃ live, Accounted (run resourceStep pairResources (mappedRun.take 3)) live) ∧
      ∃ live, Accounted (run resourceStep pairResources mappedRun) live := by
  have fresh : Along resourceStep IntoInactive pairResources mappedRun :=
    ⟨rfl, trivial, trivial, trivial, trivial⟩
  have accounted := arena_accounted_over_runs pairResources_initialized arenaPaging_sound
    (fun _ => rfl) mappedRun fresh
  exact ⟨fresh, by decide +kernel, by decide +kernel, by decide +kernel,
    (accounted _ (List.take_prefix 3 _)).1, (accounted _ (List.prefix_refl _)).1⟩

end Sapote.Pci
