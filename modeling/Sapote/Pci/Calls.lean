import Sapote.Pci.Resources

/-!
What each call of `pci_resource.c` can do to the state, in the few updates that the
calls are made of.
-/

namespace Sapote.Pci
open Frames Paging List

theorem validateActiveClaim_ok {s : PciResources} {name : Nat}
    (ok : validateActiveClaim s (s.claims name) = .ok) : (s.claims name).active := by
  rw [validateActiveClaim] at ok
  split at ok
  · cases ok
  next fails =>
  rw [Bool.or_eq_true, not_or, Bool.not_eq_true', Bool.not_eq_false] at fails
  exact fails.1

/-- What `pci_claim_map_bar` has checked before it maps anything. -/
structure MapAdmitted (s : PciResources) (name barIndex first : Nat) (bar : PciBarDescription) :
    Prop where
  active : (s.claims name).active
  listed : (s.claims name).bars[barIndex]? = some bar
  admission : mapBarAdmission s (s.claims name) bar = .ok
  pages : findArenaPages s.arenaBitmap (roundedLengthOf bar / pagingPageSize) = some first

theorem pciClaimMapBar_cases (interrupts refused port : Bool) (s : PciResources)
    (claim : Option Nat) (barIndex : Nat) (region : Bool) :
    let result := pciClaimMapBar interrupts refused port s claim barIndex region
    result.1 ≠ .ok ∧ result.2 = s ∨
      ∃ name bar first, claim = some name ∧ MapAdmitted s name barIndex first bar ∧ result =
        installMapping refused port s name (regionAt (s.claims name) bar barIndex first) := by
  intro result
  unfold result pciClaimMapBar
  split
  · exact .inl ⟨nofun, rfl⟩
  · exact .inl ⟨nofun, rfl⟩
  next name =>
  dsimp only
  split
  next refusal => exact .inl ⟨refusal, rfl⟩
  next live =>
  split
  · exact .inl ⟨nofun, rfl⟩
  split
  · exact .inl ⟨nofun, rfl⟩
  next bar listed =>
  iterate 2
    split
    · exact .inl ⟨nofun, rfl⟩
  split
  next refusal => exact .inl ⟨refusal, rfl⟩
  next admission =>
  split
  · exact .inl ⟨nofun, rfl⟩
  next first pages =>
  exact .inr ⟨name, bar, first, rfl, ⟨validateActiveClaim_ok (not_not.mp live), listed,
    not_not.mp admission, pages⟩, rfl⟩

def clearedArena (s : PciResources) (mapping : PciMmioRegion) : Bitmap :=
  bitmapSetRun (markArena s mapping true) mapping.firstPage mapping.pageCount false

/-- Either the pages could not be had and what was taken is given back, or the mapping
is entered in the claim. -/
theorem installMapping_cases (refused port : Bool) (s : PciResources) (name : Nat)
    (mapping : PciMmioRegion) :
    let mapped := mapRegion refused s.paging mapping
    let result := installMapping refused port s name mapping
    (mapped.1 ≠ .ok ∧ result = (.pagingFailure,
        { s with paging := mapped.2, arenaBitmap := clearedArena s mapping })) ∨
      (∃ status, status ≠ .ok ∧ mapped.1 = .ok ∧ result = (status,
        { s with paging := (unmapRegion mapped.2 mapping).2
                 arenaBitmap := clearedArena s mapping })) ∨
      mapped.1 = .ok ∧ (result = (.ok, enterMapping s name mapping mapped.2) ∨
        result = (.ok, enableDecode (enterMapping s name mapping mapped.2) name)) := by
  unfold installMapping
  dsimp only
  split
  next failed => exact .inl ⟨failed, rfl⟩
  next mapped =>
  split
  · exact .inr (.inl ⟨.pagingFailure, nofun, not_not.mp mapped, rfl⟩)
  split
  · exact .inr (.inr ⟨not_not.mp mapped, .inl rfl⟩)
  split
  · exact .inr (.inl ⟨.configAccess, nofun, not_not.mp mapped, rfl⟩)
  · exact .inr (.inr ⟨not_not.mp mapped, .inr rfl⟩)

theorem dropMapping_cases (s : PciResources) (name : Nat) (mapping : PciMmioRegion) :
    let result := unmapRegion s.paging mapping
    (result.1 ≠ .ok ∧
        dropMapping s name mapping = (.pagingFailure, { s with paging := result.2 })) ∨
      result.1 = .ok ∧
        dropMapping s name mapping = (.ok, leaveMapping s name mapping result.2) := by
  unfold dropMapping
  dsimp only
  split
  next failed => exact .inl ⟨failed, rfl⟩
  next unmapped => exact .inr ⟨not_not.mp unmapped, rfl⟩

theorem pciClaimUnmapLastBar_cases (interrupts : Bool) (s : PciResources) (claim : Option Nat)
    (barIndex : Nat) :
    let result := pciClaimUnmapLastBar interrupts s claim barIndex
    result.1 ≠ .ok ∧ result.2 = s ∨
      ∃ name mapping, claim = some name ∧ (s.claims name).active ∧
        (s.claims name).mappings.getLast? = some mapping ∧
        (s.claims name).busMasterEnabled = false ∧
        result = dropMapping s name mapping := by
  intro result
  unfold result pciClaimUnmapLastBar
  split
  · exact .inl ⟨nofun, rfl⟩
  next name =>
  dsimp only
  split
  next refusal => exact .inl ⟨refusal, rfl⟩
  next live =>
  split
  · exact .inl ⟨nofun, rfl⟩
  split
  · exact .inl ⟨nofun, rfl⟩
  next mapping last =>
  iterate 2
    split
    · exact .inl ⟨nofun, rfl⟩
  next idle =>
  exact .inr ⟨name, mapping, rfl, validateActiveClaim_ok (not_not.mp live), last,
    eq_false_of_ne_true idle, rfl⟩

theorem pciClaimDisableBusMaster_cases (interrupts port : Bool) (s : PciResources)
    (claim : Option Nat) :
    let result := pciClaimDisableBusMaster interrupts port s claim
    result.1 ≠ .ok ∧ result.2 = s ∨
      ∃ name, claim = some name ∧ (s.claims name).active ∧ (s.claims name).busMasterEnabled ∧
        result = (.ok, stopMastering s name) := by
  intro result
  unfold result pciClaimDisableBusMaster
  split
  · exact .inl ⟨nofun, rfl⟩
  next name =>
  dsimp only
  split
  next refusal => exact .inl ⟨refusal, rfl⟩
  next live =>
  split
  · exact .inl ⟨nofun, rfl⟩
  split
  · exact .inl ⟨nofun, rfl⟩
  next mastering =>
  split
  · exact .inl ⟨nofun, rfl⟩
  refine .inr ⟨name, rfl, validateActiveClaim_ok (not_not.mp live), ?_, rfl⟩
  simpa using mastering

/-- What every turn of the loop over the mappings keeps, the loop keeps. -/
theorem dropMappings_induction {P : PciResources → Prop} {name : Nat}
    (step : ∀ s mapping, P s → (s.claims name).mappings.getLast? = some mapping →
      P (dropMapping s name mapping).2) (fuel : Nat) (s : PciResources) (start : P s) :
    P (dropMappings name fuel s).2 := by
  induction fuel generalizing s with
  | zero => exact start
  | succ fuel ih =>
    rw [dropMappings]
    split
    · exact start
    next mapping last =>
    have next := step s mapping start last
    dsimp only
    split
    · exact next
    · exact ih _ next

theorem claims_recordClaim (s : PciResources) (index : Fin pciActiveClaimCapacity) (name : Nat)
    (device : PciAddress) (probed : ProbedBars) : (recordClaim s index name device probed).claims =
      Function.update s.claims name (freshClaim s.nextClaimIdentifier device probed) :=
  rfl

theorem claims_leaveMapping (s : PciResources) (name : Nat) (mapping : PciMmioRegion)
    (paging : PagingState) : (leaveMapping s name mapping paging).claims =
      Function.update s.claims name
        { s.claims name with mappings := (s.claims name).mappings.dropLast } :=
  rfl

/-- With a turn for each mapping, a loop that reports success has taken down all. -/
theorem dropMappings_ok {name : Nat} (fuel : Nat) (s : PciResources)
    (enough : (s.claims name).mappings.length ≤ fuel) (ok : (dropMappings name fuel s).1 = .ok) :
    ((dropMappings name fuel s).2.claims name).mappings = [] := by
  induction fuel generalizing s with
  | zero => exact eq_nil_of_length_eq_zero (Nat.le_zero.mp enough)
  | succ fuel ih =>
    rw [dropMappings] at ok ⊢
    split
    next none => exact getLast?_eq_none_iff.mp none
    next mapping last =>
    rw [last] at ok
    dsimp only at ok ⊢
    obtain failed | left := dropMapping_cases s name mapping
    · rw [failed.2, if_pos nofun] at ok
      cases ok
    · rw [left.2, if_neg (not_not.mpr rfl)] at ok ⊢
      apply ih _ _ ok
      rw [claims_leaveMapping, Function.update_self, length_dropLast]
      omega

def released (s : PciResources) (name : Nat) : PciResources :=
  if (s.claims name).busMasterEnabled then stopMastering s name else s

theorem finishRelease_cases (commandPort : Bool) (s : PciResources)
    (index : Fin pciActiveClaimCapacity) (name : Nat) :
    let dropped := dropMappings name (s.claims name).mappings.length s
    (finishRelease commandPort s index name).2 = dropped.2 ∨ dropped.1 = .ok ∧
      finishRelease commandPort s index name = (.ok, retireClaim dropped.2 index name) := by
  unfold finishRelease
  dsimp only
  split
  · exact .inl rfl
  next dropped =>
  split
  · exact .inl rfl
  · exact .inr ⟨not_not.mp dropped, rfl⟩

/-- What a call can do to the resources. -/
inductive Changes (s : PciResources) : ResourceOp → PciResources → Prop
  | kept {op : ResourceOp} : Changes s op s
  | cleared {interrupts : Bool} {answers : ProbeAnswers} {function : Option PciFunction}
      {name : Nat} (device : PciAddress) :
      Changes s (.claimDevice interrupts answers function (some name))
        (s.setClaim name (clearedClaim device))
  | claimed {interrupts : Bool} {answers : ProbeAnswers} {function : Option PciFunction}
      {name : Nat} {known : PciFunction} {index : Fin pciActiveClaimCapacity}
      {probed : ProbedBars}
      (unclaimed : ∀ i, (s.claimRecords i).active →
        (s.claimRecords i).device ≠ known.address)
      (free : (s.claimRecords index).active = false) (sized : probeBars answers known = .ok probed)
      (valid : validateClaimBars s.claimRecords probed.bars = .ok) :
      Changes s (.claimDevice interrupts answers function (some name))
        (recordClaim s index name known.address probed)
  | mapped {op : ResourceOp} {name barIndex first : Nat} {bar : PciBarDescription}
      (refused port : Bool) (admitted : MapAdmitted s name barIndex first bar) :
      Changes s op
        (installMapping refused port s name (regionAt (s.claims name) bar barIndex first)).2
  | unmapped {op : ResourceOp} {name : Nat} {mapping : PciMmioRegion}
      (active : (s.claims name).active) (last : (s.claims name).mappings.getLast? = some mapping)
      (idle : (s.claims name).busMasterEnabled = false) : Changes s op (dropMapping s name mapping).2
  | started {op : ResourceOp} {name : Nat} (active : (s.claims name).active)
      (off : (s.claims name).busMasterEnabled = false) (mapped : (s.claims name).mappings ≠ []) :
      Changes s op (startMastering s name)
  | stopped {op : ResourceOp} {name : Nat} (active : (s.claims name).active)
      (on : (s.claims name).busMasterEnabled) : Changes s op (stopMastering s name)
  | finished {op : ResourceOp} {name : Nat} {index : Fin pciActiveClaimCapacity}
      (commandPort : Bool) (active : (s.claims name).active)
      (found : findClaimRecord s (s.claims name) = some index) :
      Changes s op (finishRelease commandPort (released s name) index name).2

theorem pciClaimDevice_changes (interrupts : Bool) (answers : ProbeAnswers) (s : PciResources)
    (function : Option PciFunction) (claim : Option Nat) :
    Changes s (.claimDevice interrupts answers function claim)
      (pciClaimDevice interrupts answers s function claim).2 := by
  unfold pciClaimDevice
  split
  swap
  · exact .kept
  next known name =>
  iterate 4
    split
    · exact .kept
  next unclaimed =>
  split
  · exact .kept
  next index free =>
  split
  · exact .cleared known.address
  next probed sized =>
  dsimp only
  split
  · exact .cleared known.address
  next valid =>
  refine .claimed ?_ ?_ sized (not_not.mp valid)
  · intro i active same
    apply unclaimed
    exact any_eq_true.mpr ⟨i, mem_finRange i, by simp [active, same]⟩
  · have found := find?_some free
    simpa using found

theorem pciClaimEnableBusMaster_changes (interrupts port : Bool) (s : PciResources)
    (claim : Option Nat) (request : Option PciBusMasterRequest) {op : ResourceOp} :
    Changes s op (pciClaimEnableBusMaster interrupts port s claim request).2 := by
  unfold pciClaimEnableBusMaster
  split
  · exact .kept
  next name =>
  dsimp only
  split
  · exact .kept
  next live =>
  iterate 4
    split
    · exact .kept
  next idle =>
  split
  · exact .kept
  next prepared =>
  iterate 2
    split
    · exact .kept
  refine .started (validateActiveClaim_ok (not_not.mp live)) (eq_false_of_ne_true idle) ?_
  intro none
  exact prepared (by simp [none])

theorem pciReleaseDevice_changes (interrupts masterPort commandPort : Bool) (s : PciResources)
    (claim : Option Nat) {op : ResourceOp} :
    Changes s op (pciReleaseDevice interrupts masterPort commandPort s claim).2 := by
  unfold pciReleaseDevice
  split
  · exact .kept
  next name =>
  dsimp only
  split
  · exact .kept
  next index found =>
  split
  · exact .kept
  next active =>
  have finished := @Changes.finished s op name index commandPort (by simpa using active) found
  split
  · exact .kept
  by_cases mastering : (s.claims name).busMasterEnabled
  · rw [if_pos mastering]
    rw [released, if_pos mastering] at finished
    obtain refused | ⟨name', same, -, -, result⟩ :=
      pciClaimDisableBusMaster_cases interrupts masterPort s (some name)
    · rw [if_pos refused.1, refused.2]
      exact .kept
    · obtain rfl := Option.some.inj same
      rw [result, if_neg (not_not.mpr rfl)]
      exact finished
  · rw [if_neg mastering, if_neg (not_not.mpr rfl)]
    rwa [released, if_neg mastering] at finished

theorem resourceStep_changes (s : PciResources) (op : ResourceOp) :
    Changes s op (resourceStep s op) := by
  have becomes : ∀ {t u}, t = u → Changes s op u → Changes s op t := fun same change => same ▸ change
  cases op with
  | claimDevice interrupts answers function claim =>
    exact pciClaimDevice_changes interrupts answers s function claim
  | mapBar interrupts refused port claim barIndex region =>
    rcases pciClaimMapBar_cases interrupts refused port s claim barIndex region with
      same | ⟨name, bar, first, -, admitted, result⟩
    · exact becomes same.2 .kept
    · exact becomes (congrArg Prod.snd result) (.mapped refused port admitted)
  | unmapLastBar interrupts claim barIndex =>
    rcases pciClaimUnmapLastBar_cases interrupts s claim barIndex with
      same | ⟨name, mapping, -, active, last, idle, result⟩
    · exact becomes same.2 .kept
    · exact becomes (congrArg Prod.snd result) (.unmapped active last idle)
  | enableBusMaster interrupts port claim request =>
    exact pciClaimEnableBusMaster_changes interrupts port s claim request
  | disableBusMaster interrupts port claim =>
    rcases pciClaimDisableBusMaster_cases interrupts port s claim with
      same | ⟨name, -, active, on, result⟩
    · exact becomes same.2 .kept
    · exact becomes (congrArg Prod.snd result) (.stopped active on)
  | releaseDevice interrupts masterPort commandPort claim =>
    exact pciReleaseDevice_changes interrupts masterPort commandPort s claim

end Sapote.Pci
