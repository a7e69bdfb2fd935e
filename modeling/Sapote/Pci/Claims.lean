import Sapote.Library.Checks
import Sapote.Pci.Calls

/-!
The address ranges of claimed functions. `validate_bar` accepts a BAR whose last byte
is the last of the 64-bit space, but `ranges_overlap` takes no range that ends there
for an overlap. Ranges that end below it are kept apart through every run of calls.
-/

namespace Sapote.Pci
open Frames Library List Function
variable {bars : List PciBarDescription} {s : PciResources} {bar second first : PciBarDescription}
  {answers : ProbeAnswers} {u : Unit} {device : PciAddress} {original : Nat → BitVec 32}
  {probed : ProbedBars} {t : PciResources}

def Apart (first second : PciBarDescription) : Prop :=
  first.base + first.size ≤ second.base ∨ second.base + second.size ≤ first.base

/-- The implemented BARs of one address space, of all live claims, are disjoint. -/
def ClaimedApart (s : PciResources) : Prop :=
  ∀ i j, (s.claimRecords i).active → (s.claimRecords j).active →
    ∀ (p q : Nat) (first second : PciBarDescription), (s.claimRecords i).bars[p]? = some first →
      (s.claimRecords j).bars[q]? = some second → (i, p) ≠ (j, q) →
      first.implemented → second.implemented →
      (first.kind = .io ↔ second.kind = .io) → Apart first second

/-- A register that holds the lower half of a 64-bit memory BAR. -/
def holdsMemory64 (low : BitVec 32) : Prop :=
  low &&& pciBarIoIndicator = 0 ∧ low &&& pciBarMemoryTypeMask = pciBarMemoryType64

/-- No 64-bit BAR of the function is programmed with its own size mask, which is the one
base from which a BAR reaches to the end of the address space. -/
def ProbeAnswers.EndsBelowTop (answers : ProbeAnswers) : Prop :=
  ∀ original, answers.original = some original → ∀ index maskLow maskHigh,
    answers.sizing index = some maskLow → answers.sizing (index + 1) = some maskHigh →
    holdsMemory64 (original index) →
    barWord (original (index + 1)) (original index) ≠ barWord maskHigh maskLow

def BelowTop (_ : PciResources) : ResourceOp → Prop
  | .claimDevice _ answers _ _ => answers.EndsBelowTop
  | _ => True

/-- A described range that is not empty and ends below the end of the address space. -/
def Bounded (bar : PciBarDescription) : Prop :=
  bar.implemented → 0 < bar.size ∧ bar.base + bar.size < 2 ^ 64

theorem apart_symm (apart : Apart first second) : Apart second first :=
  Or.symm apart

theorem rangeEndExclusive_bounded (positive : 0 < bar.size) (below : bar.base + bar.size < 2 ^ 64) :
    rangeEndExclusive bar.base bar.size = some (bar.base + bar.size) := by
  rw [rangeEndExclusive, if_neg]
  unfold uint64Max
  omega

/-- For bounded ranges the overlap test is exact. -/
theorem apart_of_no_conflict (bounded : Bounded first) (bounded' : Bounded second)
    (here : first.implemented) (there : second.implemented)
    (space : first.kind = .io ↔ second.kind = .io) (clear : barsConflict first second = false) :
    Apart first second := by
  obtain ⟨positive, below⟩ := bounded here
  obtain ⟨positive', below'⟩ := bounded' there
  rw [barsConflict, here, there, decide_eq_true space, rangesOverlap,
    rangeEndExclusive_bounded positive below, rangeEndExclusive_bounded positive' below'] at clear
  simp only [Bool.true_and, Bool.and_eq_false_iff, decide_eq_false_iff_not, not_lt] at clear
  exact clear.symm

theorem conflictWithin_pairwise (clear : conflictWithin bars = false) :
    bars.Pairwise fun first second => barsConflict first second = false := by
  induction bars with
  | nil => exact .nil
  | cons first rest ih =>
    rw [conflictWithin, Bool.or_eq_false_iff, any_eq_false] at clear
    refine pairwise_cons.mpr ⟨?_, ih clear.2⟩
    intro second member
    exact eq_false_of_ne_true (clear.1 second member)

theorem validateClaimBars_ok {records : Fin pciActiveClaimCapacity → ClaimRecord}
    (ok : validateClaimBars records bars = .ok) :
    (bars.Pairwise fun first second => barsConflict first second = false) ∧
      ∀ i, (records i).active → ∀ current ∈ bars, ∀ owned ∈ (records i).bars,
        barsConflict current owned = false := by
  rw [validateClaimBars] at ok
  split at ok
  · cases ok
  next within =>
  split at ok
  · cases ok
  next across =>
  refine ⟨conflictWithin_pairwise (eq_false_of_ne_true within), ?_⟩
  intro i active current member owned member'
  by_contra conflict
  apply across
  refine any_eq_true.mpr ⟨i, mem_finRange i, ?_⟩
  rw [active, Bool.true_and]
  exact any_eq_true.mpr ⟨current, member, any_eq_true.mpr
    ⟨owned, member', Bool.eq_true_of_not_eq_false conflict⟩⟩

theorem requireStatus_ok {status : PciResourceStatus} (ok : requireStatus status = .ok u) :
    status = .ok := by
  rw [requireStatus] at ok
  split at ok
  next here => exact here
  next => cases ok

theorem answered_ok {α : Type} {answer : Option α} {value : α} (ok : answered answer = .ok value) :
    answer = some value := by
  cases answer with
  | none => cases ok
  | some found =>
    cases ok
    rfl

theorem validateBar_ok (ok : validateBar bar = .ok) (here : bar.implemented)
    (word : bar.base < 2 ^ 64) : 0 < bar.size ∧ bar.base + bar.size ≤ 2 ^ 64 := by
  rw [validateBar, here, if_neg (by decide)] at ok
  iterate 4
    split at ok
    · cases ok
  next fits =>
  unfold uint64Max at fits
  omega

/-- A size is what is missing from its mask to the end of the word. -/
theorem toNat_size (mask : BitVec 64) (positive : 0 < (~~~mask + 1).toNat) :
    (~~~mask + 1).toNat + mask.toNat = 2 ^ 64 := by
  bv_omega

/-- The only base from which a 64-bit BAR ends with the address space is its size mask. -/
theorem bounded_memory64 {word mask : BitVec 64} (base : bar.base = word.toNat)
    (size : bar.size = (~~~mask + 1).toNat) (valid : validateBar bar = .ok)
    (differs : word ≠ mask) : Bounded bar := by
  intro here
  have bound : bar.base < 2 ^ 64 := by
    rw [base]
    exact word.isLt
  obtain ⟨positive, fits⟩ := validateBar_ok valid here bound
  refine ⟨positive, Nat.lt_of_le_of_ne fits ?_⟩
  intro top
  apply differs
  apply BitVec.eq_of_toNat_eq
  have missing := toNat_size mask (by rw [← size]; exact positive)
  omega

/-- A BAR of 32-bit registers cannot reach that far. -/
theorem bounded_register {word mask : BitVec 32} (base : bar.base = word.toNat)
    (size : bar.size = mask.toNat) (valid : validateBar bar = .ok) : Bounded bar := by
  intro here
  obtain ⟨positive, -⟩ := validateBar_ok valid here (by omega)
  exact ⟨positive, by omega⟩

theorem bounded_blank (device : PciAddress) (index pair : Nat) : Bounded (blankBar device index pair) :=
  nofun

theorem describeBar_bounded {barCount index : Nat} {found : List PciBarDescription}
    (below : answers.EndsBelowTop) (read : answers.original = some original)
    (ok : describeBar answers device original barCount index = .ok found)
    (valid : ∀ bar ∈ found, validateBar bar = .ok) : ∀ bar ∈ found, Bounded bar := by
  obtain ⟨maskLow, sized, ok⟩ := bind_eq_ok.mp ok
  have sizing := answered_ok sized
  split at ok
  · cases ok
    exact forall_mem_singleton.mpr (bounded_blank _ _ _)
  split at ok
  · cases ok
    rw [forall_mem_singleton] at valid ⊢
    exact bounded_register rfl rfl valid
  next memory =>
  split at ok
  · cases ok
    rw [forall_mem_singleton] at valid ⊢
    exact bounded_register rfl rfl valid
  split at ok
  · cases ok
  next wide =>
  obtain ⟨-, -, ok⟩ := bind_eq_ok.mp ok
  obtain ⟨maskHigh, sizedHigh, ok⟩ := bind_eq_ok.mp ok
  cases ok
  have differs := below original read index maskLow maskHigh sizing (answered_ok sizedHigh)
    ⟨not_not.mp memory, not_not.mp wide⟩
  rw [forall_mem_cons, forall_mem_singleton] at valid ⊢
  exact ⟨bounded_memory64 rfl rfl valid.1 differs, bounded_blank _ _ _⟩

theorem forM_requireStatus (ok : (bars.forM fun bar => requireStatus (validateBar bar)) = .ok u) :
    ∀ bar ∈ bars, validateBar bar = .ok := by
  induction bars with
  | nil => exact forall_mem_nil _
  | cons bar rest ih =>
    obtain ⟨_, first, ok⟩ := bind_eq_ok.mp (ok : _ >>= (fun _ => rest.forM _) = _)
    exact forall_mem_cons.mpr ⟨requireStatus_ok first, ih ok⟩

theorem sizeBars_bounded {barCount fuel index : Nat} (below : answers.EndsBelowTop)
    (read : answers.original = some original)
    (ok : sizeBars answers device original barCount fuel index = .ok bars) :
    ∀ bar ∈ bars, Bounded bar := by
  induction fuel generalizing index bars with
  | zero =>
    cases ok
    exact forall_mem_nil _
  | succ fuel ih =>
    rw [sizeBars] at ok
    split at ok
    · cases ok
      exact forall_mem_nil _
    obtain ⟨found, described, ok⟩ := bind_eq_ok.mp ok
    obtain ⟨_, checked, ok⟩ := bind_eq_ok.mp ok
    obtain ⟨rest, later, ok⟩ := bind_eq_ok.mp ok
    cases ok
    exact forall_mem_append.mpr
      ⟨describeBar_bounded below read described (forM_requireStatus checked), ih later⟩

theorem probeBars_bounded {function : PciFunction} (below : answers.EndsBelowTop)
    (ok : probeBars answers function = .ok probed) : ∀ bar ∈ probed.bars, Bounded bar := by
  obtain ⟨barCount, -, ok⟩ := bind_eq_ok.mp ok
  obtain ⟨command, -, ok⟩ := bind_eq_ok.mp ok
  obtain ⟨original, read, ok⟩ := bind_eq_ok.mp ok
  obtain ⟨-, -, ok⟩ := bind_eq_ok.mp ok
  obtain ⟨-, -, ok⟩ := bind_eq_ok.mp ok
  obtain ⟨bars, sized, ok⟩ := bind_eq_ok.mp ok
  obtain ⟨-, -, ok⟩ := bind_eq_ok.mp ok
  cases ok
  obtain ⟨observed, -, sized⟩ := bind_eq_ok.mp sized
  obtain ⟨-, -, sized⟩ := bind_eq_ok.mp sized
  exact sizeBars_bounded below (answered_ok read) sized

def RecordsKept (s t : PciResources) : Prop :=
  ∀ i, (t.claimRecords i).active → t.claimRecords i = s.claimRecords i

theorem recordsKept_of_eq (same : t.claimRecords = s.claimRecords) : RecordsKept s t := by
  intro i _
  rw [same]

theorem claimRecords_dropMapping (s : PciResources) (name : Nat) (mapping : PciMmioRegion) :
    (dropMapping s name mapping).2.claimRecords = s.claimRecords := by
  obtain failed | left := dropMapping_cases s name mapping
  · rw [failed.2]
  · rw [left.2]
    rfl

theorem claimRecords_installMapping (refused port : Bool) (s : PciResources) (name : Nat)
    (mapping : PciMmioRegion) :
    (installMapping refused port s name mapping).2.claimRecords = s.claimRecords := by
  obtain failed | rest := installMapping_cases refused port s name mapping
  · rw [failed.2]
  obtain undone | entered := rest
  · obtain ⟨status, -, -, result⟩ := undone
    rw [result]
  obtain result | result := entered.2
  · rw [result]
    rfl
  · rw [result]
    rfl

theorem claimRecords_released (s : PciResources) (name : Nat) :
    (released s name).claimRecords = s.claimRecords := by
  unfold released
  split <;> rfl

theorem recordsKept_finishRelease (commandPort : Bool) (s : PciResources)
    (index : Fin pciActiveClaimCapacity) (name : Nat) :
    RecordsKept s (finishRelease commandPort (released s name) index name).2 := by
  have dropped : ∀ fuel, (dropMappings name fuel (released s name)).2.claimRecords =
      s.claimRecords := by
    intro fuel
    refine dropMappings_induction (P := fun t => t.claimRecords = s.claimRecords) ?_ fuel _
      (claimRecords_released s name)
    intro t mapping same _
    exact (claimRecords_dropMapping t name mapping).trans same
  obtain stopped | retired := finishRelease_cases commandPort (released s name) index name
  · exact recordsKept_of_eq ((congrArg PciResources.claimRecords stopped).trans (dropped _))
  intro i active
  rw [retired.2, retireClaim] at active ⊢
  dsimp only at active ⊢
  by_cases mine : i = index
  · subst mine
    rw [update_self] at active
    cases active
  · rw [update_of_ne mine, dropped]

structure RangesSound (s : PciResources) : Prop where
  bounded : ∀ i, (s.claimRecords i).active → ∀ bar ∈ (s.claimRecords i).bars, Bounded bar
  apart : ClaimedApart s

theorem RangesSound.kept (sound : RangesSound s) (kept : RecordsKept s t) : RangesSound t := by
  constructor
  · intro i active
    have same := kept i active
    rw [same] at active ⊢
    exact sound.bounded i active
  · intro i j active active'
    have same := kept i active
    have same' := kept j active'
    rw [same] at active ⊢
    rw [same'] at active' ⊢
    exact sound.apart i j active active'

/-- Two BARs of one list that the pairwise test passed. -/
theorem apart_within (bounded : ∀ bar ∈ bars, Bounded bar)
    (clear : bars.Pairwise fun first second => barsConflict first second = false) {p q : Nat}
    (hp : bars[p]? = some first) (hq : bars[q]? = some second) (differ : p ≠ q)
    (here : first.implemented) (there : second.implemented)
    (space : first.kind = .io ↔ second.kind = .io) : Apart first second := by
  have b := bounded first (List.mem_of_getElem? hp)
  have b' := bounded second (List.mem_of_getElem? hq)
  obtain ⟨smallP, rfl⟩ := List.getElem?_eq_some_iff.mp hp
  obtain ⟨smallQ, rfl⟩ := List.getElem?_eq_some_iff.mp hq
  obtain before | after := Nat.lt_or_gt_of_ne differ
  · exact apart_of_no_conflict b b' here there space
      (pairwise_iff_getElem.mp clear p q smallP smallQ before)
  · exact apart_symm (apart_of_no_conflict b' b there here space.symm
      (pairwise_iff_getElem.mp clear q p smallQ smallP after))

theorem RangesSound.recorded (sound : RangesSound s) {known : PciFunction}
    (below : answers.EndsBelowTop) (sized : probeBars answers known = .ok probed)
    (valid : validateClaimBars s.claimRecords probed.bars = .ok)
    (index : Fin pciActiveClaimCapacity) (name : Nat) :
    RangesSound (recordClaim s index name known.address probed) := by
  have bounded := probeBars_bounded below sized
  obtain ⟨within, across⟩ := validateClaimBars_ok valid
  have records : (recordClaim s index name known.address probed).claimRecords =
      update s.claimRecords index
        ⟨known.address, s.nextClaimIdentifier, probed.bars, true⟩ := rfl
  -- A range of the new claim and one of a claim that was there.
  have mixed : ∀ j, (s.claimRecords j).active → ∀ first ∈ probed.bars,
      ∀ second ∈ (s.claimRecords j).bars, first.implemented → second.implemented →
      (first.kind = .io ↔ second.kind = .io) → Apart first second := by
    intro j active first member second member' here there space
    exact apart_of_no_conflict (bounded first member) (sound.bounded j active second member') here
      there space (across j active first member second member')
  constructor
  · intro i active
    rw [records] at active ⊢
    by_cases new : i = index
    · subst new
      rw [update_self]
      exact bounded
    · rw [update_of_ne new] at active ⊢
      exact sound.bounded i active
  · intro i j active active' p q first second hp hq differ here there space
    rw [records] at active active' hp hq
    by_cases new : i = index
    · subst new
      rw [update_self] at hp
      by_cases new' : j = i
      · subst new'
        rw [update_self] at hq
        refine apart_within bounded within hp hq ?_ here there space
        intro same
        exact differ (by rw [same])
      · rw [update_of_ne new'] at active' hq
        exact mixed j active' first (List.mem_of_getElem? hp) second (List.mem_of_getElem? hq)
          here there space
    · rw [update_of_ne new] at active hp
      by_cases new' : j = index
      · subst new'
        rw [update_self] at hq
        exact apart_symm (mixed i active second (List.mem_of_getElem? hq) first
          (List.mem_of_getElem? hp) there here space.symm)
      · rw [update_of_ne new'] at active' hq
        exact sound.apart i j active active' p q first second hp hq differ here there space

theorem RangesSound.step (sound : RangesSound s) (op : ResourceOp) (below : BelowTop s op) :
    RangesSound (resourceStep s op) := by
  have change := resourceStep_changes s op
  generalize resourceStep s op = t at change ⊢
  cases change with
  | kept => exact sound
  | claimed _ _ sized valid => exact sound.recorded below sized valid _ _
  | mapped => exact sound.kept (recordsKept_of_eq (claimRecords_installMapping _ _ _ _ _))
  | unmapped => exact sound.kept (recordsKept_of_eq (claimRecords_dropMapping _ _ _))
  | cleared | started | stopped => exact sound.kept (recordsKept_of_eq rfl)
  | finished => exact sound.kept (recordsKept_finishRelease _ _ _ _)

theorem rangesSound_of_initialized (start : Initialized s) : RangesSound s := by
  constructor
  · intro i active
    rw [start.records i] at active
    cases active
  · intro i j active
    rw [start.records i] at active
    cases active

/-- In a run whose claimed functions have no 64-bit BAR that ends with the address space,
the ranges of all live claims are disjoint in every state. -/
theorem claimed_ranges_disjoint {s : PciResources} (start : Initialized s) (ops : List ResourceOp)
    (below : Along resourceStep BelowTop s ops) : Throughout resourceStep ClaimedApart s ops := by
  intro done pre
  exact (throughout_of_along resourceStep RangesSound BelowTop
    (fun _ op sound => sound.step op) ops s (rangesSound_of_initialized start) below done pre).apart

def endpointAt (device : Nat) : PciFunction where
  address := ⟨0, 0, device, 0⟩
  vendorId := 0x1AF4
  deviceId := 0x1041
  command := 0
  status := 0
  classCode := 0
  subclass := 0
  progIf := 0
  revision := 0
  headerType := pciHeaderTypeEndpoint
  multifunction := false
  secondaryBus := 0
  subordinateBus := 0
  msiOffset := 0
  msiXOffset := 0
  expressOffset := 0
  capabilities := []

def pageBarAnswers (high low : BitVec 32) : ProbeAnswers where
  command := some 0
  original := some fun index => if index = 0 then low else if index = 1 then high else 0
  disabled := true
  observed := some 0
  sizing := fun index =>
    some (if index = 0 then 0xFFFFF004 else if index = 1 then 0xFFFFFFFF else 0)
  restored := true
  rewritten := true

def pairResources : PciResources where
  paging := Paging.arenaPaging
  functions := [endpointAt 1, endpointAt 2]
  claimRecords := fun _ => ⟨⟨0, 0, 0, 0⟩, 0, [], false⟩
  nextClaimIdentifier := 1
  arenaBitmap := bitmapFill 0
  activeClaims := 0
  activeMappings := 0
  mappedPages := 0
  busMasters := 0
  active := true
  claims := fun _ => clearedClaim ⟨0, 0, 0, 0⟩

theorem pairResources_initialized : Initialized pairResources :=
  ⟨rfl, fun _ => rfl, rfl, rfl, rfl, rfl, rfl, rfl⟩

def claimPage (device : Nat) (high low : BitVec 32) : ResourceOp :=
  .claimDevice false (pageBarAnswers high low) (some (endpointAt device)) (some device)

theorem pageBarAnswers_endsBelowTop {high low : BitVec 32}
    (differs : barWord high low ≠ barWord 0xFFFFFFFF 0xFFFFF004) (upper : ¬holdsMemory64 high) :
    (pageBarAnswers high low).EndsBelowTop := by
  intro original read index maskLow maskHigh sizedLow sizedHigh holds
  cases read
  cases sizedLow
  cases sizedHigh
  cases index with
  | zero => exact differs
  | succ index =>
    cases index with
    | zero => exact absurd holds upper
    | succ index =>
      have zero : (0 : BitVec 32) &&& pciBarMemoryTypeMask = pciBarMemoryType64 := holds.2
      exact absurd zero (by decide)

def neighbourRun : List ResourceOp :=
  [claimPage 1 0 0xFE000004, claimPage 2 0 0xFE001004, .releaseDevice false true true (some 1),
    claimPage 1 0 0xFE000004]

theorem claimed_ranges_disjoint_neighbours :
    Along resourceStep BelowTop pairResources neighbourRun ∧
      ClaimedApart (run resourceStep pairResources neighbourRun) := by
  have upper : ¬holdsMemory64 0 := fun holds => absurd holds.2 (by decide)
  have first := @pageBarAnswers_endsBelowTop 0 0xFE000004 (by decide) upper
  have second := @pageBarAnswers_endsBelowTop 0 0xFE001004 (by decide) upper
  have below : Along resourceStep BelowTop pairResources neighbourRun :=
    ⟨first, second, trivial, first, trivial⟩
  exact ⟨below, claimed_ranges_disjoint pairResources_initialized _ below _ (prefix_refl _)⟩

def topPageBar (device : Nat) : PciBarDescription where
  device := ⟨0, 0, device, 0⟩
  index := 0
  kind := .memory64
  attributeBits := 4
  pairIndex := 1
  base := 0xFFFFFFFFFFFFF000
  size := 0x1000
  prefetchable := false
  implemented := true

/-- Two functions whose page BARs are both the last page are both claimed. -/
theorem claimed_ranges_meet_at_top :
    Initialized pairResources ∧
      (topPageBar 1).base + (topPageBar 1).size = 2 ^ 64 ∧
      (resourceCall pairResources (claimPage 1 0xFFFFFFFF 0xFFFFF004)).1 = .ok ∧
      (resourceCall (resourceStep pairResources (claimPage 1 0xFFFFFFFF 0xFFFFF004))
        (claimPage 2 0xFFFFFFFF 0xFFFFF004)).1 = .ok ∧
      ¬ClaimedApart (run resourceStep pairResources
        [claimPage 1 0xFFFFFFFF 0xFFFFF004, claimPage 2 0xFFFFFFFF 0xFFFFF004]) := by
  refine ⟨pairResources_initialized, rfl, by decide +kernel, by decide +kernel, ?_⟩
  intro apart
  have meet := apart ⟨0, by decide⟩ ⟨1, by decide⟩ (by decide +kernel) (by decide +kernel) 0 0
    (topPageBar 1) (topPageBar 2) (by decide +kernel) (by decide +kernel) (by decide) rfl rfl
    Iff.rfl
  exact absurd meet (by unfold Apart topPageBar; decide)

end Sapote.Pci
