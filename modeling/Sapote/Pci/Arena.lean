import Sapote.Library.Totals
import Sapote.Pci.Claims

/-!
The accounting of the device-memory arena: the bitmap is the disjoint union of the
mappings of live claims, the counters are recounts over them, and every mapping
shows the pages of its BAR. One lemma says what changing one live claim takes; each
update of the subsystem is an instance of it.
-/

namespace Sapote.Pci
open Frames Paging Library List
variable {mapping other : PciMmioRegion} {bar : PciBarDescription} {x n first barIndex page : Nat}
  {claim : PciDeviceClaim} {t : PciResources} {paging : PagingState}

def PciMmioRegion.holds (mapping : PciMmioRegion) (page : Nat) : Bool :=
  mapping.firstPage ≤ page ∧ page < mapping.firstPage + mapping.pageCount

def PciDeviceClaim.coverage (page : Nat) (claim : PciDeviceClaim) : Nat :=
  claim.mappings.countP (·.holds page)

def PciDeviceClaim.pages (claim : PciDeviceClaim) : Nat :=
  (claim.mappings.map PciMmioRegion.pageCount).sum

def PciDeviceClaim.mastering (claim : PciDeviceClaim) : Nat := claim.busMasterEnabled.toNat

abbrev PciMmioRegion.Spans (mapping : PciMmioRegion) (x : Nat) : Prop :=
  mapping.mappingVirtualBase ≤ x ∧ x < mapping.mappingVirtualBase + mapping.mappingLength

/-- A mapping of a live claim: a memory BAR of the claim laid over arena pages, shown
there writable, not executable and uncacheable, and over no memory a frame may come
from. -/
structure MappingSound (s : PciResources) (claim : PciDeviceClaim) (mapping : PciMmioRegion) :
    Prop where
  active : mapping.active
  shape : ∃ bar, claim.bars[mapping.barIndex]? = some bar ∧ bar.implemented ∧
    (bar.kind = .memory32 ∨ bar.kind = .memory64) ∧
    mapping = regionAt claim bar mapping.barIndex mapping.firstPage
  inside : mapping.firstPage + mapping.pageCount ≤ mmioArenaPageCount
  translated : ∀ x, mapping.Spans x → pagingTranslate s.paging x =
    (.ok, ⟨mapping.mappingPhysicalBase + (x - mapping.mappingVirtualBase), mmioPermissions,
      .uncacheable, 1, false⟩)
  noRam : ∀ x, mapping.Spans x → s.paging.liveHierarchy.frames.eligible
    ((mapping.mappingPhysicalBase + (x - mapping.mappingVirtualBase)) / sapotePageSize) = false

structure Accounted (s : PciResources) (live : Finset Nat) : Prop where
  paging : PagingSound s.paging
  member : ∀ n, n ∈ live ↔ (s.claims n).active
  recorded : ∀ n ∈ live, ∃ i, s.claimRecords i =
    ⟨(s.claims n).device, (s.claims n).identifier, (s.claims n).bars, true⟩
  devices : ∀ m ∈ live, ∀ n ∈ live, (s.claims m).device = (s.claims n).device → m = n
  activeClaims : s.activeClaims = live.card
  activeMappings : s.activeMappings = total (fun claim => claim.mappings.length) s.claims live
  mappedPages : s.mappedPages = total PciDeviceClaim.pages s.claims live
  busMasters : s.busMasters = total PciDeviceClaim.mastering s.claims live
  arena : ∀ page, (arenaBit s.arenaBitmap page).toNat =
    total (PciDeviceClaim.coverage page) s.claims live
  mappings : ∀ n ∈ live, ∀ mapping ∈ (s.claims n).mappings, MappingSound s (s.claims n) mapping
  mastering : ∀ n ∈ live, (s.claims n).busMasterEnabled → (s.claims n).mappings ≠ []

section
variable {s : PciResources} {claim : PciDeviceClaim} {mapping : PciMmioRegion}

theorem region_holds_iff : mapping.holds page ↔
    mapping.firstPage ≤ page ∧ page < mapping.firstPage + mapping.pageCount :=
  decide_eq_true_iff

theorem regionAt_firstPage (claim : PciDeviceClaim) (bar : PciBarDescription)
    (barIndex first : Nat) : (regionAt claim bar barIndex first).firstPage = first := by
  rw [PciMmioRegion.firstPage, regionAt]
  rw [Nat.add_sub_cancel_left]
  exact Nat.mul_div_cancel first (by decide)

theorem regionAt_length (claim : PciDeviceClaim) (bar : PciBarDescription) (barIndex first : Nat) :
    (regionAt claim bar barIndex first).mappingLength =
      (regionAt claim bar barIndex first).pageCount * pagingPageSize := by
  rw [PciMmioRegion.pageCount, regionAt]
  rw [roundedLengthOf, Nat.mul_div_cancel _ (by decide)]

theorem MappingSound.base (sound : MappingSound s claim mapping) :
    mapping.mappingVirtualBase = pciDeviceMmioArenaBase + mapping.firstPage * pagingPageSize := by
  obtain ⟨bar, -, -, -, shape⟩ := sound.shape
  exact congrArg PciMmioRegion.mappingVirtualBase shape

theorem MappingSound.length (sound : MappingSound s claim mapping) :
    mapping.mappingLength = mapping.pageCount * pagingPageSize := by
  obtain ⟨bar, -, -, -, shape⟩ := sound.shape
  rw [shape]
  exact regionAt_length _ _ _ _

theorem countP_holds_append (mappings : List PciMmioRegion) (mapping : PciMmioRegion) (page : Nat) :
    (mappings ++ [mapping]).countP (·.holds page) =
      mappings.countP (·.holds page) + (mapping.holds page).toNat := by
  rw [countP_append, countP_singleton]
  cases mapping.holds page <;> rfl

theorem sum_pageCount_append (mappings : List PciMmioRegion) (mapping : PciMmioRegion) :
    ((mappings ++ [mapping]).map PciMmioRegion.pageCount).sum =
      (mappings.map PciMmioRegion.pageCount).sum + mapping.pageCount := by
  rw [map_append, sum_append]
  rfl

/-- An address of a region lies in one of its arena pages. -/
theorem holds_page_of
    (base : mapping.mappingVirtualBase = pciDeviceMmioArenaBase + mapping.firstPage * pagingPageSize)
    (length : mapping.mappingLength = mapping.pageCount * pagingPageSize)
    (spans : mapping.Spans x) :
    mapping.holds ((x - pciDeviceMmioArenaBase) / pagingPageSize) := by
  rw [region_holds_iff]
  unfold pagingPageSize at *
  omega

section
variable (sound : MappingSound s claim mapping)
include sound

theorem MappingSound.canonical (spans : mapping.Spans x) : addressIsCanonical x := by
  obtain ⟨low, high⟩ := spans
  have inside := sound.inside
  rw [sound.base, sound.length] at high
  have bound : x < 2 ^ 47 := by
    unfold pagingPageSize pciDeviceMmioArenaBase at high
    unfold mmioArenaPageCount pciDeviceMmioArenaSize pagingPageSize at inside
    omega
  rw [addressIsCanonical, Nat.div_eq_of_lt bound]
  rfl

theorem MappingSound.view (paging : PagingSound s.paging)
    (spans : mapping.Spans x) : s.paging.view x =
      some ⟨mapping.mappingPhysicalBase + (x - mapping.mappingVirtualBase), mmioPermissions,
        .uncacheable, 1, false⟩ := by
  apply reported_inj
  rw [← pagingTranslate_view paging (sound.canonical spans)]
  exact sound.translated x spans

/-- A mapping is as sound in any state that shows its addresses as before. -/
theorem MappingSound.carried {claim' : PciDeviceClaim}
    (before : PagingSound s.paging) (after : PagingSound t.paging)
    (eligible : t.paging.liveHierarchy.frames.eligible = s.paging.liveHierarchy.frames.eligible)
    (shown : ∀ x, mapping.Spans x → t.paging.view x = s.paging.view x)
    (device : claim'.device = claim.device) (bars : claim'.bars = claim.bars) :
    MappingSound t claim' mapping := by
  refine ⟨sound.active, ?_, sound.inside, ?_, ?_⟩
  · obtain ⟨bar, listed, implemented, kind, shape⟩ := sound.shape
    refine ⟨bar, by rw [bars]; exact listed, implemented, kind, ?_⟩
    rw [regionAt, device]
    exact shape
  · intro x spans
    rw [pagingTranslate_view after (sound.canonical spans), shown x spans, sound.view before spans]
    rfl
  · intro x spans
    rw [eligible]
    exact sound.noRam x spans

end

variable {live : Finset Nat} {name : Nat}

/-- The claims that an update of claim `name` leaves alone keep what they hold. -/
structure Replaces (s t : PciResources) (name : Nat) (claim : PciDeviceClaim) : Prop where
  claims : t.claims = Function.update s.claims name claim
  records : t.claimRecords = s.claimRecords
  activeClaims : t.activeClaims = s.activeClaims
  paging : PagingSound t.paging
  eligible : t.paging.liveHierarchy.frames.eligible = s.paging.liveHierarchy.frames.eligible
  active : claim.active
  device : claim.device = (s.claims name).device
  identifier : claim.identifier = (s.claims name).identifier
  bars : claim.bars = (s.claims name).bars
  activeMappings : t.activeMappings + (s.claims name).mappings.length =
    s.activeMappings + claim.mappings.length
  mappedPages : t.mappedPages + (s.claims name).pages = s.mappedPages + claim.pages
  busMasters : t.busMasters + (s.claims name).mastering = s.busMasters + claim.mastering
  arena : ∀ page, (arenaBit t.arenaBitmap page).toNat + (s.claims name).coverage page =
    (arenaBit s.arenaBitmap page).toNat + claim.coverage page
  mastering : claim.busMasterEnabled → claim.mappings ≠ []

section
variable (accounted : Accounted s live)
include accounted

/-- One live claim replaced, the counters and the bitmap moved along with it. -/
theorem Accounted.replaced (here : name ∈ live) (change : Replaces s t name claim)
    (mine : ∀ mapping ∈ claim.mappings, MappingSound t claim mapping)
    (others : ∀ n ∈ live, n ≠ name → ∀ mapping ∈ (s.claims n).mappings,
      ∀ x, mapping.Spans x → t.paging.view x = s.paging.view x) : Accounted t live := by
  have same : t.claims name = claim := by rw [change.claims, Function.update_self]
  have kept : ∀ {n}, n ≠ name → t.claims n = s.claims n := by
    intro n other
    rw [change.claims, Function.update_of_ne other]
  have device : ∀ n, (t.claims n).device = (s.claims n).device := by
    intro n
    by_cases mine : n = name
    · rw [mine, same, change.device]
    · rw [kept mine]
  constructor
  case paging => exact change.paging
  case member =>
    intro n
    by_cases mine : n = name
    · rw [mine, same, change.active]
      exact iff_of_true here rfl
    · rw [kept mine]
      exact accounted.member n
  case recorded =>
    intro n live
    rw [change.records]
    obtain ⟨i, record⟩ := accounted.recorded n live
    refine ⟨i, record.trans ?_⟩
    by_cases mine : n = name
    · rw [mine, same, change.device, change.identifier, change.bars]
    · rw [kept mine]
  case devices =>
    intro m hm n hn
    simp only [device]
    exact accounted.devices m hm n hn
  case activeClaims => rw [change.activeClaims, accounted.activeClaims]
  case activeMappings =>
    rw [change.claims]
    exact total_moved accounted.activeMappings here claim change.activeMappings
  case mappedPages =>
    rw [change.claims]
    exact total_moved accounted.mappedPages here claim change.mappedPages
  case busMasters =>
    rw [change.claims]
    exact total_moved accounted.busMasters here claim change.busMasters
  case arena =>
    intro page
    rw [change.claims]
    exact total_moved (accounted.arena page) here claim (change.arena page)
  case mappings =>
    intro n live mapping held
    by_cases own : n = name
    · rw [own, same] at held ⊢
      exact mine mapping held
    · rw [kept own] at held ⊢
      exact (accounted.mappings n live mapping held).carried accounted.paging change.paging
        change.eligible (others n live own mapping held) rfl rfl
  case mastering =>
    intro n live
    by_cases own : n = name
    · rw [own, same]
      exact change.mastering
    · rw [kept own]
      exact accounted.mastering n live

/-- A claim whose registers changed, with the count of bus masters. -/
theorem Accounted.commanded (here : name ∈ live)
    (command : BitVec 16) (decode master : Bool) (busMasters : Nat)
    (counted : busMasters + (s.claims name).mastering = s.busMasters + master.toNat)
    (mastering : master → (s.claims name).mappings ≠ []) :
    Accounted { s.setClaim name { s.claims name with
        currentCommand := command
        memoryDecodeEnabled := decode
        busMasterEnabled := master } with
      busMasters := busMasters } live := by
  refine accounted.replaced here ⟨rfl, rfl, rfl, accounted.paging, rfl,
    (accounted.member name).mp here, rfl, rfl, rfl, rfl, rfl, counted, fun _ => rfl, mastering⟩ ?_
    fun n _ _ mapping _ x _ => rfl
  intro mapping held
  exact (accounted.mappings name here mapping held).carried accounted.paging accounted.paging rfl
    (fun x _ => rfl) rfl rfl

/-- The tables and the bitmap changed without a change to any mapping. -/
theorem Accounted.repaged (here : name ∈ live) {p : PagingState}
    {b : Bitmap} (sound : PagingSound p)
    (eligible : p.liveHierarchy.frames.eligible = s.paging.liveHierarchy.frames.eligible)
    (shown : ∀ n ∈ live, ∀ mapping ∈ (s.claims n).mappings, ∀ x, mapping.Spans x →
      p.view x = s.paging.view x)
    (bits : ∀ page, arenaBit b page = arenaBit s.arenaBitmap page) :
    Accounted { s with paging := p, arenaBitmap := b } live := by
  refine accounted.replaced here ⟨(Function.update_eq_self name s.claims).symm, rfl, rfl, sound,
    eligible, (accounted.member name).mp here, rfl, rfl, rfl, rfl, rfl, rfl, ?_,
    accounted.mastering name here⟩ ?_ fun n live _ => shown n live
  · intro page
    rw [show arenaBit _ page = arenaBit s.arenaBitmap page from bits page]
  · intro mapping held
    exact (accounted.mappings name here mapping held).carried accounted.paging sound eligible
      (shown name here mapping held) rfl rfl

/-- The arena pages of an active mapping are marked. -/
theorem Accounted.marked (here : n ∈ live)
    (held : mapping ∈ (s.claims n).mappings) (holds : mapping.holds page) :
    arenaBit s.arenaBitmap page := by
  have counted : 0 < (s.claims n).coverage page :=
    countP_pos_iff.mpr ⟨mapping, held, holds⟩
  have recount := accounted.arena page
  have below : (s.claims n).coverage page ≤ total (PciDeviceClaim.coverage page) s.claims live :=
    le_total here
  cases bit : arenaBit s.arenaBitmap page with
  | true => rfl
  | false =>
    rw [bit] at recount
    have zero : (false : Bool).toNat = 0 := rfl
    omega

end

/-- A range that `frame_range_overlaps_allocatable_memory` passes holds no frame that may
be allocated; there are none above the early limit. -/
theorem eligible_of_no_overlap {frames : FrameAllocator} (sound : FrameSound frames)
    {base length y : Nat} (fits : base + length ≤ pagePhysicalLimit)
    (clear : frameRangeOverlapsAllocatableMemory frames base length = false) (low : base ≤ y)
    (high : y < base + length) : frames.eligible (y / sapotePageSize) = false := by
  by_contra taken
  have eligible := Bool.eq_true_of_not_eq_false taken
  have window := sound.eligible_bound _ eligible
  unfold frameCount sapotePageSize at window
  have early : y < earlyPhysicalLimit := by
    omega
  have stop : checkedRangeEnd base length = some (base + length) := by
    rw [checkedRangeEnd, if_neg]
    unfold uint64Max
    unfold pagePhysicalLimit at fits
    omega
  rw [frameRangeOverlapsAllocatableMemory, sound.initialized, if_neg, stop] at clear
  · dsimp only at clear
    rw [if_neg (by omega), any_eq_false] at clear
    refine clear (y / sapotePageSize) ?_ eligible
    rw [mem_range'_1]
    have below : y < if earlyPhysicalLimit < base + length then earlyPhysicalLimit
        else base + length := by
      split
      · exact early
      · exact high
    generalize (if earlyPhysicalLimit < base + length then earlyPhysicalLimit
      else base + length) = stop at below
    unfold sapotePageSize
    constructor
    · exact Nat.div_le_div_right low
    · split <;> omega
  · rintro (h | h)
    · exact absurd h (by decide)
    · omega

theorem findArenaPages_some {bitmap : Bitmap} {count : Nat}
    (found : findArenaPages bitmap count = some first) :
    first + count ≤ mmioArenaPageCount ∧
      ∀ page, first ≤ page → page < first + count → arenaBit bitmap page = false := by
  rw [findArenaPages] at found
  split at found
  · cases found
  have range := mem_of_find?_eq_some found
  have free := find?_some found
  rw [mem_range'_1] at range
  refine ⟨by omega, ?_⟩
  intro page low high
  have bit := all_eq_true.mp free page (mem_range'_1.mpr ⟨low, high⟩)
  simpa using bit

theorem mapBarAdmission_ok (ok : mapBarAdmission s claim bar = .ok) :
    bar.implemented ∧ (bar.kind = .memory32 ∨ bar.kind = .memory64) ∧
      frameRangeOverlapsAllocatableMemory s.paging.liveHierarchy.frames
        (bar.base - pageOffsetOf bar.base) (roundedLengthOf bar) = false := by
  unfold mapBarAdmission at ok
  dsimp only at ok
  split at ok
  · cases ok
  next memory =>
  iterate 3
    split at ok
    · cases ok
  next clear =>
  refine ⟨?_, ?_, eq_false_of_ne_true clear⟩
  · by_contra off
    exact memory (by simp [off])
  · by_contra other
    rw [not_or] at other
    exact memory (by simp [other.1, other.2])

theorem mapRegion_remaps (sound : PagingSound paging) (refused : Bool) (mapping : PciMmioRegion) :
    Remaps paging (mapRegion refused paging mapping).2
      (paging.view.update (.map mapping.mappingVirtualBase mapping.mappingPhysicalBase
        mapping.mappingLength mmioPermissions false) (mapRegion refused paging mapping).1) := by
  cases refused with
  | true =>
    rw [update_refused]
    · exact .refl sound
    · exact fun h => by cases h
  | false => exact pagingMap_remaps sound _ _ _ _

theorem unmapRegion_remaps (sound : PagingSound paging) (mapping : PciMmioRegion) :
    Remaps paging (unmapRegion paging mapping).2
      (paging.view.update (.unmap mapping.mappingVirtualBase mapping.mappingLength)
        (unmapRegion paging mapping).1) :=
  pagingUnmap_remaps sound _ _

/-- Taken or not, unmapping a region leaves every address outside it as it was. -/
theorem unmapRegion_elsewhere (sound : PagingSound paging) (canonical : addressIsCanonical x)
    (outside : ¬mapping.Spans x) : (unmapRegion paging mapping).2.view x = paging.view x := by
  rw [(unmapRegion_remaps sound mapping).view x canonical]
  by_cases ok : (unmapRegion paging mapping).1 = .ok
  · rw [ok, update_unmap, if_neg outside]
  · rw [update_refused _ _ ok]

theorem arenaBit_markArena (s : PciResources) (mapping : PciMmioRegion) (value : Bool) (page : Nat) :
    arenaBit (markArena s mapping value) page =
      if mapping.holds page then value else arenaBit s.arenaBitmap page := by
  simp only [markArena, arenaBit, bitmapGet_bitmapSetRun, region_holds_iff]

structure FreeRegion (s : PciResources) (mapping : PciMmioRegion) : Prop where
  base : mapping.mappingVirtualBase = pciDeviceMmioArenaBase + mapping.firstPage * pagingPageSize
  length : mapping.mappingLength = mapping.pageCount * pagingPageSize
  inside : mapping.firstPage + mapping.pageCount ≤ mmioArenaPageCount
  free : ∀ page, mapping.holds page → arenaBit s.arenaBitmap page = false

/-- No active mapping shares an address with a free region. -/
theorem FreeRegion.apart (region : FreeRegion s mapping) (accounted : Accounted s live)
    (here : n ∈ live) (held : other ∈ (s.claims n).mappings) (spans : other.Spans x) :
    ¬mapping.Spans x := by
  intro mine
  have sound := accounted.mappings n here other held
  have marked := accounted.marked here held (holds_page_of sound.base sound.length spans)
  rw [region.free _ (holds_page_of region.base region.length mine)] at marked
  cases marked

abbrev MapAdmitted.region (_ : MapAdmitted s name barIndex first bar) : PciMmioRegion :=
  regionAt (s.claims name) bar barIndex first

theorem MapAdmitted.free (admitted : MapAdmitted s name barIndex first bar) :
    FreeRegion s admitted.region := by
  obtain ⟨inside, free⟩ := findArenaPages_some admitted.pages
  have start := regionAt_firstPage (s.claims name) bar barIndex first
  refine ⟨by rw [start]; rfl, regionAt_length _ _ _ _, by rw [start]; exact inside, ?_⟩
  intro page holds
  rw [region_holds_iff, start] at holds
  exact free page holds.1 holds.2

section
variable (region : FreeRegion s mapping)
include region

/-- Setting and clearing the bits of a free region changes nothing. -/
theorem FreeRegion.cleared (page : Nat) :
    arenaBit (clearedArena s mapping) page = arenaBit s.arenaBitmap page := by
  simp only [clearedArena, markArena, arenaBit, bitmapGet_bitmapSetRun]
  split
  next inside => exact (region.free page (region_holds_iff.mpr inside)).symm
  next => rfl

theorem FreeRegion.marked (page : Nat) :
    (arenaBit (markArena s mapping true) page).toNat =
      (arenaBit s.arenaBitmap page).toNat + (mapping.holds page).toNat := by
  rw [arenaBit_markArena]
  cases holds : mapping.holds page with
  | true => rw [region.free page holds]; rfl
  | false => rfl

/-- The tables after `paging_map` show an active mapping as before. -/
theorem FreeRegion.mapped_elsewhere (accounted : Accounted s live)
    (refused : Bool) (here : n ∈ live) (held : other ∈ (s.claims n).mappings)
    (spans : other.Spans x) : (mapRegion refused s.paging mapping).2.view x = s.paging.view x := by
  have canonical := (accounted.mappings n here other held).canonical spans
  rw [(mapRegion_remaps accounted.paging refused mapping).view x canonical]
  by_cases ok : (mapRegion refused s.paging mapping).1 = .ok
  · rw [ok, update_map, if_neg (region.apart accounted here held spans)]
  · rw [update_refused _ _ ok]

/-- So do the tables after the mapping was undone, whether `paging_unmap` took it or not. -/
theorem FreeRegion.undone_elsewhere (accounted : Accounted s live)
    (refused : Bool) (here : n ∈ live) (held : other ∈ (s.claims n).mappings)
    (spans : other.Spans x) :
    (unmapRegion (mapRegion refused s.paging mapping).2 mapping).2.view x = s.paging.view x := by
  have canonical := (accounted.mappings n here other held).canonical spans
  have mapped := mapRegion_remaps accounted.paging refused mapping
  rw [unmapRegion_elsewhere mapped.sound canonical (region.apart accounted here held spans)]
  exact region.mapped_elsewhere accounted refused here held spans

end

/-- The BAR just mapped is shown as the claim says. -/
theorem MapAdmitted.sound (admitted : MapAdmitted s name barIndex first bar)
    (accounted : Accounted s live) (refused : Bool)
    (ok : (mapRegion refused s.paging admitted.region).1 = .ok)
    (paging : t.paging = (mapRegion refused s.paging admitted.region).2)
    (device : claim.device = (s.claims name).device) (bars : claim.bars = (s.claims name).bars) :
    MappingSound t claim admitted.region := by
  obtain ⟨implemented, kind, clear⟩ := mapBarAdmission_ok admitted.admission
  have remaps := mapRegion_remaps accounted.paging refused admitted.region
  have accepted : (pagingMap s.paging admitted.region.mappingVirtualBase
      admitted.region.mappingPhysicalBase admitted.region.mappingLength mmioPermissions).1 =
        .ok := by
    cases refused with
    | true => cases ok
    | false => exact ok
  obtain ⟨-, fits, unmapped⟩ := pagingMap_ok accounted.paging accepted
  refine ⟨rfl, ⟨bar, by rw [bars]; exact admitted.listed, implemented, kind, ?_⟩,
    admitted.free.inside, ?_, ?_⟩
  · rw [regionAt_firstPage, MapAdmitted.region, regionAt, regionAt, device]
  · intro x spans
    have canonical := (unmapped x spans.1 spans.2).1
    rw [paging, pagingTranslate_view remaps.sound canonical, remaps.view x canonical, ok,
      update_map, if_pos spans]
    rfl
  · intro x spans
    rw [paging, remaps.eligible]
    exact eligible_of_no_overlap accounted.paging.hierarchy.supply.frames fits clear
      (Nat.le_add_right _ _) (by have := spans.1; have := spans.2; omega)

theorem Accounted.entered {refused : Bool} (accounted : Accounted s live)
    (admitted : MapAdmitted s name barIndex first bar)
    (ok : (mapRegion refused s.paging admitted.region).1 = .ok) :
    Accounted (enterMapping s name admitted.region (mapRegion refused s.paging admitted.region).2)
      live := by
  have here := (accounted.member name).mpr admitted.active
  have region := admitted.free
  have remaps := mapRegion_remaps accounted.paging refused admitted.region
  refine accounted.replaced here ⟨rfl, rfl, rfl, remaps.sound, remaps.eligible,
    admitted.active, rfl, rfl, rfl, ?_, ?_, rfl, ?_, fun _ => append_ne_nil_of_right_ne_nil _
      (cons_ne_nil _ _)⟩ ?_ ?_
  · rw [length_append]
    change s.activeMappings + 1 + _ = s.activeMappings + (_ + 1)
    omega
  · have added := sum_pageCount_append (s.claims name).mappings admitted.region
    change s.mappedPages + _ + PciDeviceClaim.pages _ = s.mappedPages + List.sum _
    rw [added, PciDeviceClaim.pages]
    omega
  · intro page
    have marked := region.marked page
    have added := countP_holds_append (s.claims name).mappings admitted.region page
    change (arenaBit (markArena s _ true) page).toNat + List.countP _ _ = _ + List.countP _ _
    rw [added, marked]
    omega
  · intro mapping held
    obtain old | new := mem_append.mp held
    · exact (accounted.mappings name here mapping old).carried accounted.paging remaps.sound
        remaps.eligible (fun x => region.mapped_elsewhere accounted refused here old) rfl rfl
    · obtain rfl := mem_singleton.mp new
      exact admitted.sound accounted refused ok rfl rfl rfl
  · intro n live _ mapping held x
    exact region.mapped_elsewhere accounted refused live held

/-- Every outcome of mapping a BAR, the three that undo it included. -/
theorem Accounted.installed (accounted : Accounted s live)
    (admitted : MapAdmitted s name barIndex first bar) (refused port : Bool) :
    Accounted (installMapping refused port s name admitted.region).2 live := by
  have here := (accounted.member name).mpr admitted.active
  have region := admitted.free
  have mapped := mapRegion_remaps accounted.paging refused admitted.region
  obtain failed | ⟨status, -, -, result⟩ | entered :=
    installMapping_cases refused port s name admitted.region
  · rw [failed.2]
    exact accounted.repaged here mapped.sound mapped.eligible
      (fun n live mapping held x => region.mapped_elsewhere accounted refused live held)
      region.cleared
  · have unmapped := unmapRegion_remaps mapped.sound admitted.region
    rw [result]
    exact accounted.repaged here unmapped.sound (unmapped.eligible.trans mapped.eligible)
      (fun n live mapping held x => region.undone_elsewhere accounted refused live held)
      region.cleared
  · have done := accounted.entered admitted entered.1
    obtain result | result := entered.2
    · rw [result]
      exact done
    · rw [result]
      exact done.commanded here _ _ _ _ rfl (done.mastering name here)

section
variable {mapping : PciMmioRegion} {rest : List PciMmioRegion}

section
variable (accounted : Accounted s live)
include accounted

section
variable (here : name ∈ live)
include here

/-- A page of the last mapping of a claim is held by no other mapping. -/
theorem Accounted.held_once
    (split : (s.claims name).mappings = rest ++ [mapping]) (holds : mapping.holds page) :
    (∀ other ∈ rest, other.holds page = false) ∧
      ∀ n ∈ live, n ≠ name → ∀ other ∈ (s.claims n).mappings, other.holds page = false := by
  have recount := accounted.arena page
  have whole := countP_holds_append rest mapping page
  rw [holds, ← split] at whole
  change PciDeviceClaim.coverage page (s.claims name) = _ + 1 at whole
  have bit := Bool.toNat_le (arenaBit s.arenaBitmap page)
  constructor
  · intro other member
    by_contra shared
    have second : 0 < rest.countP (·.holds page) :=
      countP_pos_iff.mpr ⟨other, member, Bool.eq_true_of_not_eq_false shared⟩
    have below : (s.claims name).coverage page ≤
        total (PciDeviceClaim.coverage page) s.claims live := le_total here
    omega
  · intro n there apart other member
    by_contra shared
    have second : 0 < (s.claims n).coverage page :=
      countP_pos_iff.mpr ⟨other, member, Bool.eq_true_of_not_eq_false shared⟩
    have below : (s.claims n).coverage page + (s.claims name).coverage page ≤
        total (PciDeviceClaim.coverage page) s.claims live := add_le_total there here apart
    omega

/-- Unmapping a mapping leaves one that shares no page with it as it was. -/
theorem Accounted.unmapped_elsewhere (held : mapping ∈ (s.claims name).mappings) (there : n ∈ live)
    (member : other ∈ (s.claims n).mappings)
    (apart : ∀ page, mapping.holds page → other.holds page = false) (spans : other.Spans x) :
    (unmapRegion s.paging mapping).2.view x = s.paging.view x := by
  have own := accounted.mappings name here mapping held
  have sound := accounted.mappings n there other member
  refine unmapRegion_elsewhere accounted.paging (sound.canonical spans) fun inside => ?_
  have clash := apart _ (holds_page_of own.base own.length inside)
  rw [holds_page_of sound.base sound.length spans] at clash
  cases clash

theorem Accounted.cleared_arena (held : mapping ∈ (s.claims name).mappings) (page : Nat) :
    (arenaBit (markArena s mapping false) page).toNat + (mapping.holds page).toNat =
      (arenaBit s.arenaBitmap page).toNat := by
  rw [arenaBit_markArena]
  cases holds : mapping.holds page with
  | true => rw [accounted.marked here held holds]; rfl
  | false => rfl

/-- The last mapping of a claim that is no bus master taken out. -/
theorem Accounted.left (split : (s.claims name).mappings = rest ++ [mapping])
    (idle : (s.claims name).busMasterEnabled = false) :
    Accounted (leaveMapping s name mapping (unmapRegion s.paging mapping).2) live := by
  have unmapped := unmapRegion_remaps accounted.paging mapping
  have held : mapping ∈ (s.claims name).mappings := by
    rw [split]
    exact mem_append_right _ (mem_singleton_self mapping)
  have shorter : (s.claims name).mappings.dropLast = rest := by rw [split, dropLast_concat]
  refine accounted.replaced here ⟨claims_leaveMapping s name mapping _, rfl, rfl,
    unmapped.sound, unmapped.eligible, (accounted.member name).mp here, rfl, rfl, rfl, ?_, ?_,
    rfl, ?_, fun mastering => by rw [idle] at mastering; cases mastering⟩ ?_ ?_
  · have counted : (s.claims name).mappings.length ≤ s.activeMappings := by
      rw [accounted.activeMappings]
      exact le_total (f := fun claim : PciDeviceClaim => claim.mappings.length) here
    have length := congrArg List.length split
    rw [length_append, length_singleton] at length
    change sizeSub s.activeMappings 1 + _ = _ + (s.claims name).mappings.dropLast.length
    rw [shorter, sizeSub, if_pos (by omega)]
    omega
  · have counted : (s.claims name).pages ≤ s.mappedPages := by
      rw [accounted.mappedPages]
      exact le_total here
    have pages := sum_pageCount_append rest mapping
    rw [← split] at pages
    change (s.claims name).pages = _ at pages
    change sizeSub s.mappedPages mapping.pageCount + _ =
      _ + ((s.claims name).mappings.dropLast.map PciMmioRegion.pageCount).sum
    rw [shorter, sizeSub, if_pos (by omega)]
    omega
  · intro page
    have whole := countP_holds_append rest mapping page
    rw [← split] at whole
    change (s.claims name).coverage page = _ at whole
    have cleared := accounted.cleared_arena here held page
    change (arenaBit (markArena s mapping false) page).toNat + _ =
      _ + (s.claims name).mappings.dropLast.countP (·.holds page)
    rw [shorter, whole]
    omega
  · intro other member
    rw [shorter] at member
    have before : other ∈ (s.claims name).mappings := by
      rw [split]
      exact mem_append_left _ member
    exact (accounted.mappings name here other before).carried accounted.paging unmapped.sound
      unmapped.eligible (fun x => accounted.unmapped_elsewhere here held here before
        fun page holds => (accounted.held_once here split holds).1 other member) rfl rfl
  · intro n there apart other member x
    exact accounted.unmapped_elsewhere here held there member
      fun page holds => (accounted.held_once here split holds).2 n there apart other member

theorem Accounted.dropped (last : (s.claims name).mappings.getLast? = some mapping)
    (idle : (s.claims name).busMasterEnabled = false) :
    Accounted (dropMapping s name mapping).2 live := by
  obtain failed | taken := dropMapping_cases s name mapping
  · have unmapped := unmapRegion_remaps accounted.paging mapping
    rw [failed.2]
    refine accounted.repaged here unmapped.sound unmapped.eligible ?_ fun _ => rfl
    intro n live other held x spans
    rw [unmapped.view x ((accounted.mappings n live other held).canonical spans),
      update_refused _ _ failed.1]
  · obtain ⟨rest, split⟩ := getLast?_eq_some_iff.mp last
    rw [taken.2]
    exact accounted.left here split idle

end

end

end

end

end Sapote.Pci
