import Sapote.Frames.Accounting

/-!
What `frame_allocator_initialize` leaves behind. Available regions are rounded
inward and everything else outward, so a frame stays eligible only if its whole
page is available and no byte of it is anything else.
-/

namespace Sapote.Frames
open Library Paging
variable {a start : FrameAllocator} {regions : List BootMemoryRegion} {image : KernelImage}
  {context : Option BootInformation} {length base past first f : Nat}

theorem frameCount_eq : frameCount = 0x100000 := by decide

def PageInside (base length f : Nat) : Prop :=
  base ≤ f * sapotePageSize ∧ (f + 1) * sapotePageSize ≤ base + length

def PageOutside (start stop f : Nat) : Prop :=
  ∀ x, f * sapotePageSize ≤ x → x < (f + 1) * sapotePageSize → ¬(start ≤ x ∧ x < stop)

theorem availableFrameBounds_inside (bounds : availableFrameBounds base length = .ok (first, past))
    (inside : inRun first (past - first) f) : f < frameCount ∧ PageInside base length f := by
  rw [inRun_iff] at inside
  rw [frameCount_eq, PageInside]
  unfold availableFrameBounds checkedRangeEnd at bounds
  unfold sapotePageSize earlyPhysicalLimit at *
  by_cases wraps : uint64Max - base < length
  · rw [if_pos wraps] at bounds
    cases bounds
  rw [if_neg wraps] at bounds
  dsimp only at bounds
  split_ifs at bounds
  all_goals
    cases bounds
    omega

theorem coveringFrameBounds_outside (bounds : coveringFrameBounds base length = .ok (first, past))
    (window : f < frameCount) (outside : inRun first (past - first) f = false) :
    PageOutside base (base + length) f := by
  have missed : ¬(first ≤ f ∧ f < first + (past - first)) := by
    intro inside
    rw [inRun_iff.mpr inside] at outside
    cases outside
  intro x low high shared
  apply missed
  rw [frameCount_eq] at window
  unfold coveringFrameBounds checkedRangeEnd at bounds
  unfold sapotePageSize earlyPhysicalLimit at *
  by_cases wraps : uint64Max - base < length
  · rw [if_pos wraps] at bounds
    cases bounds
  rw [if_neg wraps] at bounds
  dsimp only at bounds
  split_ifs at bounds
  all_goals
    cases bounds
    omega

/-- While booting, a frame is used exactly when it is not eligible, and no extent
is recorded. -/
structure Booting (a : FrameAllocator) : Prop where
  used : ∀ f, a.used f = !a.eligible f
  bound : ∀ f, a.eligible f → f < frameCount
  inactive : ∀ i, (a.contiguousRecords i).active = false

theorem clearedAllocator_eligible (a : FrameAllocator) (f : Nat) :
    (clearedAllocator a).eligible f = false :=
  bitmapGet_bitmapFill_zero f

theorem booting_cleared (a : FrameAllocator) : Booting (clearedAllocator a) where
  used := by
    intro f
    rw [clearedAllocator_eligible]
    exact bitmapGet_bitmapFill_ones f
  bound := by
    intro f eligible
    rw [clearedAllocator_eligible] at eligible
    cases eligible
  inactive := fun _ => rfl

theorem markAvailableFrames_eligible (a : FrameAllocator) (first past f : Nat) :
    (markAvailableFrames a first past).eligible f =
      (a.eligible f || inRun first (past - first) f) :=
  bitmapGet_run_true a.eligibleBitmap first (past - first) f

theorem markReservedFrames_eligible (a : FrameAllocator) (first past f : Nat) :
    (markReservedFrames a first past).eligible f =
      (a.eligible f && !inRun first (past - first) f) :=
  bitmapGet_run_false a.eligibleBitmap first (past - first) f

theorem Booting.markAvailable (boot : Booting a)
    (inside : ∀ f, inRun first (past - first) f → f < frameCount) :
    Booting (markAvailableFrames a first past) where
  used := by
    intro f
    have cleared : (markAvailableFrames a first past).used f =
        (a.used f && !inRun first (past - first) f) :=
      bitmapGet_run_false a.usedBitmap first (past - first) f
    rw [cleared, markAvailableFrames_eligible, boot.used, Bool.not_or]
  bound := by
    intro f eligible
    rw [markAvailableFrames_eligible, Bool.or_eq_true] at eligible
    exact eligible.elim (boot.bound f) (inside f)
  inactive := boot.inactive

theorem Booting.markReserved (boot : Booting a) (first past : Nat) :
    Booting (markReservedFrames a first past) where
  used := by
    intro f
    have marked : (markReservedFrames a first past).used f =
        (a.used f || inRun first (past - first) f) :=
      bitmapGet_run_true a.usedBitmap first (past - first) f
    rw [marked, markReservedFrames_eligible, boot.used, Bool.not_and, Bool.not_not]
  bound := by
    intro f eligible
    rw [markReservedFrames_eligible, Bool.and_eq_true] at eligible
    exact boot.bound f eligible.1
  inactive := boot.inactive

structure Offers (a : FrameAllocator) (P : Nat → Prop) : Prop where
  booting : Booting a
  each : ∀ f, a.eligible f → P f

/-- `b` keeps only frames of `a` that stay clear of `[start, stop)`. -/
structure Closes (a : FrameAllocator) (start stop : Nat) (b : FrameAllocator) : Prop where
  booting : Booting b
  kept : ∀ f, b.eligible f → a.eligible f
  outside : ∀ f, b.eligible f → PageOutside start stop f

theorem closes_of_covering (boot : Booting a)
    (bounds : coveringFrameBounds base length = .ok (first, past)) :
    Closes a base (base + length) (markReservedFrames a first past) := by
  have before : ∀ f, (markReservedFrames a first past).eligible f →
      a.eligible f ∧ inRun first (past - first) f = false := by
    intro f eligible
    rw [markReservedFrames_eligible, Bool.and_eq_true, Bool.not_eq_true'] at eligible
    exact eligible
  exact ⟨boot.markReserved first past, fun f h => (before f h).1, fun f h =>
    coveringFrameBounds_outside bounds (boot.bound f (before f h).1) (before f h).2⟩

theorem reserveInternal_ok (boot : Booting a) (ok : (reserveInternal a base length).1 = .ok) :
    Closes a base (base + length) (reserveInternal a base length).2 := by
  unfold reserveInternal at *
  cases bounds : coveringFrameBounds base length with
  | error status =>
    rw [bounds] at ok
    obtain overflow | far := coveringFrameBounds_error bounds
    · exact absurd ok (by rw [overflow]; exact nofun)
    · exact absurd ok (by rw [far.1]; exact nofun)
  | ok pair => exact closes_of_covering boot bounds

/-- The availability pass only opens frames whose page an available region contains. -/
theorem applyPass_opens (boot : Booting a) (ok : (applyPass true a regions).1 = .ok) :
    Offers (applyPass true a regions).2 fun f => a.eligible f ∨
      ∃ region ∈ regions, region.type = multiboot2MemoryAvailable ∧
        PageInside region.baseAddress region.length f := by
  induction regions generalizing a with
  | nil => exact ⟨boot, fun f h => .inl h⟩
  | cons region regions ih =>
    simp only [applyPass] at ok ⊢
    split at ok
    · next refused => exact absurd ok refused
    next applied =>
    rw [if_neg applied]
    have one : Offers (applyRegion true a region).2 fun f => a.eligible f ∨
        region.type = multiboot2MemoryAvailable ∧
          PageInside region.baseAddress region.length f := by
      simp only [applyRegion] at applied ⊢
      by_cases available : region.type = multiboot2MemoryAvailable
      · simp only [available, decide_true, ne_eq, not_true_eq_false, if_false, if_true] at applied ⊢
        cases bounds : availableFrameBounds region.baseAddress region.length with
        | error status => exact ⟨boot, fun f h => .inl h⟩
        | ok pair =>
          refine ⟨boot.markAvailable
            (fun f inside => (availableFrameBounds_inside bounds inside).1), ?_⟩
          intro f eligible
          rw [markAvailableFrames_eligible, Bool.or_eq_true] at eligible
          exact eligible.imp_right
            fun inside => ⟨trivial, (availableFrameBounds_inside bounds inside).2⟩
      · simp only [available, decide_false, ne_eq, Bool.true_eq_false, not_false_eq_true, if_true]
        exact ⟨boot, fun f h => .inl h⟩
    obtain ⟨booted, opened⟩ := ih one.1 ok
    refine ⟨booted, fun f eligible => ?_⟩
    obtain before | ⟨other, member, inside⟩ := opened f eligible
    · obtain old | here := one.2 f before
      · exact .inl old
      · exact .inr ⟨region, .head _, here⟩
    · exact .inr ⟨other, .tail _ member, inside⟩

/-- The closing pass withdraws every frame that touches another kind of region. -/
theorem applyPass_closes (boot : Booting a) (ok : (applyPass false a regions).1 = .ok) :
    Offers (applyPass false a regions).2 fun f => a.eligible f ∧
      ∀ region ∈ regions, region.type ≠ multiboot2MemoryAvailable →
        PageOutside region.baseAddress (region.baseAddress + region.length) f := by
  induction regions generalizing a with
  | nil => exact ⟨boot, fun f h => ⟨h, nofun⟩⟩
  | cons region regions ih =>
    simp only [applyPass] at ok ⊢
    split at ok
    · next refused => exact absurd ok refused
    next applied =>
    rw [if_neg applied]
    have one : Offers (applyRegion false a region).2 fun f => a.eligible f ∧
        (region.type ≠ multiboot2MemoryAvailable →
          PageOutside region.baseAddress (region.baseAddress + region.length) f) := by
      simp only [applyRegion] at applied ⊢
      by_cases available : region.type = multiboot2MemoryAvailable
      · simp only [available, decide_true, ne_eq, Bool.false_eq_true, not_false_eq_true, if_true]
        exact ⟨boot, fun f h => ⟨h, fun other => absurd trivial other⟩⟩
      simp only [available, decide_false, ne_eq, not_true_eq_false, if_false,
        Bool.false_eq_true] at applied ⊢
      cases bounds : coveringFrameBounds region.baseAddress region.length with
      | error status =>
        rw [bounds] at applied
        obtain overflow | far := coveringFrameBounds_error bounds
        · rw [overflow] at applied
          exact absurd nofun applied
        rw [far.1]
        refine ⟨boot, fun f eligible => ⟨eligible, fun _ x low high shared => ?_⟩⟩
        -- A region above the window cannot meet a page inside it.
        have window := boot.bound f eligible
        have limit := frameCount_page
        have top : (f + 1) * sapotePageSize ≤ frameCount * sapotePageSize :=
          Nat.mul_le_mul_right _ window
        omega
      | ok pair =>
        have closes := closes_of_covering boot bounds
        exact ⟨closes.booting, fun f h => ⟨closes.kept f h, fun _ => closes.outside f h⟩⟩
    obtain ⟨booted, closed⟩ := ih one.1 ok
    refine ⟨booted, fun f eligible => ?_⟩
    obtain ⟨before, others⟩ := closed f eligible
    obtain ⟨old, here⟩ := one.2 f before
    refine ⟨old, fun other member => ?_⟩
    obtain same | later := List.mem_cons.mp member
    · rw [same]
      exact here
    · exact others other later

structure Allocatable (image : KernelImage) (context : BootInformation)
    (regions : List BootMemoryRegion) (f : Nat) : Prop where
  window : f < frameCount
  available : ∃ region ∈ regions, region.type = multiboot2MemoryAvailable ∧
    PageInside region.baseAddress region.length f
  lowMemory : PageOutside 0 lowMemoryReservation f
  kernel : PageOutside image.kernelStart image.kernelEnd f
  information : PageOutside context.informationStart context.informationEnd f
  closed : ∀ region ∈ regions, region.type ≠ multiboot2MemoryAvailable →
    PageOutside region.baseAddress (region.baseAddress + region.length) f

/-- The length handed to `reserve_internal` wraps when the range is reversed, and
then the reservation overflows instead of covering the wrong bytes. -/
theorem information_outside (boot : Booting a) (context : BootInformation)
    (ok : (reserveInternal a context.informationStart
      (sizeSub context.informationEnd context.informationStart)).1 = .ok) :
    ∀ f, (reserveInternal a context.informationStart
        (sizeSub context.informationEnd context.informationStart)).2.eligible f →
      PageOutside context.informationStart context.informationEnd f := by
  intro f eligible x low high shared
  have length : sizeSub context.informationEnd context.informationStart =
      context.informationEnd - context.informationStart := sizeSub_of_le (by omega)
  have outside := (reserveInternal_ok boot ok).outside f eligible x low high
  omega

theorem reserveBootRanges_ok {context : BootInformation} (boot : Booting a)
    (ok : (reserveBootRanges image context a).1 = .ok) :
    Offers (reserveBootRanges image context a).2 fun f => a.eligible f ∧
      PageOutside 0 lowMemoryReservation f ∧ PageOutside image.kernelStart image.kernelEnd f ∧
      PageOutside context.informationStart context.informationEnd f := by
  simp only [reserveBootRanges] at ok ⊢
  split at ok
  · next refused => exact absurd ok refused
  next low =>
  have lowCloses := reserveInternal_ok boot (not_not.mp low)
  split at ok
  · cases ok
  next ordered =>
  rw [if_neg ordered]
  split at ok
  · next refused => exact absurd ok refused
  next kernel =>
  rw [if_neg kernel]
  have kernelCloses := reserveInternal_ok lowCloses.booting (not_not.mp kernel)
  have informationCloses := reserveInternal_ok kernelCloses.booting ok
  refine ⟨informationCloses.booting, fun f eligible => ?_⟩
  have afterKernel := informationCloses.kept f eligible
  have afterLow := kernelCloses.kept f afterKernel
  have kernelEnd : image.kernelStart + (image.kernelEnd - image.kernelStart) = image.kernelEnd := by
    omega
  refine ⟨lowCloses.kept f afterLow, ?_, ?_, information_outside kernelCloses.booting context ok f eligible⟩
  · simpa using lowCloses.outside f afterLow
  · rw [← kernelEnd]
    exact kernelCloses.outside f afterKernel

theorem applyMemoryMap_ok (boot : Booting a) (empty : ∀ f, a.eligible f = false)
    (ok : (applyMemoryMap a regions).1 = .ok) :
    Offers (applyMemoryMap a regions).2 fun f =>
      (∃ region ∈ regions, region.type = multiboot2MemoryAvailable ∧
        PageInside region.baseAddress region.length f) ∧
      ∀ region ∈ regions, region.type ≠ multiboot2MemoryAvailable →
        PageOutside region.baseAddress (region.baseAddress + region.length) f := by
  simp only [applyMemoryMap] at ok ⊢
  split at ok
  · next refused => exact absurd ok refused
  next opened =>
  rw [if_neg opened]
  obtain ⟨openBooting, opens⟩ := applyPass_opens boot (not_not.mp opened)
  obtain ⟨closedBooting, closes⟩ := applyPass_closes openBooting ok
  refine ⟨closedBooting, fun f eligible => ?_⟩
  obtain ⟨wasOpen, closed⟩ := closes f eligible
  refine ⟨?_, closed⟩
  obtain before | available := opens f wasOpen
  · exact absurd before (by rw [empty f]; exact nofun)
  · exact available

theorem Booting.published (boot : Booting a) :
    FrameSound (publishAllocator (recomputeStats a)) where
  initialized := rfl
  counted := by
    have same : recountedStats (publishAllocator (recomputeStats a)) =
        recountedStats (recomputeStats a) := recountedStats_congr rfl rfl
    rw [same, ← recomputeStats_counted]
    rfl
  ineligible_used := by
    intro f closed
    have used := boot.used f
    rw [show a.eligible f = false from closed] at used
    exact used
  eligible_bound := boot.bound
  record_base := by
    intro i active
    exact absurd (boot.inactive i) (ne_of_eq_of_ne active (by decide))
  record_held := by
    intro i f held
    exact absurd (boot.inactive i) (ne_of_eq_of_ne (holds_iff.mp held).1 (by decide))
  record_unique := by
    intro i j f held
    exact absurd (boot.inactive i) (ne_of_eq_of_ne (holds_iff.mp held).1 (by decide))
  cursor := show lowMemoryReservation / sapotePageSize < frameCount by decide

theorem frameAllocatorInitialize_path
    (boot : (frameAllocatorInitialize image context start).1 = .ok) :
    ∃ information regions, context = some information ∧
      information.memoryMap = some regions ∧
      (applyMemoryMap (clearedAllocator start) regions).1 = .ok ∧
      (reserveBootRanges image information
        (applyMemoryMap (clearedAllocator start) regions).2).1 = .ok ∧
      (frameAllocatorInitialize image context start).2 =
        publishAllocator (recomputeStats (reserveBootRanges image information
          (applyMemoryMap (clearedAllocator start) regions).2).2) := by
  unfold frameAllocatorInitialize at boot ⊢
  cases context with
  | none => cases boot
  | some information => ?_
  cases map : information.memoryMap with
  | none =>
    simp only [map] at boot
    cases boot
  | some regions => ?_
  simp only [map] at boot ⊢
  split at boot
  · next refused => exact absurd boot refused
  next mapped =>
  split at boot
  · next refused => exact absurd boot refused
  next reserved =>
  split at boot
  · cases boot
  next left =>
  rw [if_neg mapped, if_neg reserved, if_neg left]
  exact ⟨information, regions, rfl, map, not_not.mp mapped, not_not.mp reserved, rfl⟩

/-- A successful boot: the map that was read, and what became of it. -/
theorem frameAllocatorInitialize_ok
    (boot : (frameAllocatorInitialize image context start).1 = .ok) :
    let booted := (frameAllocatorInitialize image context start).2
    ∃ information regions, context = some information ∧
      information.memoryMap = some regions ∧ Booting booted ∧ FrameSound booted ∧
      ∀ f, booted.eligible f → Allocatable image information regions f := by
  intro booted
  obtain ⟨information, regions, given, map, mapped, reserved, result⟩ :=
    frameAllocatorInitialize_path boot
  obtain ⟨mapBooting, origin⟩ := applyMemoryMap_ok (booting_cleared start)
    (clearedAllocator_eligible start) mapped
  obtain ⟨booting, ranges⟩ := reserveBootRanges_ok mapBooting reserved
  rw [show booted = _ from result]
  refine ⟨information, regions, given, map, ⟨booting.used, booting.bound, booting.inactive⟩,
    booting.published, fun f eligible => ?_⟩
  obtain ⟨before, low, kernel, info⟩ := ranges f eligible
  obtain ⟨available, closed⟩ := origin f before
  exact ⟨booting.bound f eligible, available, low, kernel, info, closed⟩

/-- Boot succeeds once the map and the boot ranges are accepted and some frame is
left. -/
theorem frameAllocatorInitialize_succeeds {information : BootInformation}
    (map : information.memoryMap = some regions)
    (mapped : (applyMemoryMap (clearedAllocator start) regions).1 = .ok)
    (reserved : (reserveBootRanges image information
      (applyMemoryMap (clearedAllocator start) regions).2).1 = .ok) (window : f < frameCount)
    (left : (reserveBootRanges image information
      (applyMemoryMap (clearedAllocator start) regions).2).2.free f) :
    (frameAllocatorInitialize image (some information) start).1 = .ok := by
  simp only [frameAllocatorInitialize, map]
  rw [if_neg (not_not.mpr mapped), if_neg (not_not.mpr reserved)]
  have counted : (recomputeStats (reserveBootRanges image information
      (applyMemoryMap (clearedAllocator start) regions).2).2).stats.freeFrames ≠ 0 := by
    rw [recomputeStats, recountedStats_eq]
    exact ne_of_gt (population_pos window left)
  rw [if_neg counted]

/-- The counters, bitmaps, record table and cursor as a reader of the statics
would check them. -/
structure Accounted (a : FrameAllocator) : Prop where
  recount : a.stats = recountedStats a
  allocatable : a.stats.freeFrames + a.stats.allocatedFrames = a.stats.allocatableFrames
  addressable : a.stats.allocatableFrames + a.stats.reservedFrames = frameCount
  ineligible_used : ∀ f < frameCount, a.eligible f = false → a.used f
  extents_held : ∀ i, (a.contiguousRecords i).active →
    ∀ f, (a.contiguousRecords i).firstFrame ≤ f →
      f < (a.contiguousRecords i).firstFrame + (a.contiguousRecords i).pageCount →
      f < frameCount ∧ a.eligible f ∧ a.used f
  extents_disjoint : ∀ i j, i ≠ j → (a.contiguousRecords i).active →
    (a.contiguousRecords j).active →
    (a.contiguousRecords i).firstFrame + (a.contiguousRecords i).pageCount ≤
        (a.contiguousRecords j).firstFrame ∨
      (a.contiguousRecords j).firstFrame + (a.contiguousRecords j).pageCount ≤
        (a.contiguousRecords i).firstFrame
  cursor : a.nextSearchIndex < frameCount

theorem frameSound_of_boot (boot : (frameAllocatorInitialize image context start).1 = .ok) :
    FrameSound (frameAllocatorInitialize image context start).2 := by
  obtain ⟨-, -, -, -, -, sound, -⟩ := frameAllocatorInitialize_ok boot
  exact sound

theorem FrameSound.accounted (sound : FrameSound a) : Accounted a where
  recount := sound.counted
  allocatable := by
    rw [sound.counted, recountedStats_eq, add_comm]
    exact population_split a.eligible a.used frameCount
  addressable := by
    rw [sound.counted, recountedStats_eq]
    exact population_add_compl a.eligible frameCount
  ineligible_used := fun f _ => sound.ineligible_used f
  extents_held := by
    intro i active f low high
    have held := sound.record_held i f (holds_iff.mpr ⟨active, inRun_iff.mpr ⟨low, high⟩⟩)
    exact ⟨sound.eligible_bound f held.1, held⟩
  extents_disjoint := by
    intro i j different activei activej
    have positivei := (sound.record_base i activei).1
    have positivej := (sound.record_base j activej).1
    -- Overlapping runs share the later of their two first frames.
    by_contra overlap
    apply different
    apply sound.record_unique i j
      (max (a.contiguousRecords i).firstFrame (a.contiguousRecords j).firstFrame)
    · exact holds_iff.mpr ⟨activei, inRun_iff.mpr (by omega)⟩
    · exact holds_iff.mpr ⟨activej, inRun_iff.mpr (by omega)⟩
  cursor := sound.cursor

/-- No counter the call subtracts from is smaller than what is subtracted. -/
def SubtractsExactly (a : FrameAllocator) : FrameOp → Prop
  | .allocate output => (frameAllocate a output).status = .ok → 1 ≤ a.stats.freeFrames
  | .release address => (frameRelease a address).1 = .ok → 1 ≤ a.stats.allocatedFrames
  | .allocateContiguous request output => ∀ request', request = some request' →
      (frameAllocateContiguous a request output).status = .ok →
      request'.pageCount ≤ a.stats.freeFrames
  | .releaseContiguous allocation => ∀ handle, allocation = some handle →
      (frameReleaseContiguous a allocation).1 = .ok →
      handle.pageCount ≤ a.stats.allocatedFrames
  | .reserveRange _ _ => True

theorem FrameSound.subtractsExactly (sound : FrameSound a) (op : FrameOp) :
    SubtractsExactly a op := by
  cases op with
  | allocate output =>
    intro ok
    obtain refused | ⟨f, -, -, takes, -⟩ := frameAllocate_cases sound output
    · exact absurd ok refused.1
    · exact takes.count_le sound.counted
  | release address =>
    intro ok
    obtain refused | ⟨f, -, -, gives, -⟩ := frameRelease_cases sound address
    · exact absurd ok refused.1
    · exact gives.count_le sound.counted
  | allocateContiguous request output =>
    intro request' same ok
    obtain refused | ⟨other, slot, first, given, -, -, -, -, -, takes⟩ :=
      frameAllocateContiguous_cases (a := a) request output
    · exact absurd ok refused.1
    · rw [same] at given
      cases given
      exact takes.count_le sound.counted
  | releaseContiguous allocation =>
    intro handle same ok
    obtain refused | given := frameReleaseContiguous_cases sound allocation
    · exact absurd ok refused.1
    · obtain ⟨other, slot, given, -, -, -, count, -, gives⟩ := given
      rw [same] at given
      cases given
      rw [← count]
      exact gives.count_le sound.counted
  | reserveRange base length => exact trivial

/-- From a successful boot on, whatever is called with whatever arguments, the
statistics are a recount of the bitmaps and no subtraction wraps. -/
theorem frame_accounting_over_runs (image : KernelImage) (context : Option BootInformation)
    (start : FrameAllocator) (boot : (frameAllocatorInitialize image context start).1 = .ok)
    (ops : List FrameOp) :
    let a := run frameStep (frameAllocatorInitialize image context start).2 ops
    Accounted a ∧ ∀ op, SubtractsExactly a op := by
  intro a
  have sound := frameSound_of_boot boot
  have reached : FrameSound a :=
    run_invariant frameStep FrameSound (fun _ op h => frameSound_step h op) ops _ sound
  exact ⟨reached.accounted, reached.subtractsExactly⟩

/-- Four available pages behind the low megabyte, the first two of them the kernel
and the boot information, and one reserved page far above. -/
def smallMap : List BootMemoryRegion := [⟨0x100000, 0x4000, 1⟩, ⟨0xFEC00000, 0x1000, 2⟩]

def smallBoot : BootInformation := ⟨0x101000, 0x101800, some smallMap, by decide⟩

def smallImage : KernelImage := ⟨0x100000, 0x101000⟩

def zeroFrames : FrameAllocator :=
  ⟨bitmapFill 0, bitmapFill 0, ⟨0, 0, 0, 0, 0, 0⟩, 0, false, fun _ => ⟨0, 0, 0, false⟩, 0⟩

theorem smallBoot_ok :
    (frameAllocatorInitialize smallImage (some smallBoot) zeroFrames).1 = .ok := by
  apply frameAllocatorInitialize_succeeds (f := 0x103)
  · rfl
  · decide +kernel
  · decide +kernel
  · decide
  · decide +kernel

def smallStart : FrameStatus × FrameAllocator :=
  frameAllocatorInitialize smallImage (some smallBoot) zeroFrames

theorem smallStart_sound : FrameSound smallStart.2 := by
  rw [smallStart]
  exact @frameSound_of_boot zeroFrames smallImage (some smallBoot) smallBoot_ok

theorem frame_accounting_after_small_boot :
    (frameAllocatorInitialize smallImage (some smallBoot) zeroFrames).1 = .ok ∧
    Accounted (run frameStep (frameAllocatorInitialize smallImage (some smallBoot) zeroFrames).2
      [.allocate true, .allocateContiguous (some ⟨1, 0x1000, 0xFFFFFFFF⟩) true,
        .release 0x103000, .reserveRange 0x102000 1]) :=
  ⟨smallBoot_ok, (frame_accounting_over_runs smallImage (some smallBoot) zeroFrames
    smallBoot_ok _).1⟩

end Sapote.Frames
