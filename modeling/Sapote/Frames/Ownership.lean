import Sapote.Frames.Boot

/-!
Who holds which frame. The allocator's state is paired with what its callers
were given: the addresses and extents still outstanding and the ranges they had
reserved. A frame handed out is compared with all of it.
-/

namespace Sapote.Frames
open Library Paging

structure Outstanding where
  allocator : FrameAllocator
  /-- Physical addresses returned by `frame_allocate` and not released. -/
  singles : List Nat
  /-- Bases and page counts returned by `frame_allocate_contiguous`, not released. -/
  extents : List (Nat × Nat)
  /-- Bases and lengths `frame_reserve_range` accepted. -/
  reserved : List (Nat × Nat)

def ownedStep (t : Outstanding) : FrameOp → Outstanding
  | .allocate output =>
    let result := frameAllocate t.allocator output
    { t with
      allocator := result.allocator
      singles := if result.status = .ok then result.address.toList ++ t.singles else t.singles }
  | .release address =>
    let result := frameRelease t.allocator address
    { t with
      allocator := result.2
      singles := if result.1 = .ok then t.singles.filter (· ≠ address) else t.singles }
  | .allocateContiguous request output =>
    let result := frameAllocateContiguous t.allocator request output
    { t with
      allocator := result.allocator
      extents :=
        if result.status = .ok then
          result.allocation.toList.map (fun h => (h.physicalBase, h.pageCount)) ++ t.extents
        else t.extents }
  | .releaseContiguous allocation =>
    let result := frameReleaseContiguous t.allocator allocation
    { t with
      allocator := result.2
      extents :=
        if result.1 = .ok then
          t.extents.filter fun e => allocation.all fun h => e ≠ (h.physicalBase, h.pageCount)
        else t.extents }
  | .reserveRange base length =>
    let result := frameReserveRange t.allocator base length
    { t with
      allocator := result.2
      reserved := if result.1 = .ok then (base, length) :: t.reserved else t.reserved }

def ExtentHolds (e : Nat × Nat) (f : Nat) : Prop :=
  e.1 ≤ f * sapotePageSize ∧ f * sapotePageSize < e.1 + e.2 * sapotePageSize

/-- The callers' view is covered by the bitmaps and the record table, and what
is eligible is fit to hand out. -/
structure Owned (image : KernelImage) (information : BootInformation)
    (regions : List BootMemoryRegion) (t : Outstanding) : Prop where
  sound : FrameSound t.allocator
  fit : ∀ f, t.allocator.eligible f → Allocatable image information regions f
  unreserved : ∀ f, t.allocator.eligible f →
    ∀ r ∈ t.reserved, PageOutside r.1 (r.1 + r.2) f
  single : ∀ address ∈ t.singles, ∃ f, address = f * sapotePageSize ∧
    t.allocator.eligible f ∧ t.allocator.used f ∧
    ∀ i, (t.allocator.contiguousRecords i).holds f = false
  extent : ∀ e ∈ t.extents, ∃ i, (t.allocator.contiguousRecords i).active ∧
    (t.allocator.contiguousRecords i).physicalBase = e.1 ∧
    (t.allocator.contiguousRecords i).pageCount = e.2

variable {image : KernelImage} {information : BootInformation} {regions : List BootMemoryRegion}
variable {t : Outstanding}

structure Fresh (image : KernelImage) (information : BootInformation)
    (regions : List BootMemoryRegion) (t : Outstanding) (f : Nat) : Prop where
  free : t.allocator.eligible f ∧ t.allocator.used f = false
  noSingle : f * sapotePageSize ∉ t.singles
  noExtent : ∀ e ∈ t.extents, ¬ExtentHolds e f
  allocatable : Allocatable image information regions f
  unreserved : ∀ r ∈ t.reserved, PageOutside r.1 (r.1 + r.2) f

theorem page_injective {f g : Nat} (same : f * sapotePageSize = g * sapotePageSize) : f = g :=
  Nat.eq_of_mul_eq_mul_right (by decide) same

section
variable (owned : Owned image information regions t)
include owned

theorem Owned.extent_held {e : Nat × Nat}
    (he : e ∈ t.extents) {f : Nat} (inside : ExtentHolds e f) :
    ∃ i, (t.allocator.contiguousRecords i).holds f := by
  obtain ⟨i, active, base, count⟩ := owned.extent e he
  have aligned := (owned.sound.record_base i active).2
  refine ⟨i, holds_iff.mpr ⟨active, inRun_iff.mpr ?_⟩⟩
  obtain ⟨low, high⟩ := inside
  rw [← base] at low high
  rw [← count] at high
  unfold ContiguousRecord.firstFrame
  unfold sapotePageSize at *
  omega

theorem Owned.fresh {f : Nat}
    (free : t.allocator.free f) : Fresh image information regions t f := by
  have parts := free_iff.mp free
  refine ⟨parts, ?_, ?_, owned.fit f parts.1, owned.unreserved f parts.1⟩
  · intro member
    obtain ⟨g, same, -, used, -⟩ := owned.single _ member
    rw [← page_injective same, parts.2] at used
    cases used
  · intro e member inside
    obtain ⟨i, held⟩ := owned.extent_held member inside
    rw [(owned.sound.record_held i f held).2] at parts
    cases parts.2

theorem Owned.allocate (output : Bool) :
    Owned image information regions (ownedStep t (.allocate output)) := by
  have sound := frameSound_step owned.sound (.allocate output)
  obtain refused | ⟨f, ok, address, takes, -, records⟩ := frameAllocate_cases owned.sound output
  · simp only [ownedStep]
    rw [if_neg refused.1, refused.2.2]
    exact owned
  have singles : (ownedStep t (.allocate output)).singles = f * sapotePageSize :: t.singles := by
    simp only [ownedStep]
    rw [if_pos ok, address]
    rfl
  have eligible : (ownedStep t (.allocate output)).allocator.eligible = t.allocator.eligible :=
    takes.eligible
  refine ⟨sound, eligible ▸ owned.fit, eligible ▸ owned.unreserved, ?_, ?_⟩
  · intro p member
    rw [singles] at member
    rw [eligible]
    simp only [ownedStep]
    rw [records]
    obtain new | old := List.mem_cons.mp member
    · have self : inRun f 1 f := inRun_iff.mpr ⟨le_refl f, Nat.lt_succ_self f⟩
      have free := takes.free f self
      refine ⟨f, new, (free_iff.mp free).1, ?_, ?_⟩
      · rw [takes.used, self, Bool.or_true]
      · intro i
        apply Bool.eq_false_iff.mpr
        intro held
        rw [owned.sound.held_not_free held] at free
        cases free
    · obtain ⟨g, same, before, used, single⟩ := owned.single p old
      exact ⟨g, same, before, by rw [takes.used, used, Bool.true_or], single⟩
  · intro e member
    simp only [ownedStep]
    rw [records]
    exact owned.extent e member

theorem Owned.release (address : Nat) :
    Owned image information regions (ownedStep t (.release address)) := by
  have sound := frameSound_step owned.sound (.release address)
  obtain refused | ⟨f, ok, here, gives, -, -, records⟩ := frameRelease_cases owned.sound address
  · simp only [ownedStep]
    rw [if_neg refused.1, refused.2]
    exact owned
  have eligible : (ownedStep t (.release address)).allocator.eligible = t.allocator.eligible :=
    gives.eligible
  refine ⟨sound, eligible ▸ owned.fit, eligible ▸ owned.unreserved, ?_, ?_⟩
  · intro p member
    rw [eligible]
    simp only [ownedStep] at member ⊢
    rw [if_pos ok, List.mem_filter, decide_eq_true_eq] at member
    rw [records]
    obtain ⟨g, same, before, used, single⟩ := owned.single p member.1
    refine ⟨g, same, before, ?_, single⟩
    have other : inRun f 1 g = false := by
      rw [inRun_one, decide_eq_false_iff_not]
      intro equal
      apply member.2
      rw [same, here, equal]
    rw [gives.used, used, other]
    rfl
  · intro e member
    simp only [ownedStep]
    rw [records]
    exact owned.extent e member

end

theorem takeContiguousRun_record (a : FrameAllocator) (request : ContiguousRequest)
    (slot i : Fin contiguousAllocationCapacity) (first : Nat) :
    (takeContiguousRun a request slot first).contiguousRecords i =
      if i = slot then
        ⟨first * sapotePageSize, request.pageCount, a.nextContiguousIdentifier, true⟩
      else a.contiguousRecords i :=
  Function.update_apply _ _ _ _

theorem Owned.allocateContiguous (owned : Owned image information regions t)
    (request : Option ContiguousRequest) (output : Bool) :
    Owned image information regions (ownedStep t (.allocateContiguous request output)) := by
  have sound := frameSound_step owned.sound (.allocateContiguous request output)
  obtain refused | taken := frameAllocateContiguous_cases (a := t.allocator) request output
  · simp only [ownedStep]
    rw [if_neg refused.1, refused.2]
    exact owned
  obtain ⟨request', slot, first, -, positive, ⟨ok, -⟩, handle, inactive, result, takes⟩ := taken
  have allocator : (ownedStep t (.allocateContiguous request output)).allocator =
      takeContiguousRun t.allocator request' slot first := result
  have frame : first * sapotePageSize / sapotePageSize = first :=
    Nat.mul_div_cancel _ (by decide)
  refine ⟨sound, ?_, ?_, ?_, ?_⟩
  · rw [allocator, takes.eligible]
    exact owned.fit
  · rw [allocator, takes.eligible]
    exact owned.unreserved
  · intro p member
    rw [allocator, takes.eligible]
    obtain ⟨f, same, before, used, single⟩ := owned.single p member
    refine ⟨f, same, before, by rw [takes.used, used, Bool.true_or], ?_⟩
    intro i
    rw [takeContiguousRun_record]
    split
    · apply Bool.eq_false_iff.mpr
      intro held
      have inside := (holds_iff.mp held).2
      simp only [ContiguousRecord.firstFrame, frame] at inside
      have free := takes.free f inside
      rw [FrameAllocator.free, used, Bool.not_true, Bool.and_false] at free
      cases free
    · exact single i
  · intro e member
    rw [allocator]
    simp only [ownedStep] at member
    rw [if_pos ok, handle, List.mem_append] at member
    obtain new | old := member
    · have same : e = (first * sapotePageSize, request'.pageCount) := by simpa using new
      refine ⟨slot, ?_⟩
      rw [takeContiguousRun_record, if_pos rfl, same]
      exact ⟨rfl, rfl, rfl⟩
    obtain ⟨i, active, base, count⟩ := owned.extent e old
    have other : i ≠ slot := by
      intro equal
      rw [equal, inactive] at active
      cases active
    refine ⟨i, ?_⟩
    rw [takeContiguousRun_record, if_neg other]
    exact ⟨active, base, count⟩

theorem giveContiguousRun_record (a : FrameAllocator) (slot i : Fin contiguousAllocationCapacity) :
    (giveContiguousRun a slot).contiguousRecords i =
      if i = slot then { a.contiguousRecords slot with active := false }
      else a.contiguousRecords i :=
  Function.update_apply _ _ _ _

theorem Owned.releaseContiguous (owned : Owned image information regions t)
    (allocation : Option ContiguousAllocation) :
    Owned image information regions (ownedStep t (.releaseContiguous allocation)) := by
  have sound := frameSound_step owned.sound (.releaseContiguous allocation)
  obtain refused | given := frameReleaseContiguous_cases owned.sound allocation
  · simp only [ownedStep]
    rw [if_neg refused.1, refused.2]
    exact owned
  obtain ⟨handle, slot, named, ok, active, base, count, result, gives⟩ := given
  have allocator : (ownedStep t (.releaseContiguous allocation)).allocator =
      giveContiguousRun t.allocator slot := result
  refine ⟨sound, ?_, ?_, ?_, ?_⟩
  · rw [allocator, gives.eligible]
    exact owned.fit
  · rw [allocator, gives.eligible]
    exact owned.unreserved
  · intro p member
    rw [allocator, gives.eligible]
    obtain ⟨f, same, before, used, single⟩ := owned.single p member
    refine ⟨f, same, before, ?_, ?_⟩
    · have outside : inRun (t.allocator.contiguousRecords slot).firstFrame
          (t.allocator.contiguousRecords slot).pageCount f = false := by
        apply Bool.eq_false_iff.mpr
        intro inside
        exact absurd (single slot) (by rw [holds_iff.mpr ⟨active, inside⟩]; exact nofun)
      rw [gives.used, used, outside]
      rfl
    · intro i
      rw [giveContiguousRun_record]
      split
      · rfl
      · exact single i
  · intro e member
    rw [allocator]
    simp only [ownedStep] at member
    rw [if_pos ok, List.mem_filter, named] at member
    obtain ⟨i, live, base', count'⟩ := owned.extent e member.1
    have other : i ≠ slot := by
      rintro rfl
      have different : e ≠ (handle.physicalBase, handle.pageCount) := by
        simpa using member.2
      exact different (Prod.ext (by rw [← base', base]) (by rw [← count', count]))
    refine ⟨i, ?_⟩
    rw [giveContiguousRun_record, if_neg other]
    exact ⟨live, base', count'⟩

theorem Owned.reserveRange (owned : Owned image information regions t) (base length : Nat) :
    Owned image information regions (ownedStep t (.reserveRange base length)) := by
  have sound := frameSound_step owned.sound (.reserveRange base length)
  obtain refused | reserved := frameReserveRange_cases t.allocator base length
  · simp only [ownedStep]
    rw [if_neg refused.1, refused.2]
    exact owned
  obtain ⟨first, past, bounds, ok, withdraws, -⟩ := reserved
  have kept : ∀ f, (ownedStep t (.reserveRange base length)).allocator.eligible f →
      t.allocator.eligible f ∧ inRun first (past - first) f = false := by
    intro f eligible
    have := withdraws.eligible f
    rw [show (frameReserveRange t.allocator base length).2.eligible f = true from eligible,
      eq_comm, Bool.and_eq_true, Bool.not_eq_true'] at this
    exact this
  refine ⟨sound, fun f eligible => owned.fit f (kept f eligible).1, ?_, ?_, ?_⟩
  · intro f eligible r member
    obtain ⟨before, outside⟩ := kept f eligible
    simp only [ownedStep] at member
    rw [if_pos ok] at member
    obtain new | old := List.mem_cons.mp member
    · rw [new]
      exact coveringFrameBounds_outside bounds (owned.sound.eligible_bound f before) outside
    · exact owned.unreserved f before r old
  · intro p member
    obtain ⟨f, same, before, used, single⟩ := owned.single p member
    have outside : inRun first (past - first) f = false :=
      Bool.eq_false_iff.mpr fun inside => withdraws.idle f inside ⟨before, used⟩
    simp only [ownedStep]
    rw [withdraws.records]
    refine ⟨f, same, ?_, ?_, single⟩
    · rw [withdraws.eligible, before, outside]
      rfl
    · rw [withdraws.used, used, Bool.true_or]
  · intro e member
    simp only [ownedStep]
    rw [withdraws.records]
    exact owned.extent e member

theorem owned_step (t : Outstanding) (op : FrameOp) (owned : Owned image information regions t) :
    Owned image information regions (ownedStep t op) := by
  cases op with
  | allocate output => exact owned.allocate output
  | release address => exact owned.release address
  | allocateContiguous request output => exact owned.allocateContiguous request output
  | releaseContiguous allocation => exact owned.releaseContiguous allocation
  | reserveRange base length => exact owned.reserveRange base length

/-- With an output pointer, `frame_allocate` reports failure only when nothing is
free. -/
theorem frameAllocate_refused {a : FrameAllocator} (sound : FrameSound a)
    (refused : (frameAllocate a true).status ≠ .ok) (f : Nat) (window : f < frameCount) :
    a.free f = false := by
  apply Bool.eq_false_iff.mpr
  intro free
  have left : a.stats.freeFrames ≠ 0 := by
    rw [sound.counted, recountedStats_eq]
    exact ne_of_gt (population_pos window free)
  cases found : findFreeFrame a with
  | none =>
    rw [findFreeFrame_none sound.cursor found window] at free
    cases free
  | some g =>
    apply refused
    simp only [frameAllocate, sound.initialized, found]
    rw [if_neg (by decide), if_neg (by decide), if_neg left]

theorem publishAllocator_free (a : FrameAllocator) (f : Nat) :
    (publishAllocator (recomputeStats a)).free f = a.free f := rfl

/-- In every run from a successful boot: frames handed out singly or in an extent
were free, belong to no other outstanding allocation and are fit to hand out;
and `frame_allocate`, given somewhere to put the address, fails only when no
eligible frame is free. -/
theorem frames_handed_out_fresh (image : KernelImage) (information : BootInformation)
    (regions : List BootMemoryRegion) (start : FrameAllocator)
    (map : information.memoryMap = some regions)
    (boot : (frameAllocatorInitialize image (some information) start).1 = .ok)
    (ops : List FrameOp) :
    let t := run ownedStep
      ⟨(frameAllocatorInitialize image (some information) start).2, [], [], []⟩ ops
    (∀ output, (frameAllocate t.allocator output).status = .ok →
      ∃ f, (frameAllocate t.allocator output).address = some (f * sapotePageSize) ∧
        Fresh image information regions t f) ∧
    (∀ request output, (frameAllocateContiguous t.allocator request output).status = .ok →
      ∃ handle, (frameAllocateContiguous t.allocator request output).allocation = some handle ∧
        handle.physicalBase % sapotePageSize = 0 ∧
        ∀ f, ExtentHolds (handle.physicalBase, handle.pageCount) f →
          Fresh image information regions t f) ∧
    ((frameAllocate t.allocator true).status ≠ .ok →
      ∀ f < frameCount, ¬(t.allocator.eligible f = true ∧ t.allocator.used f = false)) := by
  intro t
  have owned : Owned image information regions t := by
    obtain ⟨information', regions', same, map', _, sound, fit⟩ := frameAllocatorInitialize_ok boot
    cases same
    rw [map] at map'
    cases map'
    exact run_invariant ownedStep _ owned_step ops _ ⟨sound, fit, nofun, nofun, nofun⟩
  refine ⟨?_, ?_, ?_⟩
  · intro output ok
    obtain refused | ⟨f, -, address, takes, -⟩ := frameAllocate_cases owned.sound output
    · exact absurd ok refused.1
    · exact ⟨f, address, owned.fresh
        (takes.free f (inRun_iff.mpr ⟨le_refl f, Nat.lt_succ_self f⟩))⟩
  · intro request output ok
    obtain refused | taken := frameAllocateContiguous_cases (a := t.allocator) request output
    · exact absurd ok refused.1
    obtain ⟨request', slot, first, -, -, -, handle, -, -, takes⟩ := taken
    refine ⟨_, handle, Nat.mul_mod_left _ _, fun f inside => owned.fresh (takes.free f ?_)⟩
    obtain ⟨low, high⟩ := inside
    rw [inRun_iff]
    unfold sapotePageSize at low high
    dsimp only at low high
    omega
  · intro refused f window free
    have taken := frameAllocate_refused owned.sound refused f window
    rw [FrameAllocator.free, free.1, free.2] at taken
    cases taken

def smallOutstanding : Outstanding :=
  run ownedStep ⟨(frameAllocatorInitialize smallImage (some smallBoot) zeroFrames).2, [], [], []⟩
    [.allocate true, .release 0x102000, .reserveRange 0x103000 4096]

theorem frames_handed_out_fresh_small_boot :
    smallBoot.memoryMap = some smallMap ∧
    (frameAllocatorInitialize smallImage (some smallBoot) zeroFrames).1 = .ok ∧
    ∀ output, (frameAllocate smallOutstanding.allocator output).status = .ok →
      ∃ f, (frameAllocate smallOutstanding.allocator output).address = some (f * sapotePageSize) ∧
        Fresh smallImage smallBoot smallMap smallOutstanding f :=
  ⟨rfl, smallBoot_ok, (frames_handed_out_fresh smallImage smallBoot smallMap zeroFrames rfl
    smallBoot_ok [.allocate true, .release 0x102000, .reserveRange 0x103000 4096]).1⟩

/-- Two frames are free after the small boot, yet a call without an output pointer
fails. -/
theorem frame_allocate_null_fails_while_free :
    (frameAllocatorInitialize smallImage (some smallBoot) zeroFrames).1 = .ok ∧
    (frameAllocatorInitialize smallImage (some smallBoot) zeroFrames).2.free 0x103 = true ∧
    (frameAllocate (frameAllocatorInitialize smallImage (some smallBoot) zeroFrames).2
      false).status = .nullArgument := by
  refine ⟨smallBoot_ok, ?_, rfl⟩
  obtain ⟨information, regions, same, map, -, -, result⟩ :=
    frameAllocatorInitialize_path smallBoot_ok
  cases same
  cases map
  rw [result, publishAllocator_free]
  decide +kernel

/-- What `frame_allocate` handed out and nobody gave back stays releasable. -/
theorem outstanding_frames_released (t : { t : Outstanding // Owned image information regions t })
    (ops : List FrameOp) :
    let after := run ownedStep t.1 ops
    ∀ address ∈ after.singles, (frameRelease after.allocator address).1 = .ok := by
  intro after address held
  have owned : Owned _ _ _ after := run_invariant ownedStep _ owned_step ops t.1 t.2
  obtain ⟨f, rfl, eligible, used, apart⟩ := owned.single address held
  have bound := owned.sound.eligible_bound f eligible
  have page : f * sapotePageSize / sapotePageSize = f := Nat.mul_div_cancel _ (by decide)
  have below : f * sapotePageSize < earlyPhysicalLimit :=
    frameCount_page ▸ Nat.mul_lt_mul_of_pos_right bound (by decide)
  simp [frameRelease, page, below.not_ge, owned.sound.initialized, eligible, used, apart,
    frameInContiguousAllocation]

end Sapote.Frames
