import Sapote.Frames.Allocator
import Sapote.Library.Counting
import Sapote.Library.Run

/-!
The frame allocator's counters against its bitmaps. Every call either leaves
the allocator alone, takes a run of free frames, gives a run back, or reserves a
run nobody holds; the invariant is proved once for each of those moves.
-/

namespace Sapote.Frames
open Library Paging List Function
variable {a b : FrameAllocator} {slot : Fin contiguousAllocationCapacity} {first count f step : Nat}
  {request : ContiguousRequest} {identifier start remaining : Nat}

theorem frameCount_page : frameCount * sapotePageSize = earlyPhysicalLimit := by decide

theorem sizeSub_of_le {a b : Nat} (h : b ≤ a) : sizeSub a b = a - b := if_pos h

def highestEligible (eligible : Nat → Bool) : Nat → Nat
  | 0 => 0
  | n + 1 => if eligible n then (n + 1) * sapotePageSize else highestEligible eligible n

theorem recountedBelow_eq (a : FrameAllocator) (n : Nat) :
    recountedBelow a n = ⟨frameCount, population a.eligible n, population a.free n,
        population (fun f => a.eligible f && a.used f) n,
        population (fun f => !a.eligible f) n, highestEligible a.eligible n⟩ := by
  induction n with
  | zero => simp [recountedBelow, population, highestEligible]
  | succ n ih =>
    simp only [recountedBelow, ih, recomputeFrame, population_succ, highestEligible,
      FrameAllocator.free]
    by_cases eligible : a.eligible n <;> by_cases used : a.used n <;> simp [eligible, used]

theorem recountedStats_eq (a : FrameAllocator) :
    recountedStats a = ⟨frameCount, population a.eligible frameCount, population a.free frameCount,
        population (fun f => a.eligible f && a.used f) frameCount,
        population (fun f => !a.eligible f) frameCount,
        highestEligible a.eligible frameCount⟩ :=
  recountedBelow_eq a frameCount

theorem recountedStats_congr (eligible : b.eligible = a.eligible) (used : b.used = a.used) :
    recountedStats b = recountedStats a := by
  have free : b.free = a.free := by
    funext f
    simp only [FrameAllocator.free, eligible, used]
  simp only [recountedStats_eq, eligible, used, free]

theorem recomputeStats_counted (a : FrameAllocator) :
    (recomputeStats a).stats = recountedStats (recomputeStats a) :=
  (recountedStats_congr (a := a) (b := recomputeStats a) rfl rfl).symm

theorem free_iff : a.free f ↔ a.eligible f ∧ a.used f = false := by
  rw [FrameAllocator.free, Bool.and_eq_true, Bool.not_eq_true']

def inRun (first count frame : Nat) : Bool :=
  decide (first ≤ frame) && decide (frame < first + count)

theorem inRun_iff {frame : Nat} :
    inRun first count frame ↔ first ≤ frame ∧ frame < first + count := by
  simp [inRun]

theorem inRun_one (first frame : Nat) : inRun first 1 frame = decide (frame = first) := by
  rw [inRun, ← Bool.decide_and]
  apply decide_eq_decide.mpr
  omega

theorem bitmapGet_run (bitmap : Bitmap) (first count frame : Nat) (value : Bool) :
    bitmapGet (bitmapSetRun bitmap first count value) frame =
      if inRun first count frame then value else bitmapGet bitmap frame := by
  rw [bitmapGet_bitmapSetRun]
  exact if_congr inRun_iff.symm rfl rfl

theorem bitmapGet_run_true (bitmap : Bitmap) (first count frame : Nat) :
    bitmapGet (bitmapSetRun bitmap first count true) frame =
      (bitmapGet bitmap frame || inRun first count frame) := by
  rw [bitmapGet_run]
  cases inRun first count frame <;> simp

theorem bitmapGet_run_false (bitmap : Bitmap) (first count frame : Nat) :
    bitmapGet (bitmapSetRun bitmap first count false) frame =
      (bitmapGet bitmap frame && !inRun first count frame) := by
  rw [bitmapGet_run]
  cases inRun first count frame <;> simp

/-- The two allocators differ in a run of eligible frames, free in the one and used in the
other. -/
structure Marks (a : FrameAllocator) (first count : Nat) (b : FrameAllocator) : Prop where
  bound : first + count ≤ frameCount
  free : ∀ f, inRun first count f → a.free f
  eligible : b.eligible = a.eligible
  used : ∀ f, b.used f = (a.used f || inRun first count f)

/-- `b` is `a` with the free run `[first, first + count)` taken. -/
structure Takes (a : FrameAllocator) (first count : Nat) (b : FrameAllocator) : Prop
    extends Marks a first count b where
  stats : b.stats = { a.stats with
    freeFrames := sizeSub a.stats.freeFrames count
    allocatedFrames := a.stats.allocatedFrames + count }
  cursor : b.nextSearchIndex < frameCount

/-- `b` is `a` with the held run `[first, first + count)` given back. -/
structure Gives (a : FrameAllocator) (first count : Nat) (b : FrameAllocator) : Prop where
  bound : first + count ≤ frameCount
  held : ∀ f, inRun first count f → a.eligible f ∧ a.used f
  eligible : b.eligible = a.eligible
  used : ∀ f, b.used f = (a.used f && !inRun first count f)
  stats : b.stats = { a.stats with
    freeFrames := a.stats.freeFrames + count
    allocatedFrames := sizeSub a.stats.allocatedFrames count }
  cursor : b.nextSearchIndex < frameCount

/-- `b` is `a` with `[first, first + count)`, in which nothing is held, withdrawn
and the counters recomputed. -/
structure Withdraws (a : FrameAllocator) (first count : Nat) (b : FrameAllocator) : Prop where
  idle : ∀ f, inRun first count f → ¬(a.eligible f ∧ a.used f)
  eligible : ∀ f, b.eligible f = (a.eligible f && !inRun first count f)
  used : ∀ f, b.used f = (a.used f || inRun first count f)
  records : b.contiguousRecords = a.contiguousRecords
  stats : b.stats = recountedStats b
  cursor : b.nextSearchIndex = a.nextSearchIndex

theorem Gives.marks (g : Gives a first count b) : Marks b first count a where
  bound := g.bound
  free f inside := by
    rw [FrameAllocator.free, g.eligible, g.used, (g.held f inside).1, inside]
    simp
  eligible := g.eligible.symm
  used f := by
    have was := fun inside => (g.held f inside).2
    rw [g.used]
    revert was
    cases a.used f <;> cases inRun first count f <;> simp

theorem Marks.population (m : Marks a first count b) :
    population a.free frameCount = population b.free frameCount + count ∧
      population (fun f => b.eligible f && b.used f) frameCount =
        population (fun f => a.eligible f && a.used f) frameCount + count := by
  constructor
  · apply population_insert_run m.bound
    · intro f low high
      rw [FrameAllocator.free, m.used, inRun_iff.mpr ⟨low, high⟩, Bool.or_true, Bool.not_true,
        Bool.and_false]
    · intro f
      change _ = (_ || inRun first count f)
      have was := m.free f
      rw [FrameAllocator.free] at was
      simp only [FrameAllocator.free, m.eligible, m.used]
      revert was
      cases a.eligible f <;> cases a.used f <;> cases inRun first count f <;> simp
  · apply population_insert_run m.bound
    · intro f low high
      have was := m.free f (inRun_iff.mpr ⟨low, high⟩)
      rw [FrameAllocator.free] at was
      revert was
      cases a.eligible f <;> cases a.used f <;> simp
    · intro f
      change _ = (_ || inRun first count f)
      have was := m.free f
      rw [FrameAllocator.free] at was
      rw [m.eligible, m.used]
      revert was
      cases a.eligible f <;> cases a.used f <;> cases inRun first count f <;> simp

theorem Takes.count_le (t : Takes a first count b) (counted : a.stats = recountedStats a) :
    count ≤ a.stats.freeFrames := by
  rw [counted, recountedStats_eq, t.population.1]
  exact Nat.le_add_left _ _

theorem Gives.count_le (g : Gives a first count b) (counted : a.stats = recountedStats a) :
    count ≤ a.stats.allocatedFrames := by
  rw [counted, recountedStats_eq, g.marks.population.2]
  exact Nat.le_add_left _ _

theorem Takes.counted (t : Takes a first count b) (counted : a.stats = recountedStats a) :
    b.stats = recountedStats b := by
  obtain ⟨freed, held⟩ := t.population
  rw [t.stats, counted, recountedStats_eq, recountedStats_eq, held, t.eligible]
  simp only
  rw [sizeSub_of_le (by omega), freed, Nat.add_sub_cancel]

theorem Gives.counted (g : Gives a first count b) (counted : a.stats = recountedStats a) :
    b.stats = recountedStats b := by
  obtain ⟨freed, held⟩ := g.marks.population
  rw [g.stats, counted, recountedStats_eq, recountedStats_eq, freed]
  simp only
  rw [sizeSub_of_le (by omega), held, Nat.add_sub_cancel]
  simp only [g.eligible]

structure FrameSound (a : FrameAllocator) : Prop where
  initialized : a.initialized
  counted : a.stats = recountedStats a
  ineligible_used : ∀ f, a.eligible f = false → a.used f
  eligible_bound : ∀ f, a.eligible f → f < frameCount
  record_base : ∀ i, (a.contiguousRecords i).active →
    0 < (a.contiguousRecords i).pageCount ∧ (a.contiguousRecords i).physicalBase % sapotePageSize = 0
  record_held : ∀ i f, (a.contiguousRecords i).holds f →
    a.eligible f ∧ a.used f
  record_unique : ∀ i j f, (a.contiguousRecords i).holds f →
    (a.contiguousRecords j).holds f → i = j
  cursor : a.nextSearchIndex < frameCount

theorem holds_iff {r : ContiguousRecord} :
    r.holds f ↔ r.active ∧ inRun r.firstFrame r.pageCount f := by
  simp only [ContiguousRecord.holds, Bool.and_eq_true, decide_eq_true_eq, inRun_iff, and_assoc]
  apply and_congr_right
  intro _
  omega

section
variable (sound : FrameSound a)
include sound

theorem FrameSound.held_not_free {i : Fin contiguousAllocationCapacity}
    (held : (a.contiguousRecords i).holds f) : a.free f = false := by
  rw [FrameAllocator.free, (sound.record_held i f held).2, Bool.not_true, Bool.and_false]

/-- Taking a run, which the record of one slot may hold from then on. -/
theorem FrameSound.take (t : Takes a first count b)
    (initialized : b.initialized = a.initialized) (slot : Fin contiguousAllocationCapacity)
    (bases : ∀ i, (b.contiguousRecords i).active → 0 < (b.contiguousRecords i).pageCount ∧
      (b.contiguousRecords i).physicalBase % sapotePageSize = 0)
    (records : ∀ i f, (b.contiguousRecords i).holds f →
      (a.contiguousRecords i).holds f ∨ i = slot ∧ inRun first count f) :
    FrameSound b where
  initialized := by rw [initialized, sound.initialized]
  counted := t.counted sound.counted
  ineligible_used := by
    intro f closed
    rw [t.eligible] at closed
    rw [t.used, sound.ineligible_used f closed, Bool.true_or]
  eligible_bound := by
    rw [t.eligible]
    exact sound.eligible_bound
  record_base := bases
  record_held := by
    intro i f held
    rw [t.eligible, t.used]
    obtain old | ⟨-, new⟩ := records i f held
    · have was := sound.record_held i f old
      rw [was.2, Bool.true_or]
      exact ⟨was.1, rfl⟩
    · rw [new, Bool.or_true]
      exact ⟨(free_iff.mp (t.free f new)).1, rfl⟩
  record_unique := by
    have fresh : ∀ i f, (a.contiguousRecords i).holds f → inRun first count f ≠ true := by
      intro i f held inside
      have := t.free f inside
      rw [sound.held_not_free held] at this
      cases this
    intro i j f here there
    obtain old | ⟨rfl, new⟩ := records i f here
    · obtain old' | ⟨-, new⟩ := records j f there
      · exact sound.record_unique i j f old old'
      · exact absurd new (fresh i f old)
    · obtain old | ⟨rfl, -⟩ := records j f there
      · exact absurd new (fresh j f old)
      · rfl
  cursor := t.cursor

/-- Filling a slot with the run just taken. -/
theorem FrameSound.take_recorded (t : Takes a first count b)
    (positive : 0 < count) (initialized : b.initialized = a.initialized)
    (records : b.contiguousRecords = Function.update a.contiguousRecords slot
      ⟨first * sapotePageSize, count, identifier, true⟩) : FrameSound b := by
  refine sound.take t initialized slot (fun i => ?_) fun i f held => ?_
  · rw [records]
    by_cases same : i = slot
    · rw [same, update_self]
      exact fun _ => ⟨positive, Nat.mul_mod_left _ _⟩
    · rw [update_of_ne same]
      exact sound.record_base i
  · rw [records] at held
    by_cases same : i = slot
    · have frame : first * sapotePageSize / sapotePageSize = first :=
        Nat.mul_div_cancel _ (by decide)
      rw [same, update_self, holds_iff] at held
      simp only [ContiguousRecord.firstFrame, frame] at held
      exact .inr ⟨same, held.2⟩
    · rw [update_of_ne same] at held
      exact .inl held

/-- Giving back frames that no remaining record holds. -/
theorem FrameSound.give (g : Gives a first count b) (initialized : b.initialized = a.initialized)
    (records : ∀ i f, (b.contiguousRecords i).holds f →
      (a.contiguousRecords i).holds f ∧ inRun first count f ≠ true)
    (bases : ∀ i, (b.contiguousRecords i).active →
      b.contiguousRecords i = a.contiguousRecords i) : FrameSound b where
  initialized := by rw [initialized, sound.initialized]
  counted := g.counted sound.counted
  ineligible_used := by
    intro f closed
    rw [g.eligible] at closed
    have outside : inRun first count f = false := by
      apply Bool.eq_false_iff.mpr
      intro inside
      rw [(g.held f inside).1] at closed
      cases closed
    rw [g.used, outside, sound.ineligible_used f closed]
    rfl
  eligible_bound := by
    rw [g.eligible]
    exact sound.eligible_bound
  record_base := by
    intro i active
    have same := bases i active
    rw [same] at active ⊢
    exact sound.record_base i active
  record_held := by
    intro i f held
    obtain ⟨old, outside⟩ := records i f held
    have before := sound.record_held i f old
    rw [g.eligible, g.used, before.2, Bool.eq_false_iff.mpr outside]
    exact ⟨before.1, rfl⟩
  record_unique := by
    intro i j f heldi heldj
    exact sound.record_unique i j f (records i f heldi).1 (records j f heldj).1
  cursor := g.cursor

theorem FrameSound.withdraw (w : Withdraws a first count b)
    (initialized : b.initialized = a.initialized) :
    FrameSound b where
  initialized := by rw [initialized, sound.initialized]
  counted := w.stats
  ineligible_used := by
    intro f closed
    rw [w.eligible] at closed
    rw [w.used]
    have used := sound.ineligible_used f
    revert closed used
    cases a.eligible f <;> cases a.used f <;> cases inRun first count f <;> simp
  eligible_bound := by
    intro f kept
    rw [w.eligible, Bool.and_eq_true] at kept
    exact sound.eligible_bound f kept.1
  record_base := by
    rw [w.records]
    exact sound.record_base
  record_held := by
    intro i f held
    rw [w.records] at held
    have before := sound.record_held i f held
    have outside : inRun first count f = false :=
      Bool.eq_false_iff.mpr (fun inside => w.idle f inside before)
    rw [w.eligible, w.used, outside, before.1, before.2]
    exact ⟨rfl, rfl⟩
  record_unique := by
    rw [w.records]
    exact sound.record_unique
  cursor := by
    rw [w.cursor]
    exact sound.cursor

end

theorem searchedFrame_lt (hs : start < frameCount) (ht : step < frameCount) :
    searchedFrame start step < frameCount := by
  unfold searchedFrame
  split <;> omega

/-- The wrapping search visits every frame of the window. -/
theorem exists_searchedFrame (hs : start < frameCount) (hf : f < frameCount) :
    ∃ step < frameCount, searchedFrame start step = f := by
  by_cases after : start ≤ f
  · refine ⟨f - start, by omega, ?_⟩
    unfold searchedFrame
    split <;> omega
  · refine ⟨f + frameCount - start, by omega, ?_⟩
    unfold searchedFrame
    split <;> omega

theorem findFreeFrameFrom_some (found : findFreeFrameFrom a remaining step = some f) :
    a.free f ∧
      ∃ k, k < step + remaining ∧ searchedFrame a.nextSearchIndex k = f := by
  induction remaining generalizing step with
  | zero => cases found
  | succ remaining ih =>
    simp only [findFreeFrameFrom] at found
    split at found
    · next free =>
        cases found
        exact ⟨free, step, by omega, rfl⟩
    · obtain ⟨free, k, bound, same⟩ := ih found
      exact ⟨free, k, by omega, same⟩

theorem findFreeFrameFrom_none (found : findFreeFrameFrom a remaining step = none) :
    ∀ k, step ≤ k → k < step + remaining → a.free (searchedFrame a.nextSearchIndex k) = false := by
  induction remaining generalizing step with
  | zero =>
    intro k low high
    omega
  | succ remaining ih =>
    simp only [findFreeFrameFrom] at found
    split at found
    · cases found
    · next taken =>
        intro k low high
        by_cases here : k = step
        · rw [here]
          exact Bool.eq_false_iff.mpr taken
        · exact ih found k (by omega) (by omega)

theorem findFreeFrame_some (cursor : a.nextSearchIndex < frameCount)
    (found : findFreeFrame a = some f) : f < frameCount ∧ a.free f := by
  obtain ⟨free, k, bound, same⟩ := findFreeFrameFrom_some found
  refine ⟨?_, free⟩
  rw [← same]
  exact searchedFrame_lt cursor (by omega)

theorem findFreeFrame_none (cursor : a.nextSearchIndex < frameCount)
    (found : findFreeFrame a = none) (hf : f < frameCount) : a.free f = false := by
  obtain ⟨step, small, same⟩ := exists_searchedFrame cursor hf
  rw [← same]
  exact findFreeFrameFrom_none found step (by omega) (by omega)

theorem frameAllocate_cases (sound : FrameSound a) (output : Bool) :
    let result := frameAllocate a output
    (result.status ≠ .ok ∧ result.address = none ∧ result.allocator = a) ∨
      ∃ f, result.status = .ok ∧ result.address = some (f * sapotePageSize) ∧
        Takes a f 1 result.allocator ∧ result.allocator.initialized = a.initialized ∧
        result.allocator.contiguousRecords = a.contiguousRecords := by
  simp only [frameAllocate]
  iterate 3
    split
    · exact .inl ⟨nofun, rfl, rfl⟩
  cases found : findFreeFrame a with
  | none => exact .inl ⟨nofun, rfl, rfl⟩
  | some f =>
    obtain ⟨bound, free⟩ := findFreeFrame_some sound.cursor found
    refine .inr ⟨f, rfl, rfl, ⟨⟨by omega, ?_, rfl, ?_⟩, rfl, ?_⟩, rfl, rfl⟩
    · intro g inside
      rw [inRun_one, decide_eq_true_eq] at inside
      rw [inside, free]
    · intro g
      exact bitmapGet_run_true a.usedBitmap f 1 g
    · simp only
      split <;> omega

theorem frameRelease_cases (sound : FrameSound a) (address : Nat) :
    let result := frameRelease a address
    (result.1 ≠ .ok ∧ result.2 = a) ∨
      ∃ f, result.1 = .ok ∧ address = f * sapotePageSize ∧ Gives a f 1 result.2 ∧
        (∀ i, (a.contiguousRecords i).holds f = false) ∧
        result.2.initialized = a.initialized ∧
        result.2.contiguousRecords = a.contiguousRecords := by
  simp only [frameRelease]
  split
  · exact .inl ⟨nofun, rfl⟩
  split
  · exact .inl ⟨nofun, rfl⟩
  next aligned =>
  split
  · exact .inl ⟨nofun, rfl⟩
  split
  · exact .inl ⟨nofun, rfl⟩
  next eligible =>
  split
  · exact .inl ⟨nofun, rfl⟩
  next used =>
  split
  · exact .inl ⟨nofun, rfl⟩
  next single =>
  have exact_address : address = address / sapotePageSize * sapotePageSize := by
    have := Nat.div_add_mod address sapotePageSize
    rw [not_not.mp aligned, add_zero, mul_comm] at this
    exact this.symm
  have bound : address / sapotePageSize < frameCount := by
    apply Nat.div_lt_of_lt_mul
    rw [mul_comm, frameCount_page]
    omega
  refine .inr ⟨address / sapotePageSize, rfl, exact_address, ⟨by omega, ?_, rfl, ?_, rfl, ?_⟩,
    ?_, rfl, rfl⟩
  · intro f inside
    rw [inRun_one, decide_eq_true_eq] at inside
    rw [inside]
    simp only [Bool.not_eq_true, Bool.not_eq_false'] at eligible used
    exact ⟨eligible, used⟩
  · intro f
    exact bitmapGet_run_false a.usedBitmap (address / sapotePageSize) 1 f
  · have := sound.cursor
    split <;> omega
  · intro i
    simp only [frameInContiguousAllocation, any_eq_true, not_exists, not_and] at single
    exact Bool.eq_false_iff.mpr (single i (mem_finRange i))

theorem contiguousRequestStatus_ok (ok : contiguousRequestStatus request = .ok) :
    0 < request.pageCount ∧ request.pageCount ≤ maximumPastFrame request := by
  unfold contiguousRequestStatus at ok
  repeat' split at ok
  all_goals first | omega | cases ok

theorem maximumPastFrame_le (request : ContiguousRequest) :
    maximumPastFrame request ≤ frameCount := by
  apply Nat.div_le_div_right
  repeat' split
  all_goals omega

theorem findContiguousRun_some (fits : request.pageCount ≤ maximumPastFrame request)
    (found : findContiguousRun a request = some first) :
    first + request.pageCount ≤ maximumPastFrame request ∧
      first * sapotePageSize &&& (request.alignment - 1) = 0 ∧
      ∀ f, inRun first request.pageCount f → a.free f := by
  have member := mem_range.mp (mem_of_find?_eq_some found)
  have accepted := find?_some found
  simp only [Bool.and_eq_true, decide_eq_true_eq, all_eq_true, mem_range'_1] at accepted
  exact ⟨by omega, accepted.1, fun f inside => accepted.2 f (inRun_iff.mp inside)⟩

theorem freeRecordIndex_some (found : freeRecordIndex a = some slot) :
    (a.contiguousRecords slot).active = false := by
  have := find?_some found
  simpa using this

theorem frameAllocateContiguous_status (initialized : a.initialized)
    (requested : contiguousRequestStatus request = .ok)
    (spare : (a.contiguousRecords slot).active = false)
    (run : findContiguousRun a request = some first) :
    (frameAllocateContiguous a (some request) true).status = .ok := by
  have slots : (freeRecordIndex a).isSome := by
    rw [freeRecordIndex, find?_isSome]
    exact ⟨slot, mem_finRange slot, by rw [spare]; rfl⟩
  obtain ⟨place, free⟩ := Option.isSome_iff_exists.mp slots
  unfold frameAllocateContiguous
  dsimp only
  rw [if_neg (by decide), initialized, if_neg (by decide), if_neg (not_not.mpr requested), free]
  rw [run]

theorem frameAllocateContiguous_cases (request : Option ContiguousRequest) (output : Bool) :
    let result := frameAllocateContiguous a request output
    (result.status ≠ .ok ∧ result.allocator = a) ∨
      ∃ request' slot first, request = some request' ∧ 0 < request'.pageCount ∧
        (result.status = .ok ∧ output ∧ a.initialized ∧
          contiguousRequestStatus request' = .ok ∧ findContiguousRun a request' = some first) ∧
        result.allocation = some ⟨first * sapotePageSize, request'.pageCount, request'.alignment,
            request'.maximumPhysicalAddress, a.nextContiguousIdentifier, true⟩ ∧
        (a.contiguousRecords slot).active = false ∧
        result.allocator = takeContiguousRun a request' slot first ∧
        Takes a first request'.pageCount (takeContiguousRun a request' slot first) := by
  cases request with
  | none => exact .inl ⟨nofun, rfl⟩
  | some request => ?_
  simp only [frameAllocateContiguous]
  split
  · exact .inl ⟨nofun, rfl⟩
  next writable =>
  split
  · exact .inl ⟨nofun, rfl⟩
  next ready =>
  split
  · next refused => exact .inl ⟨refused, rfl⟩
  next accepted =>
  rw [not_not] at accepted
  obtain ⟨positive, fits⟩ := contiguousRequestStatus_ok accepted
  cases slots : freeRecordIndex a with
  | none => exact .inl ⟨nofun, rfl⟩
  | some slot => ?_
  cases found : findContiguousRun a request with
  | none => exact .inl ⟨nofun, rfl⟩
  | some first =>
    obtain ⟨inside, _, free⟩ := findContiguousRun_some fits found
    have bound := maximumPastFrame_le request
    refine .inr ⟨request, slot, first, rfl, positive,
      ⟨rfl, by simpa using writable, by simpa using ready, accepted, found⟩, rfl,
      freeRecordIndex_some slots, rfl, ⟨⟨by omega, free, rfl, ?_⟩, rfl, ?_⟩⟩
    · intro f
      exact bitmapGet_run_true a.usedBitmap first request.pageCount f
    · simp only [takeContiguousRun]
      split <;> omega

theorem frameReleaseContiguous_cases (sound : FrameSound a)
    (allocation : Option ContiguousAllocation) :
    let result := frameReleaseContiguous a allocation
    (result.1 ≠ .ok ∧ result.2 = a) ∨
      ∃ handle slot, allocation = some handle ∧ result.1 = .ok ∧
        let record := a.contiguousRecords slot
        record.active ∧ record.physicalBase = handle.physicalBase ∧
        record.pageCount = handle.pageCount ∧ result.2 = giveContiguousRun a slot ∧
        Gives a record.firstFrame record.pageCount (giveContiguousRun a slot) := by
  cases allocation with
  | none => exact .inl ⟨nofun, rfl⟩
  | some handle => ?_
  simp only [frameReleaseContiguous]
  split
  · exact .inl ⟨nofun, rfl⟩
  split
  · exact .inl ⟨nofun, rfl⟩
  cases found : recordIndexFor a handle.identifier with
  | none => exact .inl ⟨nofun, rfl⟩
  | some slot => ?_
  simp only
  split
  · exact .inl ⟨nofun, rfl⟩
  split
  · exact .inl ⟨nofun, rfl⟩
  have accepted := find?_some found
  have active : (a.contiguousRecords slot).active := (Bool.and_eq_true_iff.mp accepted).1
  have held' : ∀ f, inRun (a.contiguousRecords slot).firstFrame
      (a.contiguousRecords slot).pageCount f →
      a.eligible f ∧ a.used f :=
    fun f inside => sound.record_held slot f (holds_iff.mpr ⟨active, inside⟩)
  have positive := (sound.record_base slot active).1
  have last := held' ((a.contiguousRecords slot).firstFrame +
    ((a.contiguousRecords slot).pageCount - 1)) (inRun_iff.mpr (by omega))
  have bound := sound.eligible_bound _ last.1
  refine .inr ⟨handle, slot, rfl, rfl, active, by tauto, by tauto, rfl,
    ⟨by omega, held', rfl, ?_, rfl, ?_⟩⟩
  · intro f
    exact bitmapGet_run_false a.usedBitmap _ _ f
  · simp only [giveContiguousRun]
    split <;> omega

theorem coveringFrameBounds_error {base length : Nat} {status : FrameStatus}
    (refused : coveringFrameBounds base length = .error status) :
    status = .rangeOverflow ∨ status = .rangeOutsideLimit ∧ earlyPhysicalLimit ≤ base := by
  unfold coveringFrameBounds at refused
  split at refused
  · cases refused
    exact .inl rfl
  split at refused
  · cases refused
  split at refused
  · next outside =>
        cases refused
        exact .inr ⟨rfl, outside⟩
  · cases refused

theorem frameReserveRange_cases (a : FrameAllocator) (base length : Nat) :
    let result := frameReserveRange a base length
    (result.1 ≠ .ok ∧ result.2 = a) ∨
      ∃ first past, coveringFrameBounds base length = .ok (first, past) ∧ result.1 = .ok ∧
        Withdraws a first (past - first) result.2 ∧
        result.2.initialized = a.initialized := by
  simp only [frameReserveRange]
  split
  · exact .inl ⟨nofun, rfl⟩
  cases bounds : coveringFrameBounds base length with
  | error status =>
    refine .inl ⟨?_, rfl⟩
    obtain overflow | outside := coveringFrameBounds_error bounds
    · rw [overflow]
      nofun
    · rw [outside.1]
      nofun
  | ok pair => ?_
  obtain ⟨first, past⟩ := pair
  simp only
  split
  · exact .inl ⟨nofun, rfl⟩
  next idle =>
  refine .inr ⟨first, past, rfl, rfl, ⟨?_, ?_, ?_, rfl, ?_, rfl⟩, rfl⟩
  · intro f inside held
    apply idle
    rw [any_eq_true]
    exact ⟨f, mem_range'_1.mpr (inRun_iff.mp inside), by rw [held.1, held.2]; rfl⟩
  · intro f
    exact bitmapGet_run_false a.eligibleBitmap first (past - first) f
  · intro f
    exact bitmapGet_run_true a.usedBitmap first (past - first) f
  · exact recomputeStats_counted _

theorem frameSound_step (sound : FrameSound a) (op : FrameOp) : FrameSound (frameStep a op) := by
  cases op with
  | allocate output =>
    obtain refused | ⟨f, -, -, takes, initialized, records⟩ := frameAllocate_cases sound output
    · simp only [frameStep]
      rw [refused.2.2]
      exact sound
    · exact sound.take takes initialized ⟨0, by decide⟩ (records ▸ sound.record_base)
        fun i f held => .inl (records ▸ held)
  | release address =>
    obtain refused | given := frameRelease_cases sound address
    · simp only [frameStep]
      rw [refused.2]
      exact sound
    obtain ⟨f, -, -, gives, single, initialized, records⟩ := given
    change FrameSound (frameRelease a address).2
    refine sound.give gives initialized ?_ (fun i _ => congrFun records i)
    intro i g held
    rw [records] at held
    refine ⟨held, fun inside => ?_⟩
    rw [inRun_one, decide_eq_true_eq] at inside
    rw [inside, single i] at held
    cases held
  | allocateContiguous request output =>
    obtain refused | ⟨request', slot, first, -, positive, -, -, -, result, takes⟩ :=
      frameAllocateContiguous_cases (a := a) request output
    · simp only [frameStep]
      rw [refused.2]
      exact sound
    · simp only [frameStep]
      rw [result]
      exact sound.take_recorded takes positive rfl rfl
  | releaseContiguous allocation =>
    obtain refused | given := frameReleaseContiguous_cases sound allocation
    · simp only [frameStep]
      rw [refused.2]
      exact sound
    obtain ⟨handle, slot, -, -, active, -, -, result, gives⟩ := given
    simp only [frameStep]
    rw [result]
    have other : ∀ i, ((giveContiguousRun a slot).contiguousRecords i).active →
        i ≠ slot := by
      rintro i live rfl
      simp [giveContiguousRun] at live
    have kept : ∀ i, ((giveContiguousRun a slot).contiguousRecords i).active →
        (giveContiguousRun a slot).contiguousRecords i = a.contiguousRecords i :=
      fun i live => update_of_ne (other i live) _ _
    refine sound.give gives rfl ?_ kept
    intro i f held
    have live := (holds_iff.mp held).1
    rw [kept i live] at held
    refine ⟨held, fun inside => other i live ?_⟩
    exact sound.record_unique i slot f held (holds_iff.mpr ⟨active, inside⟩)
  | reserveRange base length =>
    obtain refused | ⟨first, past, -, -, withdraws, initialized⟩ :=
      frameReserveRange_cases a base length
    · simp only [frameStep]
      rw [refused.2]
      exact sound
    · exact sound.withdraw withdraws initialized

end Sapote.Frames
