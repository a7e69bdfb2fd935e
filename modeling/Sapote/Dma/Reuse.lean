import Sapote.Dma.Ownership

/-!
The identifier of an extent is a 64-bit counter that wraps. One allocation held through
2^64 - 2 further allocations, each released at once, shares its identifier with the next:
two active records then answer to one identifier, and verification fails.
-/

namespace Sapote.Dma
open List Function Nat

open Frames Library
variable {slot : Fin contiguousAllocationCapacity} {name frame : Nat} {a : FrameAllocator}

def onePage : DmaRequest := ⟨1, sapotePageSize, 0xFFFFFFFF⟩

def identityTranslation (address : Nat) : Option DmaTranslation := some ⟨address, true, true⟩

def allocatePage (name : Nat) : DmaCall := .allocate (some onePage) (some name) identityTranslation

def passing : List DmaCall := [allocatePage 1, .release (some 1)]

/-- One allocation that is kept, 2^64 - 2 passing ones, and one more. -/
def reusingCalls : List DmaCall :=
  allocatePage 0 :: ((List.replicate (2 ^ 64 - 2) passing).flatten ++ [allocatePage 2])

theorem identityMapped_identity (base byteLength : Nat) :
    identityMapped identityTranslation base byteLength := by
  simp [identityMapped, identityTranslation]

theorem frameAllocateContiguous_onePage (sound : FrameSound a)
    (spare : (a.contiguousRecords slot).active = false) (free : a.free frame) :
    (frameAllocateContiguous a (some onePage) true).status = .ok := by
  have requested : contiguousRequestStatus onePage = .ok := by decide
  have window : frame < frameCount := by
    rw [FrameAllocator.free, Bool.and_eq_true] at free
    exact sound.eligible_bound frame free.1
  have found : (findContiguousRun a onePage).isSome := by
    rw [findContiguousRun, find?_isSome]
    refine ⟨frame, ?_, ?_⟩
    · have past : maximumPastFrame onePage = frameCount := by decide
      rw [mem_range, past]
      exact lt_of_lt_of_eq window (by decide)
    · have aligned : frame * sapotePageSize &&& (onePage.alignment - 1) = 0 := by
        have mask : onePage.alignment - 1 = 2 ^ 12 - 1 := rfl
        rw [mask, and_two_pow_sub_one_eq_mod]
        exact mul_mod_left frame (2 ^ 12)
      rw [aligned]
      simp [onePage, free]
  obtain ⟨start, run⟩ := Option.isSome_iff_exists.mp found
  exact frameAllocateContiguous_status sound.initialized requested spare run

section
variable {s : DmaSystem}

def PageGranted (s : DmaSystem) (name : Nat) : Prop :=
  ∃ index slot first, Grants s onePage index slot first ∧
    dmaStep s (allocatePage name) = grantAllocation s name index
      (grantedFrames s.frames onePage first) (takeContiguousRun s.frames onePage slot first)

/-- An allocation of one page succeeds while a record, an extent and a frame are left. -/
theorem allocatePage_granted (sound : DmaSound s) {index : RecordIndex}
    (record : (s.records index).active = false)
    (spare : (s.frames.contiguousRecords slot).active = false) (free : s.frames.free frame)
    (unheld : s.held name = false) : PageGranted s name := by
  have accepted : (dmaAllocate s (some onePage) (some name) identityTranslation).1 = .ok := by
    have records : (freeDmaRecord s).isSome := by
      rw [freeDmaRecord, find?_isSome]
      exact ⟨index, mem_finRange index, by rw [record]; rfl⟩
    obtain ⟨place, first⟩ := Option.isSome_iff_exists.mp records
    have ok := frameAllocateContiguous_onePage sound.frames spare free
    rcases frameAllocateContiguous_cases (a := s.frames) (some onePage) true with
      ⟨refused, -⟩ | ⟨asked, found, start, same, -, -, given, -, taken, -⟩
    · exact absurd ok refused
    · simp [dmaAllocate, sound.active, first, ok, given, identityMapped_identity]
  rcases dmaAllocate_cases s (some onePage) (some name) identityTranslation with
    ⟨refused, -⟩ | ⟨_, -, refused, -⟩ | ⟨_, asked, place, extent, first, ⟨⟩, ⟨⟩, grants, outcome⟩
  · exact absurd accepted refused
  · exact absurd accepted refused
  · obtain ⟨refused, -⟩ | ⟨-, granted⟩ := outcome
    · exact absurd accepted refused
    · refine ⟨place, extent, first, grants, ?_⟩
      rw [allocatePage, dmaStep, Option.any_some, unheld, if_neg (by decide), granted]

/-- Only the allocation under the name 0 is active, with the identifier 1, and the next
one will be given the identifier `next`. -/
structure Cycling (s : DmaSystem) (i : RecordIndex) (next : Nat) : Prop where
  sound : DmaSound s
  next : s.frames.nextContiguousIdentifier = next
  active : (s.records i).active
  handle : (s.records i).handle = some 0
  identifier : (s.records i).frames.identifier = 1
  alone : ∀ j, j ≠ i → (s.records j).active = false
  extent : ∃ slot, ∀ other, other ≠ slot → (s.frames.contiguousRecords other).active = false
  spare : ∃ frame, s.frames.free frame

theorem exists_other (i : RecordIndex) : ∃ j : RecordIndex, j ≠ i := by
  by_cases zero : i = ⟨0, by decide⟩
  · exact ⟨⟨1, by decide⟩, by rw [zero]; decide⟩
  · exact ⟨⟨0, by decide⟩, fun same => zero same.symm⟩

variable {i : RecordIndex} {next : Nat}

theorem Cycling.unheld (cycling : Cycling s i next) (other : name ≠ 0) : s.held name = false := by
  apply eq_false_of_ne_true
  intro held
  obtain ⟨j, live, handle⟩ := held_iff.mp held
  by_cases same : j = i
  · rw [same, cycling.handle] at handle
    exact other (Option.some.inj handle).symm
  · rw [cycling.alone j same] at live
    cases live

theorem Cycling.identifierFree (cycling : Cycling s i next) (other : next ≠ 1) :
    IdentifierFree s.frames := by
  intro place live
  obtain ⟨slot, alone⟩ := cycling.extent
  obtain ⟨_, backed⟩ := cycling.sound.backed i cycling.active
  obtain ⟨kept, extent⟩ := backed.extent
  have only : ∀ p, (s.frames.contiguousRecords p).active → p = slot := by
    intro p here
    by_contra apart
    rw [alone p apart] at here
    cases here
  rw [only place live, ← only kept (by rw [extent]), extent, cycling.next]
  rw [cycling.identifier]
  exact other.symm

theorem Cycling.granted (cycling : Cycling s i next) (other : name ≠ 0) : PageGranted s name := by
  obtain ⟨index, apart⟩ := exists_other i
  obtain ⟨slot, alone⟩ := cycling.extent
  obtain ⟨place, away⟩ := exists_other slot
  obtain ⟨frame, free⟩ := cycling.spare
  exact allocatePage_granted cycling.sound (cycling.alone index apart) (alone place away) free
    (cycling.unheld other)

theorem giveContiguousRun_free (eligible : a.eligible frame)
    (inside : inRun (a.contiguousRecords slot).firstFrame (a.contiguousRecords slot).pageCount
      frame) : (giveContiguousRun a slot).free frame := by
  have used : (giveContiguousRun a slot).used frame =
      (a.used frame && !inRun (a.contiguousRecords slot).firstFrame
        (a.contiguousRecords slot).pageCount frame) :=
    bitmapGet_run_false a.usedBitmap _ _ frame
  have same : (giveContiguousRun a slot).eligible frame = a.eligible frame := rfl
  rw [FrameAllocator.free, used, inside, same, eligible, Bool.not_true, Bool.and_false]
  rfl

/-- A passing allocation moves the counter on and leaves everything else as it was. -/
theorem Cycling.passing (cycling : Cycling s i next) (other : next ≠ 1) :
    Cycling (run dmaStep s passing) i (nextIdentifier next) := by
  obtain ⟨index, slot, first, grants, granted⟩ := cycling.granted (succ_ne_zero 0)
  have sound := cycling.sound.granted (cycling.unheld (succ_ne_zero 0))
    (cycling.identifierFree other) grants
  have look := fun j => grantAllocation_record s 1 index j (grantedFrames s.frames onePage first)
    (takeContiguousRun s.frames onePage slot first)
  have apart : i ≠ index := by
    rintro rfl
    exact nomatch cycling.active.symm.trans grants.record
  have record := (look index).trans (if_pos rfl)
  have extent := (takeContiguousRun_record s.frames onePage slot slot first).trans (if_pos rfl)
  have released := @dmaRelease_ok slot _ index 1 sound (by rw [record]) Grants.backed
    (by rw [record]) (extent.trans (congrArg DmaRecord.extent record).symm)
  have done : run dmaStep s Dma.passing = retireAllocation (grantAllocation s 1 index
      (grantedFrames s.frames onePage first) (takeContiguousRun s.frames onePage slot first)) 1 index
      (giveContiguousRun (takeContiguousRun s.frames onePage slot first) slot) := by
    rw [Dma.passing, run_cons, run_cons, run_nil, granted]
    exact congrArg Prod.snd released
  have others : ∀ j, j ≠ index → (run dmaStep s Dma.passing).records j = s.records j := by
    intro j away
    rw [done]
    exact (update_of_ne away _ _).trans ((look j).trans (if_neg away))
  have last : DmaSound (run dmaStep s Dma.passing) := by
    rw [Dma.passing, run_cons, granted]
    exact dmaSound_step _ (.release (some 1)) sound trivial
  refine ⟨last, ?_, ?_, ?_, ?_, ?_, ?_, ?_⟩
  · rw [done, ← cycling.next]
    rfl
  · rw [others i apart]
    exact cycling.active
  · rw [others i apart]
    exact cycling.handle
  · rw [others i apart]
    exact cycling.identifier
  · intro j away
    by_cases here : j = index
    · rw [here, done, retireAllocation]
      dsimp only
      rw [update_self]
      rfl
    · rw [others j here]
      exact cycling.alone j away
  · obtain ⟨kept, alone⟩ := cycling.extent
    refine ⟨kept, ?_⟩
    intro place away
    rw [done]
    change ((giveContiguousRun (takeContiguousRun s.frames onePage slot first)
      slot).contiguousRecords place).active = false
    rw [giveContiguousRun_record]
    split
    · rfl
    next elsewhere =>
    rw [takeContiguousRun_record, if_neg elsewhere]
    exact alone place away
  · have inside : inRun first onePage.pageCount first :=
      inRun_iff.mpr ⟨le_refl first, Nat.lt_add_of_pos_right grants.positive⟩
    have first_free := grants.takes.free first inside
    rw [FrameAllocator.free, Bool.and_eq_true] at first_free
    refine ⟨first, ?_⟩
    rw [done]
    refine giveContiguousRun_free ((congrFun grants.takes.eligible first).trans first_free.1) ?_
    rw [extent, ContiguousRecord.firstFrame, Nat.mul_div_cancel first (by decide)]
    exact inside

theorem nextIdentifier_succ {identifier : Nat} (below : identifier + 1 < 2 ^ 64) :
    nextIdentifier identifier = identifier + 1 := by
  rw [nextIdentifier, mod_eq_of_lt below, if_neg (succ_ne_zero identifier)]

theorem Cycling.passings (cycling : Cycling s i next) (count : Nat) (low : 2 ≤ next)
    (high : next + count < 2 ^ 64) :
    Cycling (run dmaStep s (List.replicate count Dma.passing).flatten) i (next + count) := by
  induction count generalizing s next with
  | zero => exact cycling
  | succ count ih =>
    have moved := cycling.passing (by omega)
    rw [nextIdentifier_succ (by omega)] at moved
    rw [replicate_succ, flatten_cons, run_append, add_comm count 1, ← add_assoc]
    exact ih moved (by omega) (by omega)

theorem tallyRecords_valid {indices : List RecordIndex} {tally result : DmaTally}
    (tallied : tallyRecords s indices tally = some result) (j : RecordIndex) (member : j ∈ indices)
    (live : (s.records j).active) : validateAllocation s (s.records j).handle = .ok := by
  induction indices generalizing tally with
  | nil => exact absurd member not_mem_nil
  | cons first indices ih =>
    rw [tallyRecords] at tallied
    obtain rfl | later := mem_cons.mp member
    · rw [live, if_neg (by decide)] at tallied
      split at tallied
      · cases tallied
      next valid =>
      by_contra refused
      exact valid (.inr refused)
    split at tallied
    · exact ih tallied later
    split at tallied
    · cases tallied
    split at tallied
    · exact ih tallied later
    · exact ih tallied later
    · cases tallied

/-- Two handles under one identifier claim one record, so they are not both valid. -/
theorem dmaVerify_shared {a b : RecordIndex} {first second : Nat}
    (one : (s.records a).active) (two : (s.records b).active)
    (left : (s.records a).handle = some first) (right : (s.records b).handle = some second)
    (shared : (s.handles first).frames.identifier = (s.handles second).frames.identifier)
    (apart : first ≠ second) : dmaVerify s ≠ .ok := by
  intro verified
  rw [dmaVerify] at verified
  split at verified
  · cases verified
  split at verified
  · cases verified
  next tallied =>
  have valid := tallyRecords_valid tallied a (mem_finRange a) one
  have other := tallyRecords_valid tallied b (mem_finRange b) two
  rw [left] at valid
  rw [right] at other
  obtain ⟨i, found, -, handle⟩ := validateAllocation_held valid
  obtain ⟨j, claimed, -, owner⟩ := validateAllocation_held other
  have same : recordFor s (s.handles first) = recordFor s (s.handles second) := by
    rw [recordFor, recordFor, shared]
  rw [found, claimed] at same
  cases same
  exact apart (Option.some.inj (handle.symm.trans owner))

/-- Once the counter is back at 1, one more allocation shares the identifier. -/
theorem Cycling.shared (cycling : Cycling s i 1) :
    dmaVerify (dmaStep s (allocatePage 2)) ≠ .ok := by
  obtain ⟨index, slot, first, grants, granted⟩ := cycling.granted (succ_ne_zero 1)
  have apart : i ≠ index := by
    rintro rfl
    exact nomatch cycling.active.symm.trans grants.record
  obtain ⟨name, backed⟩ := cycling.sound.backed i cycling.active
  have named : name = 0 := Option.some.inj (backed.handle.symm.trans cycling.handle)
  have old : (dmaStep s (allocatePage 2)).records i = s.records i := by
    rw [granted, grantAllocation_record, if_neg apart]
  have new : (dmaStep s (allocatePage 2)).records index =
      ⟨some 2, grantedFrames s.frames onePage first, .cpu, false, true⟩ := by
    rw [granted, grantAllocation_record, if_pos rfl]
  refine @dmaVerify_shared _ i index 0 2 ?_ ?_ ?_ ?_ ?_ (by decide)
  · rw [old]
    exact cycling.active
  · rw [new]
  · rw [old]
    exact cycling.handle
  · rw [new]
  · rw [granted, grantAllocation]
    dsimp only
    rw [update_of_ne (by decide), update_self, ← named, backed.mirrored]
    rw [cycling.identifier]
    exact cycling.next.symm

theorem Cycling.reused (cycling : Cycling s i 2) {count : Nat} (full : count + 2 = 2 ^ 64) :
    dmaVerify (run dmaStep s ((List.replicate count Dma.passing).flatten ++ [allocatePage 2])) ≠
      .ok := by
  obtain ⟨rest, rfl⟩ : ∃ rest, count = rest + 1 := ⟨count - 1, by omega⟩
  have turned := (cycling.passings rest (le_refl 2) (by omega)).passing (by omega)
  have back : nextIdentifier (2 + rest) = 1 := by
    rw [nextIdentifier, if_pos]
    omega
  rw [back] at turned
  rw [replicate_succ', flatten_append, run_append, run_append, flatten_singleton,
    run_cons, run_nil]
  exact turned.shared

def idleDma (a : FrameAllocator) : DmaSystem :=
  ⟨a, fun _ => ⟨none, ⟨0, 0, 0, 0, 0, false⟩, .none, false, false⟩, 0, 0, 0, false,
    fun _ => ⟨⟨0, 0, 0, 0, 0, false⟩, 0, 0, .none, false, false⟩⟩

structure Opening (a : FrameAllocator) : Prop where
  start : DmaStart a
  identifier : a.nextContiguousIdentifier = 1
  extents : ∀ slot, (a.contiguousRecords slot).active = false
  frames : ∃ one two, one ≠ two ∧ a.free one ∧ a.free two

variable {a : FrameAllocator}

theorem Opening.idle (opening : Opening a) : DmaStart (idleDma a).frames := opening.start

theorem Opening.identifierFree (opening : Opening a) :
    IdentifierFree (dmaInitialize (idleDma a)).2.frames := by
  intro slot live
  exact nomatch (opening.extents slot).symm.trans live

theorem idleDma_idle (a : FrameAllocator) : (idleDma a).active = false := rfl

theorem idleDma_unheld (a : FrameAllocator) (name : Nat) :
    (dmaInitialize (idleDma a)).2.held name = false := by
  apply eq_false_of_ne_true
  intro held
  obtain ⟨i, live, -⟩ := held_iff.mp held
  cases live

/-- The first page after boot opens the cycle. -/
theorem Opening.cycling (opening : Opening a) :
    ∃ i, Cycling (dmaStep (dmaInitialize (idleDma a)).2 (allocatePage 0)) i 2 := by
  have sound : DmaSound (dmaInitialize (idleDma a)).2 := dmaInitialize_sound rfl opening.start
  obtain ⟨one, two, apart, left, right⟩ := opening.frames
  have idle : ((dmaInitialize (idleDma a)).2.records ⟨0, by decide⟩).active = false := rfl
  obtain ⟨index, slot, first, grants, granted⟩ := allocatePage_granted sound idle
    (opening.extents ⟨0, by decide⟩) left (idleDma_unheld a 0)
  have look := fun j => grantAllocation_record (dmaInitialize (idleDma a)).2 0 index j
    (grantedFrames a onePage first) (takeContiguousRun a onePage slot first)
  refine ⟨index, ?_⟩
  rw [granted]
  refine ⟨?_, ?_, ?_, ?_, ?_, ?_, ?_, ?_⟩
  · exact sound.granted (idleDma_unheld a 0) opening.identifierFree grants
  · exact congrArg nextIdentifier opening.identifier
  · exact congrArg DmaRecord.active ((look index).trans (if_pos rfl))
  · exact congrArg DmaRecord.handle ((look index).trans (if_pos rfl))
  · refine (congrArg (·.frames.identifier) ((look index).trans (if_pos rfl))).trans ?_
    exact opening.identifier
  · intro j away
    exact congrArg DmaRecord.active ((look j).trans (if_neg away))
  · refine ⟨slot, ?_⟩
    intro other away
    change ((takeContiguousRun a onePage slot first).contiguousRecords other).active = false
    rw [takeContiguousRun_record, if_neg away]
    exact opening.extents other
  · have kept : ∀ frame, a.free frame → first ≠ frame →
        (takeContiguousRun a onePage slot first).free frame := by
      intro frame free away
      have outside : inRun first onePage.pageCount frame = false := by
        apply eq_false_of_ne_true
        intro inside
        have bounds := inRun_iff.mp inside
        have single : onePage.pageCount = 1 := rfl
        omega
      have used : (takeContiguousRun a onePage slot first).used frame =
          (a.used frame || inRun first onePage.pageCount frame) := grants.takes.used frame
      have eligible : (takeContiguousRun a onePage slot first).eligible = a.eligible :=
        grants.takes.eligible
      rw [FrameAllocator.free, used, outside, Bool.or_false, eligible]
      exact free
    by_cases taken : first = one
    · exact ⟨two, kept two right (by rw [taken]; exact apart)⟩
    · exact ⟨one, kept one left taken⟩

theorem opening_smallBoot : Opening smallStart.2 := by
  rw [smallStart]
  obtain ⟨_, _, -, -, booting, -⟩ := frameAllocatorInitialize_ok smallBoot_ok
  obtain ⟨information, regions, same, map, -, -, result⟩ :=
    frameAllocatorInitialize_path smallBoot_ok
  cases same
  cases map
  refine ⟨dmaStart_of_boot smallBoot_ok, ?_, booting.inactive, 0x102, 0x103, by decide, ?_⟩
  · rw [result, publishAllocator, recomputeStats]
    decide +kernel
  · rw [result, publishAllocator_free, publishAllocator_free]
    decide +kernel

/-- With one page kept from the small boot on, the counter comes back to its identifier. -/
theorem dma_identifier_comes_back :
    DmaStart smallStart.2 ∧
      dmaVerify (run dmaStep (dmaInitialize (idleDma smallStart.2)).2 reusingCalls) ≠ .ok := by
  have opening := opening_smallBoot
  obtain ⟨i, cycling⟩ := opening.cycling
  refine ⟨opening.start, ?_⟩
  rw [reusingCalls, run_cons]
  exact cycling.reused (by decide)

/-- One page, filled and handed to a device, under the ownership rules. -/
theorem dma_ownership_after_small_boot :
    Throughout dmaStep DmaSafe (dmaInitialize (idleDma smallStart.2)).2
      [allocatePage 0, .markInitialized (some 0), .transferToDevice (some 0), .release (some 0)] := by
  have opening := opening_smallBoot
  exact dma_ownership_over_runs (idleDma_idle _) opening.idle _
    ⟨opening.identifierFree, trivial, trivial, trivial, trivial⟩

end

end Sapote.Dma
