import Sapote.Dma.Allocation
import Sapote.Frames.Ownership
import Sapote.Library.Totals

/-!
The invariant of device memory. An active record, the handle it names and a record of the
frame allocator describe one allocation, and no identifier names two. Verification counts
the records and agrees.
-/

namespace Sapote.Dma
open List Function

open Frames Library
variable {slot : Fin contiguousAllocationCapacity} {allocation : DmaAllocation} {t : DmaSystem}

section
variable {I R K : Type} {p : R → Bool} {k : R → K} {before after : I → R}

/-- No two live entries have one key. -/
def Keyed (p : R → Bool) (k : R → K) (entries : I → R) : Prop :=
  ∀ i j, p (entries i) → p (entries j) → k (entries i) = k (entries j) → i = j

theorem Keyed.kept (keyed : Keyed p k before)
    (same : ∀ i, p (after i) → p (before i) ∧ k (after i) = k (before i)) :
    Keyed p k after := by
  intro i j one two shared
  obtain ⟨one, left⟩ := same i one
  obtain ⟨two, right⟩ := same j two
  exact keyed i j one two (left.symm.trans (shared.trans right))

theorem Keyed.inserted [DecidableEq I] {new : I} {entry : R} (keyed : Keyed p k before)
    (fresh : ∀ i, p (before i) → k (before i) ≠ k entry)
    (look : ∀ i, after i = if i = new then entry else before i) : Keyed p k after := by
  intro i j one two shared
  rw [look i] at one shared
  rw [look j] at two shared
  by_cases left : i = new
  · by_cases right : j = new
    · rw [left, right]
    · rw [if_neg right] at two shared
      rw [if_pos left] at shared
      exact absurd shared.symm (fresh j two)
  rw [if_neg left] at one shared
  by_cases right : j = new
  · rw [if_pos right] at shared
    exact absurd shared (fresh i one)
  · rw [if_neg right] at two shared
    exact keyed i j one two shared

end

def activeWeight (record : DmaRecord) : Nat := if record.active then 1 else 0

def ownerWeight (owner : DmaOwner) (record : DmaRecord) : Nat :=
  if record.active ∧ record.owner = owner then 1 else 0

structure Backed (s : DmaSystem) (index : RecordIndex) (name : Nat) : Prop where
  handle : (s.records index).handle = some name
  mirrored : s.handles name = ⟨(s.records index).frames, (s.records index).frames.physicalBase,
      (s.records index).frames.pageCount * sapotePageSize, (s.records index).owner,
      (s.records index).initialized, true⟩
  framesActive : (s.records index).frames.active
  owned : (s.records index).owner = .cpu ∨
    (s.records index).owner = .device ∧ (s.records index).initialized
  extent : ∃ slot, s.frames.contiguousRecords slot =
    ⟨(s.records index).frames.physicalBase, (s.records index).frames.pageCount,
      (s.records index).frames.identifier, true⟩

structure DmaSound (s : DmaSystem) : Prop where
  frames : FrameSound s.frames
  grounded : s.frames.eligible 0 = false
  extents : Keyed ContiguousRecord.active ContiguousRecord.identifier s.frames.contiguousRecords
  identifiers : Keyed DmaRecord.active (·.frames.identifier) s.records
  backed : ∀ i, (s.records i).active → ∃ name, Backed s i name
  active : s.active
  activeCount : s.activeAllocations = total activeWeight s.records Finset.univ
  cpuCount : s.cpuOwnedAllocations = total (ownerWeight .cpu) s.records Finset.univ
  deviceCount : s.deviceOwnedAllocations = total (ownerWeight .device) s.records Finset.univ

theorem find?_of_unique {A : Type} {entries : List A} {p : A → Bool} {entry : A}
    (member : entry ∈ entries) (accepted : p entry)
    (unique : ∀ other, p other → other = entry) : entries.find? p = some entry := by
  cases found : entries.find? p with
  | none => exact absurd accepted (find?_eq_none.mp found entry member)
  | some other => rw [unique other (find?_some found)]

section
variable {a : FrameAllocator}

def IdentifierFree (a : FrameAllocator) : Prop :=
  ∀ slot, (a.contiguousRecords slot).active →
    (a.contiguousRecords slot).identifier ≠ a.nextContiguousIdentifier

section
variable (sound : FrameSound a)
  (extents : Keyed ContiguousRecord.active ContiguousRecord.identifier a.contiguousRecords)
  {slot : Fin contiguousAllocationCapacity} {handle : ContiguousAllocation}
  (here : a.contiguousRecords slot =
    ⟨handle.physicalBase, handle.pageCount, handle.identifier, true⟩)
  (active : handle.active)
include sound extents here active

/-- A live extent that is the only one under its identifier is released on request. -/
theorem frameReleaseContiguous_extent :
    frameReleaseContiguous a (some handle) = (.ok, giveContiguousRun a slot) := by
  have live : (a.contiguousRecords slot).active := by rw [here]
  have found : recordIndexFor a handle.identifier = some slot := by
    refine find?_of_unique (mem_finRange slot) ?_ ?_
    · rw [here]
      simp
    · intro other accepted
      rw [Bool.and_eq_true, decide_eq_true_iff] at accepted
      exact extents other slot accepted.1 live (by rw [accepted.2, here])
  have held : (List.range' (a.contiguousRecords slot).firstFrame
      (a.contiguousRecords slot).pageCount).all
        (fun frame => a.eligible frame && a.used frame) := by
    rw [all_eq_true]
    intro frame inside
    rw [mem_range'_1] at inside
    obtain ⟨eligible, used⟩ := sound.record_held slot frame
      (holds_iff.mpr ⟨live, inRun_iff.mpr inside⟩)
    rw [eligible, used]
    rfl
  simp only [frameReleaseContiguous, sound.initialized, active, found]
  rw [if_neg (by decide), if_neg (by decide), if_neg (by rw [here]; simp), held, if_neg (by decide)]

theorem giveContiguousRun_sound : FrameSound (giveContiguousRun a slot) := by
  have step := frameSound_step sound (.releaseContiguous (some handle))
  rwa [frameStep, frameReleaseContiguous_extent sound extents here active] at step

end

theorem giveContiguousRun_live {i : Fin contiguousAllocationCapacity}
    (live : ((giveContiguousRun a slot).contiguousRecords i).active) :
    i ≠ slot ∧ (giveContiguousRun a slot).contiguousRecords i = a.contiguousRecords i := by
  rw [giveContiguousRun_record] at live ⊢
  split at live
  · cases live
  next other => exact ⟨other, if_neg other⟩

variable {s : DmaSystem} {i j : RecordIndex} {name : Nat}

theorem held_iff : s.held name ↔
    ∃ i, (s.records i).active ∧ (s.records i).handle = some name := by
  simp only [DmaSystem.held, any_eq_true, mem_finRange, true_and, decide_eq_true_eq]

theorem validateAllocation_held (valid : validateAllocation s (some name) = .ok) :
    ∃ i, recordFor s (s.handles name) = some i ∧ (s.records i).active ∧
      (s.records i).handle = some name := by
  unfold validateAllocation at valid
  dsimp only at valid
  split at valid
  · cases valid
  split at valid
  · cases valid
  next i found =>
  split at valid
  · cases valid
  next agrees =>
  rw [Bool.not_eq_true, Bool.not_eq_false'] at agrees
  have accepted := find?_some found
  exact ⟨i, found, (of_decide_eq_true accepted).1, (of_decide_eq_true agrees).1⟩

section
variable (sound : DmaSound s) (here : (s.records i).active)
include sound here

theorem DmaSound.extent_frame :
    (s.records i).frames.physicalBase ≠ 0 ∧ (s.records i).frames.pageCount ≠ 0 ∧
      (s.records i).frames.pageCount ≤ uint64Max / sapotePageSize := by
  obtain ⟨name, backed⟩ := sound.backed i here
  obtain ⟨slot, extent⟩ := backed.extent
  have live : (s.frames.contiguousRecords slot).active := by rw [extent]
  obtain ⟨positive, aligned⟩ := sound.frames.record_base slot live
  rw [extent] at positive aligned
  dsimp only at positive aligned
  have frame : ∀ f, inRun ((s.records i).frames.physicalBase / sapotePageSize)
      (s.records i).frames.pageCount f → s.frames.eligible f := by
    intro f inside
    refine (sound.frames.record_held slot f (holds_iff.mpr ⟨live, ?_⟩)).1
    rw [extent]
    exact inside
  refine ⟨?_, by omega, ?_⟩
  · intro zero
    have first := frame 0 (inRun_iff.mpr (by rw [zero, Nat.zero_div]; omega))
    rw [sound.grounded] at first
    cases first
  · have last := sound.frames.eligible_bound _ (frame ((s.records i).frames.physicalBase /
      sapotePageSize + ((s.records i).frames.pageCount - 1)) (inRun_iff.mpr (by omega)))
    have small : frameCount ≤ uint64Max / sapotePageSize := by decide
    generalize (s.records i).frames.physicalBase / sapotePageSize = first at last
    exact le_trans (by omega) small

theorem DmaSound.record_found (same : allocation.frames.identifier = (s.records i).frames.identifier) :
    recordFor s allocation = some i := by
  refine find?_of_unique (mem_finRange i) (decide_eq_true ⟨here, same.symm⟩) ?_
  intro other accepted
  obtain ⟨live, identifier⟩ := of_decide_eq_true accepted
  exact sound.identifiers other i live here (identifier.trans same)

theorem DmaSound.valid (backed : Backed s i name) : validateAllocation s (some name) = .ok := by
  obtain ⟨base, pages, bound⟩ := sound.extent_frame here
  have credible : allocationPlausible (s.handles name) := by
    rw [backed.mirrored]
    refine decide_eq_true ⟨rfl, backed.framesActive, base, ?_, ?_⟩
    · exact Nat.mul_ne_zero pages (by decide)
    · exact backed.owned.imp_right And.left
  have found := sound.record_found here (congrArg (·.frames.identifier) backed.mirrored)
  have agrees : recordAgrees (s.records i) name (s.handles name) := by
    rw [backed.mirrored]
    exact decide_eq_true ⟨backed.handle, rfl, rfl, rfl, rfl, backed.framesActive, rfl, bound, rfl,
      rfl, rfl⟩
  simp only [validateAllocation, credible, found, agrees]
  rfl

theorem DmaSound.handles_apart (there : (s.records j).active) (first : Backed s i name) {other : Nat}
    (second : Backed s j other) (apart : j ≠ i) : other ≠ name := by
  rintro rfl
  have frames := congrArg (·.frames.identifier) (second.mirrored.symm.trans first.mirrored)
  exact apart (sound.identifiers j i there here frames)

end

section
variable (sound : DmaSound s)
include sound

theorem ownerWeight_add (i : RecordIndex) :
    ownerWeight .cpu (s.records i) + ownerWeight .device (s.records i) =
      activeWeight (s.records i) := by
  unfold ownerWeight activeWeight
  cases here : (s.records i).active with
  | false => rfl
  | true =>
    obtain ⟨name, backed⟩ := sound.backed i here
    obtain cpu | ⟨device, -⟩ := backed.owned
    · rw [cpu]
      rfl
    · rw [device]
      rfl

theorem DmaSound.counted :
    s.cpuOwnedAllocations + s.deviceOwnedAllocations = s.activeAllocations := by
  simp only [sound.cpuCount, sound.deviceCount, sound.activeCount, total, ← Finset.sum_add_distrib]
  exact Finset.sum_congr rfl fun i _ => ownerWeight_add sound i

/-- The verification loop adds up the weights of the records it passes. -/
theorem tallyRecords_sound (indices : List RecordIndex) (tally : DmaTally) :
    tallyRecords s indices tally =
      some ⟨tally.active + (indices.map fun i => activeWeight (s.records i)).sum,
        tally.cpuOwned + (indices.map fun i => ownerWeight .cpu (s.records i)).sum,
        tally.deviceOwned + (indices.map fun i => ownerWeight .device (s.records i)).sum⟩ := by
  induction indices generalizing tally with
  | nil => rfl
  | cons i indices ih =>
    rw [tallyRecords]
    simp only [map_cons, sum_cons, ← add_assoc]
    cases here : (s.records i).active with
    | false =>
      rw [if_pos (by decide), ih]
      simp [activeWeight, ownerWeight, here]
    | true =>
      obtain ⟨name, backed⟩ := sound.backed i here
      have valid := sound.valid here backed
      rw [if_neg (by decide), backed.handle, if_neg (by simp [valid])]
      obtain owner | ⟨owner, -⟩ := backed.owned
      · rw [owner]
        rw [ih]
        simp [activeWeight, ownerWeight, here, owner]
      · rw [owner]
        dsimp only
        rw [ih]
        simp [activeWeight, ownerWeight, here, owner]

theorem DmaSound.verified : dmaVerify s = .ok := by
  have sums : ∀ weight : DmaRecord → Nat,
      ((List.finRange contiguousAllocationCapacity).map fun i => weight (s.records i)).sum =
        total weight s.records Finset.univ := by
    intro weight
    rw [total, Fin.sum_univ_def]
  have counted := sound.counted
  rw [dmaVerify, sound.active, if_neg (by decide), tallyRecords_sound sound]
  dsimp only
  simp only [sums, ← sound.activeCount, ← sound.cpuCount, ← sound.deviceCount]
  refine if_neg ?_
  omega

end

end

end Sapote.Dma
