import Sapote.Dma.Transitions

/-!
Ownership of device memory over whole runs. The identifier the frame allocator hands out
next wraps after 2^64 allocations; as long as it is not the identifier of a live extent,
every call keeps the invariant.
-/

namespace Sapote.Dma
open Frames Library
variable {s : DmaSystem} {i : RecordIndex}

/-- The condition on a step: an allocation is not handed an identifier that is in use. -/
def AllocatesFresh (s : DmaSystem) : DmaCall → Prop
  | .allocate _ _ _ => IdentifierFree s.frames
  | _ => True

/-- What one call can do. -/
inductive Changes (s : DmaSystem) : DmaCall → DmaSystem → Prop
  | refused {call : _} : Changes s call s
  | marked {call t : _} (marks : Marks s t) : Changes s call t
  | edited {call name : _} (free : s.held name = false) (allocation : DmaAllocation) :
      Changes s call (writeHandle s name allocation)
  | withdrawn {request name translate index slot first : _} (free : s.held name = false)
      (grants : Grants s request index slot first) :
      Changes s (.allocate (some request) (some name) translate) (withdrawFrames s name
        (grantedFrames s.frames request first) (takeContiguousRun s.frames request slot first))
  | granted {request name translate index slot first : _} (free : s.held name = false)
      (grants : Grants s request index slot first) :
      Changes s (.allocate (some request) (some name) translate) (grantAllocation s name index
        (grantedFrames s.frames request first) (takeContiguousRun s.frames request slot first))
  | released {name i slot : _} (here : (s.records i).active) (backed : Backed s i name)
      (cpu : (s.records i).owner = .cpu)
      (extent : s.frames.contiguousRecords slot = (s.records i).extent) :
      Changes s (.release (some name)) (retireAllocation s name i (giveContiguousRun s.frames slot))

theorem dmaStep_changes (sound : DmaSound s) (call : DmaCall) : Changes s call (dmaStep s call) := by
  have marking : ∀ {call : DmaCall} {handle : Option Nat} {result : DmaStatus × DmaSystem},
      Marking s handle result → Changes s call result.2 := by
    rintro call handle result (⟨-, kept⟩ | ⟨-, marks⟩)
    · rw [kept]
      exact .refused
    · exact .marked marks
  cases call with
  | allocate request handle translate =>
    rw [dmaStep]
    split
    · exact .refused
    next held =>
    have free : ∀ name, handle = some name → s.held name = false := by
      rintro name rfl
      exact eq_false_of_ne_true held
    rcases dmaAllocate_cases s request handle translate with
      ⟨-, kept⟩ | ⟨name, named, -, cleared⟩ |
      ⟨name, asked, index, slot, first, rfl, rfl, grants, ⟨-, withdrawn⟩ | ⟨-, granted⟩⟩
    · rw [kept]
      exact .refused
    · rw [cleared]
      exact .edited (free name named) _
    · rw [withdrawn]
      exact .withdrawn (free name rfl) grants
    · rw [granted]
      exact .granted (free name rfl) grants
  | markInitialized handle => exact marking (dmaMarkInitialized_cases sound handle)
  | transferToDevice handle => exact marking (dmaTransferToDevice_cases sound handle)
  | transferToCpu handle => exact marking (dmaTransferToCpu_cases sound handle)
  | release handle =>
    rw [dmaStep]
    rcases dmaRelease_cases sound handle with
      ⟨-, kept⟩ | ⟨name, i, slot, rfl, here, backed, cpu, extent, released⟩
    · rw [kept]
      exact .refused
    · rw [released]
      exact .released here backed cpu extent
  | edit name allocation =>
    rw [dmaStep]
    split
    · exact .refused
    next free => exact .edited (eq_false_of_ne_true free) allocation

theorem dmaSound_step (s : DmaSystem) (call : DmaCall) (sound : DmaSound s)
    (fresh : AllocatesFresh s call) : DmaSound (dmaStep s call) := by
  have changes := dmaStep_changes sound call
  generalize dmaStep s call = t at changes ⊢
  cases changes with
  | refused => exact sound
  | marked marks => exact sound.marks marks
  | edited free allocation => exact sound.edited free allocation
  | withdrawn free grants => exact sound.withdrawn free fresh grants
  | granted free grants => exact sound.granted free fresh grants
  | released here backed cpu extent => exact sound.retired here backed cpu extent

/-- An active allocation stays as it is, frames and handle, until it is released through
its original handle while the processor owns it. -/
theorem DmaSound.keeps (sound : DmaSound s) (call : DmaCall) (here : (s.records i).active) :
    Keeps s (dmaStep s call) i ∨ ∃ name, call = .release (some name) ∧
      (s.records i).handle = some name ∧ (s.records i).owner = .cpu := by
  have unchanged : ∀ {t : DmaSystem}, t.records i = s.records i → Keeps s t i := by
    intro t record
    rw [Keeps, record]
    exact ⟨here, rfl, rfl⟩
  have changes := dmaStep_changes sound call
  generalize dmaStep s call = t at changes ⊢
  cases changes with
  | refused | edited | withdrawn => exact .inl (unchanged rfl)
  | marked marks => exact .inl (marks.keeps here)
  | @granted _ _ _ index _ _ _ grants =>
    have other : i ≠ index := by
      rintro rfl
      exact nomatch here.symm.trans grants.record
    exact .inl (unchanged ((grantAllocation_record ..).trans (if_neg other)))
  | @released name j _ _ backed cpu _ =>
    by_cases same : i = j
    · subst same
      exact .inr ⟨name, rfl, backed.handle, cpu⟩
    · exact .inl (unchanged (Function.update_of_ne same _ s.records))

def extentHolds (frames : ContiguousAllocation) (frame : Nat) : Bool :=
  inRun (frames.physicalBase / sapotePageSize) frames.pageCount frame

/-- What a state of a run guarantees its callers and the devices. -/
structure DmaSafe (s : DmaSystem) : Prop where
  verified : dmaVerify s = .ok
  counted : s.cpuOwnedAllocations + s.deviceOwnedAllocations = s.activeAllocations
  prepared : ∀ i, (s.records i).active → (s.records i).owner = .device →
    (s.records i).initialized
  allocated : ∀ i frame, (s.records i).active →
    extentHolds (s.records i).frames frame →
    s.frames.eligible frame ∧ s.frames.used frame
  kept : ∀ i call, (s.records i).active → Keeps s (dmaStep s call) i ∨
    ∃ name, call = .release (some name) ∧ (s.records i).handle = some name ∧
      (s.records i).owner = .cpu
  disjoint : ∀ i j frame, (s.records i).active → (s.records j).active →
    extentHolds (s.records i).frames frame →
    extentHolds (s.records j).frames frame → i = j
  refused : ∀ name, s.held name = false →
    ((dmaMarkInitialized s (some name)).1 ≠ .ok ∧ (dmaMarkInitialized s (some name)).2 = s) ∧
    ((dmaTransferToDevice s (some name)).1 ≠ .ok ∧ (dmaTransferToDevice s (some name)).2 = s) ∧
    ((dmaTransferToCpu s (some name)).1 ≠ .ok ∧ (dmaTransferToCpu s (some name)).2 = s) ∧
    ((dmaRelease s (some name)).1 ≠ .ok ∧ (dmaRelease s (some name)).2 = s)

theorem Backed.extent_holds {name frame : Nat} (backed : Backed s i name)
    (inside : extentHolds (s.records i).frames frame) :
    ∃ slot, (s.frames.contiguousRecords slot).identifier = (s.records i).frames.identifier ∧
      (s.frames.contiguousRecords slot).holds frame := by
  obtain ⟨slot, extent⟩ := backed.extent
  refine ⟨slot, by rw [extent], ?_⟩
  rw [holds_iff, extent]
  exact ⟨rfl, inside⟩

theorem DmaSound.safe (sound : DmaSound s) : DmaSafe s where
  verified := sound.verified
  counted := sound.counted
  prepared i here device := by
    obtain ⟨name, backed⟩ := sound.backed i here
    obtain cpu | ⟨-, initialized⟩ := backed.owned
    · exact nomatch cpu.symm.trans device
    · exact initialized
  allocated i frame here inside := by
    obtain ⟨name, backed⟩ := sound.backed i here
    obtain ⟨slot, -, holds⟩ := backed.extent_holds inside
    exact sound.frames.record_held slot frame holds
  kept _ call here := sound.keeps call here
  disjoint i j frame here there inside within := by
    obtain ⟨_, backed⟩ := sound.backed i here
    obtain ⟨_, other⟩ := sound.backed j there
    obtain ⟨slot, identifier, holds⟩ := backed.extent_holds inside
    obtain ⟨place, same, contains⟩ := other.extent_holds within
    cases sound.frames.record_unique slot place frame holds contains
    exact sound.identifiers i j here there (identifier.symm.trans same)
  refused name free := by
    have away : ∀ P : Prop, (∃ other, some name = some other ∧ s.held other) ∧ P → False := by
      rintro P ⟨⟨other, ⟨⟩, held⟩, -⟩
      rw [free] at held
      cases held
    refine ⟨?_, ?_, ?_, ?_⟩
    · exact (dmaMarkInitialized_cases sound (some name)).resolve_right (away _)
    · exact (dmaTransferToDevice_cases sound (some name)).resolve_right (away _)
    · exact (dmaTransferToCpu_cases sound (some name)).resolve_right (away _)
    · refine (dmaRelease_cases sound (some name)).resolve_right ?_
      rintro ⟨_, i, slot, ⟨⟩, here, backed, -⟩
      exact backed.ne_of_free here free rfl

/-- The frame allocator as device memory finds it: sound, with the first frame withheld
and every live extent under an identifier of its own. -/
structure DmaStart (a : FrameAllocator) : Prop where
  frames : FrameSound a
  grounded : a.eligible 0 = false
  extents : ∀ i j, (a.contiguousRecords i).active →
    (a.contiguousRecords j).active →
    (a.contiguousRecords i).identifier = (a.contiguousRecords j).identifier → i = j

theorem dmaStart_of_boot {image : KernelImage} {context : Option BootInformation}
    {start : FrameAllocator} (boot : (frameAllocatorInitialize image context start).1 = .ok) :
    DmaStart (frameAllocatorInitialize image context start).2 := by
  obtain ⟨information, regions, -, -, booting, sound, fit⟩ := frameAllocatorInitialize_ok boot
  refine ⟨sound, ?_, ?_⟩
  · apply eq_false_of_ne_true
    intro eligible
    exact (fit 0 eligible).lowMemory 0 (by decide) (by decide) ⟨le_refl 0, by decide⟩
  · intro i _ live
    rw [booting.inactive i] at live
    cases live

theorem dmaInitialize_sound (idle : s.active = false) (start : DmaStart s.frames) :
    DmaSound (dmaInitialize s).2 := by
  have nobody : ∀ weight : DmaRecord → Nat, (∀ record, record.active = false → weight record = 0) →
      total weight (fun index => { s.records index with handle := none, active := false })
        Finset.univ = 0 := by
    intro weight zero
    exact Finset.sum_eq_zero fun i _ => zero _ rfl
  rw [dmaInitialize, idle, if_neg (by decide)]
  refine ⟨start.frames, start.grounded, start.extents, nofun, nofun, rfl, ?_, ?_, ?_⟩
  · exact (nobody activeWeight fun record off => if_neg (by rw [off]; decide)).symm
  · exact (nobody (ownerWeight .cpu) fun record off => if_neg (by simp [off])).symm
  · exact (nobody (ownerWeight .device) fun record off => if_neg (by simp [off])).symm

/-- In every run whose allocations meet a free identifier, every state is safe. -/
theorem dma_ownership_over_runs (idle : s.active = false) (start : DmaStart s.frames)
    (calls : List DmaCall) (fresh : Along dmaStep AllocatesFresh (dmaInitialize s).2 calls) :
    Throughout dmaStep DmaSafe (dmaInitialize s).2 calls := by
  have sound := throughout_of_along dmaStep DmaSound AllocatesFresh dmaSound_step calls
    (dmaInitialize s).2 (dmaInitialize_sound idle start) fresh
  intro done earlier
  exact (sound done earlier).safe

end Sapote.Dma
