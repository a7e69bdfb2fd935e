import Sapote.Dma.Records

/-!
What each call on device memory can do to a sound state, and that the state stays sound:
one allocation is marked, entered, withdrawn again or retired, or a structure that is
nobody's handle is written.
-/

namespace Sapote.Dma
open List Function

open Frames Library
variable {slot : Fin contiguousAllocationCapacity} {s t : DmaSystem} {i : RecordIndex} {name : Nat}

/-- What the frame allocator records of an allocation. -/
def DmaRecord.extent (record : DmaRecord) : ContiguousRecord :=
  ⟨record.frames.physicalBase, record.frames.pageCount, record.frames.identifier, true⟩

def DmaRecord.marked (record : DmaRecord) (owner : DmaOwner) (initialized : Bool) : DmaRecord :=
  { record with owner := owner, initialized := initialized }

def DmaSystem.marked (s : DmaSystem) (i : RecordIndex) (name : Nat) (owner : DmaOwner)
    (initialized : Bool) (cpuOwned deviceOwned : Nat) : DmaSystem :=
  { s with
    handles := Function.update s.handles name
      { s.handles name with owner := owner, initialized := initialized }
    records := Function.update s.records i ((s.records i).marked owner initialized)
    cpuOwnedAllocations := cpuOwned
    deviceOwnedAllocations := deviceOwned }

theorem DmaSystem.marked_record (s : DmaSystem) (i j : RecordIndex) (name : Nat)
    (owner : DmaOwner) (initialized : Bool) (cpuOwned deviceOwned : Nat) :
    let r := (s.marked i name owner initialized cpuOwned deviceOwned).records j
    r.active = (s.records j).active ∧ r.frames = (s.records j).frames ∧
      r.handle = (s.records j).handle ∧ (j ≠ i → r = s.records j) := by
  intro r
  by_cases same : j = i
  · subst same
    have here : r = (s.records j).marked owner initialized :=
      update_self j _ s.records
    rw [here]
    exact ⟨rfl, rfl, rfl, fun other => absurd rfl other⟩
  · have there : r = s.records j := update_of_ne same _ s.records
    rw [there]
    exact ⟨rfl, rfl, rfl, fun _ => rfl⟩

theorem Backed.carried (backed : Backed s i name) (record : t.records i = s.records i)
    (handle : t.handles name = s.handles name)
    (extents : ∀ slot, s.frames.contiguousRecords slot = (s.records i).extent →
      t.frames.contiguousRecords slot = s.frames.contiguousRecords slot) : Backed t i name := by
  obtain ⟨named, mirrored, active, owned, slot, extent⟩ := backed
  have kept := (extents slot extent).trans extent
  rw [← record] at named mirrored active owned kept
  exact ⟨named, handle.trans mirrored, active, owned, slot, kept⟩

/-- From `s` to `t` one allocation changes its owner or its preparation. -/
def Marks (s t : DmaSystem) : Prop :=
  ∃ i name owner initialized cpuOwned deviceOwned, (s.records i).active = true ∧ Backed s i name ∧
    (owner = .cpu ∨ owner = .device ∧ initialized = true) ∧
    cpuOwned + ownerWeight .cpu (s.records i) =
      (s.cpuOwnedAllocations + if owner = .cpu then 1 else 0) ∧
    deviceOwned + ownerWeight .device (s.records i) =
      (s.deviceOwnedAllocations + if owner = .device then 1 else 0) ∧
    t = s.marked i name owner initialized cpuOwned deviceOwned

theorem DmaSound.marks (sound : DmaSound s) (marks : Marks s t) : DmaSound t := by
  obtain ⟨i, name, owner, initialized, cpuOwned, deviceOwned, here, backed, owned, cpu, device,
    rfl⟩ := marks
  have look := fun j => s.marked_record i j name owner initialized cpuOwned deviceOwned
  refine ⟨sound.frames, sound.grounded, sound.extents, ?_, ?_, sound.active, ?_, ?_, ?_⟩
  · refine sound.identifiers.kept fun j live => ?_
    exact ⟨(look j).1 ▸ live, congrArg (·.identifier) (look j).2.1⟩
  · intro j live
    rw [(look j).1] at live
    by_cases same : j = i
    swap
    · obtain ⟨other, untouched⟩ := sound.backed j live
      have apart := sound.handles_apart here live backed untouched same
      exact ⟨other, untouched.carried ((look j).2.2.2 same)
        (update_of_ne apart _ s.handles) fun _ _ => rfl⟩
    subst same
    refine ⟨name, (look j).2.2.1.trans backed.handle, ?_, ?_, ?_, ?_⟩
    · rw [DmaSystem.marked]
      dsimp only
      simp only [update_self, backed.mirrored]
      rfl
    · rw [(look j).2.1]
      exact backed.framesActive
    · rw [DmaSystem.marked]
      dsimp only
      rw [update_self]
      exact owned
    · rw [(look j).2.1]
      exact backed.extent
  · exact total_moved sound.activeCount (Finset.mem_univ i) _ rfl
  · refine total_moved sound.cpuCount (Finset.mem_univ i) _ (cpu.trans ?_)
    simp [ownerWeight, DmaRecord.marked, here]
  · refine total_moved sound.deviceCount (Finset.mem_univ i) _ (device.trans ?_)
    simp [ownerWeight, DmaRecord.marked, here]

theorem sizeSub_counted {weight : DmaRecord → Nat} {n : Nat}
    (counted : n = total weight s.records Finset.univ) (one : weight (s.records i) = 1) :
    sizeSub n 1 + 1 = n := by
  have least : weight (s.records i) ≤ total weight s.records Finset.univ :=
    le_total (Finset.mem_univ i)
  rw [sizeSub_of_le (by omega)]
  omega

/-- A handle is refused, or it is the original handle of the record it claims. -/
theorem DmaSound.handle_cases (sound : DmaSound s) (handle : Option Nat) :
    (validateAllocation s handle ≠ .ok ∧ ∀ name, handle = some name → s.held name = false) ∨
      ∃ name i, handle = some name ∧ validateAllocation s handle = .ok ∧ s.held name ∧
        (s.records i).active ∧ Backed s i name ∧ recordFor s (s.handles name) = some i := by
  cases handle with
  | none => exact .inl ⟨nofun, nofun⟩
  | some name => ?_
  cases held : s.held name with
  | false =>
    refine .inl ⟨?_, ?_⟩
    · intro valid
      obtain ⟨i, -, here, same⟩ := validateAllocation_held valid
      rw [held_iff.mpr ⟨i, here, same⟩] at held
      cases held
    · rintro _ ⟨⟩
      exact held
  | true =>
    obtain ⟨i, here, same⟩ := held_iff.mp held
    obtain ⟨other, backed⟩ := sound.backed i here
    cases same.symm.trans backed.handle
    exact .inr ⟨name, i, rfl, sound.valid here backed, held, here, backed,
      sound.record_found here (congrArg (·.frames.identifier) backed.mirrored)⟩

/-- An active record that a call does not retire. -/
def Keeps (s t : DmaSystem) (i : RecordIndex) : Prop :=
  (t.records i).active = true ∧ (t.records i).handle = (s.records i).handle ∧
    (t.records i).frames = (s.records i).frames

theorem Marks.keeps (marks : Marks s t) (here : (s.records i).active) : Keeps s t i := by
  obtain ⟨j, name, owner, initialized, cpuOwned, deviceOwned, -, -, -, -, -, rfl⟩ := marks
  obtain ⟨active, frames, handle, -⟩ :=
    s.marked_record j i name owner initialized cpuOwned deviceOwned
  exact ⟨active.trans here, handle, frames⟩

theorem Backed.owner (backed : Backed s i name) : (s.handles name).owner = (s.records i).owner :=
  congrArg (·.owner) backed.mirrored

theorem Backed.initialized (backed : Backed s i name) :
    (s.handles name).initialized = (s.records i).initialized :=
  congrArg (·.initialized) backed.mirrored

/-- What a call that validates its handle first can do: nothing, or mark an allocation. -/
def Marking (s : DmaSystem) (handle : Option Nat) (result : DmaStatus × DmaSystem) : Prop :=
  (result.1 ≠ .ok ∧ result.2 = s) ∨
    ((∃ name, handle = some name ∧ s.held name) ∧ Marks s result.2)

section
variable (sound : DmaSound s) (handle : Option Nat)
include sound

theorem DmaSound.marking {call : Nat → DmaStatus × DmaSystem}
    (accepted : ∀ name i, (s.records i).active → Backed s i name →
      recordFor s (s.handles name) = some i →
      ((call name).1 ≠ .ok ∧ (call name).2 = s) ∨ Marks s (call name).2) :
    Marking s handle (match validateAllocation s handle, handle with
      | .ok, some name => call name
      | status, _ => (status, s)) := by
  rcases sound.handle_cases handle with
    ⟨refused, -⟩ | ⟨name, i, rfl, valid, held, here, backed, found⟩
  · split
    next ok => exact absurd ok refused
    · exact .inl ⟨refused, rfl⟩
  · rw [valid]
    exact (accepted name i here backed found).imp_right fun marks => ⟨⟨name, rfl, held⟩, marks⟩

theorem dmaMarkInitialized_cases : Marking s handle (dmaMarkInitialized s handle) := by
  refine sound.marking handle fun name i here backed found => ?_
  dsimp only
  split
  · exact .inl ⟨nofun, rfl⟩
  next owner =>
  rw [found]
  have cpu : (s.records i).owner = .cpu := backed.owner.symm.trans (not_not.mp owner)
  refine .inr ⟨i, name, (s.records i).owner, true, s.cpuOwnedAllocations,
    s.deviceOwnedAllocations, here, backed, .inl cpu, ?_, ?_, ?_⟩
  · rw [ownerWeight, cpu, if_pos ⟨here, rfl⟩, if_pos rfl]
  · simp [ownerWeight, cpu]
  · rw [DmaSystem.marked, backed.mirrored]
    rfl

theorem dmaTransferToDevice_cases : Marking s handle (dmaTransferToDevice s handle) := by
  refine sound.marking handle fun name i here backed found => ?_
  dsimp only
  split
  · exact .inl ⟨nofun, rfl⟩
  next owner =>
  split
  · exact .inl ⟨nofun, rfl⟩
  next prepared =>
  rw [found]
  have cpu : (s.records i).owner = .cpu := backed.owner.symm.trans (not_not.mp owner)
  have ready : (s.records i).initialized := by
    rw [← backed.initialized]
    simpa using prepared
  have weight : ownerWeight .cpu (s.records i) = 1 := if_pos ⟨here, cpu⟩
  refine .inr ⟨i, name, .device, (s.records i).initialized, sizeSub s.cpuOwnedAllocations 1,
    s.deviceOwnedAllocations + 1, here, backed, .inr ⟨rfl, ready⟩, ?_, ?_, ?_⟩
  · rw [weight, if_neg (by simp), sizeSub_counted sound.cpuCount weight, add_zero]
  · simp [ownerWeight, cpu]
  · rw [DmaSystem.marked, backed.mirrored]
    rfl

theorem dmaTransferToCpu_cases : Marking s handle (dmaTransferToCpu s handle) := by
  refine sound.marking handle fun name i here backed found => ?_
  dsimp only
  split
  · exact .inl ⟨nofun, rfl⟩
  next owner =>
  rw [found]
  have device : (s.records i).owner = .device := backed.owner.symm.trans (not_not.mp owner)
  have weight : ownerWeight .device (s.records i) = 1 := if_pos ⟨here, device⟩
  refine .inr ⟨i, name, .cpu, (s.records i).initialized, s.cpuOwnedAllocations + 1,
    sizeSub s.deviceOwnedAllocations 1, here, backed, .inl rfl, ?_, ?_, ?_⟩
  · simp [ownerWeight, device]
  · rw [weight, if_neg (by simp), sizeSub_counted sound.deviceCount weight, add_zero]
  · rw [DmaSystem.marked, backed.mirrored]
    rfl

end

theorem Backed.ne_of_free {other : Nat} (backed : Backed s i other)
    (here : (s.records i).active) (free : s.held name = false) : other ≠ name := by
  rintro rfl
  exact absurd (held_iff.mpr ⟨i, here, backed.handle⟩) (by simp [free])

/-- Writing a structure that is nobody's handle, with the live extents left alone. -/
theorem DmaSound.rewritten (sound : DmaSound s) (free : s.held name = false)
    (allocation : DmaAllocation) {frames : FrameAllocator} (framed : FrameSound frames)
    (eligible : frames.eligible = s.frames.eligible)
    (live : ∀ slot, (frames.contiguousRecords slot).active →
      frames.contiguousRecords slot = s.frames.contiguousRecords slot)
    (kept : ∀ slot, (s.frames.contiguousRecords slot).active →
      frames.contiguousRecords slot = s.frames.contiguousRecords slot) :
    DmaSound { writeHandle s name allocation with frames := frames } := by
  refine ⟨framed, ?_, ?_, sound.identifiers, ?_, sound.active, sound.activeCount, sound.cpuCount,
    sound.deviceCount⟩
  · exact (congrFun eligible 0).trans sound.grounded
  · refine sound.extents.kept fun j here => ?_
    have same := live j here
    exact ⟨same ▸ here, congrArg (·.identifier) same⟩
  · intro j here
    obtain ⟨other, backed⟩ := sound.backed j here
    have apart := backed.ne_of_free here free
    refine ⟨other, backed.carried rfl (update_of_ne apart _ s.handles) ?_⟩
    intro slot extent
    exact kept slot (congrArg (·.active) extent)

theorem DmaSound.edited (sound : DmaSound s) (free : s.held name = false)
    (allocation : DmaAllocation) : DmaSound (writeHandle s name allocation) :=
  sound.rewritten free allocation sound.frames rfl (fun _ _ => rfl) fun _ _ => rfl

theorem retireAllocation_record (s : DmaSystem) (name : Nat) (i j : RecordIndex)
    (allocator : FrameAllocator)
    (live : ((retireAllocation s name i allocator).records j).active) :
    j ≠ i ∧ (retireAllocation s name i allocator).records j = s.records j := by
  rw [retireAllocation] at live ⊢
  dsimp only at live ⊢
  by_cases same : j = i
  · rw [same, update_self] at live
    cases live
  · exact ⟨same, update_of_ne same _ s.records⟩

section
variable (sound : DmaSound s) (here : (s.records i).active) (backed : Backed s i name)
  (cpu : (s.records i).owner = .cpu)
  (extent : s.frames.contiguousRecords slot = (s.records i).extent)
include sound here backed cpu extent

theorem dmaRelease_ok :
    dmaRelease s (some name) =
      (.ok, retireAllocation s name i (giveContiguousRun s.frames slot)) := by
  have active : (s.handles name).active := congrArg (·.active) backed.mirrored
  have frames : (s.handles name).frames = (s.records i).frames :=
    congrArg (·.frames) backed.mirrored
  have found := sound.record_found here (congrArg (·.frames.identifier) backed.mirrored)
  have released := frameReleaseContiguous_extent sound.frames sound.extents extent
    backed.framesActive
  simp only [dmaRelease, sound.active, active, sound.valid here backed, found]
  rw [if_neg (by decide), if_neg (by decide), if_neg (not_not.mpr rfl),
    if_neg (not_not.mpr (backed.owner.trans cpu)), frames, released, if_neg (not_not.mpr rfl)]

theorem DmaSound.retired :
    DmaSound (retireAllocation s name i (giveContiguousRun s.frames slot)) := by
  have look := fun j => retireAllocation_record s name i j (giveContiguousRun s.frames slot)
  have active : activeWeight (s.records i) = 1 := if_pos here
  have owned : ownerWeight .cpu (s.records i) = 1 := if_pos ⟨here, cpu⟩
  have idle : ownerWeight .device (s.records i) = 0 := if_neg (by rw [cpu]; exact nofun)
  refine ⟨giveContiguousRun_sound sound.frames sound.extents extent backed.framesActive,
    sound.grounded, ?_, ?_, ?_, sound.active, ?_, ?_, ?_⟩
  · refine sound.extents.kept fun j live => ?_
    have same := (giveContiguousRun_live live).2
    exact ⟨same ▸ live, congrArg (·.identifier) same⟩
  · refine sound.identifiers.kept fun j live => ?_
    have same := (look j live).2
    exact ⟨same ▸ live, congrArg (·.frames.identifier) same⟩
  · intro j live
    obtain ⟨apart, record⟩ := look j live
    rw [record] at live
    obtain ⟨other, untouched⟩ := sound.backed j live
    have handles := sound.handles_apart here live backed untouched apart
    refine ⟨other, untouched.carried record (update_of_ne handles _ s.handles) ?_⟩
    intro place there
    have elsewhere : place ≠ slot := by
      rintro rfl
      rw [extent] at there
      exact apart (sound.identifiers j i live here (congrArg (·.identifier) there).symm)
    exact (giveContiguousRun_record _ _ _).trans (if_neg elsewhere)
  · refine total_moved sound.activeCount (Finset.mem_univ i) _ ?_
    rw [active]
    exact sizeSub_counted sound.activeCount active
  · refine total_moved sound.cpuCount (Finset.mem_univ i) _ ?_
    rw [owned]
    exact sizeSub_counted sound.cpuCount owned
  · refine total_moved sound.deviceCount (Finset.mem_univ i) _ ?_
    rw [idle]
    rfl

end

theorem dmaRelease_cases (sound : DmaSound s) (handle : Option Nat) :
    ((dmaRelease s handle).1 ≠ .ok ∧ (dmaRelease s handle).2 = s) ∨
      ∃ name i slot, handle = some name ∧ (s.records i).active ∧ Backed s i name ∧
        (s.records i).owner = .cpu ∧ s.frames.contiguousRecords slot = (s.records i).extent ∧
        dmaRelease s handle = (.ok, retireAllocation s name i (giveContiguousRun s.frames slot)) := by
  obtain ⟨refused, -⟩ | ⟨name, i, rfl, valid, -, here, backed, found⟩ := sound.handle_cases handle
  · left
    unfold dmaRelease
    iterate 3
      split
      · exact ⟨nofun, rfl⟩
    exact ⟨refused, rfl⟩
  by_cases cpu : (s.records i).owner = .cpu
  · obtain ⟨slot, extent⟩ := backed.extent
    exact .inr ⟨name, i, slot, rfl, here, backed, cpu, extent,
      dmaRelease_ok sound here backed cpu extent⟩
  left
  unfold dmaRelease
  dsimp only
  split
  · exact ⟨nofun, rfl⟩
  split
  · exact ⟨nofun, rfl⟩
  rw [if_neg (not_not.mpr valid), if_pos (by rw [backed.owner]; exact cpu)]
  exact ⟨nofun, rfl⟩

def grantedFrames (a : FrameAllocator) (request : DmaRequest) (first : Nat) :
    ContiguousAllocation :=
  ⟨first * sapotePageSize, request.pageCount, request.alignment, request.maximumPhysicalAddress,
    a.nextContiguousIdentifier, true⟩

/-- A run of frames is taken for a request and there is a record to enter it in. -/
structure Grants (s : DmaSystem) (request : DmaRequest) (index : RecordIndex)
    (slot : Fin contiguousAllocationCapacity) (first : Nat) : Prop where
  record : (s.records index).active = false
  extent : (s.frames.contiguousRecords slot).active = false
  positive : 0 < request.pageCount
  takes : Takes s.frames first request.pageCount (takeContiguousRun s.frames request slot first)

theorem dmaAllocate_cases (s : DmaSystem) (request : Option DmaRequest) (handle : Option Nat)
    (translate : Nat → Option DmaTranslation) :
    let result := dmaAllocate s request handle translate
    (result.1 ≠ .ok ∧ result.2 = s) ∨
      (∃ name, handle = some name ∧ result.1 ≠ .ok ∧ result.2 = writeHandle s name clearedHandle) ∨
      ∃ name asked index slot first, handle = some name ∧ request = some asked ∧
        Grants s asked index slot first ∧
        ((result.1 ≠ .ok ∧ result.2 = withdrawFrames s name (grantedFrames s.frames asked first)
            (takeContiguousRun s.frames asked slot first)) ∨
          (result.1 = .ok ∧ result.2 = grantAllocation s name index
            (grantedFrames s.frames asked first)
            (takeContiguousRun s.frames asked slot first))) := by
  intro result
  unfold result dmaAllocate
  split
  · next request name =>
    iterate 2
      split
      · exact .inr (.inl ⟨name, rfl, nofun, rfl⟩)
    next index spare =>
    have record : (s.records index).active = false := by
      have accepted := find?_some spare
      simpa using accepted
    rcases frameAllocateContiguous_cases (some request) true with
      ⟨refused, kept⟩ | ⟨asked, slot, first, same, positive, ⟨ok, -⟩, given, extent, taken, takes⟩
    · dsimp only
      split
      next accepted _ => exact absurd accepted refused
      · rw [kept]
        exact .inr (.inl ⟨name, rfl, nofun, rfl⟩)
    cases same
    dsimp only
    rw [ok, given, taken]
    refine .inr (.inr ⟨name, request, index, slot, first, rfl, rfl,
      ⟨record, extent, positive, takes⟩, ?_⟩)
    dsimp only
    split
    · exact .inl ⟨nofun, rfl⟩
    · exact .inr ⟨rfl, rfl⟩
  · exact .inl ⟨nofun, rfl⟩

section
variable {request : DmaRequest} {index : RecordIndex}
  {slot : Fin contiguousAllocationCapacity} {first : Nat}

theorem Grants.taken_sound (grants : Grants s request index slot first) (sound : DmaSound s) :
    FrameSound (takeContiguousRun s.frames request slot first) :=
  sound.frames.take_recorded grants.takes grants.positive rfl rfl

theorem Grants.new_extent :
    (takeContiguousRun s.frames request slot first).contiguousRecords slot =
      ⟨(grantedFrames s.frames request first).physicalBase,
        (grantedFrames s.frames request first).pageCount,
        (grantedFrames s.frames request first).identifier, true⟩ :=
  (takeContiguousRun_record s.frames request slot slot first).trans (if_pos rfl)

theorem DmaSound.taken_extents (sound : DmaSound s) (fresh : IdentifierFree s.frames) :
    Keyed ContiguousRecord.active ContiguousRecord.identifier
      (takeContiguousRun s.frames request slot first).contiguousRecords :=
  have look := fun i => takeContiguousRun_record s.frames request slot i first
  sound.extents.inserted (by exact fresh) look

theorem grantAllocation_record (s : DmaSystem) (name : Nat) (index j : RecordIndex)
    (frames : ContiguousAllocation) (allocator : FrameAllocator) :
    (grantAllocation s name index frames allocator).records j =
      if j = index then ⟨some name, frames, .cpu, false, true⟩ else s.records j :=
  update_apply _ _ _ _

theorem Grants.backed : Backed (grantAllocation s name index (grantedFrames s.frames request first)
      (takeContiguousRun s.frames request slot first)) index name := by
  have record := (grantAllocation_record s name index index (grantedFrames s.frames request first)
    (takeContiguousRun s.frames request slot first)).trans (if_pos rfl)
  refine ⟨?_, ?_, ?_, ?_, slot, ?_⟩
  · rw [record]
  · rw [record]
    exact update_self name _ s.handles
  · rw [record]
    rfl
  · rw [record]
    exact .inl rfl
  · rw [record]
    exact Grants.new_extent

section
variable (sound : DmaSound s) (free : s.held name = false) (fresh : IdentifierFree s.frames)
  (grants : Grants s request index slot first)
include sound free fresh grants

theorem DmaSound.withdrawn : DmaSound (withdrawFrames s name (grantedFrames s.frames request first)
      (takeContiguousRun s.frames request slot first)) := by
  have taken := grants.taken_sound sound
  have extents := @DmaSound.taken_extents s request slot first sound fresh
  have extent : (takeContiguousRun s.frames request slot first).contiguousRecords slot = _ :=
    Grants.new_extent
  have released := frameReleaseContiguous_extent taken extents extent rfl
  rw [withdrawFrames]
  rw [released]
  refine sound.rewritten free _ (giveContiguousRun_sound taken extents extent rfl) rfl ?_ ?_
  · intro place live
    obtain ⟨other, same⟩ := giveContiguousRun_live live
    rw [same, takeContiguousRun_record, if_neg other]
  · intro place live
    have other : place ≠ slot := by
      rintro rfl
      rw [grants.extent] at live
      cases live
    simp only [giveContiguousRun_record, if_neg other, takeContiguousRun_record]

theorem DmaSound.granted :
    DmaSound (grantAllocation s name index (grantedFrames s.frames request first)
      (takeContiguousRun s.frames request slot first)) := by
  have look := fun j => grantAllocation_record s name index j
    (grantedFrames s.frames request first) (takeContiguousRun s.frames request slot first)
  -- An allocation that was there keeps an identifier other than the new one.
  have old : ∀ j, (s.records j).active →
      (s.records j).frames.identifier ≠ s.frames.nextContiguousIdentifier := by
    intro j live
    obtain ⟨_, backed⟩ := sound.backed j live
    obtain ⟨place, extent⟩ := backed.extent
    have apart := fresh place (by rw [extent])
    rw [extent] at apart
    exact apart
  refine ⟨grants.taken_sound sound, ?_, sound.taken_extents fresh, ?_, ?_, sound.active, ?_, ?_, ?_⟩
  · exact (congrFun grants.takes.eligible 0).trans sound.grounded
  · exact sound.identifiers.inserted old look
  · intro j live
    by_cases here : j = index
    · subst here
      exact ⟨name, Grants.backed⟩
    have record := (look j).trans (if_neg here)
    rw [record] at live
    obtain ⟨other, backed⟩ := sound.backed j live
    have apart := backed.ne_of_free live free
    refine ⟨other, backed.carried record (update_of_ne apart _ s.handles) ?_⟩
    intro place extent
    have elsewhere : place ≠ slot := by
      rintro rfl
      exact nomatch grants.extent.symm.trans (congrArg (·.active) extent)
    exact (takeContiguousRun_record _ _ _ _ _).trans (if_neg elsewhere)
  · refine total_moved sound.activeCount (Finset.mem_univ index) _ ?_
    simp [activeWeight, grants.record, grantAllocation]
  · refine total_moved sound.cpuCount (Finset.mem_univ index) _ ?_
    simp [ownerWeight, grants.record, grantAllocation]
  · refine total_moved sound.deviceCount (Finset.mem_univ index) _ ?_
    simp [ownerWeight, grants.record, grantAllocation]

end

end

end Sapote.Dma
