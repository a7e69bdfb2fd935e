import Sapote.Paging.Identity
import Sapote.Paging.Supervisor

/-!
Building the address space of the process. The hierarchy is private and fed by the
frame allocator; whatever step fails, its tables are linked from its root, so one
walk gives all of them back and the allocated frames are those of before.
-/

namespace Sapote.Paging
open Frames Library
variable {s : TableState} {frames : FrameAllocator}

inductive ProcessSpaceState where
  | invalid | building | installed | active | released
deriving DecidableEq

structure ProcessSpace where
  (rootPhysicalAddress generation tableFrames : Nat)
  state : ProcessSpaceState
deriving DecidableEq

def zeroProcessSpace : ProcessSpace := ⟨0, 0, 0, .invalid⟩

structure ProcessSpaceRuntime where
  hierarchy : PageHierarchy
  owned : Bool
  generation : Nat
  state : ProcessSpaceState

/-- The statics the build reads and writes; `cr3` is the frame CR3 names. -/
structure ProcessPaging where
  paging : PagingState
  installedDeviceWindows : List DeviceWindow
  layout : KernelLayout
  cr3 : Nat
  runtime : ProcessSpaceRuntime
  aliasOwned : Bool
  nextGeneration : Nat

def ProcessPaging.withMemory (p : ProcessPaging) (s : TableState) : ProcessPaging :=
  { p with
    paging.liveHierarchy.tables := s.tables
    paging.liveHierarchy.frames := s.frames
    runtime.hierarchy := s.hierarchy }

def noUserBitsInTable (tables : TableMemory) : Nat → Nat → Bool
  | 0, _ => true
  | level + 1, table =>
    (List.finRange 512).all fun index =>
      let entry := tables table index
      !present entry || !userBit entry &&
        (level = 0 || huge entry || noUserBitsInTable tables level (frameOf entry))

def auditAccepts (s : TableState) : Bool :=
  let audit := auditHierarchy s
  audit.writeExecuteLeaves = 0 && audit.userLeaves = 0 &&
    noUserBitsInTable s.tables pagingLevelCount s.hierarchy.root

/-- The steps between the new root and the token, up to the one that fails. -/
def fillProcessSpace (p : ProcessPaging) (s : TableState) : RangeResult :=
  let built := buildIdentityMap p.layout p.installedDeviceWindows p.paging.patAfter s
  if built.status ≠ .ok then built
  else if validateIdentityMap p.layout p.installedDeviceWindows built.state p.paging.patAfter ≠ .ok then
    ⟨validateIdentityMap p.layout p.installedDeviceWindows built.state p.paging.patAfter, built.state⟩
  else
    let replayed := replaySupervisorIntent p.paging.supervisorIntents built.state
    if replayed.status ≠ .ok then replayed
    else if !auditAccepts replayed.state then ⟨.validationFailure, replayed.state⟩
    else replayed

def ProcessPaging.begin (p : ProcessPaging) : ProcessPaging :=
  let next := (p.nextGeneration + 1) % 2 ^ 64
  { p with
    runtime.generation := p.nextGeneration
    nextGeneration := if next = 0 then 1 else next }

def ProcessPaging.settle (p : ProcessPaging) (s : TableState) (owned : Bool)
    (state : ProcessSpaceState) : ProcessPaging :=
  { p.withMemory s with
    runtime.owned := owned
    runtime.state := state }

def finishProcessSpace (p : ProcessPaging) (filled : RangeResult) :
    PagingStatus × ProcessPaging × Option ProcessSpace :=
  if filled.status ≠ .ok then
    let gone := releaseTableTree pagingLevelCount filled.state.hierarchy.root filled.state
    (filled.status, p.begin.settle gone false .invalid, some zeroProcessSpace)
  else
    let hierarchy := filled.state.hierarchy
    (.ok, p.begin.settle filled.state true .building,
      some ⟨hierarchy.root, p.nextGeneration, hierarchy.tableFrames, .building⟩)

def pagingProcessSpaceBuild (p : ProcessPaging) (space : Option ProcessSpace) :
    PagingStatus × ProcessPaging × Option ProcessSpace :=
  match space with
  | none => (.nullArgument, p, none)
  | some _ =>
    if !p.paging.active then (.notInitialized, p, some zeroProcessSpace)
    else if p.runtime.owned || p.aliasOwned then (.processBusy, p, some zeroProcessSpace)
    else if p.cr3 ≠ p.paging.liveHierarchy.hierarchy.root then
      (.processBadState, p, some zeroProcessSpace)
    else
      let created := createRoot p.paging.liveHierarchy.tables p.paging.liveHierarchy.frames
      if created.status ≠ .ok then
        (created.status, p.withMemory created.state, some zeroProcessSpace)
      else finishProcessSpace p (fillProcessSpace p created.state)

theorem replay_edits (intents : List SupervisorMappingIntent) (sound : HierarchySound s) :
    Edits s (replaySupervisorIntent intents s).state := by
  induction intents generalizing s with
  | nil => exact .refl sound
  | cons intent intents ih =>
    have first := (mapRange_leaves sound intent.virtualAddress intent.physicalAddress
      intent.length intent.permissions (.inl rfl)).1
    rw [replaySupervisorIntent]
    split
    · exact first
    · exact first.trans (ih first.sound)

theorem fill_edits (p : ProcessPaging) (sound : HierarchySound s) :
    Edits s (fillProcessSpace p s).state := by
  have built : Edits s (buildIdentityMap p.layout p.installedDeviceWindows _ s).state :=
    callEach_edits p.paging.patAfter _ sound
  have replayed := built.trans (replay_edits p.paging.supervisorIntents built.sound)
  unfold fillProcessSpace
  dsimp only
  generalize buildIdentityMap p.layout p.installedDeviceWindows p.paging.patAfter s = r at *
  split
  · exact built
  split
  · exact built
  split
  · exact replayed
  split
  · exact replayed
  · exact replayed

section
variable {s t : TableState} {f : Nat}

/-- Edits of a private hierarchy turn no frame that is used otherwise into a table. -/
theorem Edits.used_apart (edits : Edits s t) (drawn : s.hierarchy.arenaCapacity = 0) :
    t.frames.used f ∧ f * sapotePageSize ∉ t.tableSet ↔
      s.frames.used f ∧ f * sapotePageSize ∉ s.tableSet := by
  rw [edits.used f]
  constructor
  · rintro ⟨⟨used, away⟩ | ⟨-, mine⟩, outside⟩
    · exact ⟨used, fun mine => away ⟨drawn, mine⟩⟩
    · exact absurd mine outside
  · rintro ⟨used, away⟩
    exact ⟨.inl ⟨used, fun mine => away mine.2⟩, edits.not_adopted drawn used away⟩

/-- Giving the tree back leaves the frames that were allocated before its root was. -/
theorem release_restores {tables : TableMemory} (sound : FrameSound frames)
    (created : (createRoot tables frames).status = .ok)
    (edits : Edits (createRoot tables frames).state t) :
    (releaseTableTree pagingLevelCount t.hierarchy.root t).frames.used = frames.used := by
  obtain ⟨starved, -⟩ | ⟨-, empty, drawn, before⟩ := createRoot_cases sound tables
  · rw [starved] at created
    cases created
  funext f
  rw [Bool.eq_iff_iff, ← before f]
  refine ((releaseTableTree_root edits.sound).2.2.2.2 f).trans ?_
  rw [and_iff_right (edits.arenaCapacity.trans drawn), edits.used_apart drawn, empty.mem_tableSet]

end

theorem settle_frames (p : ProcessPaging) (s : TableState) (owned : Bool)
    (state : ProcessSpaceState) :
    (p.settle s owned state).paging.liveHierarchy.frames = s.frames := rfl

theorem finish_failed {p : ProcessPaging} {filled : RangeResult} {used : Nat → Bool}
    (failed : (finishProcessSpace p filled).1 ≠ .ok)
    (restored : (releaseTableTree pagingLevelCount filled.state.hierarchy.root
      filled.state).frames.used = used) :
    (finishProcessSpace p filled).2.1.paging.liveHierarchy.frames.used = used ∧
      (finishProcessSpace p filled).2.1.runtime.owned = false ∧
      (finishProcessSpace p filled).2.2 = some zeroProcessSpace := by
  have bad : filled.status ≠ .ok := by
    intro ok
    rw [finishProcessSpace, if_neg (not_not.mpr ok)] at failed
    exact failed rfl
  rw [finishProcessSpace, if_pos bad, settle_frames]
  exact ⟨restored, rfl, rfl⟩

/-- A build that does not succeed leaves the allocated frames and the ownership of the
space as they were, and the token cleared. -/
theorem process_space_build_atomic (p : ProcessPaging) (space : Option ProcessSpace)
    (sound : FrameSound p.paging.liveHierarchy.frames)
    (failed : (pagingProcessSpaceBuild p space).1 ≠ .ok) :
    let after := (pagingProcessSpaceBuild p space).2
    after.1.paging.liveHierarchy.frames.used = p.paging.liveHierarchy.frames.used ∧
      after.1.runtime.owned = p.runtime.owned ∧
      after.2 = space.map fun _ => zeroProcessSpace := by
  cases space with
  | none => exact ⟨rfl, rfl, rfl⟩
  | some space => ?_
  revert failed
  simp only [pagingProcessSpaceBuild]
  iterate 2
    split
    · exact fun _ => ⟨rfl, rfl, rfl⟩
  rename_i idle
  rw [Bool.not_eq_true, Bool.or_eq_false_iff] at idle
  split
  · exact fun _ => ⟨rfl, rfl, rfl⟩
  obtain ⟨starved, same⟩ | ⟨ok, empty, -⟩ :=
    createRoot_cases sound p.paging.liveHierarchy.tables
  · rw [if_pos (by rw [starved]; decide)]
    exact fun _ => ⟨congrArg (·.used) same, rfl, rfl⟩
  · rw [if_neg (not_not.mpr ok), idle.1]
    exact fun failed => finish_failed failed (release_restores sound ok (fill_edits p empty.sound))

def starvedPaging : ProcessPaging where
  paging := arenaPaging
  installedDeviceWindows := []
  layout := ⟨0x200000, 0x400000, []⟩
  cr3 := arenaPaging.liveHierarchy.hierarchy.root
  runtime := ⟨⟨0, 0, 0, 0, 0, false⟩, false, 0, .invalid⟩
  aliasOwned := false
  nextGeneration := 1

/-- The last frame becomes the root, the first mapping finds none left, and the root is given
back. -/
theorem process_space_build_atomic_starved :
    let frames := starvedPaging.paging.liveHierarchy.frames
    (createRoot starvedPaging.paging.liveHierarchy.tables frames).state.frames.used 256 = true ∧
      (pagingProcessSpaceBuild starvedPaging (some zeroProcessSpace)).1 = .outOfFrames ∧
      (pagingProcessSpaceBuild starvedPaging
        (some zeroProcessSpace)).2.1.paging.liveHierarchy.frames.used 256 = false := by
  intro frames
  have failed : (pagingProcessSpaceBuild starvedPaging (some zeroProcessSpace)).1 = .outOfFrames := by
    decide +kernel
  obtain ⟨same, -⟩ := process_space_build_atomic starvedPaging (some zeroProcessSpace)
    lastFrame_sound (by rw [failed]; decide)
  refine ⟨by decide +kernel, failed, ?_⟩
  rw [same]
  decide +kernel

/-- A space that is owned stays owned when a second build is refused. -/
theorem process_space_busy_stays_owned :
    let p := { starvedPaging with runtime.owned := true }
    (pagingProcessSpaceBuild p (some zeroProcessSpace)).1 = .processBusy ∧
      (pagingProcessSpaceBuild p (some zeroProcessSpace)).2.1.runtime.owned = true :=
  ⟨rfl, rfl⟩

end Sapote.Paging
