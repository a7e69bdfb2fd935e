import Sapote.Paging.TableAccounting

/-!
`paging_map`, `paging_unmap`, `paging_protect` and `paging_translate`: the live
hierarchy together with the registry of supervisor intents that a process space
replays. What a caller sees of the live tables is the address map `view`.
-/

namespace Sapote.Paging
open Frames Library

def pagingSupervisorIntentCapacity : Nat := 8192

structure SupervisorMappingIntent where
  (virtualAddress physicalAddress length : Nat)
  permissions : Permissions
deriving DecidableEq

structure PagingState where
  liveHierarchy : TableState
  supervisorIntents : List SupervisorMappingIntent
  patAfter : Word
  tableFrames : Nat
  active : Bool

def supervisorIntentFind (intents : List SupervisorMappingIntent) (address length : Nat) :
    Option Nat :=
  intents.findIdx? fun intent => intent.virtualAddress = address ∧ intent.length = length

def supervisorIntentAdd (intents : List SupervisorMappingIntent) (intent : SupervisorMappingIntent) :
    PagingStatus × List SupervisorMappingIntent :=
  if intents.length = pagingSupervisorIntentCapacity then (.supervisorIntentFull, intents)
  else (.ok, intents ++ [intent])

def supervisorIntentRemove (intents : List SupervisorMappingIntent) (index : Nat) :
    List SupervisorMappingIntent :=
  intents.eraseIdx index

/-- `replay_supervisor_intent`, into a hierarchy of its own. -/
def replaySupervisorIntent : List SupervisorMappingIntent → TableState → RangeResult
  | [], hierarchy => ⟨.ok, hierarchy⟩
  | intent :: intents, hierarchy =>
    let mapped := mapRange hierarchy intent.virtualAddress intent.physicalAddress intent.length
      intent.permissions 1
    if mapped.status ≠ .ok then mapped else replaySupervisorIntent intents mapped.state

def PagingState.withTables (s : PagingState) (live : TableState) : PagingState :=
  { s with liveHierarchy := live, tableFrames := live.hierarchy.tableFrames }

def pagingMap (s : PagingState) (va pa length : Nat) (permissions : Permissions) :
    PagingStatus × PagingState :=
  if !s.active then (.notInitialized, s)
  else
    let mapped := mapRange s.liveHierarchy va pa length permissions 1
    if mapped.status ≠ .ok then (mapped.status, s.withTables mapped.state)
    else
      let (status, intents) := supervisorIntentAdd s.supervisorIntents ⟨va, pa, length, permissions⟩
      if status ≠ .ok then
        (status, s.withTables (unmapRange mapped.state va length).state)
      else (.ok, { s.withTables mapped.state with supervisorIntents := intents })

def pagingUnmap (s : PagingState) (va length : Nat) : PagingStatus × PagingState :=
  if !s.active then (.notInitialized, s)
  else
    let intent := supervisorIntentFind s.supervisorIntents va length
    let unmapped := unmapRange s.liveHierarchy va length
    let intents :=
      match unmapped.status, intent with
      | .ok, some index => supervisorIntentRemove s.supervisorIntents index
      | _, _ => s.supervisorIntents
    (unmapped.status, { s.withTables unmapped.state with supervisorIntents := intents })

/-- `paging_protect`; it leaves the reported table count alone. -/
def pagingProtect (s : PagingState) (va length : Nat) (permissions : Permissions) :
    PagingStatus × PagingState :=
  let intent := supervisorIntentFind s.supervisorIntents va length
  if !s.active then (.notInitialized, s)
  else
    let changed := protectRange s.liveHierarchy va length permissions s.patAfter
    let intents :=
      match changed.status, intent with
      | .ok, some index => s.supervisorIntents.modify index ({ · with permissions := permissions })
      | _, _ => s.supervisorIntents
    (changed.status, { s with liveHierarchy := changed.state, supervisorIntents := intents })

def pagingTranslate (s : PagingState) (va : Nat) : PagingStatus × PagingTranslation :=
  if !s.active then (.notInitialized, emptyTranslation)
  else translateAddress s.liveHierarchy va s.patAfter

def PagingState.view (s : PagingState) : AddressMap := fun x =>
  let (status, translation) := translateAddress s.liveHierarchy x s.patAfter
  if status = .ok then some translation else none

structure PagingSound (s : PagingState) : Prop where
  hierarchy : HierarchySound s.liveHierarchy
  requested : Requested s.liveHierarchy
  layout : PatLayout s.patAfter
  active : s.active

/-- A call of `paging.c` as its callers see it: the subsystem stays sound, the
memory a frame may be taken from stays the same, and the map becomes `m`. -/
structure Remaps (s t : PagingState) (m : AddressMap) : Prop where
  sound : PagingSound t
  eligible : t.liveHierarchy.frames.eligible = s.liveHierarchy.frames.eligible
  view : ∀ x, addressIsCanonical x → t.view x = m x

theorem update_refused (m : AddressMap) (op : RangeOp) {status : PagingStatus}
    (refused : status ≠ .ok) : m.update op status = m :=
  if_pos refused

theorem update_map (m : AddressMap) (va pa length : Nat) (permissions : Permissions) (x : Nat) :
    m.update (.map va pa length permissions false) .ok x =
      if va ≤ x ∧ x < va + length then
        some ⟨pa + (x - va), permissions, requestedType permissions, 1, false⟩
      else m x :=
  rfl

theorem update_unmap (m : AddressMap) (va length x : Nat) :
    m.update (.unmap va length) .ok x = if va ≤ x ∧ x < va + length then none else m x :=
  rfl

section
variable {s t : PagingState}

/-- An address shows the requested leaf on its path, or there is none. -/
theorem translateAddress_cases (sound : PagingSound s) {x : Nat}
    (canonical : addressIsCanonical x) :
    (∃ pa permissions level, LeafRequest pa permissions level ∧
      (∃ e, s.liveHierarchy.leaf (pathTo x (5 - level)) = some e) ∧
      translateAddress s.liveHierarchy x s.patAfter = (.ok,
        ⟨pa + x % levelPageSize level, permissions, requestedType permissions, level, false⟩)) ∨
    translateAddress s.liveHierarchy x s.patAfter = (.notMapped, emptyTranslation) := by
  obtain ⟨d, e, deep, leaf⟩ | none := leaf_cases s.liveHierarchy x
  · obtain ⟨pa, permissions, level, length, rfl, request⟩ := sound.requested _ _ leaf
    rw [length_pathTo] at length
    rw [length] at leaf
    exact .inl ⟨pa, permissions, level, request, ⟨_, leaf⟩,
      translate_requested sound.hierarchy sound.layout canonical request leaf⟩
  · exact .inr (translateAddress_unmapped sound.hierarchy s.patAfter canonical none)

theorem translateAddress_view (sound : PagingSound s) {x : Nat}
    (canonical : addressIsCanonical x) :
    translateAddress s.liveHierarchy x s.patAfter = reported (s.view x) := by
  rw [PagingState.view]
  obtain ⟨pa, permissions, level, -, -, found⟩ | none := translateAddress_cases sound canonical
  · rw [found]
    rfl
  · rw [none]
    rfl

theorem pagingTranslate_view (sound : PagingSound s) {x : Nat}
    (canonical : addressIsCanonical x) : pagingTranslate s x = reported (s.view x) := by
  rw [pagingTranslate, sound.active]
  exact translateAddress_view sound canonical

theorem reported_inj {a b : Option PagingTranslation} (same : reported a = reported b) : a = b := by
  cases a with
  | none =>
    cases b with
    | none => rfl
    | some v => cases (Prod.mk.inj same).1
  | some u =>
    cases b with
    | none => cases (Prod.mk.inj same).1
    | some v => rw [(Prod.mk.inj same).2]

section
variable (sound : PagingSound s)
include sound

/-- One range operation on the live tables, followed by bookkeeping. -/
theorem remaps_of_step (op : RangeOp)
    (tables : t.liveHierarchy = (rangeStep s.patAfter s.liveHierarchy op).state)
    (pat : t.patAfter = s.patAfter) (active : t.active = s.active) :
    Remaps s t (s.view.update op (rangeStep s.patAfter s.liveHierarchy op).status) := by
  have edits := rangeStep_edits s.patAfter sound.hierarchy op
  have agrees := fun x => @translateAddress_view s sound x
  have after : PagingSound t := by
    refine ⟨?_, ?_, ?_, active.trans sound.active⟩
    · rw [tables]
      exact edits.sound
    · rw [tables]
      exact requested_step sound.hierarchy sound.requested op
    · rw [pat]
      exact sound.layout
  refine ⟨after, ?_, ?_⟩
  · rw [tables]
    exact edits.eligible
  · intro x canonical
    apply reported_inj
    rw [← translateAddress_view after canonical, tables, pat]
    exact rangeStep_translates sound.hierarchy sound.requested sound.layout _ agrees op canonical

/-- A page that the view shows as a 4 KiB page has its leaf at the bottom. -/
theorem leaf_of_view {x : Nat} (canonical : addressIsCanonical x)
    {translation : PagingTranslation} (shown : s.view x = some translation)
    (small : translation.level = 1) : ∃ e, s.liveHierarchy.leaf (pathTo x 4) = some e := by
  have walked := translateAddress_view sound canonical
  rw [shown] at walked
  obtain ⟨pa, permissions, level, -, leaf, found⟩ | none := translateAddress_cases sound canonical
  · cases found.symm.trans walked
    cases small
    exact leaf
  · cases none.symm.trans walked

/-- `unmap_range` takes any range that the view shows mapped by 4 KiB pages. -/
theorem unmapRange_ok_of_view {va length : Nat}
    (range : validateVirtualRange va length pagingPageSize = .ok)
    (mapped : ∀ x, va ≤ x → x < va + length → addressIsCanonical x ∧
      ∃ translation, s.view x = some translation ∧ translation.level = 1) :
    (unmapRange s.liveHierarchy va length).status = .ok := by
  have admitted : unmapAdmission s.liveHierarchy va length = .ok := by
    rw [unmapAdmission, if_neg (not_not.mpr range)]
    apply requireMappedRange_of
    intro o member
    obtain ⟨i, small, rfl⟩ := List.mem_map.mp member
    have inside : i * pagingPageSize < length := by
      have whole := (validateVirtualRange_ok range).2.2.1
      have count := List.mem_range.mp small
      unfold pagingPageSize at whole count ⊢
      omega
    obtain ⟨canonical, translation, shown, level⟩ :=
      mapped (va + i * pagingPageSize) (Nat.le_add_right _ _) (by omega)
    exact leaf_of_view sound canonical shown level
  rw [unmapRange, if_neg (not_not.mpr admitted)]

/-- What `map_range` accepts: a range of canonical addresses, none of them mapped. -/
theorem mapRange_ok_unmapped {va pa length : Nat} {permissions : Permissions}
    (ok : (mapRange s.liveHierarchy va pa length permissions 1).status = .ok) :
    validateVirtualRange va length pagingPageSize = .ok ∧
      pa + length ≤ pagePhysicalLimit ∧
      ∀ x, va ≤ x → x < va + length → addressIsCanonical x ∧ s.view x = none := by
  have sized : 1 = 1 ∨ 1 = 2 := .inl rfl
  have passed : mapAdmission s.liveHierarchy va pa length permissions 1 = .ok := by
    by_contra refused
    rw [mapRange_refused refused] at ok
    exact refused ok
  have checks := mapAdmission_ok passed
  have physical := (validatePhysicalRange_ok checks.2.2.1).2
  refine ⟨checks.2.1, physical, ?_⟩
  intro x low high
  obtain ⟨edits, outcome⟩ := mapRange_leaves sound.hierarchy va pa length permissions sized
  obtain ⟨-, n, shape, request, leaves⟩ := outcome.resolve_left fun failed => failed.1 ok
  have canonical : addressIsCanonical x := request.canonical x low (by rw [← shape]; exact high)
  refine ⟨canonical, ?_⟩
  have inside := (mem_range_iff sized request.aligned request.canonical canonical).mp
    ⟨low, by rw [← shape]; exact high⟩
  obtain ⟨i, small, path⟩ := inside
  apply reported_inj
  rw [← translateAddress_view sound canonical]
  apply translateAddress_unmapped sound.hierarchy s.patAfter canonical
  intro d _
  apply Option.eq_none_iff_forall_ne_some.mpr
  intro e old
  -- An old leaf on the path would stand beside the new one in the mapped tables.
  have new := (leaves _ _).mpr (.inl ⟨i, small, rfl⟩)
  rw [← path] at new
  have same := (leaf_unique ((leaves _ _).mpr (.inr old)) new).1
  rw [same] at old
  have vacant := (request.free i small).vacant.no_leaf
  rw [show pathTo (pageAt va 1 i) (5 - 1) = slotAt va 1 i from rfl, ← path] at vacant
  rw [show pathTo x (5 - 1) = pathTo x (3 + 1) from rfl, old] at vacant
  cases vacant

end

theorem pagingMap_remaps (sound : PagingSound s) (va pa length : Nat) (permissions : Permissions) :
    Remaps s (pagingMap s va pa length permissions).2
      (s.view.update (.map va pa length permissions false)
        (pagingMap s va pa length permissions).1) := by
  have step := fun t => @remaps_of_step s t sound (.map va pa length permissions false)
  rw [pagingMap, sound.active, if_neg (by decide)]
  dsimp only
  split
  next => exact step _ rfl rfl rfl
  next ok =>
  have done := step { s.withTables (mapRange s.liveHierarchy va pa length permissions 1).state with
    supervisorIntents := s.supervisorIntents ++ [⟨va, pa, length, permissions⟩] } rfl rfl rfl
  rw [show (rangeStep s.patAfter s.liveHierarchy (.map va pa length permissions false)).status = .ok
    from not_not.mp ok] at done
  rw [supervisorIntentAdd]
  split
  swap
  · exact done
  next full =>
  -- The range was free before the call, so unmapping it again restores the view.
  obtain ⟨range, -, unmapped⟩ := mapRange_ok_unmapped sound (not_not.mp ok)
  dsimp only
  rw [if_pos (by decide)]
  have undo := @remaps_of_step _ (s.withTables (unmapRange
      (mapRange s.liveHierarchy va pa length permissions 1).state va length).state) done.sound
    (.unmap va length) rfl rfl rfl
  have taken := unmapRange_ok_of_view done.sound range fun x low high =>
    ⟨(unmapped x low high).1, ⟨pa + (x - va), permissions, requestedType permissions, 1, false⟩, by
      rw [done.view x (unmapped x low high).1, update_map, if_pos ⟨low, high⟩], rfl⟩
  rw [show (rangeStep _ _ (.unmap va length)).status = .ok from taken] at undo
  refine ⟨undo.sound, undo.eligible.trans done.eligible, ?_⟩
  intro x canonical
  have full : PagingStatus.supervisorIntentFull ≠ .ok := by decide
  rw [undo.view x canonical, update_unmap, update_refused _ _ full]
  by_cases mine : va ≤ x ∧ x < va + length
  · rw [if_pos mine]
    exact (unmapped x mine.1 mine.2).2.symm
  · simp only [if_neg mine, done.view x canonical, update_map]

/-- What an accepted `paging_map` says about its range. -/
theorem pagingMap_ok (sound : PagingSound s) {va pa length : Nat} {permissions : Permissions}
    (ok : (pagingMap s va pa length permissions).1 = .ok) :
    validateVirtualRange va length pagingPageSize = .ok ∧ pa + length ≤ pagePhysicalLimit ∧
      ∀ x, va ≤ x → x < va + length → addressIsCanonical x ∧ s.view x = none := by
  apply @mapRange_ok_unmapped s sound va pa length permissions
  rw [pagingMap, sound.active, if_neg (by decide)] at ok
  by_contra refused
  rw [if_pos refused] at ok
  exact refused ok

theorem Remaps.refl (sound : PagingSound s) : Remaps s s s.view :=
  ⟨sound, rfl, fun _ _ => rfl⟩

theorem pagingUnmap_status (active : s.active) (va length : Nat) :
    (pagingUnmap s va length).1 = (unmapRange s.liveHierarchy va length).status := by
  rw [pagingUnmap, active]
  rfl

theorem pagingUnmap_remaps (sound : PagingSound s) (va length : Nat) :
    Remaps s (pagingUnmap s va length).2
      (s.view.update (.unmap va length) (pagingUnmap s va length).1) := by
  have step := fun t => @remaps_of_step s t sound (.unmap va length)
  rw [pagingUnmap_status sound.active, pagingUnmap, sound.active]
  exact step _ rfl rfl rfl

theorem pagingProtect_remaps (sound : PagingSound s) (va length : Nat) (permissions : Permissions) :
    Remaps s (pagingProtect s va length permissions).2
      (s.view.update (.protect va length permissions) (pagingProtect s va length permissions).1) := by
  have step := fun t => @remaps_of_step s t sound (.protect va length permissions)
  rw [pagingProtect, if_neg (by rw [sound.active]; decide)]
  exact step _ rfl rfl rfl

end

/-- One frame is free, and no other is the allocator's. -/
def lastFrame : FrameAllocator where
  eligibleBitmap := bitmapSet (bitmapFill 0) 256 true
  usedBitmap := bitmapSet (bitmapFill 0xFF) 256 false
  stats := ⟨frameCount, 1, 1, 0, frameCount - 1, 257 * sapotePageSize⟩
  nextSearchIndex := 256
  initialized := true
  contiguousRecords := fun _ => ⟨0, 0, 0, false⟩
  nextContiguousIdentifier := 1

theorem lastFrame_eligible : lastFrame.eligible = fun f => decide (f = 256) := by
  funext f
  refine (bitmapGet_bitmapSet _ 256 f true).trans ?_
  rw [bitmapGet_bitmapFill_zero]
  simp

theorem lastFrame_used : lastFrame.used = fun f => !decide (f = 256) := by
  funext f
  refine (bitmapGet_bitmapSet _ 256 f false).trans ?_
  rw [bitmapGet_bitmapFill_ones]
  simp

/-- What a recount over any number of frames past the free one finds. -/
theorem lastFrame_recounted (n : Nat) : recountedBelow lastFrame (257 + n) =
    ⟨frameCount, 1, 1, 0, 256 + n, 257 * sapotePageSize⟩ := by
  have free : lastFrame.free = fun f => decide (f = 256) := by
    funext f
    simp [FrameAllocator.free, lastFrame_eligible, lastFrame_used]
  have one : population (fun f => decide (f = 256)) (257 + n) = 1 := by
    rw [population, Nat.count_eq_card_filter_range]
    simp only [decide_eq_true_eq, Finset.filter_eq', Finset.mem_range]
    rw [if_pos (by omega), Finset.card_singleton]
  have none : population (fun f => decide (f = 256) && !decide (f = 256)) (257 + n) = 0 :=
    population_eq_zero.mpr fun f _ => Bool.and_not_self _
  have others := population_add_compl (fun f => decide (f = 256)) (257 + n)
  have highest : highestEligible (fun f => decide (f = 256)) (257 + n) = 257 * sapotePageSize := by
    clear one none others
    induction n with
    | zero => rw [highestEligible, if_pos (by decide)]
    | succ n ih => rw [← add_assoc, highestEligible, if_neg (by simp; omega), ih]
  rw [recountedBelow_eq, free, lastFrame_eligible, lastFrame_used, one, none, highest,
    show population (fun f => !decide (f = 256)) (257 + n) = 256 + n by omega]

theorem lastFrame_counted : lastFrame.stats = recountedStats lastFrame := by
  obtain ⟨n, total⟩ := Nat.exists_eq_add_of_le (by decide : 257 ≤ frameCount)
  rw [recountedStats, total, lastFrame_recounted, lastFrame, total]
  simp

theorem lastFrame_sound : FrameSound lastFrame := by
  constructor
  case initialized => rfl
  case counted => exact lastFrame_counted
  case ineligible_used =>
    intro f
    rw [lastFrame_eligible, lastFrame_used]
    exact congrArg (!·)
  case eligible_bound =>
    intro f eligible
    rw [lastFrame_eligible, decide_eq_true_eq] at eligible
    rw [eligible]
    decide
  case record_base => nofun
  case record_held => nofun
  case record_unique => nofun
  case cursor => decide

def arenaPaging : PagingState where
  liveHierarchy := arenaState lastFrame
  supervisorIntents := []
  patAfter := pagingTestPat
  tableFrames := 1
  active := true

theorem arenaPaging_sound : PagingSound arenaPaging := by
  have empty := arenaState_empty lastFrame_sound
  refine ⟨empty.sound, ?_, pagingTestPat_layout, rfl⟩
  intro q e leaf
  rw [show arenaPaging.liveHierarchy.leaf q = none from empty.no_leaf q] at leaf
  cases leaf

end Sapote.Paging
