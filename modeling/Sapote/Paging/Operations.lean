import Sapote.Paging.Ranges

/-!
One case lemma for each of `map_range`, `unmap_range` and `protect_range`. A
refusal by the checks changes nothing; past the checks the range is canonical
throughout, so its pages have different slots.
-/

namespace Sapote.Paging
open Frames Library List
variable {s : TableState} {va level length pa n pageSize i : Nat} {permissions : Permissions}

theorem validateVirtualRange_ok (ok : validateVirtualRange va length pageSize = .ok) :
    0 < length ∧ va % pageSize = 0 ∧ length % pageSize = 0 ∧ addressIsCanonical va ∧
      va + length ≤ uint64Max ∧ addressIsCanonical (va + length - 1) := by
  unfold validateVirtualRange at ok
  split at ok
  · cases ok
  split at ok
  · cases ok
  next aligned =>
  split at ok
  · cases ok
  next first =>
  split at ok
  · cases ok
  split at ok
  · cases ok
  next last =>
  simp only [not_or, not_not] at aligned
  rw [Bool.not_eq_true, Bool.not_eq_false'] at first last
  exact ⟨by omega, aligned.1, aligned.2, first, by omega, last⟩

/-- Both ends of the range are canonical, but the hole lies between them. -/
def Straddles (va length pageSize : Nat) : Prop :=
  va % pageSize = 0 ∧ length % pageSize = 0 ∧ va < 2 ^ 47 ∧ 2 ^ 64 - 2 ^ 47 < va + length ∧
    va + length < 2 ^ 64

/-- Accepted ranges are canonical throughout, and their pages have different entries, unless
they straddle the hole. -/
theorem accepted_range_canonical_iff (va length : Nat) (large : Bool) :
    let level := if large then 2 else 1
    (validateVirtualRange va length (levelPageSize level) = .ok →
      va + length < 2 ^ 64 ∧ (∀ x, va ≤ x → x < va + length → addressIsCanonical x = true) ∧
      ∀ x y, va ≤ x → x < va + length → va ≤ y → y < va + length →
        x / levelPageSize level ≠ y / levelPageSize level →
        ∃ k, level ≤ k ∧ k ≤ 4 ∧ tableIndex x k ≠ tableIndex y k) ↔
    ¬Straddles va length (levelPageSize level) := by
  intro level
  have sized : level = 1 ∨ level = 2 := by cases large <;> simp [level]
  constructor
  · rintro property ⟨start, whole, low, high, fits⟩
    have accepted : validateVirtualRange va length (levelPageSize level) = .ok := by
      have first : addressIsCanonical va = true := by simp [addressIsCanonical]; omega
      have last : addressIsCanonical (va + length - 1) = true := by simp [addressIsCanonical]; omega
      rw [validateVirtualRange, if_neg (by omega), if_neg (by simp [start, whole]),
        if_neg (by simp [first]), if_neg (by rw [uint64Max]; omega), if_neg (by simp [last])]
    have hole := (property accepted).2.1 (2 ^ 47) (by omega) (by omega)
    revert hole
    decide
  · intro apart accepted
    obtain ⟨positive, start, whole, first, fits, last⟩ := validateVirtualRange_ok accepted
    rw [uint64Max] at fits
    have inside : ∀ x, va ≤ x → x < va + length → addressIsCanonical x = true := by
      intro x from_va before
      have lower := canonical_cases first
      have upper := canonical_cases last
      have together : ¬(va < 2 ^ 47 ∧ 2 ^ 64 - 2 ^ 47 < va + length) := fun spans =>
        apart ⟨start, whole, spans.1, spans.2, by omega⟩
      simp only [addressIsCanonical, Bool.or_eq_true, decide_eq_true_eq]
      omega
    refine ⟨by omega, inside, fun x y fromX beforeX fromY beforeY different => ?_⟩
    by_contra agree
    push Not at agree
    exact different ((pathTo_eq_iff (by omega) (inside x fromX beforeX) (inside y fromY beforeY)).mp
      (spine_congr fun j small => agree (4 - j) (by omega) (by omega)))

/-- A range over the hole is accepted. -/
theorem accepted_range_spans_hole :
    validateVirtualRange 0x7FFFFFFFF000 0xFFFF000000002000 (levelPageSize 1) = .ok ∧
      0x7FFFFFFFF000 ≤ 0x800000000000 ∧
      0x800000000000 < 0x7FFFFFFFF000 + 0xFFFF000000002000 ∧
      addressIsCanonical 0x800000000000 = false := by
  decide

theorem validatePhysicalRange_ok (ok : validatePhysicalRange pa length pageSize = .ok) :
    pa % pageSize = 0 ∧ pa + length ≤ pagePhysicalLimit := by
  unfold validatePhysicalRange at ok
  split at ok
  · cases ok
  next aligned =>
  split at ok
  · cases ok
  split at ok
  · cases ok
  next narrow => exact ⟨not_not.mp aligned, by omega⟩

theorem mem_rangeOffsets (positive : 0 < pageSize) (small : i < n) :
    i * pageSize ∈ rangeOffsets (n * pageSize) pageSize := by
  rw [rangeOffsets_mul positive]
  exact mem_map_of_mem (mem_range.mpr small)

theorem mapAdmission_ok (ok : mapAdmission s va pa length permissions level = .ok) :
    validatePermissions permissions = .ok ∧
      validateVirtualRange va length (levelPageSize level) = .ok ∧
      validatePhysicalRange pa length (levelPageSize level) = .ok ∧
      requireUnmapped s va level (rangeOffsets length (levelPageSize level)) = .ok := by
  simpa only [mapAdmission, guard_eq_iff] using ok

theorem mapRange_refused (refused : mapAdmission s va pa length permissions level ≠ .ok) :
    mapRange s va pa length permissions level =
      ⟨mapAdmission s va pa length permissions level, s⟩ := if_pos refused

/-- Past the checks and the first pass. -/
theorem mapRange_admitted (sound : HierarchySound s) (sized : level = 1 ∨ level = 2)
    (ok : mapAdmission s va pa length permissions level = .ok) :
    ∃ n, length = n * levelPageSize level ∧ MapRequest s va pa permissions level n ∧
      mapRange s va pa length permissions level =
        mapPages va pa permissions level ((List.range' 0 n).map (· * levelPageSize level)) s := by
  obtain ⟨permitted, range, physical, unmapped⟩ := mapAdmission_ok ok
  obtain ⟨-, aligned, whole, first, fits, last⟩ := validateVirtualRange_ok range
  obtain ⟨paAligned, narrow⟩ := validatePhysicalRange_ok physical
  have sizePos := levelPageSize_pos level
  obtain ⟨n, rfl⟩ := exists_eq_mul_left_of_dvd (Nat.dvd_of_mod_eq_zero whole)
  refine ⟨n, rfl, ⟨sound, sized, ?_, ?_, ?_, aligned⟩, ?_⟩
  · intro i small
    refine ⟨sized, ?_, ?_, permitted⟩
    · rw [Nat.add_mul_mod_self_right]
      exact paAligned
    · obtain ⟨-, high⟩ := @pageAt_mem pa level _ _ small
      unfold pageAt at high
      omega
  · intro i small
    exact requireUnmapped_ok sound sized unmapped _ (mem_rangeOffsets sizePos small)
  · intro x low high
    refine canonical_between first last ?_ low high
    unfold pagePhysicalLimit at narrow
    omega
  · rw [mapRange, if_neg (not_not.mpr ok), rangeOffsets_mul sizePos, range_eq_range']

theorem mapRange_cases (sound : HierarchySound s) (va pa length : Nat) (permissions : Permissions)
    (sized : level = 1 ∨ level = 2) :
    let result := mapRange s va pa length permissions level
    let admission := mapAdmission s va pa length permissions level
    (admission ≠ .ok ∧ result = ⟨admission, s⟩) ∨
      admission = .ok ∧ ∃ n, length = n * levelPageSize level ∧ MapRequest s va pa permissions level n ∧
        ((result.status = .ok ∧
            Grows s result.state (needed s va level n)
              (requestLeaves va pa permissions level n)) ∨
          ∃ j m f, j < n ∧ Starved s f va pa permissions level j m ∧
            result = ⟨.outOfFrames, clearRange f va (j * levelPageSize level) level⟩) := by
  intro result admission
  by_cases ok : admission = .ok
  swap
  · exact .inl ⟨ok, mapRange_refused ok⟩
  obtain ⟨n, shape, request, same⟩ := mapRange_admitted sound sized ok
  refine .inr ⟨ok, n, shape, request, ?_⟩
  rw [show result = _ from same]
  apply mapPages_cases request n 0 (zero_add n)
  have noTables : needed s va level 0 = ∅ := by simp [needed]
  have noLeaves : requestLeaves va pa permissions level 0 = ∅ := by simp [requestLeaves]
  rw [noTables, noLeaves]
  exact .refl sound

structure MappedRange (s : TableState) (va n : Nat) : Prop where
  mapped : ∀ i, i < n → ∃ e, s.leaf (slotAt va 1 i) = some e
  canonical : ∀ x, va ≤ x → x < va + n * levelPageSize 1 → addressIsCanonical x
  aligned : va % levelPageSize 1 = 0

theorem MappedRange.distinct (range : MappedRange s va n) {j : Nat} (hi : i < n) (hj : j < n)
    (same : slotAt va 1 i = slotAt va 1 j) : i = j := by
  have inside : ∀ {k}, k < n → addressIsCanonical (pageAt va 1 k) := by
    intro k small
    obtain ⟨low, high⟩ := @pageAt_mem va 1 _ _ small
    have := levelPageSize_pos 1
    exact range.canonical _ low (by omega)
  have pages := (pathTo_eq_iff (by omega) (inside hi) (inside hj)).mp same
  simp only [pageAt_div] at pages
  omega

section
variable (sound : HierarchySound s)
include sound

/-- A range that spans the canonical hole would need more page tables than the
identity window has frames. -/
theorem mapped_short
    (mapped : ∀ i, i < n → ∃ e, s.leaf (slotAt va 1 i) = some e) : n * 4096 ≤ 2 ^ 63 := by
  by_contra long
  -- One page in each of the first 2^20 + 1 page tables of the range.
  have paths : ∀ k : Fin (2 ^ 20 + 1), s.node (pathTo (pageAt va 1 (k.val * 512)) 3) ≠ none := by
    intro k
    obtain ⟨e, leaf⟩ := mapped (k.val * 512) (by have := k.isLt; omega)
    have slot := (leaf_pathTo.mp leaf).1
    exact parent_of_cell slot
  refine sound.paths_bounded (fun k => pathTo (pageAt va 1 (k.val * 512)) 3) ?_ paths
  intro k k' same
  have key : ∀ j, j < 3 → (vaKey (pageAt va 1 (k.val * 512)) j).val =
      (vaKey (pageAt va 1 (k'.val * 512)) j).val :=
    fun j small => congrArg Fin.val (spine_inj same j small)
  have index : ∀ x j, (vaKey x j).val = x / 2 ^ (12 + 9 * (4 - j - 1)) % 512 := fun _ _ => rfl
  have k0 := key 0 (by omega)
  have k1 := key 1 (by omega)
  have k2 := key 2 (by omega)
  simp only [index, pageAt, levelPageSize_one] at k0 k1 k2
  apply Fin.ext
  omega

theorem mappedRange_of (range : validateVirtualRange va length pagingPageSize = .ok)
    (mapped : requireMappedRange s va (rangeOffsets length pagingPageSize) = .ok) :
    ∃ n, length = n * levelPageSize 1 ∧ MappedRange s va n := by
  obtain ⟨-, aligned, whole, first, fits, last⟩ := validateVirtualRange_ok range
  obtain ⟨n, rfl⟩ := exists_eq_mul_left_of_dvd (Nat.dvd_of_mod_eq_zero whole)
  have leaves : ∀ i, i < n → ∃ e, s.leaf (slotAt va 1 i) = some e :=
    fun i small => requireMappedRange_ok mapped _ (mem_rangeOffsets (levelPageSize_pos 1) small)
  have short := mapped_short sound leaves
  refine ⟨n, rfl, leaves, ?_, aligned⟩
  intro x low high
  refine canonical_between first last ?_ low high
  exact short

theorem unmapRange_cases (va length : Nat) :
    (unmapAdmission s va length ≠ .ok ∧
        unmapRange s va length = ⟨unmapAdmission s va length, s⟩) ∨
      ∃ n, length = n * levelPageSize 1 ∧ MappedRange s va n ∧
        unmapRange s va length = ⟨.ok, clearRange s va (n * levelPageSize 1) 1⟩ := by
  by_cases ok : unmapAdmission s va length = .ok
  swap
  · exact .inl ⟨ok, if_pos ok⟩
  have result : unmapRange s va length = ⟨.ok, clearRange s va length 1⟩ :=
    if_neg (not_not.mpr ok)
  rw [unmapAdmission, guard_eq_iff] at ok
  obtain ⟨n, rfl, mapped⟩ := mappedRange_of sound ok.1 ok.2
  exact .inr ⟨n, rfl, mapped, result⟩

end

theorem applyPermissions_succ (s : TableState) (va k : Nat) (permissions : Permissions) :
    applyPermissions s va ((k + 1) * levelPageSize 1) permissions =
      applyPage permissions (applyPermissions s va (k * levelPageSize 1) permissions)
        (pageAt va 1 k) := by
  simp only [applyPermissions, show pagingPageSize = levelPageSize 1 by decide,
    rangeOffsets_mul (levelPageSize_pos 1), range_succ, map_append, foldl_append]
  rfl

def reprotected (permissions : Permissions) (entry : Word) : Word :=
  (entry &&& pageFrameMask) ||| permissionsToFlags permissions

theorem present_reprotected (permissions : Permissions) (entry : Word) :
    present (reprotected permissions entry) := by
  obtain ⟨-, b0, -⟩ := permissionsToFlags_bits permissions
  rw [present_eq, reprotected, BitVec.getLsbD_or, b0, Bool.or_true]

theorem pageView_bottom (entry : Word) : (pageView 3 entry).child = none := by
  cases there : present entry with
  | false => exact pageView_child_absent there
  | true =>
    rw [pageView_leaf there (.inl (le_refl 3))]
    rfl

theorem applyPage_cases (sound : HierarchySound s) (va : Nat) (permissions : Permissions) :
    (s.leaf (pathTo va 4) = none ∧ applyPage permissions s va = s) ∨
      ∃ e, s.cell (pathTo va 4) = some e ∧
        Rewritten s (applyPage permissions s va) (pathTo va 4) (reprotected permissions e) := by
  rw [applyPage]
  cases here : s.node (pathTo va 3) with
  | none =>
    rw [if_pos (entryFor_missing (le_refl 1) (by omega) here)]
    exact .inl ⟨(vacant_of_missing here).no_leaf, rfl⟩
  | some a =>
    rw [entryFor_node (le_refl 1) (by omega) here, if_neg (by simp)]
    refine .inr ⟨s.tables a (tableIndex va 1), ?_, ?_⟩
    · rw [pathTo_succ]
      exact cell_cons_of here
    · have written := rewritten_of sound (.inl rfl) here (node_four va)
        (e := reprotected permissions (s.tables a (tableIndex va 1))) (pageView_bottom _)
        (fun gone => by rw [present_reprotected] at gone; cases gone)
      exact written

/-- The effect of `apply_permissions` on the first `k` pages of a range. -/
structure Reprotected (s t : TableState) (va : Nat) (permissions : Permissions) (k : Nat) : Prop where
  edits : Edits s t
  node : ∀ q, t.node q = s.node q
  leaf_new : ∀ i, i < k → ∀ e, s.leaf (slotAt va 1 i) = some e →
    t.leaf (slotAt va 1 i) = some (reprotected permissions e)
  leaf_kept : ∀ q, (∀ i, i < k → q ≠ slotAt va 1 i) → t.leaf q = s.leaf q

theorem applyPermissions_reprotected (sound : HierarchySound s) (range : MappedRange s va n)
    (permissions : Permissions) (k : Nat) (bound : k ≤ n) :
    Reprotected s (applyPermissions s va (k * levelPageSize 1) permissions) va permissions k := by
  induction k with
  | zero =>
    exact ⟨Edits.refl sound, fun _ => rfl, fun i small => absurd small (Nat.not_lt_zero i),
      fun _ _ => rfl⟩
  | succ k ih =>
    have before := ih (by omega)
    rw [applyPermissions_succ]
    have fresh : ∀ i, i < k → slotAt va 1 k ≠ slotAt va 1 i := by
      intro i small same
      have := range.distinct (by omega) (by omega) same
      omega
    obtain ⟨e, mapped⟩ := range.mapped k (by omega)
    have kept := before.leaf_kept _ fresh
    rw [mapped] at kept
    obtain unmapped | ⟨e', slot, written⟩ :=
      applyPage_cases before.edits.sound (pageAt va 1 k) permissions
    · rw [show slotAt va 1 k = pathTo (pageAt va 1 k) 4 from rfl, unmapped.1] at kept
      cases kept
    have same : e' = e :=
      Option.some.inj (slot.symm.trans (leaf_eq_some.mp kept).1)
    rw [same] at written
    have leaf : ∀ q, (applyPage permissions
        (applyPermissions s va (k * levelPageSize 1) permissions) (pageAt va 1 k)).leaf q =
        if q = slotAt va 1 k then some (reprotected permissions e)
        else (applyPermissions s va (k * levelPageSize 1) permissions).leaf q := by
      intro q
      have view := pageView_leaf (present_reprotected permissions e) (.inl (le_refl 3))
      refine (written.leaf q).trans ?_
      rw [length_pathTo, Option.filter_some, view]
      rfl
    refine ⟨before.edits.trans written.edits, ?_, ?_, ?_⟩
    · intro q
      rw [written.node, before.node]
    · intro i small e'' old
      by_cases last : i = k
      · subst last
        rw [mapped] at old
        cases old
        exact (leaf _).trans (if_pos rfl)
      · have different : slotAt va 1 i ≠ slotAt va 1 k :=
          (fresh i (by omega)).symm
        exact (leaf _).trans ((if_neg different).trans (before.leaf_new i (by omega) e'' old))
    · intro q away
      refine (leaf q).trans ((if_neg (away k (Nat.lt_succ_self k))).trans ?_)
      exact before.leaf_kept q fun i small => away i (by omega)

/-- A starved request leaves every slot of its earlier pages without a table. -/
theorem Starved.no_table {f : TableState} {j m : Nat}
    (request : MapRequest s va pa permissions level n) (small : j < n)
    (starved : Starved s f va pa permissions level j m) (earlier : i < j) :
    f.node (slotAt va level i) = none := by
  have vacant := (request.free i (by omega)).vacant
  rw [starved.grows.grown.node_old]
  · exact vacant.1
  · rintro (needed | path)
    · exact slotAt_not_needed request.sized needed
    · have := missing_length path
      have := starved.depth
      rw [slotAt, length_pathTo] at *
      omega

/-- What `map_range` does to the leaves: nothing when it fails. -/
theorem mapRange_leaves (sound : HierarchySound s) (va pa length : Nat)
    (permissions : Permissions) (sized : level = 1 ∨ level = 2) :
    let result := mapRange s va pa length permissions level
    Edits s result.state ∧
      ((result.status ≠ .ok ∧ ∀ q, result.state.leaf q = s.leaf q) ∨
        (result.status = .ok ∧
          ∃ n, length = n * levelPageSize level ∧ MapRequest s va pa permissions level n ∧
            ∀ q e, result.state.leaf q = some e ↔
              (q, e) ∈ requestLeaves va pa permissions level n ∨ s.leaf q = some e)) := by
  obtain refused | ⟨-, n, shape, request, ok | ⟨j, m, f, small, starved, result⟩⟩ :=
    mapRange_cases sound va pa length permissions sized
  · rw [refused.2]
    exact ⟨.refl sound, .inl ⟨refused.1, fun _ => rfl⟩⟩
  · exact ⟨ok.2.grown.edits, .inr ⟨ok.1, n, shape, request, fun q e => ok.2.grown.leaf_iff⟩⟩
  rw [result]
  have cleared := clearRange_cleared starved.grows.grown.edits.sound va _ sized j
    fun i earlier => starved.no_table request small earlier
  refine ⟨starved.grows.grown.edits.trans cleared.edits, .inl ⟨nofun, ?_⟩⟩
  intro q
  obtain ⟨i, earlier, rfl⟩ | other := Classical.em (∃ i, i < j ∧ q = slotAt va level i)
  · rw [cleared.leaf_gone i earlier]
    exact (request.free i (by omega)).vacant.no_leaf.symm
  rw [cleared.leaf_kept q fun i earlier same => other ⟨i, earlier, same⟩]
  apply Option.ext
  intro e
  rw [starved.grows.grown.leaf_iff]
  constructor
  · intro h
    refine h.resolve_left fun new => ?_
    obtain ⟨i, earlier, pair⟩ := new
    exact other ⟨i, earlier, (Prod.mk.inj pair).1⟩
  · exact .inr

theorem unmapRange_leaves (sound : HierarchySound s) (va length : Nat) :
    let result := unmapRange s va length
    Edits s result.state ∧
      ((result.status ≠ .ok ∧ result.state = s) ∨
        (result.status = .ok ∧ ∃ n, length = n * levelPageSize 1 ∧ MappedRange s va n ∧
          ClearedRange s result.state va 1 n)) := by
  obtain refused | ⟨n, shape, range, result⟩ := unmapRange_cases sound va length
  · rw [refused.2]
    exact ⟨.refl sound, .inl ⟨refused.1, rfl⟩⟩
  · rw [result]
    have cleared := clearRange_cleared sound va 1 (.inl rfl) n
      fun i _ => node_four (pageAt va 1 i)
    exact ⟨cleared.edits, .inr ⟨rfl, n, shape, range, cleared⟩⟩

theorem protectRange_leaves (sound : HierarchySound s) (va length : Nat)
    (permissions : Permissions) (pat : Word) :
    let result := protectRange s va length permissions pat
    Edits s result.state ∧
      ((result.status ≠ .ok ∧ result.state = s) ∨
        (result.status = .ok ∧
          ∃ n, length = n * levelPageSize 1 ∧ MappedRange s va n ∧
            validatePermissions permissions = .ok ∧
            (∀ i, i < n → ∀ e, s.leaf (slotAt va 1 i) = some e →
              leafMemoryType e 1 pat = leafMemoryType (permissionsToFlags permissions) 1 pat) ∧
            Reprotected s result.state va permissions n)) := by
  intro result
  by_cases ok : protectAdmission s va length permissions pat = .ok
  swap
  · rw [show result = ⟨_, s⟩ from if_pos ok]
    exact ⟨.refl sound, .inl ⟨ok, rfl⟩⟩
  rw [show result = ⟨.ok, applyPermissions s va length permissions⟩ from if_neg (not_not.mpr ok)]
  simp only [protectAdmission, guard_eq_iff] at ok
  obtain ⟨permitted, range, mapped, typed⟩ := ok
  obtain ⟨n, rfl, pages⟩ := mappedRange_of sound range mapped
  have applied := applyPermissions_reprotected sound pages permissions n (le_refl n)
  refine ⟨applied.edits, .inr ⟨rfl, n, rfl, pages, permitted, ?_, applied⟩⟩
  intro i small
  exact requireMemoryType_ok typed _ (mem_rangeOffsets (levelPageSize_pos 1) small)

end Sapote.Paging
