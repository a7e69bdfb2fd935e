import Sapote.Paging.Operations

/-!
A hierarchy as a partial map. Each call of `map_range`, `unmap_range` and
`protect_range` updates the map by its status; `translate_address` reads it.
The rest of the kernel may allocate, release and write frames between the calls
as long as it leaves the hierarchy's tables alone.
-/

namespace Sapote.Paging
open Frames Library
variable {s : TableState} {x level : Nat} {frames : FrameAllocator} {a pa : Nat}
  {permissions : Permissions} {pat : Word}

inductive RangeOp where
  | map (virtualAddress physicalAddress length : Nat) (permissions : Permissions) (large : Bool)
  | unmap (virtualAddress length : Nat)
  | protect (virtualAddress length : Nat) (permissions : Permissions)

def leafLevel (large : Bool) : Nat := if large then 2 else 1

def rangeStep (pat : Word) (s : TableState) : RangeOp → RangeResult
  | .map va pa length permissions large => mapRange s va pa length permissions (leafLevel large)
  | .unmap va length => unmapRange s va length
  | .protect va length permissions => protectRange s va length permissions pat

/-- What a hierarchy is for: addresses to translations. -/
abbrev AddressMap := Nat → Option PagingTranslation

def AddressMap.update (m : AddressMap) (op : RangeOp) (status : PagingStatus) : AddressMap :=
  if status ≠ .ok then m
  else
    match op with
    | .map va pa length permissions large => fun x =>
        if va ≤ x ∧ x < va + length then
          some ⟨pa + (x - va), permissions, requestedType permissions, leafLevel large, false⟩
        else m x
    | .unmap va length => fun x => if va ≤ x ∧ x < va + length then none else m x
    | .protect va length permissions => fun x =>
        if va ≤ x ∧ x < va + length then
          (m x).map fun translation => { translation with permissions := permissions }
        else m x

def reported : Option PagingTranslation → PagingStatus × PagingTranslation
  | none => (.notMapped, emptyTranslation)
  | some translation => (.ok, translation)

structure EmptyRoot (s : TableState) : Prop where
  supply : SupplySound s
  held : Held s.frames s.hierarchy s.hierarchy.root
  zero : ∀ i, s.tables s.hierarchy.root i = 0
  counted : s.hierarchy.tableFrames = 1

/-- What the rest of the kernel may do between two calls. -/
structure Elsewhere (s t : TableState) : Prop where
  hierarchy : t.hierarchy = s.hierarchy
  supply : SupplySound t
  tables : ∀ a ∈ s.tableSet, Held t.frames t.hierarchy a ∧ t.tables a = s.tables a

/-- The hierarchies built from an empty root, with the map the calls describe. -/
inductive Reached (pat : Word) : TableState → AddressMap → Prop where
  | empty {s : TableState} : EmptyRoot s → Reached pat s fun _ => none
  | call {s : TableState} {m : AddressMap} (op : RangeOp) : Reached pat s m →
      Reached pat (rangeStep pat s op).state (m.update op (rangeStep pat s op).status)
  | elsewhere {s t : TableState} {m : AddressMap} : Reached pat s m → Elsewhere s t →
      Reached pat t m

section
variable (empty : EmptyRoot s)
include empty

theorem EmptyRoot.node {p : Path} (here : s.node p = some a) : p = [] ∧ a = s.hierarchy.root := by
  induction p generalizing a with
  | nil => exact ⟨rfl, (Option.some.inj here).symm⟩
  | cons i p ih =>
    obtain ⟨b, parent, seen⟩ := node_cons_eq_some.mp here
    obtain ⟨-, rfl⟩ := ih parent
    rw [empty.zero, pageView_zero] at seen
    cases seen

theorem EmptyRoot.mem_tableSet : a ∈ s.tableSet ↔ a = s.hierarchy.root := by
  constructor
  · rintro ⟨path, found⟩
    exact (empty.node found).2
  · rintro rfl
    exact ⟨[], rfl⟩

theorem EmptyRoot.sound : HierarchySound s := by
  refine ⟨empty.supply, ?_, ?_, ?_, ?_, ?_⟩
  · intro p q a hp hq
    rw [(empty.node hp).1, (empty.node hq).1]
  · intro p a here
    rw [(empty.node here).2]
    exact empty.held
  · intro p a i here _
    rw [(empty.node here).2]
    exact empty.zero i
  · intro p a i b here seen
    rw [(empty.node here).2, empty.zero, pageView_zero] at seen
    cases seen
  · have tables : s.tableSet = {s.hierarchy.root} := Set.ext fun a => empty.mem_tableSet
    rw [tables, Set.ncard_singleton]
    exact empty.counted

theorem EmptyRoot.no_leaf (q : Path) : s.leaf q = none := by
  apply Option.eq_none_iff_forall_ne_some.mpr
  intro e leaf
  obtain ⟨slot, -⟩ := leaf_eq_some.mp leaf
  cases q with
  | nil => cases slot
  | cons i q =>
    obtain ⟨a, parent, same⟩ := cell_cons_eq_some.mp slot
    have there := leaf_present leaf
    rw [← same, (empty.node parent).2, empty.zero] at there
    cases there

end

/-- A created hierarchy is an empty root, one more frame than was allocated before. -/
theorem createRoot_cases (sound : FrameSound frames) (tables : TableMemory) :
    let result := createRoot tables frames
    let s := result.state
    (result.status = .outOfFrames ∧ s.frames = frames) ∨
      (result.status = .ok ∧ EmptyRoot s ∧ s.hierarchy.arenaCapacity = 0 ∧
        ∀ f, s.frames.used f ∧ f * sapotePageSize ≠ s.hierarchy.root ↔ frames.used f) := by
  dsimp only
  have supplied : SupplySound ⟨tables, frames, ⟨0, 0, 0, 0, 0, false⟩⟩ :=
    ⟨sound, fun arena => absurd rfl arena⟩
  obtain starved | ⟨a, t, result, adopts⟩ := allocateTable_cases supplied
  · rw [createRoot, starved.2, if_pos (by simp)]
    exact .inl ⟨rfl, rfl⟩
  have arena : t.hierarchy.arenaCapacity = 0 := by rw [adopts.hierarchy]
  rw [createRoot, result, if_neg (by simp)]
  refine .inr ⟨rfl, ⟨⟨adopts.supply.frames, adopts.supply.arena⟩, ?_, ?_, ?_⟩, arena, ?_⟩
  · exact adopts.held
  · intro i
    rw [adopts.tables]
    exact if_pos rfl
  · change t.hierarchy.tableFrames = 1
    rw [adopts.hierarchy]
  · intro f
    constructor
    · rintro ⟨used, other⟩
      exact ((adopts.used f).mp used).resolve_right fun new => other new.2
    · intro used
      refine ⟨(adopts.used f).mpr (.inl used), ?_⟩
      rintro rfl
      obtain ⟨eligible, -, free⟩ := (held_frame_iff arena).mp adopts.held
      rw [adopts.eligible] at eligible
      rw [adopts.records] at free
      exact adopts.fresh ((held_frame_iff rfl).mpr ⟨eligible, used, free⟩)

section
variable {s t : TableState}

theorem Elsewhere.node (away : Elsewhere s t) (q : Path) : t.node q = s.node q := by
  rw [TableState.node, away.hierarchy]
  exact node_congr (fun p a here i => by rw [(away.tables a ⟨p, here⟩).2]) q

theorem Elsewhere.cell (away : Elsewhere s t) (q : Path) : t.cell q = s.cell q := by
  rw [TableState.cell, away.hierarchy]
  exact cell_congr (fun p a here i => by rw [(away.tables a ⟨p, here⟩).2]) q

theorem Elsewhere.sound (away : Elsewhere s t) (sound : HierarchySound s) : HierarchySound t := by
  have old : ∀ {p a}, t.node p = some a → s.node p = some a :=
    fun here => (away.node _).symm.trans here
  have same : ∀ {p a}, t.node p = some a → t.tables a = s.tables a :=
    fun here => (away.tables _ ⟨_, old here⟩).2
  refine ⟨away.supply, ?_, ?_, ?_, ?_, ?_⟩
  · intro p q a hp hq
    exact sound.unshared p q a (old hp) (old hq)
  · intro p a here
    exact (away.tables a ⟨p, old here⟩).1
  · intro p a i here absent
    rw [same here] at absent ⊢
    exact sound.vacant p a i (old here) absent
  · intro p a i b here seen
    rw [same here] at seen ⊢
    exact sound.links p a i b (old here) seen
  · rw [tableSet_congr away.node, away.hierarchy]
    exact sound.counted

end

def Requested (s : TableState) : Prop :=
  ∀ q e, s.leaf q = some e → ∃ pa permissions level,
    q.length = 5 - level ∧ e = leafEntry pa permissions level ∧ LeafRequest pa permissions level

section
variable {s t : TableState} {pat : Word}

/-- A requested leaf is a supervisor page, whatever hangs above it. -/
theorem translate_requested (sound : HierarchySound s) (layout : PatLayout pat)
    (canonical : addressIsCanonical x) (request : LeafRequest pa permissions level)
    (leaf : s.leaf (pathTo x (5 - level)) = some (leafEntry pa permissions level)) :
    translateAddress s x pat = (.ok, ⟨pa + x % levelPageSize level, permissions,
      requestedType permissions, level, false⟩) := by
  have sized := request.sized
  rw [show 5 - level = 4 - level + 1 by omega] at leaf
  have user : userPath s x (4 - level + 1) = false := by
    rw [userPath, (leaf_pathTo.mp leaf).1, Option.any_some, request.bits.2.2.1, Bool.and_false]
  rw [translateAddress_leaf sound pat canonical (by omega) leaf, user,
    show 4 - (4 - level) = level by omega, request.translation layout (canonical_word canonical)]

/-- The translation of an address is decided by the leaves on its path. -/
theorem translate_congr (hs : HierarchySound s) (ht : HierarchySound t) (rs : Requested s)
    (layout : PatLayout pat) (canonical : addressIsCanonical x)
    (same : ∀ d, d < 4 → t.leaf (pathTo x (d + 1)) = s.leaf (pathTo x (d + 1))) :
    translateAddress t x pat = translateAddress s x pat := by
  obtain ⟨d, e, deep, leaf⟩ | none := leaf_cases s x
  · obtain ⟨pa, permissions, level, length, rfl, request⟩ := rs _ _ leaf
    rw [length_pathTo] at length
    have leaf' := (same d deep).trans leaf
    rw [length] at leaf leaf'
    rw [translate_requested hs layout canonical request leaf,
      translate_requested ht layout canonical request leaf']
  · rw [translateAddress_unmapped hs pat canonical none,
      translateAddress_unmapped ht pat canonical fun d deep => (same d deep).trans (none d deep)]

end

theorem page_offset {va size i : Nat} (aligned : va % size = 0)
    (page : x / size = va / size + i) : x = va + i * size + x % size := by
  have split := Nat.div_add_mod x size
  have start := Nat.div_add_mod va size
  rw [aligned, add_zero] at start
  rw [page, mul_add, start, mul_comm size i] at split
  exact split.symm

/-- The pages of a range and the addresses of a range. -/
theorem mem_range_iff {va n : Nat} (sized : level = 1 ∨ level = 2)
    (aligned : va % levelPageSize level = 0)
    (canonical : ∀ y, va ≤ y → y < va + n * levelPageSize level → addressIsCanonical y)
    (hx : addressIsCanonical x) :
    (va ≤ x ∧ x < va + n * levelPageSize level) ↔
      ∃ i, i < n ∧ pathTo x (5 - level) = slotAt va level i := by
  have positive := levelPageSize_pos level
  have page : ∀ {i}, i < n → addressIsCanonical (pageAt va level i) := by
    intro i small
    obtain ⟨low, high⟩ := @pageAt_mem va level _ _ small
    exact canonical _ low (by omega)
  have rest := Nat.mod_lt x positive
  constructor
  · intro inside
    have reached : va / levelPageSize level ≤ x / levelPageSize level :=
      Nat.div_le_div_right inside.1
    obtain ⟨i, shape⟩ := Nat.exists_eq_add_of_le reached
    have offset := page_offset aligned shape
    have small : i < n := by
      by_contra large
      have past : n * levelPageSize level ≤ i * levelPageSize level :=
        Nat.mul_le_mul_right _ (by omega)
      omega
    refine ⟨i, small, ?_⟩
    rw [slotAt, pathTo_eq_iff (by omega) hx (page small), pageAt_div, shape]
  · rintro ⟨i, small, same⟩
    rw [slotAt, pathTo_eq_iff (by omega) hx (page small), pageAt_div] at same
    obtain ⟨-, high⟩ := @pageAt_mem va level _ _ small
    rw [pageAt] at high
    have offset := page_offset aligned same
    omega

theorem leafLevel_bounds (large : Bool) : 1 ≤ leafLevel large ∧ leafLevel large ≤ 4 := by
  cases large <;> decide

theorem leafLevel_cases (large : Bool) : leafLevel large = 1 ∨ leafLevel large = 2 := by
  cases large
  · exact .inl rfl
  · exact .inr rfl

theorem rangeStep_edits (pat : Word) (sound : HierarchySound s) (op : RangeOp) :
    Edits s (rangeStep pat s op).state := by
  cases op with
  | map va pa length permissions large =>
    exact (mapRange_leaves sound va pa length permissions (leafLevel_cases large)).1
  | unmap va length => exact (unmapRange_leaves sound va length).1
  | protect va length permissions => exact (protectRange_leaves sound va length permissions pat).1

/-- A reprotected leaf is the leaf the new permissions would have asked for. -/
theorem reprotected_leaf {old new : Permissions} (request : LeafRequest pa old 1) :
    reprotected new (leafEntry pa old 1) = leafEntry pa new 1 := by
  rw [reprotected, leafEntry_eq, frameMask_entry request.page (leafFlags_bits old 1).1]
  rfl

theorem requestedType_of_flags (layout : PatLayout pat)
    (valid : validatePermissions permissions = .ok) :
    leafMemoryType (permissionsToFlags permissions) 1 pat = requestedType permissions := by
  have request : LeafRequest 0 permissions 1 := ⟨.inl rfl, rfl, by decide, valid⟩
  rw [← request.memoryType layout]
  congr 1
  exact (BitVec.zero_or).symm

section
variable {s : TableState} {pat : Word}

theorem Requested.page (requested : Requested s) {va i : Nat} {e : Word}
    (mapped : s.leaf (slotAt va 1 i) = some e) :
    ∃ pa old, e = leafEntry pa old 1 ∧ LeafRequest pa old 1 := by
  obtain ⟨pa, old, level, depth, same, request⟩ := requested _ _ mapped
  rw [slotAt, length_pathTo] at depth
  obtain rfl : level = 1 := by omega
  exact ⟨pa, old, same, request⟩

theorem requested_step (sound : HierarchySound s) (requested : Requested s) (op : RangeOp) :
    Requested (rangeStep pat s op).state := by
  intro q e leaf
  cases op with
  | map va pa length permissions large =>
    obtain ⟨-, outcome⟩ := mapRange_leaves sound va pa length permissions (leafLevel_cases large)
    obtain failed | ⟨-, n, -, request, leaves⟩ := outcome
    · exact requested q e ((failed.2 q).symm.trans leaf)
    obtain ⟨i, small, pair⟩ | old := (leaves q e).mp leaf
    · obtain ⟨rfl, rfl⟩ := Prod.mk.inj pair
      exact ⟨_, _, _, length_pathTo _ _, rfl, request.leaf i small⟩
    · exact requested q e old
  | unmap va length =>
    obtain ⟨-, outcome⟩ := unmapRange_leaves sound va length
    obtain refused | ⟨-, n, -, -, cleared⟩ := outcome
    · exact requested q e (by rw [← refused.2]; exact leaf)
    obtain ⟨i, small, rfl⟩ | other := Classical.em (∃ i, i < n ∧ q = slotAt va 1 i)
    · have none := cleared.leaf_gone i small
      rw [show (unmapRange s va length).state.leaf (slotAt va 1 i) = some e from leaf] at none
      cases none
    · exact requested q e ((cleared.leaf_kept q fun i small same =>
        other ⟨i, small, same⟩).symm.trans leaf)
  | protect va length permissions =>
    obtain ⟨-, outcome⟩ := protectRange_leaves sound va length permissions pat
    obtain refused | ⟨-, n, -, range, valid, -, applied⟩ := outcome
    · exact requested q e (by rw [← refused.2]; exact leaf)
    obtain ⟨i, small, rfl⟩ | other := Classical.em (∃ i, i < n ∧ q = slotAt va 1 i)
    · obtain ⟨old, mapped⟩ := range.mapped i small
      have new := applied.leaf_new i small old mapped
      obtain ⟨pa, before, rfl, request⟩ := requested.page mapped
      rw [reprotected_leaf request] at new
      refine ⟨pa, permissions, 1, length_pathTo _ _, ?_,
        request.sized, request.aligned, request.bound, valid⟩
      exact (Option.some.inj (new.symm.trans leaf)).symm
    · exact requested q e ((applied.leaf_kept q fun i small same =>
        other ⟨i, small, same⟩).symm.trans leaf)

/-- A path that does not lead into the range keeps its leaves. -/
theorem leaf_outside {va n d : Nat}
    (away : ¬∃ i, i < n ∧ pathTo x (5 - level) = slotAt va level i) {i : Nat} (small : i < n) :
    pathTo x (d + 1) ≠ slotAt va level i := by
  intro same
  have length := congrArg List.length same
  simp only [slotAt, length_pathTo] at length
  rw [length] at same
  exact away ⟨i, small, same⟩

section
variable (sound : HierarchySound s) (requested : Requested s) (layout : PatLayout pat)
  (m : AddressMap)
  (agrees : ∀ x, addressIsCanonical x → translateAddress s x pat = reported (m x))
include sound requested layout m agrees

theorem map_translates (va pa length : Nat) (permissions : Permissions)
    (large : Bool) (canonical : addressIsCanonical x) :
    let result := mapRange s va pa length permissions (leafLevel large)
    translateAddress result.state x pat =
      reported (m.update (.map va pa length permissions large) result.status x) := by
  intro result
  have sized := leafLevel_cases large
  obtain ⟨edits, outcome⟩ := mapRange_leaves sound va pa length permissions sized
  obtain failed | ⟨status, n, shape, request, leaves⟩ := outcome
  · rw [AddressMap.update, if_pos failed.1, ← agrees x canonical]
    exact translate_congr sound edits.sound requested layout canonical fun d _ => failed.2 _
  rw [AddressMap.update, if_neg (not_not.mpr status)]
  have inside := mem_range_iff (x := x) sized request.aligned request.canonical canonical
  rw [← shape] at inside
  by_cases mine : va ≤ x ∧ x < va + length
  · rw [if_pos mine]
    obtain ⟨i, small, path⟩ := inside.mp mine
    have leaf := (leaves _ _).mpr (.inl ⟨i, small, rfl⟩)
    rw [← path] at leaf
    refine (translate_requested edits.sound layout canonical (request.leaf i small) leaf).trans ?_
    have offset : pa + i * levelPageSize (leafLevel large) + x % levelPageSize (leafLevel large) =
        pa + (x - va) := by
      have page := (pathTo_eq_iff (leafLevel_bounds large) canonical
        (request.canonical_page small)).mp path
      rw [pageAt_div] at page
      have place := page_offset request.aligned page
      omega
    rw [offset]
    rfl
  · rw [if_neg mine, ← agrees x canonical]
    apply translate_congr sound edits.sound requested layout canonical
    intro d _
    apply Option.ext
    intro e
    refine (leaves _ e).trans ⟨fun h => h.resolve_left ?_, .inr⟩
    rintro ⟨i, small, pair⟩
    exact leaf_outside (fun h => mine (inside.mpr h)) small (Prod.mk.inj pair).1

theorem unmap_translates (va length : Nat) (canonical : addressIsCanonical x) :
    translateAddress (unmapRange s va length).state x pat =
      reported (m.update (.unmap va length) (unmapRange s va length).status x) := by
  obtain ⟨edits, outcome⟩ := unmapRange_leaves sound va length
  obtain refused | ⟨status, n, shape, range, cleared⟩ := outcome
  · rw [AddressMap.update, if_pos refused.1, ← agrees x canonical]
    exact congrArg (fun t => translateAddress t x pat) refused.2
  rw [AddressMap.update, if_neg (not_not.mpr status)]
  have inside := mem_range_iff (x := x) (.inl rfl) range.aligned range.canonical canonical
  rw [← shape] at inside
  by_cases mine : va ≤ x ∧ x < va + length
  swap
  · rw [if_neg mine, ← agrees x canonical]
    apply translate_congr sound edits.sound requested layout canonical
    intro d _
    exact cleared.leaf_kept _ fun i small =>
      leaf_outside (fun h => mine (inside.mpr h)) small
  rw [if_pos mine]
  obtain ⟨i, small, path⟩ := inside.mp mine
  obtain ⟨e, mapped⟩ := range.mapped i small
  rw [← path] at mapped
  apply translateAddress_unmapped edits.sound pat canonical
  intro d _
  by_cases bottom : d = 3
  · rw [bottom]
    have gone := cleared.leaf_gone i small
    rw [← path] at gone
    exact gone
  have kept := cleared.leaf_kept (pathTo x (d + 1)) fun j _ same => bottom (by
    have lengths := congrArg List.length same
    simp only [slotAt, length_pathTo] at lengths
    omega)
  refine kept.trans (Option.eq_none_iff_forall_ne_some.mpr ?_)
  intro e' other
  exact bottom (leaf_unique other mapped).1

theorem protect_translates (va length : Nat) (permissions : Permissions)
    (canonical : addressIsCanonical x) :
    let result := protectRange s va length permissions pat
    translateAddress result.state x pat =
      reported (m.update (.protect va length permissions) result.status x) := by
  intro result
  obtain ⟨edits, outcome⟩ := protectRange_leaves sound va length permissions pat
  obtain refused | ⟨status, n, shape, range, valid, types, applied⟩ := outcome
  · rw [AddressMap.update, if_pos refused.1, ← agrees x canonical]
    exact congrArg (fun t => translateAddress t x pat) refused.2
  rw [AddressMap.update, if_neg (not_not.mpr status)]
  have inside := mem_range_iff (x := x) (.inl rfl) range.aligned range.canonical canonical
  rw [← shape] at inside
  by_cases mine : va ≤ x ∧ x < va + length
  swap
  · rw [if_neg mine, ← agrees x canonical]
    apply translate_congr sound edits.sound requested layout canonical
    intro d _
    exact applied.leaf_kept _ fun i small =>
      leaf_outside (fun h => mine (inside.mpr h)) small
  rw [if_pos mine]
  obtain ⟨i, small, path⟩ := inside.mp mine
  obtain ⟨e, mapped⟩ := range.mapped i small
  have type := types i small e mapped
  have new := applied.leaf_new i small e mapped
  obtain ⟨pa, old, rfl, request⟩ := requested.page mapped
  have renewed : LeafRequest pa permissions 1 :=
    ⟨request.sized, request.aligned, request.bound, valid⟩
  rw [request.memoryType layout, requestedType_of_flags layout valid] at type
  rw [reprotected_leaf request, ← path] at new
  rw [← path] at mapped
  have before := translate_requested sound layout canonical request mapped
  rw [agrees x canonical] at before
  refine (translate_requested edits.sound layout canonical renewed new).trans ?_
  revert before
  cases m x with
  | none => nofun
  | some translation =>
    intro before
    obtain rfl := (Prod.mk.inj before).2
    rw [← type]
    rfl

theorem rangeStep_translates (op : RangeOp) (canonical : addressIsCanonical x) :
    translateAddress (rangeStep pat s op).state x pat =
      reported (m.update op (rangeStep pat s op).status x) := by
  cases op with
  | map va pa length permissions large =>
    exact map_translates sound requested layout m agrees va pa length permissions large canonical
  | unmap va length => exact unmap_translates sound requested layout m agrees va length canonical
  | protect va length permissions =>
    exact protect_translates sound requested layout m agrees va length permissions canonical

end

end

/-- Every reachable hierarchy is sound, holds requested leaves only, and translates
as its map says. -/
theorem Reached.agrees (layout : PatLayout pat) {m : AddressMap} (reached : Reached pat s m) :
    HierarchySound s ∧ Requested s ∧ ∀ x, addressIsCanonical x →
      translateAddress s x pat = reported (m x) := by
  induction reached with
  | empty empty =>
    refine ⟨empty.sound, ?_, ?_⟩
    · intro q e leaf
      rw [empty.no_leaf] at leaf
      cases leaf
    · intro x canonical
      exact translateAddress_unmapped empty.sound pat canonical fun d _ => empty.no_leaf _
  | @call s m op reached ih =>
    obtain ⟨sound, requested, agrees⟩ := ih
    exact ⟨(rangeStep_edits pat sound op).sound, requested_step sound requested op,
      fun x => rangeStep_translates sound requested layout m agrees op⟩
  | @elsewhere s t m reached away ih =>
    obtain ⟨sound, requested, agrees⟩ := ih
    have sound' := away.sound sound
    have leaf : ∀ q, t.leaf q = s.leaf q := fun q => leaf_congr (away.cell q)
    refine ⟨sound', ?_, ?_⟩
    · intro q e here
      exact requested q e ((leaf q).symm.trans here)
    · intro x canonical
      rw [← agrees x canonical]
      exact translate_congr sound sound' requested layout canonical fun d _ => leaf _

/-- `translate_address` refines the partial map that the calls describe. -/
theorem translate_address_refines_map {pat : Word} (layout : PatLayout pat) {s : TableState}
    {m : AddressMap} (reached : Reached pat s m) {x : Nat}
    (canonical : addressIsCanonical x = true) :
    translateAddress s x pat = reported (m x) :=
  (reached.agrees layout).2.2 x canonical

def arenaHierarchy : PageHierarchy := ⟨0x200000, 0x200000, 8, 1, 1, false⟩

def arenaState (frames : FrameAllocator) : TableState := ⟨fun _ _ => 0, frames, arenaHierarchy⟩

/-- The first page of an arena, zeroed, is an empty root. -/
theorem emptyRoot_of_arena {h : PageHierarchy} (sound : FrameSound frames)
    (arena : h.arenaCapacity ≠ 0) (root : h.root = h.arenaBase) (used : h.arenaUsed = 1)
    (counted : h.tableFrames = 1)
    (inside : h.arenaBase % pagingPageSize = 0 ∧ h.arenaUsed ≤ h.arenaCapacity ∧
      h.arenaBase + h.arenaCapacity * pagingPageSize ≤ earlyPhysicalLimit) :
    EmptyRoot ⟨fun _ _ => 0, frames, h⟩ := by
  refine ⟨⟨sound, fun _ => inside⟩, ?_, fun _ => rfl, counted⟩
  rw [Held, if_neg arena]
  refine ⟨0, by rw [used]; exact one_pos, ?_⟩
  rw [root, zero_mul, add_zero]

theorem arenaState_empty (sound : FrameSound frames) : EmptyRoot (arenaState frames) :=
  emptyRoot_of_arena sound (by decide) rfl rfl rfl (by decide)

def pagingTestPat : Word := 0x0007040600070106#64

theorem pagingTestPat_layout : PatLayout pagingTestPat := ⟨by decide, by decide, by decide⟩

def arenaMap : RangeOp := .map 0x200000000 0x5000 0x1000 pagingWrite false

theorem translate_address_refines_arena_map :
    PatLayout pagingTestPat ∧ addressIsCanonical 0x200000123 = true ∧
      translateAddress (rangeStep pagingTestPat (arenaState smallStart.2) arenaMap).state 0x200000123
          pagingTestPat =
        (.ok, ⟨0x5123, pagingWrite, .writeBack, 1, false⟩) := by
  refine ⟨pagingTestPat_layout, by decide, ?_⟩
  have refined := translate_address_refines_map pagingTestPat_layout
    (.call arenaMap (.empty (arenaState_empty smallStart_sound)))
    (x := 0x200000123) (by decide)
  exact refined.trans (by decide +kernel)

end Sapote.Paging
