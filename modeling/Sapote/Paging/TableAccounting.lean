import Sapote.Paging.Rollback

/-!
The table count of a hierarchy over runs in which every call succeeds: no table
but the root is ever empty, mapping and unmapping a range gives every table back,
and `release_table_tree` releases each table once.
-/

namespace Sapote.Paging
open Frames Library List
variable {s : TableState} {va table n : Nat} {permissions : Permissions} {p : Path}

inductive Built (pat : Word) : TableState → Prop where
  | empty {s : TableState} : EmptyRoot s → Built pat s
  | call {s : TableState} (op : RangeOp) : Built pat s → (rangeStep pat s op).status = .ok →
      Built pat (rangeStep pat s op).state
  | elsewhere {s t : TableState} : Built pat s → Elsewhere s t → Built pat t

def NoEmptyTable (s : TableState) : Prop :=
  ∀ q a, q ≠ [] → s.node q = some a → tableIsEmpty s.tables a = false

theorem noEmptyTable_iff : NoEmptyTable s ↔ ∀ q, q ≠ [] → s.node q ≠ none → InUse s q := by
  constructor
  · intro full q inner here
    obtain ⟨a, node⟩ := Option.ne_none_iff_exists'.mp here
    exact (inUse_iff node).mpr (full q a inner node)
  · intro full q a inner node
    exact (inUse_iff node).mp (full q inner (by rw [node]; exact nofun))

theorem NoEmptyTable.anchored (full : NoEmptyTable s) (va : Nat) : Anchored s va := by
  intro d a inner here
  exact full _ a (pathTo_ne_nil inner) here

section
variable {s t : TableState}

/-- A request that gets all its tables fills every one of them. -/
theorem noEmpty_mapped {pa level : Nat} (request : MapRequest s va pa permissions level n)
    (full : NoEmptyTable s)
    (grown : Grown s t (needed s va level n) (requestLeaves va pa permissions level n)) :
    NoEmptyTable t := by
  rw [noEmptyTable_iff] at full ⊢
  intro q inner here
  by_cases new : q ∈ needed s va level n
  swap
  · rw [grown.node_old q new] at here
    obtain ⟨i, e, slot, there⟩ := full q inner here
    exact ⟨i, e, grown.cell_kept slot (ne_zero_of_present there), there⟩
  obtain ⟨i, small, d, depth, rfl, absent⟩ := new
  by_cases bottom : d = 4 - level
  · -- A page table or directory of the request: the page's leaf is in it.
    have leaf := grown.leaf_new _ _ ⟨i, small, rfl⟩
    have slot := (leaf_eq_some.mp leaf).1
    rw [slotAt, slot_cons request.sized, ← bottom] at slot
    exact ⟨_, _, slot, leaf_present leaf⟩
  · have below : s.node (pathTo (pageAt va level i) (d + 1)) = none :=
      node_none_of_suffix absent (pathTo_suffix (Nat.le_succ d))
    have child := grown.node_new (pathTo (pageAt va level i) (d + 1))
      ⟨i, small, d + 1, by omega, rfl, below⟩
    exact inUse_of_child child

/-- Unmapping takes away the tables it empties. -/
theorem noEmpty_cleared (sound : HierarchySound s) (full : NoEmptyTable s)
    (range : MappedRange s va n) (c : Nat) (bound : c ≤ n) :
    NoEmptyTable (clearRange s va (c * levelPageSize 1) 1) := by
  induction c with
  | zero =>
    exact full
  | succ c ih =>
    have before := noEmptyTable_iff.mp (ih (by omega))
    have cleared := clearRange_cleared sound va 1 (.inl rfl) c
      fun i _ => node_four (pageAt va 1 i)
    obtain ⟨e, mapped⟩ := range.mapped c (by omega)
    have still := cleared.leaf_kept (slotAt va 1 c) fun i small same => by
      have := range.distinct (by omega) (by omega) same
      omega
    rw [mapped] at still
    rw [clearRange_succ]
    apply noEmptyTable_iff.mpr
    intro q inner here
    have kept := (clearPage_cleared cleared.edits.sound (pageAt va 1 c) 1
      (.inl rfl) (node_four _)).node q here
    exact clearPage_inUse cleared.edits.sound still inner here
      (before q inner (by rw [← kept]; exact here))

theorem noEmpty_reprotected (full : NoEmptyTable s) (applied : Reprotected s t va permissions n) :
    NoEmptyTable t := by
  rw [noEmptyTable_iff] at full ⊢
  intro q inner here
  rw [applied.node] at here
  obtain ⟨i, e, slot, there⟩ := full q inner here
  by_cases table : s.node (i :: q) = none
  swap
  · apply inUse_of_child (i := i)
    rw [applied.node]
    exact table
  have leaf : s.leaf (i :: q) = some e := by
    refine leaf_eq_some.mpr ⟨slot, ?_⟩
    rw [length_cons, Nat.add_sub_cancel]
    cases seen : pageView q.length e with
    | absent =>
      unfold pageView at seen
      rw [there, if_neg (by decide)] at seen
      split at seen <;> cases seen
    | leaf => rfl
    | table b =>
      rw [node_iff_cell.mpr ⟨e, slot, seen⟩] at table
      cases table
  have after : ∃ e', t.leaf (i :: q) = some e' := by
    obtain ⟨k, small, same⟩ | other := Classical.em (∃ k, k < n ∧ i :: q = slotAt va 1 k)
    · rw [same] at leaf ⊢
      exact ⟨_, applied.leaf_new k small e leaf⟩
    · exact ⟨e, (applied.leaf_kept _ fun k small same => other ⟨k, small, same⟩).trans leaf⟩
  obtain ⟨e', leaf'⟩ := after
  exact ⟨i, e', (leaf_eq_some.mp leaf').1, leaf_present leaf'⟩

theorem noEmpty_step (pat : Word) (sound : HierarchySound s) (full : NoEmptyTable s) (op : RangeOp)
    (ok : (rangeStep pat s op).status = .ok) : NoEmptyTable (rangeStep pat s op).state := by
  cases op with
  | map va pa length permissions large =>
    obtain refused | ⟨-, n, -, request, outcome⟩ :=
      mapRange_cases sound va pa length permissions (leafLevel_cases large)
    · have same := congrArg RangeResult.status refused.2
      exact absurd (same.symm.trans ok) refused.1
    obtain grown | ⟨j, m, f, -, -, result⟩ := outcome
    · exact noEmpty_mapped request full grown.2.grown
    · have status := congrArg RangeResult.status result
      cases status.symm.trans ok
  | unmap va length =>
    obtain refused | ⟨n, -, range, result⟩ := unmapRange_cases sound va length
    · have same := congrArg RangeResult.status refused.2
      exact absurd (same.symm.trans ok) refused.1
    · rw [show rangeStep pat s (.unmap va length) = _ from result]
      exact noEmpty_cleared sound full range n (le_refl n)
  | protect va length permissions =>
    obtain ⟨-, outcome⟩ := protectRange_leaves sound va length permissions pat
    obtain refused | ⟨-, n, -, -, -, -, applied⟩ := outcome
    · exact absurd ok refused.1
    · exact noEmpty_reprotected full applied

theorem Elsewhere.noEmpty (away : Elsewhere s t) (full : NoEmptyTable s) : NoEmptyTable t := by
  rw [noEmptyTable_iff] at full ⊢
  intro q inner here
  rw [away.node] at here
  obtain ⟨i, e, slot, there⟩ := full q inner here
  exact ⟨i, e, (away.cell _).trans slot, there⟩

end

theorem Built.full {pat : Word} (built : Built pat s) : HierarchySound s ∧ NoEmptyTable s := by
  induction built with
  | empty empty => exact ⟨empty.sound, fun q a inner here => absurd (empty.node here).1 inner⟩
  | call op _ ok ih => exact ⟨(rangeStep_edits pat ih.1 op).sound, noEmpty_step pat ih.1 ih.2 op ok⟩
  | elsewhere _ away ih => exact ⟨away.sound ih.1, away.noEmpty ih.2⟩

theorem requireMappedRange_of {offsets : List Nat}
    (mapped : ∀ o ∈ offsets, ∃ e, s.leaf (pathTo (va + o) 4) = some e) :
    requireMappedRange s va offsets = .ok := by
  induction offsets with
  | nil => rfl
  | cons o offsets ih =>
    obtain ⟨e, leaf⟩ := mapped o mem_cons_self
    have slot := (leaf_pathTo.mp leaf).1
    rw [pathTo_succ] at slot
    obtain ⟨a, here⟩ := Option.ne_none_iff_exists'.mp (parent_of_cell slot)
    have same : s.tables a (tableIndex (va + o) 1) = e := by
      rw [TableState.cell, cell_cons_of here] at slot
      exact Option.some.inj slot
    rw [requireMappedRange, entryFor_node (le_refl 1) (by omega) here, if_neg (by simp), entryAt,
      same, leaf_present leaf, if_neg (by decide)]
    exact ih fun o' member => mapped o' (.tail o member)

/-- Mapping a range of 4 KiB pages and unmapping it again restores the hierarchy. -/
theorem unmap_undoes_map (sound : HierarchySound s) (full : NoEmptyTable s) {pa length : Nat}
    (ok : (mapRange s va pa length permissions 1).status = .ok) :
    let mapped := (mapRange s va pa length permissions 1).state
    (unmapRange mapped va length).status = .ok ∧ Restored s (unmapRange mapped va length).state := by
  intro mapped
  obtain refused | ⟨passed, n, shape, request, done | ⟨j, m, f, -, -, result⟩⟩ :=
    @mapRange_cases _ 1 sound va pa length permissions (.inl rfl)
  · rw [refused.2] at ok
    exact absurd ok refused.1
  swap
  · rw [result] at ok
    cases ok
  have grown := done.2.grown
  have size : pagingPageSize = levelPageSize 1 := by decide
  have range := (mapAdmission_ok passed).2.1
  rw [← size] at range
  have admitted : unmapAdmission mapped va length = .ok := by
    rw [unmapAdmission, if_neg (not_not.mpr range)]
    apply requireMappedRange_of
    intro o member
    rw [shape, size, rangeOffsets_mul (levelPageSize_pos 1)] at member
    obtain ⟨i, small, rfl⟩ := mem_map.mp member
    exact ⟨_, grown.leaf_new _ _ ⟨i, mem_range.mp small, rfl⟩⟩
  have result : unmapRange mapped va length = ⟨.ok, clearRange mapped va length 1⟩ :=
    if_neg (not_not.mpr admitted)
  have undone := clearRange_undoes request (le_refl n) grown fun i _ => full.anchored _
  rw [← shape] at undone
  rw [result]
  exact ⟨rfl, (restored_iff sound undone.edits).mpr undone.cell_eq⟩

def treeOrder (tables : TableMemory) : Nat → Nat → List Nat
  | 0, _ => []
  | level + 1, table =>
    (if 0 < level then
      (List.finRange pagingEntriesPerTable).flatMap fun index =>
        if present (tables table index) ∧ !huge (tables table index) then
          treeOrder tables level (frameOf (tables table index))
        else []
    else []) ++ [table]

theorem releaseTable_tables (s : TableState) (b : Nat) : (releaseTable s b).tables = s.tables := rfl

theorem foldl_releaseTable_tables (l : List Nat) (s : TableState) :
    (l.foldl releaseTable s).tables = s.tables := by
  induction l generalizing s with
  | nil => rfl
  | cons b l ih => rw [foldl_cons, ih, releaseTable_tables]

/-- `release_table_tree` is a sequence of `release_table` calls. -/
theorem releaseTableTree_eq (level table : Nat) (s : TableState) :
    releaseTableTree level table s = (treeOrder s.tables level table).foldl releaseTable s := by
  induction level generalizing table s with
  | zero => rfl
  | succ level ih =>
    rw [releaseTableTree, treeOrder, foldl_append, foldl_cons, foldl_nil]
    congr 1
    split
    swap
    · simp only [foldl_nil]
    -- Every turn starts from a state with the tables of `s`.
    have loop : ∀ (l : List TableIndex) (t : TableState), t.tables = s.tables →
        l.foldl (fun state index =>
            if present (state.tables table index) ∧ !huge (state.tables table index) then
              releaseTableTree level (frameOf (state.tables table index)) state
            else state) t =
          (l.flatMap fun index =>
            if present (s.tables table index) ∧ !huge (s.tables table index) then
              treeOrder s.tables level (frameOf (s.tables table index))
            else []).foldl releaseTable t := by
      intro l
      induction l with
      | nil =>
        intro t _
        rfl
      | cons index l rest =>
        intro t same
        rw [foldl_cons, flatMap_cons, foldl_append, same]
        split
        · rw [ih, same]
          exact rest _ ((foldl_releaseTable_tables _ _).trans same)
        · exact rest t same
    exact loop _ s rfl

section
variable {s : TableState}

/-- The child a link leads to, as `release_table_tree` reads it. -/
theorem child_iff (here : s.node p = some table) (shallow : p.length < 3) {i : TableIndex} :
    (present (s.tables table i) ∧ !huge (s.tables table i)) ↔
      s.node (i :: p) = some (frameOf (s.tables table i)) := by
  constructor
  · intro link
    have bits : present (s.tables table i) ∧ huge (s.tables table i) = false := by
      simpa using link
    exact node_cons_eq_some.mpr ⟨table, here, pageView_of_table bits.1 bits.2 shallow⟩
  · intro child
    obtain ⟨a, parent, seen⟩ := node_cons_eq_some.mp child
    obtain rfl : a = table := Option.some.inj (parent.symm.trans here)
    obtain ⟨there, link, -⟩ := pageView_table seen
    simp [there, link]

theorem mem_treeOrder (level : Nat) (depth : p.length + level = 4) (inner : 0 < level)
    (here : s.node p = some table) {a : Nat} :
    a ∈ treeOrder s.tables level table ↔ ∃ q, p <:+ q ∧ s.node q = some a := by
  induction level generalizing p table with
  | zero => omega
  | succ level ih =>
    rw [treeOrder, mem_append, mem_singleton]
    constructor
    · intro member
      cases member with
      | inr same => exact ⟨p, suffix_rfl, by rw [same]; exact here⟩
      | inl below => ?_
      by_cases deeper : 0 < level
      · rw [if_pos deeper] at below
        obtain ⟨i, -, member⟩ := mem_flatMap.mp below
        by_cases link : present (s.tables table i) ∧ !huge (s.tables table i)
        · rw [if_pos link] at member
          have child := (child_iff here (by omega)).mp link
          obtain ⟨q, under, found⟩ :=
            (ih (p := i :: p) (by rw [length_cons]; omega) deeper child).mp member
          exact ⟨q, (suffix_cons i p).trans under, found⟩
        · rw [if_neg link] at member
          cases member
      · rw [if_neg deeper] at below
        cases below
    · rintro ⟨q, under, found⟩
      by_cases same : q = p
      · rw [same, here] at found
        exact .inr (Option.some.inj found).symm
      left
      obtain ⟨prefix_, shape⟩ := under
      obtain ⟨i, rest, path⟩ : ∃ i rest, q = rest ++ i :: p := by
        cases prefix_ using List.reverseRecOn with
        | nil => exact absurd shape.symm same
        | append_singleton rest i =>
          exact ⟨i, rest, by rw [← shape, append_assoc]; rfl⟩
      have length := node_depth found
      rw [path, length_append, length_cons] at length
      have deeper : 0 < level := by omega
      have child : s.node (i :: p) ≠ none := by
        intro missing
        rw [TableState.node, node_none_of_suffix missing ⟨rest, path.symm⟩] at found
        cases found
      obtain ⟨b, childNode⟩ := Option.ne_none_iff_exists'.mp child
      obtain ⟨a', parent, seen⟩ := node_cons_eq_some.mp childNode
      obtain rfl : a' = table := Option.some.inj (parent.symm.trans here)
      rw [(pageView_table seen).2.2.2.symm] at childNode
      rw [if_pos deeper]
      refine mem_flatMap.mpr ⟨i, mem_finRange i, ?_⟩
      rw [if_pos ((child_iff here (by omega)).mpr childNode)]
      exact (ih (p := i :: p) (by rw [length_cons]; omega) deeper childNode).mpr
        ⟨q, ⟨rest, path.symm⟩, found⟩

/-- An unshared tree lists each of its tables once. -/
theorem nodup_treeOrder (unshared : Unshared pageView s.tables s.hierarchy.root) (level : Nat)
    (depth : p.length + level = 4) (here : s.node p = some table) :
    (treeOrder s.tables level table).Nodup := by
  induction level generalizing p table with
  | zero => exact nodup_nil
  | succ level ih =>
    rw [treeOrder]
    split
    swap
    · rw [nil_append]
      exact nodup_singleton table
    next deeper =>
    have members : ∀ i a, a ∈ (if present (s.tables table i) ∧ !huge (s.tables table i) then
        treeOrder s.tables level (frameOf (s.tables table i)) else []) →
        ∃ q, (i :: p) <:+ q ∧ s.node q = some a := by
      intro i a member
      by_cases link : present (s.tables table i) ∧ !huge (s.tables table i)
      · rw [if_pos link] at member
        exact (mem_treeOrder level (by rw [length_cons]; omega) deeper
          ((child_iff here (by omega)).mp link)).mp member
      · rw [if_neg link] at member
        cases member
    apply List.Nodup.append
    · apply nodup_flatMap.mpr
      constructor
      · intro i _
        by_cases link : present (s.tables table i) ∧ !huge (s.tables table i)
        · rw [if_pos link]
          exact ih (p := i :: p) (by rw [length_cons]; omega)
            ((child_iff here (by omega)).mp link)
        · rw [if_neg link]
          exact nodup_nil
      · apply (nodup_finRange _).imp
        intro i j different a first second
        obtain ⟨q, underI, foundI⟩ := members i a first
        obtain ⟨r, underJ, foundJ⟩ := members j a second
        obtain rfl := unshared q r a foundI foundJ
        -- Two suffixes of one path with the same length are equal.
        have same := suffix_of_suffix_length_le underI underJ (by simp)
        have equal := same.eq_of_length (by simp)
        exact different (List.cons.inj equal).1
    · exact nodup_singleton table
    · intro a below same
      obtain rfl := mem_singleton.mp same
      obtain ⟨i, -, member⟩ := mem_flatMap.mp below
      obtain ⟨q, under, found⟩ := members i a member
      have equal := unshared q p a found here
      have length := under.length_le
      rw [equal, length_cons] at length
      omega

end

/-- Giving back a list of different tables. -/
theorem foldl_releaseTable {l : List Nat} (supplied : SupplySound s) (distinct : l.Nodup)
    (held : ∀ a ∈ l, Held s.frames s.hierarchy a) (counted : l.length ≤ s.hierarchy.tableFrames) :
    (l.foldl releaseTable s).hierarchy.tableFrames = s.hierarchy.tableFrames - l.length ∧
      ∀ f, (l.foldl releaseTable s).frames.used f ↔ s.frames.used f ∧
        ¬(s.hierarchy.arenaCapacity = 0 ∧ f * sapotePageSize ∈ l) := by
  induction l generalizing s with
  | nil => exact ⟨rfl, fun f => by simp⟩
  | cons b l ih =>
    rw [nodup_cons] at distinct
    rw [length_cons] at counted
    have released := releaseTable_releases supplied (held b mem_cons_self)
    have fewer : (releaseTable s b).hierarchy.tableFrames = s.hierarchy.tableFrames - 1 := by
      exact sizeSub_of_le (by omega)
    have arena : (releaseTable s b).hierarchy.arenaCapacity = s.hierarchy.arenaCapacity := rfl
    obtain ⟨count, used⟩ := ih released.supply distinct.2
      (fun a member => released.kept a (fun same => distinct.1 (same ▸ member))
        (held a (.tail b member))) (by omega)
    rw [foldl_cons, length_cons]
    refine ⟨by rw [count, fewer]; omega, ?_⟩
    intro f
    rw [used f, released.used f, arena, mem_cons]
    tauto

/-- `release_table_tree` on the root: every table once, all frames back. -/
theorem releaseTableTree_root (sound : HierarchySound s) :
    let order := treeOrder s.tables 4 s.hierarchy.root
    let released := releaseTableTree 4 s.hierarchy.root s
    released = order.foldl releaseTable s ∧ order.Nodup ∧ (∀ a, a ∈ order ↔ a ∈ s.tableSet) ∧
      released.hierarchy.tableFrames = 0 ∧
      ∀ f, released.frames.used f ↔ s.frames.used f ∧
        ¬(s.hierarchy.arenaCapacity = 0 ∧ f * sapotePageSize ∈ s.tableSet) := by
  intro order released
  have distinct := nodup_treeOrder sound.unshared (p := []) 4 rfl rfl
  have members : ∀ a, a ∈ order ↔ a ∈ s.tableSet := by
    intro a
    rw [mem_treeOrder (p := []) 4 rfl (by omega) rfl]
    exact ⟨fun ⟨q, _, found⟩ => ⟨q, found⟩, fun ⟨q, found⟩ => ⟨q, nil_suffix, found⟩⟩
  have count : s.hierarchy.tableFrames = order.length := by
    rw [sound.counted, ← toFinset_card_of_nodup distinct, ← Set.ncard_coe_finset]
    congr 1
    ext a
    rw [Finset.mem_coe, mem_toFinset, members]
  obtain ⟨frames, used⟩ := foldl_releaseTable sound.supply distinct
    (fun a member => by
      obtain ⟨q, found⟩ := (members a).mp member
      exact sound.held q a found) (le_of_eq count.symm)
  have sequence : released = order.foldl releaseTable s := releaseTableTree_eq 4 _ s
  refine ⟨sequence, distinct, members, ?_, ?_⟩
  · rw [sequence, frames, count, Nat.sub_self]
  · intro f
    rw [sequence, used f, members]

/-- The table accounting of a hierarchy built by calls that return OK. -/
theorem table_frames_accounted {pat : Word} {s : TableState} (built : Built pat s) :
    s.hierarchy.tableFrames = s.tableSet.ncard ∧
      (∀ p q a, s.node p = some a → s.node q = some a → p = q) ∧
      (∀ q a, q ≠ [] → s.node q = some a → tableIsEmpty s.tables a = false) ∧
      (∀ va pa length permissions,
        (mapRange s va pa length permissions 1).status = .ok →
          let mapped := (mapRange s va pa length permissions 1).state
          (unmapRange mapped va length).status = .ok ∧
            (unmapRange mapped va length).state.hierarchy.tableFrames = s.hierarchy.tableFrames ∧
            (unmapRange mapped va length).state.frames.used = s.frames.used) ∧
      (∃ order : List Nat,
        releaseTableTree 4 s.hierarchy.root s = order.foldl releaseTable s ∧ order.Nodup ∧
          ∀ a, a ∈ order ↔ ∃ p, s.node p = some a) ∧
      (∀ f, (releaseTableTree 4 s.hierarchy.root s).frames.used f = true ↔
        s.frames.used f = true ∧
          ¬(s.hierarchy.arenaCapacity = 0 ∧ f * sapotePageSize ∈ s.tableSet)) ∧
      (releaseTableTree 4 s.hierarchy.root s).hierarchy.tableFrames = 0 := by
  obtain ⟨sound, full⟩ := built.full
  obtain ⟨sequence, distinct, members, zero, freed⟩ := releaseTableTree_root sound
  refine ⟨sound.counted, sound.unshared, full, ?_, ⟨_, sequence, distinct, members⟩, freed, zero⟩
  intro va pa length permissions ok
  obtain ⟨status, restored⟩ := unmap_undoes_map sound full ok
  exact ⟨status, restored.tableFrames, funext restored.used⟩

theorem table_frames_accounted_arena :
    let mapped := rangeStep pagingTestPat (arenaState smallStart.2) arenaMap
    Built pagingTestPat mapped.state ∧
      (releaseTableTree 4 0x200000 mapped.state).hierarchy.tableFrames = 0 := by
  intro mapped
  have ok : mapped.status = .ok := by decide +kernel
  have root : mapped.state.hierarchy.root = 0x200000 := by decide +kernel
  have built : Built pagingTestPat mapped.state :=
    .call arenaMap (.empty (arenaState_empty smallStart_sound)) ok
  have freed := (table_frames_accounted built).2.2.2.2.2.2
  rw [root] at freed
  exact ⟨built, freed⟩

end Sapote.Paging
