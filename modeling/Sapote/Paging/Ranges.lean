import Sapote.Library.Checks
import Sapote.Paging.Translation

/-!
The range loops: what the first passes of `map_range`, `unmap_range` and
`protect_range` establish, and what the second passes do page by page.
-/

namespace Sapote.Paging
open Frames Library List Nat
variable {s t : TableState} {va level target k a : Nat} {offsets : List Nat} {e : Word}
  {slot : Path} {i : Nat}

def pageAt (va level i : Nat) : Nat := va + i * levelPageSize level

def slotAt (va level i : Nat) : Path := pathTo (pageAt va level i) (5 - level)

theorem levelPageSize_pos (level : Nat) : 0 < levelPageSize level := Nat.two_pow_pos _

theorem rangeOffsets_mul {n pageSize : Nat} (positive : 0 < pageSize) :
    rangeOffsets (n * pageSize) pageSize = (List.range n).map (· * pageSize) := by
  rw [rangeOffsets]
  congr 2
  rw [Nat.add_sub_assoc positive, add_comm, mul_comm n,
    Nat.add_mul_div_left _ _ positive, Nat.div_eq_of_lt (by omega), zero_add]

theorem slot_cons (sized : level = 1 ∨ level = 2) :
    pathTo va (5 - level) = tableIndex va level :: pathTo va (4 - level) := by
  obtain rfl | rfl := sized
  · rfl
  · rfl

/-- A larger leaf above the target ends the path before it. -/
theorem RefusedAbove.leaf (refused : RefusedAbove s false va 0 target) :
    ∃ d e, d < 4 - target ∧ s.leaf (pathTo va (d + 1)) = some e ∧ huge e := by
  obtain ⟨d, e, -, bound, slot, there, large⟩ := refused
  have huge' : huge e := by simpa [walkRefuses] using large
  exact ⟨d, e, bound, leaf_pathTo.mpr ⟨slot, pageView_leaf there (.inr huge')⟩, huge'⟩

theorem not_refused_of_node (here : s.node (pathTo va (4 - target)) ≠ none) :
    ¬RefusedAbove s false va 0 target := by
  intro refused
  obtain ⟨d, e, bound, leaf, -⟩ := refused.leaf
  exact here (node_none_of_cell bound (leaf_pathTo.mp leaf).1 (leaf_child leaf))

theorem entryFor_node (low : 1 ≤ target) (high : target ≤ 4)
    (here : s.node (pathTo va (4 - target)) = some a) :
    entryFor s va target false = ⟨.ok, a, s⟩ := by
  have there : s.node (pathTo va (4 - target)) ≠ none := by simp [here]
  obtain ⟨b, same, result⟩ | ⟨absent, -⟩ | ⟨refused, -⟩ := entryFor_false s va low high
  · obtain rfl := Option.some.inj (here.symm.trans same)
    exact result
  · exact absurd absent.node_none there
  · exact absurd refused (not_refused_of_node there)

theorem entryFor_missing (low : 1 ≤ target) (high : target ≤ 4)
    (missing : s.node (pathTo va (4 - target)) = none) :
    (entryFor s va target false).status ≠ .ok := by
  intro ok
  obtain ⟨a, here, -⟩ := entryFor_ok low high ok
  exact nomatch missing.symm.trans here

theorem not_refused_of_absent (absent : AbsentAbove s va target) :
    ¬RefusedAbove s false va 0 target := by
  intro refused
  obtain ⟨d, e, bound, leaf, -⟩ := refused.leaf
  obtain ⟨d', e', bound', slot', gone⟩ := absent
  have slot := (leaf_pathTo.mp leaf).1
  by_cases same : d = d'
  · rw [same, slot'] at slot
    have there := leaf_present leaf
    rw [← Option.some.inj slot, gone] at there
    cases there
  by_cases before : d < d'
  · have missing := node_none_of_cell before slot (leaf_child leaf)
    exact parent_of_cell slot' missing
  · have missing : s.node (pathTo va d) = none :=
      node_none_of_cell (by omega) slot' (pageView_child_absent gone)
    exact parent_of_cell slot missing

structure Free (s : TableState) (va level : Nat) : Prop where
  vacant : Vacant s (pathTo va (5 - level))
  clear : ¬RefusedAbove s false va 0 level

theorem requireUnmapped_ok (sound : HierarchySound s) (sized : level = 1 ∨ level = 2)
    (ok : requireUnmapped s va level offsets = .ok) : ∀ o ∈ offsets, Free s (va + o) level := by
  induction offsets with
  | nil => nofun
  | cons o offsets ih =>
    have low : 1 ≤ level := by omega
    rw [requireUnmapped] at ok
    have step : Free s (va + o) level ∧ requireUnmapped s va level offsets = .ok := by
      obtain ⟨a, here, result⟩ | rest := entryFor_false s (va + o) low (by omega)
      · rw [result, if_pos rfl, entryAt] at ok
        by_cases there : present (s.tables a (tableIndex (va + o) level))
        · rw [if_pos there] at ok
          cases ok
        · rw [if_neg there] at ok
          refine ⟨⟨?_, not_refused_of_node (by rw [here]; exact nofun)⟩, ok⟩
          rw [slot_cons sized]
          exact vacant_of_absent sound here (Bool.eq_false_iff.mpr there)
      obtain absent | refused := rest
      · rw [absent.2, if_neg (by simp), if_neg (by simp)] at ok
        refine ⟨⟨?_, not_refused_of_absent absent.1⟩, ok⟩
        rw [slot_cons sized]
        exact vacant_of_missing absent.1.node_none
      · rw [refused.2, if_neg (by simp), if_pos (by simp)] at ok
        cases ok
    exact forall_mem_cons.mpr ⟨step.1, ih step.2⟩

theorem requireMappedRange_ok (ok : requireMappedRange s va offsets = .ok) :
    ∀ o ∈ offsets, ∃ e, s.leaf (pathTo (va + o) 4) = some e := by
  induction offsets with
  | nil => nofun
  | cons o offsets ih =>
    simp only [requireMappedRange, guard_eq_iff] at ok
    obtain ⟨walked, ok⟩ := ok
    obtain ⟨a, here, result⟩ := entryFor_ok (le_refl 1) (by omega) walked
    rw [result, entryAt] at ok
    split at ok
    · cases ok
    next there =>
    rw [Bool.not_eq_true', Bool.not_eq_false] at there
    exact forall_mem_cons.mpr ⟨⟨_, leaf_pathTo.mpr ⟨cell_cons_of here,
      pageView_leaf there (.inl (le_refl 3))⟩⟩, ih ok⟩

theorem requireMemoryType_ok {requested : MemoryType} {pat : Word}
    (ok : requireMemoryType s va requested pat offsets = .ok) :
    ∀ o ∈ offsets, ∀ e, s.leaf (pathTo (va + o) 4) = some e → leafMemoryType e 1 pat = requested := by
  induction offsets with
  | nil => nofun
  | cons o offsets ih =>
    simp only [requireMemoryType, guard_eq_iff] at ok
    obtain ⟨walked, ok⟩ := ok
    obtain ⟨a, here, result⟩ := entryFor_ok (le_refl 1) (by omega) walked
    rw [result, entryAt] at ok
    split at ok
    · cases ok
    next same =>
    refine forall_mem_cons.mpr ⟨fun e leaf => ?_, ih ok⟩
    have slot := (leaf_pathTo.mp leaf).1
    rw [pathTo_succ, TableState.cell, cell_cons_of here] at slot
    rw [← Option.some.inj slot]
    exact not_not.mp same

/-- `t` is `s` with one slot, that held no table, overwritten by `e`. -/
structure Rewritten (s t : TableState) (slot : Path) (e : Word) : Prop where
  edits : Edits s t
  node : ∀ q, t.node q = s.node q
  cell : ∀ q, t.cell q = if q = slot then some e else s.cell q

theorem rewritten_of (sound : HierarchySound s) (sized : level = 1 ∨ level = 2)
    (here : s.node (pathTo va (4 - level)) = some a)
    (noTable : s.node (pathTo va (5 - level)) = none) (new : (pageView (4 - level) e).child = none)
    (zero : present e = false → e = 0) :
    Rewritten s (writeEntry s a (tableIndex va level) e) (pathTo va (5 - level)) e := by
  rw [slot_cons sized] at noTable ⊢
  have old : (pageView (pathTo va (4 - level)).length (s.tables a (tableIndex va level))).child =
      none := by
    rw [← node_cons_of here]
    exact noTable
  have new' : (pageView (pathTo va (4 - level)).length e).child = none := by
    rw [length_pathTo]
    exact new
  exact ⟨edits_setLeaf sound here old new' zero, node_setLeaf sound here old new',
    cell_setLeaf sound here old new'⟩

theorem node_four (va : Nat) : s.node (pathTo va 4) = none := by
  apply Option.eq_none_iff_forall_ne_some.mpr
  intro a here
  have := node_depth here
  rw [length_pathTo] at this
  omega

theorem Rewritten.leaf (w : Rewritten s t slot e) (q : Path) : t.leaf q =
      if q = slot then (some e).filter (fun e => pageView (slot.length - 1) e = .leaf) else s.leaf q := by
  rw [TableState.leaf, w.cell]
  split
  · next here =>
        rw [here]
  · simp only [TableState.leaf]

theorem Rewritten.leaf_zero (w : Rewritten s t slot 0) (q : Path) :
    t.leaf q = if q = slot then none else s.leaf q := by
  rw [w.leaf, Option.filter_some, pageView_zero]
  rfl

theorem clearPage_cases (sound : HierarchySound s) (va level : Nat)
    (sized : level = 1 ∨ level = 2) (noTable : s.node (pathTo va (5 - level)) = none) :
    (s.node (pathTo va (4 - level)) = none ∧ clearPage level s va = s) ∨
      ∃ z, s.node (pathTo va (4 - level)) ≠ none ∧ Rewritten s z (pathTo va (5 - level)) 0 ∧
        ((level = 1 ∧ ∃ c, Climbed z (clearPage level s va) va 3 c) ∨
          (level = 2 ∧ clearPage level s va = z)) := by
  have low : 1 ≤ level := by omega
  rw [clearPage]
  cases here : s.node (pathTo va (4 - level)) with
  | none =>
    rw [if_pos (entryFor_missing low (by omega) here)]
    exact .inl ⟨rfl, rfl⟩
  | some a =>
    have zeroed := rewritten_of sound sized here noTable (e := 0)
      (by rw [pageView_zero]; rfl) fun _ => rfl
    rw [entryFor_node low (by omega) here, if_neg (by simp)]
    refine .inr ⟨_, nofun, zeroed, ?_⟩
    obtain one | two := sized
    · rw [if_pos one]
      refine .inl ⟨one, ?_⟩
      apply reclaimEmptyTables_climbed zeroed.edits.sound
      subst one
      rw [zeroed.node, here]
      nofun
    · rw [if_neg (by omega)]
      exact .inr ⟨two, rfl⟩

structure Cleared (s t : TableState) (slot : Path) : Prop where
  edits : Edits s t
  leaf : ∀ q, t.leaf q = if q = slot then none else s.leaf q
  node : ∀ q, t.node q ≠ none → t.node q = s.node q

theorem clearPage_cleared (sound : HierarchySound s) (va level : Nat)
    (sized : level = 1 ∨ level = 2) (noTable : s.node (pathTo va (5 - level)) = none) :
    Cleared s (clearPage level s va) (pathTo va (5 - level)) := by
  obtain unchanged | ⟨z, exists_, zeroed, after⟩ := clearPage_cases sound va level sized noTable
  · rw [unchanged.2]
    refine ⟨.refl sound, ?_, fun _ _ => rfl⟩
    intro q
    by_cases here : q = pathTo va (5 - level)
    · have vacant : Vacant s (pathTo va (5 - level)) := by
        rw [slot_cons sized]
        exact vacant_of_missing unchanged.1
      rw [if_pos here, here, vacant.no_leaf]
    · rw [if_neg here]
  obtain climbed | same := after
  · obtain ⟨one, c, climbed⟩ := climbed
    have bottom : z.node (pathTo va 3) ≠ none := by
      rw [zeroed.node]
      subst one
      exact exists_
    refine ⟨zeroed.edits.trans climbed.edits, ?_, ?_⟩
    · intro q
      rw [climbed.leaf bottom, zeroed.leaf_zero]
    · intro q here
      rw [climbed.node_kept, zeroed.node]
      intro j low high same
      rw [same] at here
      exact here (climbed.node_gone j low high)
  · rw [same.2]
    exact ⟨zeroed.edits, zeroed.leaf_zero, fun q _ => zeroed.node q⟩

theorem clearRange_zero (s : TableState) (va level : Nat) :
    clearRange s va (0 * levelPageSize level) level = s := by
  rw [clearRange, rangeOffsets_mul (levelPageSize_pos level)]
  rfl

theorem clearRange_succ (s : TableState) (va level k : Nat) :
    clearRange s va ((k + 1) * levelPageSize level) level =
      clearPage level (clearRange s va (k * levelPageSize level) level) (pageAt va level k) := by
  simp only [clearRange, rangeOffsets_mul (levelPageSize_pos level), range_succ,
    map_append, foldl_append]
  rfl

structure ClearedRange (s t : TableState) (va level k : Nat) : Prop where
  edits : Edits s t
  leaf_gone : ∀ i, i < k → t.leaf (slotAt va level i) = none
  leaf_kept : ∀ q, (∀ i, i < k → q ≠ slotAt va level i) → t.leaf q = s.leaf q
  node : ∀ q, t.node q ≠ none → t.node q = s.node q

theorem clearRange_cleared (sound : HierarchySound s) (va level : Nat)
    (sized : level = 1 ∨ level = 2) (k : Nat)
    (noTable : ∀ i, i < k → s.node (slotAt va level i) = none) :
    ClearedRange s (clearRange s va (k * levelPageSize level) level) va level k := by
  induction k with
  | zero =>
    rw [clearRange_zero]
    exact ⟨Edits.refl sound, fun i small => absurd small (not_lt_zero i), fun _ _ => rfl,
      fun _ _ => rfl⟩
  | succ k ih =>
    have before := ih fun i small => noTable i (by omega)
    rw [clearRange_succ]
    have last : (clearRange s va (k * levelPageSize level) level).node (slotAt va level k) =
        none := by
      by_contra here
      have kept := before.node _ here
      rw [noTable k (lt_succ_self k)] at kept
      exact here kept
    have step := clearPage_cleared before.edits.sound _ level sized last
    refine ⟨before.edits.trans step.edits, ?_, ?_, ?_⟩
    · intro i small
      rw [step.leaf]
      by_cases same : slotAt va level i = pathTo (pageAt va level k) (5 - level)
      · rw [if_pos same]
      · rw [if_neg same]
        apply before.leaf_gone
        by_contra large
        obtain rfl : i = k := by omega
        exact same rfl
    · intro q away
      refine (step.leaf q).trans ((if_neg (away k (lt_succ_self k))).trans ?_)
      exact before.leaf_kept q fun i small => away i (by omega)
    · intro q here
      have middle := step.node q here
      rw [middle]
      apply before.node
      rw [← middle]
      exact here

def needed (s : TableState) (va level k : Nat) : Set Path :=
  {q | ∃ i, i < k ∧ q ∈ missing s (pageAt va level i) (4 - level)}

def requestLeaves (va pa : Nat) (permissions : Permissions) (level k : Nat) : Set (Path × Word) :=
  {z | ∃ i, i < k ∧
    z = (slotAt va level i, leafEntry (pa + i * levelPageSize level) permissions level)}

theorem missing_length {m : Nat} {q : Path} (h : q ∈ missing s va m) : q.length ≤ m := by
  obtain ⟨j, small, rfl, -⟩ := h
  rw [length_pathTo]
  exact small

theorem slotAt_not_needed {i : Nat} (sized : level = 1 ∨ level = 2) :
    slotAt va level i ∉ needed s va level k := by
  rintro ⟨j, -, member⟩
  have := missing_length member
  rw [slotAt, length_pathTo] at this
  omega

/-- Past a growth by what some pages lacked, a further page lacks the rest. -/
theorem needed_union_missing {L : Set (Path × Word)} {x m : Nat}
    (grown : Grown s t (needed s va level k) L) :
    needed s va level k ∪ missing t x m = needed s va level k ∪ missing s x m := by
  ext q
  by_cases new : q ∈ needed s va level k
  · exact ⟨fun _ => .inl new, fun _ => .inl new⟩
  · have same := grown.node_old q new
    exact or_congr_right (exists_congr fun j => by rw [same])

theorem needed_succ (s : TableState) (va level k : Nat) :
    needed s va level (k + 1) =
      needed s va level k ∪ missing s (pageAt va level k) (4 - level) := by
  ext q
  exact exists_lt_succ_right

theorem requestLeaves_succ (va pa : Nat) (permissions : Permissions) (level k : Nat) :
    requestLeaves va pa permissions level (k + 1) = requestLeaves va pa permissions level k ∪
        {(slotAt va level k, leafEntry (pa + k * levelPageSize level) permissions level)} := by
  ext z
  exact exists_lt_succ_right

/-- A request that passed the checks and the first pass of `map_range`. -/
structure MapRequest (s : TableState) (va pa : Nat) (permissions : Permissions) (level n : Nat) :
    Prop where
  sound : HierarchySound s
  sized : level = 1 ∨ level = 2
  leaf : ∀ i, i < n → LeafRequest (pa + i * levelPageSize level) permissions level
  free : ∀ i, i < n → Free s (pageAt va level i) level
  canonical : ∀ x, va ≤ x → x < va + n * levelPageSize level → addressIsCanonical x
  aligned : va % levelPageSize level = 0

section
variable {s : TableState} {va pa level n : Nat} {permissions : Permissions}

theorem pageAt_mem {i : Nat} (small : i < n) :
    va ≤ pageAt va level i ∧
      pageAt va level i + levelPageSize level ≤ va + n * levelPageSize level := by
  have step : (i + 1) * levelPageSize level ≤ n * levelPageSize level :=
    mul_le_mul_right _ small
  rw [add_mul, one_mul] at step
  unfold pageAt
  omega

theorem MapRequest.canonical_page (request : MapRequest s va pa permissions level n)
    (small : i < n) : addressIsCanonical (pageAt va level i) := by
  obtain ⟨low, high⟩ := @pageAt_mem va level _ _ small
  have := levelPageSize_pos level
  exact request.canonical _ low (by omega)

theorem pageAt_div : pageAt va level i / levelPageSize level = va / levelPageSize level + i := by
  rw [pageAt, add_mul_div_right _ _ (levelPageSize_pos level)]

theorem MapRequest.distinct (request : MapRequest s va pa permissions level n) {i j : Nat}
    (hi : i < n) (hj : j < n) (same : slotAt va level i = slotAt va level j) : i = j := by
  have pages := (pathTo_eq_iff (by have := request.sized; omega) (request.canonical_page hi)
    (request.canonical_page hj)).mp same
  simp only [pageAt_div] at pages
  omega

/-- The state in which page `j` of a request found the supply empty, with the
tables of its path down to depth `m` in place. -/
structure Starved (s f : TableState) (va pa : Nat) (permissions : Permissions) (level j m : Nat) :
    Prop where
  grows : Grows s f (needed s va level j ∪ missing s (pageAt va level j) m)
    (requestLeaves va pa permissions level j)
  empty : supply f = 0
  depth : m < 4 - level
  stuck : f.node (pathTo (pageAt va level j) (m + 1)) = none

section
variable (request : MapRequest s va pa permissions level n)
include request

/-- After `k` pages the slot of page `k` is still vacant. -/
theorem MapRequest.slot_absent (small : k < n)
    (grown : Grown s t (needed s va level (k + 1)) (requestLeaves va pa permissions level k))
    (here : t.node (pathTo (pageAt va level k) (4 - level)) = some a) :
    present (t.tables a (tableIndex (pageAt va level k) level)) = false := by
  have noTable := @slotAt_not_needed s va _ (k + 1) k request.sized
  have noLeaf : ∀ e, (slotAt va level k, e) ∉ requestLeaves va pa permissions level k := by
    rintro e ⟨i, before, shape⟩
    have := request.distinct small (by omega) (Prod.mk.inj shape).1
    omega
  have slot : t.cell (slotAt va level k) =
      some (t.tables a (tableIndex (pageAt va level k) level)) := by
    rw [slotAt, slot_cons request.sized]
    exact cell_cons_of here
  have vacant := (request.free k small).vacant
  rw [← slotAt] at vacant
  have zero : t.tables a (tableIndex (pageAt va level k) level) = 0 := by
    have shape := @slot_cons (pageAt va level k) _ request.sized
    rw [← slotAt] at shape
    rw [shape] at noTable noLeaf slot vacant
    by_cases under : pathTo (pageAt va level k) (4 - level) ∈ needed s va level (k + 1)
    · rw [grown.cell_new _ _ under noTable noLeaf] at slot
      exact (Option.some.inj slot).symm
    · rw [grown.cell_old _ _ under noTable noLeaf] at slot
      exact vacant.2 _ slot
  rw [zero]
  decide

theorem MapRequest.not_refused (small : k < n)
    {N : Set Path} (grown : Grown s t N (requestLeaves va pa permissions level k)) :
    ¬RefusedAbove t false (pageAt va level k) 0 level := by
  intro refused
  obtain ⟨d, e, bound, leaf, large⟩ := refused.leaf
  obtain ⟨i, -, shape⟩ | old := grown.leaf_iff.mp leaf
  · have length := congrArg List.length (Prod.mk.inj shape).1
    simp only [slotAt, length_pathTo] at length
    omega
  · obtain ⟨slot, seen⟩ := leaf_pathTo.mp old
    refine (request.free k small).clear ⟨d, e, zero_le d, bound, slot, leaf_present old, ?_⟩
    rw [walkRefuses, large]
    rfl

/-- The second pass of `map_range`, from page `k` on. -/
theorem mapPages_cases (r k : Nat) (total : k + r = n)
    (grows : Grows s t (needed s va level k) (requestLeaves va pa permissions level k)) :
    let result := mapPages va pa permissions level
      ((List.range' k r).map (· * levelPageSize level)) t
    (result.status = .ok ∧ Grows s result.state (needed s va level n)
        (requestLeaves va pa permissions level n)) ∨
      ∃ j m f, j < n ∧ Starved s f va pa permissions level j m ∧
        result = ⟨.outOfFrames, clearRange f va (j * levelPageSize level) level⟩ := by
  induction r generalizing k t with
  | zero =>
    obtain rfl : k = n := by omega
    exact .inl ⟨rfl, grows⟩
  | succ r ih =>
    have small : k < n := by omega
    have low : 1 ≤ level := by
      have := request.sized
      omega
    rw [List.range'_succ, map_cons, mapPages]
    have page : va + k * levelPageSize level = pageAt va level k := rfl
    rw [page]
    cases entryFor_true grows.grown.edits.sound (pageAt va level k) low
        (by have := request.sized; omega) with
    | inl ok =>
      obtain ⟨status, further, here⟩ := ok
      rw [if_neg (not_not.mpr status)]
      have whole := grows.trans further
      rw [needed_union_missing grows.grown, ← needed_succ, Set.union_empty] at whole
      have absent := request.slot_absent small whole.grown here
      have view := (request.leaf k small).view
      rw [← length_pathTo (pageAt va level k) (4 - level)] at view
      have last := whole.trans (.leaf whole.grown.edits.sound here absent view)
      rw [Set.union_empty, ← slot_cons request.sized, ← slotAt, ← requestLeaves_succ] at last
      exact ih (k + 1) (by omega) last
    | inr rest =>
      obtain ⟨status, empty, m, depth, further, -, stuck⟩ | refused := rest
      · have whole := grows.trans further
        rw [needed_union_missing grows.grown, Set.union_empty] at whole
        refine .inr ⟨k, m, _, small, ⟨whole, empty, depth, stuck⟩, ?_⟩
        rw [if_pos (by rw [status]; exact nofun), status]
      · exact absurd refused.2 (request.not_refused small grows.grown)

end

end

end Sapote.Paging
