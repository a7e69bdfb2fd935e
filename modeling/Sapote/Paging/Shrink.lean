import Sapote.Paging.Operations

/-!
Clearing the pages of a grown hierarchy. A page whose path had no empty table
before it was mapped takes exactly its own tables away again, so clearing all
pages of a request undoes the growth.
-/

namespace Sapote.Paging
open Frames Library
variable {q : Path} {s : TableState} {i : TableIndex} {d : Nat}

def InUse (s : TableState) (q : Path) : Prop := ∃ i e, s.cell (i :: q) = some e ∧ present e

theorem inUse_iff {a : Nat} (here : s.node q = some a) :
    InUse s q ↔ tableIsEmpty s.tables a = false := by
  rw [← Bool.not_eq_true, tableIsEmpty_iff, not_forall]
  constructor
  · rintro ⟨i, e, slot, there⟩
    rw [TableState.cell, cell_cons_of here] at slot
    refine ⟨i, ?_⟩
    rw [Option.some.inj slot, there]
    simp
  · rintro ⟨i, there⟩
    exact ⟨i, _, cell_cons_of here, by simpa using there⟩

theorem inUse_of_child (child : s.node (i :: q) ≠ none) : InUse s q := by
  obtain ⟨b, here⟩ := Option.ne_none_iff_exists'.mp child
  obtain ⟨e, slot, seen⟩ := node_iff_cell.mp here
  exact ⟨i, e, slot, (pageView_table seen).1⟩

/-- No table on the path of an address is empty, the root apart. -/
def Anchored (s : TableState) (va : Nat) : Prop :=
  ∀ d a, 1 ≤ d → s.node (pathTo va d) = some a → tableIsEmpty s.tables a = false

theorem Anchored.inUse {va : Nat} (anchored : Anchored s va) (inner : 1 ≤ d)
    (here : s.node (pathTo va d) ≠ none) : InUse s (pathTo va d) := by
  obtain ⟨a, node⟩ := Option.ne_none_iff_exists'.mp here
  exact (inUse_iff node).mpr (anchored d a inner node)

section
variable {s : TableState} {x : Nat} {e : Word}

section
variable (sound : HierarchySound s) (mapped : s.leaf (pathTo x 4) = some e)
include sound mapped

/-- Clearing a mapped 4 KiB page: the slot goes to zero, then the empty tables go. -/
theorem clearPage_mapped : ∃ z c, Rewritten s z (pathTo x 4) 0 ∧ Climbed z (clearPage 1 s x) x 3 c ∧
      z.node (pathTo x 3) ≠ none := by
  have bottom : s.node (pathTo x 3) ≠ none := by
    have slot := (leaf_pathTo.mp mapped).1
    exact parent_of_cell slot
  obtain unchanged | ⟨z, -, zeroed, after⟩ := clearPage_cases sound x 1 (.inl rfl) (node_four x)
  · exact absurd unchanged.1 bottom
  obtain climbed | other := after
  · obtain ⟨-, c, climbed⟩ := climbed
    exact ⟨z, c, zeroed, climbed, by rw [zeroed.node]; exact bottom⟩
  · exact absurd other.1 (by decide)

/-- What is left of the path of a cleared page is in use. -/
theorem clearPage_path_inUse (inner : 1 ≤ d) (here : (clearPage 1 s x).node (pathTo x d) ≠ none) :
    InUse (clearPage 1 s x) (pathTo x d) := by
  obtain ⟨z, c, zeroed, climbed, bottom⟩ := clearPage_mapped sound mapped
  have shallow : d ≤ 3 := by
    obtain ⟨a, node⟩ := Option.ne_none_iff_exists'.mp here
    have := node_depth node
    rw [length_pathTo] at this
    exact this
  have kept : d ≤ c := by
    by_contra past
    exact here (climbed.node_gone d (by omega) shallow)
  by_cases last : d = c
  · rw [last]
    exact climbed.stops.resolve_left (by omega)
  have next : (clearPage 1 s x).node (pathTo x (d + 1)) ≠ none := by
    rw [climbed.node_kept _ fun j low _ same => by
      have := pathTo_inj same
      omega]
    exact node_above (by have := climbed.bound; omega) bottom
  exact inUse_of_child next

/-- Tables in use that survive the clearing of a page are still in use. -/
theorem clearPage_inUse (inner : q ≠ []) (here : (clearPage 1 s x).node q ≠ none) (used : InUse s q) :
    InUse (clearPage 1 s x) q := by
  by_cases path : ∃ d, q = pathTo x d
  · obtain ⟨d, rfl⟩ := path
    refine clearPage_path_inUse sound mapped ?_ here
    by_contra zero
    obtain rfl : d = 0 := by omega
    exact inner rfl
  obtain ⟨z, c, zeroed, climbed, -⟩ := clearPage_mapped sound mapped
  obtain ⟨i, entry, slot, there⟩ := used
  refine ⟨i, entry, ?_, there⟩
  have off : ∀ d, i :: q ≠ pathTo x (d + 1) := by
    intro d same
    exact path ⟨d, (List.cons.inj same).2⟩
  rw [climbed.cell_kept i q (fun j _ _ same => path ⟨j, same⟩) fun _ => off c]
  exact (zeroed.cell _).trans ((if_neg (off 3)).trans slot)

theorem clearPage_node_off (off : ∀ d, q ≠ pathTo x d) : (clearPage 1 s x).node q = s.node q := by
  obtain ⟨z, c, zeroed, climbed, -⟩ := clearPage_mapped sound mapped
  rw [climbed.node_kept q fun j _ _ => off j, zeroed.node]

end

end

/-- The tables lacked, and the leaves asked for, by pages `c` to `j` of a request
for 4 KiB pages. -/
def neededFrom (s : TableState) (va c j : Nat) : Set Path :=
  {q | ∃ i, c ≤ i ∧ i < j ∧ q ∈ missing s (pageAt va 1 i) 3}

def leavesFrom (va pa : Nat) (permissions : Permissions) (c j : Nat) : Set (Path × Word) :=
  {z | ∃ i, c ≤ i ∧ i < j ∧
    z = (slotAt va 1 i, leafEntry (pa + i * levelPageSize 1) permissions 1)}

theorem neededFrom_zero (s : TableState) (va j : Nat) : neededFrom s va 0 j = needed s va 1 j := by
  simp only [neededFrom, zero_le, true_and]
  rfl

theorem leavesFrom_zero (va pa : Nat) (permissions : Permissions) (j : Nat) :
    leavesFrom va pa permissions 0 j = requestLeaves va pa permissions 1 j := by
  simp only [leavesFrom, zero_le, true_and]
  rfl

section
variable {s t : TableState} {va pa n c j : Nat} {permissions : Permissions}

/-- One page of a grown request, about to be cleared: the state `z` after its slot
is zeroed and the state `u` after the climb, which stopped at depth `cut`. -/
structure Shrinks (s t z u : TableState) (va pa n c j : Nat) (permissions : Permissions)
    (cut : Nat) : Prop where
  request : MapRequest s va pa permissions 1 n
  order : c < j
  bound : j ≤ n
  grown : Grown s t (neededFrom s va c j) (leavesFrom va pa permissions c j)
  anchored : Anchored s (pageAt va 1 c)
  zeroed : Rewritten t z (slotAt va 1 c) 0
  climbed : Climbed z u (pageAt va 1 c) 3 cut
  bottom : z.node (pathTo (pageAt va 1 c) 3) ≠ none

variable {z u : TableState} {cut : Nat}

section
variable (h : Shrinks s t z u va pa n c j permissions cut)
include h

theorem Shrinks.slot_vacant :
    Vacant s (slotAt va 1 c) := (h.request.free c (lt_of_lt_of_le h.order h.bound)).vacant

theorem Shrinks.bottom_t : t.node (pathTo (pageAt va 1 c) 3) ≠ none := by
  rw [← h.zeroed.node]
  exact h.bottom

/-- The climb takes away only tables the request has brought. -/
theorem Shrinks.taken_missing (k : Nat)
    (inside : cut < 3 - k) : s.node (pathTo (pageAt va 1 c) (3 - k)) = none := by
  -- From the page table upward: below depth `3 - k` everything taken was missing.
  induction k with
  | zero =>
    by_contra here
    obtain ⟨i, e, slot, there⟩ := h.anchored.inUse (by omega) here
    have nonzero := ne_zero_of_present there
    have kept := h.grown.cell_kept slot nonzero
    by_cases mine : i :: pathTo (pageAt va 1 c) 3 = slotAt va 1 c
    · rw [show (3 - 0 : Nat) = 3 from rfl, mine] at slot
      exact nonzero (h.slot_vacant.2 e slot)
    · have slotZ := (h.zeroed.cell _).trans ((if_neg mine).trans kept)
      exact absurd (h.climbed.emptied 3 (by omega) (le_refl 3) i e slotZ there).1 (by omega)
  | succ k ih =>
    by_contra here
    obtain ⟨i, e, slot, there⟩ := h.anchored.inUse (by omega) here
    have nonzero := ne_zero_of_present there
    have kept := h.grown.cell_kept slot nonzero
    have mine : i :: pathTo (pageAt va 1 c) (3 - (k + 1)) ≠ slotAt va 1 c := by
      intro same
      have length := congrArg List.length same
      simp only [List.length_cons, length_pathTo, slotAt] at length
      omega
    have slotZ := (h.zeroed.cell _).trans ((if_neg mine).trans kept)
    obtain ⟨-, same⟩ := h.climbed.emptied _ inside (by omega) i e slotZ there
    -- The one entry it holds is a link, so the table below was there too.
    have below := ih (by omega)
    rw [show 3 - k = 3 - (k + 1) + 1 by omega] at below
    have child : t.node (pathTo (pageAt va 1 c) (3 - (k + 1) + 1)) ≠ none :=
      node_above (by omega) h.bottom_t
    rw [← same] at below child
    rw [node_congr_cell (kept.trans slot.symm)] at child
    exact child below

theorem Shrinks.gone (low : cut < d)
    (high : d ≤ 3) : s.node (pathTo (pageAt va 1 c) d) = none ∧
      u.node (pathTo (pageAt va 1 c) d) = none := by
  have taken := h.taken_missing (3 - d) (by omega)
  rw [show 3 - (3 - d) = d by omega] at taken
  exact ⟨taken, h.climbed.node_gone d low high⟩

end

def takenPaths (va c cut : Nat) : Set Path :=
  {q | ∃ d, cut < d ∧ d ≤ 3 ∧ q = pathTo (pageAt va 1 c) d}

section
variable (h : Shrinks s t z u va pa n c j permissions cut)
include h

theorem Shrinks.node_u (kept : q ∉ takenPaths va c cut) : u.node q = t.node q := by
  rw [h.climbed.node_kept q fun d low high same => kept ⟨d, low, high, same⟩, h.zeroed.node]

theorem Shrinks.leaf_u (other : q ≠ slotAt va 1 c) : u.leaf q = t.leaf q := by
  rw [h.climbed.leaf h.bottom, h.zeroed.leaf_zero, if_neg other]

/-- The leaves of the remaining pages are still there. -/
theorem Shrinks.remaining_leaf {i : Nat} (low : c + 1 ≤ i) (high : i < j) :
    u.leaf (slotAt va 1 i) = some (leafEntry (pa + i * levelPageSize 1) permissions 1) := by
  have bound := h.bound
  rw [h.leaf_u]
  · exact h.grown.leaf_new _ _ ⟨i, by omega, high, rfl⟩
  · intro same
    have := h.request.distinct (by omega) (by omega) same
    omega

/-- What remains lacking once the page is cleared. -/
theorem Shrinks.needed_eq :
    neededFrom s va (c + 1) j = neededFrom s va c j \ takenPaths va c cut := by
  ext q
  constructor
  · rintro ⟨i, low, high, d, small, rfl, absent⟩
    refine ⟨⟨i, by omega, high, d, small, rfl, absent⟩, ?_⟩
    rintro ⟨d', past, deep, same⟩
    have leaf := (leaf_pathTo.mp (h.remaining_leaf low high)).1
    have path := node_above (s := u) small (parent_of_cell leaf)
    rw [same] at path
    exact path (h.gone past deep).2
  · intro member
    obtain ⟨⟨i, low, high, d, small, shape, absent⟩, untaken⟩ := member
    by_cases mine : i = c
    swap
    · exact ⟨i, by omega, high, d, small, shape, absent⟩
    -- A table of the cleared page's own path that stayed: some other page uses it.
    subst mine
    have above : d ≤ cut := by
      by_contra past
      exact untaken ⟨d, by omega, small, shape⟩
    have inner : 1 ≤ cut := by
      by_contra zero
      obtain rfl : d = 0 := by omega
      rw [shape] at absent
      cases absent
    obtain ⟨k, e, slot, there⟩ := h.climbed.stops.resolve_left (by omega)
    have bound := h.climbed.bound
    have nonzero := ne_zero_of_present there
    have offCut : cut < 3 → k :: pathTo (pageAt va 1 i) cut ≠ pathTo (pageAt va 1 i) (cut + 1) := by
      intro less same
      rw [same, h.climbed.cell_cut less] at slot
      exact nonzero (Option.some.inj slot).symm
    rw [h.climbed.cell_kept k _ (fun d' past _ same => by
      have := pathTo_inj same
      omega) offCut, h.zeroed.cell] at slot
    have offSlot : k :: pathTo (pageAt va 1 i) cut ≠ slotAt va 1 i := by
      intro same
      rw [if_pos same] at slot
      exact nonzero (Option.some.inj slot).symm
    rw [if_neg offSlot] at slot
    have lacking : pathTo (pageAt va 1 i) cut ∈ neededFrom s va i j := by
      refine ⟨i, le_refl i, high, cut, bound, rfl, ?_⟩
      rw [shape] at absent
      exact node_none_of_suffix absent (pathTo_suffix above)
    -- The entry belongs to the growth: a table or a leaf of another page.
    have owner : ∃ i', i + 1 ≤ i' ∧ i' < j ∧
        pathTo (pageAt va 1 i) cut = pathTo (pageAt va 1 i') cut := by
      by_cases table : k :: pathTo (pageAt va 1 i) cut ∈ neededFrom s va i j
      · obtain ⟨i', low', high', d', small', shape', -⟩ := table
        have length := congrArg List.length shape'
        simp only [List.length_cons, length_pathTo] at length
        rw [← length] at shape'
        by_cases own : i' = i
        · rw [own] at shape'
          exact absurd shape' (offCut (by omega))
        · rw [pathTo_succ (pageAt va 1 i')] at shape'
          exact ⟨i', by omega, high', (List.cons.inj shape').2⟩
      by_cases leaf : ∃ e', (k :: pathTo (pageAt va 1 i) cut, e') ∈ leavesFrom va pa permissions i j
      · obtain ⟨e', i', low', high', shape'⟩ := leaf
        have path := (Prod.mk.inj shape').1
        have length := congrArg List.length path
        simp only [List.length_cons, length_pathTo, slotAt] at length
        obtain rfl : cut = 3 := by omega
        by_cases own : i' = i
        · rw [own] at path
          exact absurd path offSlot
        · rw [slotAt, show (5 - 1 : Nat) = 3 + 1 from rfl, pathTo_succ] at path
          exact ⟨i', by omega, high', (List.cons.inj path).2⟩
      · rw [h.grown.cell_new k _ lacking table fun e' member => leaf ⟨e', member⟩] at slot
        exact absurd (Option.some.inj slot).symm nonzero
    obtain ⟨i', low', high', path⟩ := owner
    have prefix_ : pathTo (pageAt va 1 i) d = pathTo (pageAt va 1 i') d := by
      apply spine_congr
      intro k' small'
      exact spine_inj path k' (by omega)
    exact ⟨i', low', high', d, small, shape.trans prefix_, absent⟩

end

theorem leavesFrom_cases {e : Word} (member : (q, e) ∈ leavesFrom va pa permissions c j) :
    q = slotAt va 1 c ∨ (q, e) ∈ leavesFrom va pa permissions (c + 1) j := by
  obtain ⟨i, low, high, shape⟩ := member
  by_cases mine : i = c
  · rw [mine] at shape
    exact .inl (Prod.mk.inj shape).1
  · exact .inr ⟨i, by omega, high, shape⟩

section
variable (h : Shrinks s t z u va pa n c j permissions cut)
include h

/-- Off the slot and the cut, the entries of the remaining tables are as before. -/
theorem Shrinks.cell_u (kept : q ∉ takenPaths va c cut) (slot : i :: q ≠ slotAt va 1 c)
    (untaken : i :: q ∉ takenPaths va c cut) : u.cell (i :: q) = t.cell (i :: q) := by
  rw [h.climbed.cell_kept i q (fun d low high same => kept ⟨d, low, high, same⟩) fun less same =>
    untaken ⟨cut + 1, Nat.lt_succ_self cut, less, same⟩, h.zeroed.cell, if_neg slot]

/-- A slot that was taken, or cleared, is zero in the table that remains. -/
theorem Shrinks.cell_cut_u (kept : q ∉ takenPaths va c cut)
    (taken : i :: q ∈ takenPaths va c cut ∨ i :: q = slotAt va 1 c) : u.cell (i :: q) = some 0 := by
  obtain ⟨d, low, high, same⟩ | slot := taken
  · have last : d = cut + 1 := by
      by_contra deeper
      obtain ⟨d', rfl⟩ : ∃ d', d = d' + 1 := ⟨d - 1, by omega⟩
      exact kept ⟨d', by omega, by omega, (List.cons.inj same).2⟩
    rw [same, last]
    exact h.climbed.cell_cut (by omega)
  have deep : cut < 3 → i :: q ≠ pathTo (pageAt va 1 c) (cut + 1) := by
    intro less same
    have length := congrArg List.length (slot.symm.trans same)
    simp only [slotAt, length_pathTo] at length
    omega
  rw [h.climbed.cell_kept i q (fun d low high same => kept ⟨d, low, high, same⟩) deep,
    h.zeroed.cell, if_pos slot]

/-- Clearing one page of a grown request leaves the growth by the other pages. -/
theorem Shrinks.grown_after :
    Grown s u (neededFrom s va (c + 1) j) (leavesFrom va pa permissions (c + 1) j) := by
  have order := h.order
  have fewer := h.needed_eq
  have takenNeeded : ∀ q, q ∈ takenPaths va c cut → q ∈ neededFrom s va c j := by
    rintro q ⟨d, low, high, rfl⟩
    exact ⟨c, le_refl c, order, d, high, rfl, (h.gone low high).1⟩
  have newer : ∀ q e, (q, e) ∈ leavesFrom va pa permissions (c + 1) j →
      (q, e) ∈ leavesFrom va pa permissions c j := by
    rintro q e ⟨i, low, high, shape⟩
    exact ⟨i, by omega, high, shape⟩
  refine ⟨h.grown.edits.trans (h.zeroed.edits.trans h.climbed.edits), ?_, ?_, ?_, ?_, ?_, ?_⟩
  · intro q added
    apply h.grown.vacant
    rw [fewer] at added
    exact added.imp (·.1) fun leaf => leaf.imp fun e => newer q e
  · intro q away
    by_cases taken : q ∈ takenPaths va c cut
    · obtain ⟨d, low, high, rfl⟩ := taken
      rw [(h.gone low high).1, (h.gone low high).2]
    · rw [h.node_u taken]
      apply h.grown.node_old
      rw [fewer] at away
      exact fun member => away ⟨member, taken⟩
  · intro q member
    rw [fewer] at member
    rw [h.node_u member.2]
    exact h.grown.node_new q member.1
  · rintro q e ⟨i, low, high, shape⟩
    obtain ⟨rfl, rfl⟩ := Prod.mk.inj shape
    exact h.remaining_leaf low high
  · intro i q under noTable noLeaf
    rw [fewer] at under
    by_cases taken : i :: q ∈ takenPaths va c cut ∨ i :: q = slotAt va 1 c
    · exact h.cell_cut_u under.2 taken
    rw [not_or] at taken
    rw [h.cell_u under.2 taken.2 taken.1]
    apply h.grown.cell_new i q under.1
    · intro member
      rw [fewer] at noTable
      exact noTable ⟨member, taken.1⟩
    · intro e member
      exact (leavesFrom_cases member).elim taken.2 (noLeaf e)
  · intro i q away noTable noLeaf
    by_cases parent : q ∈ takenPaths va c cut
    · obtain ⟨d, low, high, rfl⟩ := parent
      have gone := h.gone low high
      exact (cell_cons_eq_none.mpr gone.2).trans (cell_cons_eq_none.mpr gone.1).symm
    have old : q ∉ neededFrom s va c j := by
      rw [fewer] at away
      exact fun member => away ⟨member, parent⟩
    by_cases taken : i :: q ∈ takenPaths va c cut ∨ i :: q = slotAt va 1 c
    · have zero := h.cell_cut_u parent taken
      have vacant : Vacant s (i :: q) := by
        obtain path | slot := taken
        · exact h.grown.vacant _ (.inl (takenNeeded _ path))
        · rw [slot]
          exact h.slot_vacant
      have exists_ : s.node q ≠ none := by
        rw [← h.grown.node_old q old, ← h.node_u parent]
        exact parent_of_cell zero
      obtain ⟨a, here⟩ := Option.ne_none_iff_exists'.mp exists_
      have slot : s.cell (i :: q) = some (s.tables a i) := cell_cons_of here
      rw [zero, slot, vacant.2 _ slot]
    · rw [not_or] at taken
      rw [h.cell_u parent taken.2 taken.1]
      apply h.grown.cell_old i q old
      · intro member
        rw [fewer] at noTable
        exact noTable ⟨member, taken.1⟩
      · intro e member
        exact (leavesFrom_cases member).elim taken.2 (noLeaf e)

end

/-- One turn of `clear_range` over a grown request. -/
theorem shrink_step (request : MapRequest s va pa permissions 1 n) (order : c < j) (bound : j ≤ n)
    (grown : Grown s t (neededFrom s va c j) (leavesFrom va pa permissions c j))
    (anchored : Anchored s (pageAt va 1 c)) :
    Grown s (clearPage 1 t (pageAt va 1 c)) (neededFrom s va (c + 1) j)
      (leavesFrom va pa permissions (c + 1) j) := by
  have mapped := grown.leaf_new _ _ ⟨c, le_refl c, order, rfl⟩
  obtain ⟨z, cut, zeroed, climbed, bottom⟩ := clearPage_mapped grown.edits.sound mapped
  exact Shrinks.grown_after ⟨request, order, bound, grown, anchored, zeroed, climbed, bottom⟩

/-- `clear_range` over all pages of a grown request undoes the growth. -/
theorem clearRange_undoes (request : MapRequest s va pa permissions 1 n) (bound : j ≤ n)
    (grown : Grown s t (needed s va 1 j) (requestLeaves va pa permissions 1 j))
    (anchored : ∀ i, i < j → Anchored s (pageAt va 1 i)) :
    Grown s (clearRange t va (j * levelPageSize 1) 1) ∅ ∅ := by
  have partway : ∀ c, c ≤ j → Grown s (clearRange t va (c * levelPageSize 1) 1)
      (neededFrom s va c j) (leavesFrom va pa permissions c j) := by
    intro c small
    induction c with
    | zero =>
      rw [clearRange_zero, neededFrom_zero, leavesFrom_zero]
      exact grown
    | succ c ih =>
      rw [clearRange_succ]
      exact shrink_step request (by omega) bound (ih (by omega)) (anchored c (by omega))
  have whole := partway j (le_refl j)
  have noTables : neededFrom s va j j = ∅ := by
    apply Set.eq_empty_iff_forall_notMem.mpr
    rintro q ⟨i, low, high, -⟩
    omega
  have noLeaves : leavesFrom va pa permissions j j = ∅ := by
    apply Set.eq_empty_iff_forall_notMem.mpr
    rintro q ⟨i, low, high, -⟩
    omega
  rw [noTables, noLeaves] at whole
  exact whole

end

end Sapote.Paging
