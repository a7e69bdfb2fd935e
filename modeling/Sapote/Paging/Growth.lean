import Sapote.Paging.Edits

/-!
Growth of a hierarchy: tables and leaves added on vacant slots, everything else
as it was. Mapping grows a hierarchy; rolling back a mapping has to shrink it
along the same relation.
-/

namespace Sapote.Paging
open Frames Library

abbrev Path := List TableIndex

variable {s t : TableState} {i : TableIndex} {e : Word} {a b : Nat} {q p : Path}

theorem pageView_eq_leaf {d : Nat} (h : pageView d e = .leaf) :
    present e ∧ (3 ≤ d ∨ huge e) := by
  unfold pageView at h
  split at h
  · cases h
  next here =>
  split at h
  next leaf => exact ⟨by simpa using here, leaf⟩
  next => cases h

theorem leaf_present (h : s.leaf q = some e) :
    present e := (pageView_eq_leaf (leaf_eq_some.mp h).2).1

/-- A table is what its slot says. -/
theorem node_iff_cell :
    s.node (i :: q) = some b ↔ ∃ e, s.cell (i :: q) = some e ∧ pageView q.length e = .table b := by
  constructor
  · intro h
    obtain ⟨a, parent, seen⟩ := node_cons_eq_some.mp h
    exact ⟨_, cell_cons_of parent, seen⟩
  · rintro ⟨e, slot, seen⟩
    obtain ⟨a, parent, same⟩ := cell_cons_eq_some.mp slot
    exact node_cons_eq_some.mpr ⟨a, parent, by rw [same]; exact seen⟩

theorem parent_of_cell (h : s.cell (i :: q) = some e) : s.node q ≠ none := by
  obtain ⟨a, parent, -⟩ := cell_cons_eq_some.mp h
  rw [show s.node q = some a from parent]
  nofun

theorem node_congr_cell (same : t.cell (i :: q) = s.cell (i :: q)) :
    t.node (i :: q) = s.node (i :: q) := by
  apply Option.ext
  intro b
  simp only [node_iff_cell, same]

theorem leaf_congr (same : t.cell q = s.cell q) : t.leaf q = s.leaf q := by
  simp only [TableState.leaf, same]

def Vacant (s : TableState) (q : Path) : Prop := s.node q = none ∧ ∀ e, s.cell q = some e → e = 0

theorem Vacant.ne_nil (vacant : Vacant s q) : q ≠ [] := by
  intro empty
  have missing := vacant.1
  rw [empty] at missing
  cases missing

theorem Vacant.no_leaf (vacant : Vacant s q) : s.leaf q = none := by
  apply Option.eq_none_iff_forall_ne_some.mpr
  intro e leaf
  exact ne_zero_of_present (leaf_present leaf) (vacant.2 e (leaf_eq_some.mp leaf).1)

theorem vacant_of_absent (sound : HierarchySound s) (parent : s.node q = some a)
    (absent : present (s.tables a i) = false) : Vacant s (i :: q) := by
  constructor
  · rw [TableState.node, node_cons_of parent, pageView_child_absent absent]
  · intro e slot
    rw [TableState.cell, cell_cons_of parent] at slot
    cases slot
    exact sound.vacant q a i parent absent

theorem vacant_of_missing (missing : s.node q = none) : Vacant s (i :: q) := by
  constructor
  · exact node_none_of_suffix missing (List.suffix_cons i q)
  · intro e slot
    exact absurd missing (parent_of_cell slot)

/-- `t` is `s` with tables at the paths `tables` and the leaves `leaves` added. -/
structure Grown (s t : TableState) (tables : Set Path) (leaves : Set (Path × Word)) : Prop where
  edits : Edits s t
  vacant : ∀ q, (q ∈ tables ∨ ∃ e, (q, e) ∈ leaves) → Vacant s q
  node_old : ∀ q, q ∉ tables → t.node q = s.node q
  node_new : ∀ q, q ∈ tables → t.node q ≠ none
  leaf_new : ∀ q e, (q, e) ∈ leaves → t.leaf q = some e
  cell_new : ∀ i q, q ∈ tables → i :: q ∉ tables → (∀ e, (i :: q, e) ∉ leaves) →
    t.cell (i :: q) = some 0
  cell_old : ∀ i q, q ∉ tables → i :: q ∉ tables → (∀ e, (i :: q, e) ∉ leaves) →
    t.cell (i :: q) = s.cell (i :: q)

section
variable {s t u : TableState} {N N' : Set Path} {L L' : Set (Path × Word)}

theorem Grown.refl (sound : HierarchySound s) : Grown s s ∅ ∅ := by
  refine ⟨.refl sound, ?_, fun _ _ => rfl, nofun, nofun, nofun, fun _ _ _ _ _ => rfl⟩
  rintro q (table | leaf)
  · cases table
  · exact leaf.elim nofun

section
variable (g : Grown s t N L)
include g

theorem Grown.vacant_before (vacant : Vacant t q) : Vacant s q := by
  have old : q ∉ N := fun new => g.node_new q new vacant.1
  have noLeaf : ∀ e, (q, e) ∉ L := by
    intro e leaf
    have here := g.leaf_new q e leaf
    rw [vacant.no_leaf] at here
    cases here
  refine ⟨(g.node_old q old).symm.trans vacant.1, ?_⟩
  intro e slot
  cases q with
  | nil => exact absurd rfl vacant.ne_nil
  | cons i q =>
    have parent : q ∉ N := fun new => parent_of_cell slot (g.vacant q (.inl new)).1
    exact vacant.2 e ((g.cell_old i q parent old noLeaf).trans slot)

/-- Growth does not touch the tables and leaves that are there. -/
theorem Grown.cell_kept (slot : s.cell (i :: q) = some e) (here : e ≠ 0) :
    t.cell (i :: q) = some e := by
  have filled : ¬Vacant s (i :: q) := fun vacant => here (vacant.2 e slot)
  rw [← slot]
  apply g.cell_old
  · intro new
    exact parent_of_cell slot (g.vacant q (.inl new)).1
  · exact fun new => filled (g.vacant _ (.inl new))
  · exact fun e leaf => filled (g.vacant _ (.inr ⟨e, leaf⟩))

theorem Grown.leaf_kept (here : s.leaf q = some e) : t.leaf q = some e := by
  obtain ⟨slot, leaf⟩ := leaf_eq_some.mp here
  refine leaf_eq_some.mpr ⟨?_, leaf⟩
  have nonzero := ne_zero_of_present (leaf_present here)
  cases q with
  | nil => cases slot
  | cons i q => exact g.cell_kept slot nonzero

theorem Grown.leaf_iff : t.leaf q = some e ↔ (q, e) ∈ L ∨ s.leaf q = some e := by
  constructor
  · intro leaf
    by_cases new : ∃ e', (q, e') ∈ L
    · obtain ⟨e', member⟩ := new
      have here := g.leaf_new q e' member
      rw [here] at leaf
      cases leaf
      exact .inl member
    right
    obtain ⟨slot, seen⟩ := leaf_eq_some.mp leaf
    cases q with
    | nil => cases slot
    | cons i q => ?_
    have noLeaf : ∀ e, (i :: q, e) ∉ L := fun e member => new ⟨e, member⟩
    have noTable : i :: q ∉ N := by
      intro table
      obtain ⟨b, node⟩ := Option.ne_none_iff_exists'.mp (g.node_new _ table)
      obtain ⟨e', slot', seen'⟩ := node_iff_cell.mp node
      rw [slot'] at slot
      cases slot
      rw [List.length_cons, Nat.add_sub_cancel] at seen
      rw [seen] at seen'
      cases seen'
    by_cases under : q ∈ N
    · rw [g.cell_new i q under noTable noLeaf] at slot
      cases slot
      cases seen
    · rw [leaf_eq_some, ← g.cell_old i q under noTable noLeaf]
      exact ⟨slot, seen⟩
  · rintro (new | old)
    · exact g.leaf_new q e new
    · exact g.leaf_kept old

theorem Grown.trans (h : Grown t u N' L') : Grown s u (N ∪ N') (L ∪ L') := by
  refine ⟨g.edits.trans h.edits, ?_, ?_, ?_, ?_, ?_, ?_⟩
  · intro q added
    have split : (q ∈ N ∨ ∃ e, (q, e) ∈ L) ∨ (q ∈ N' ∨ ∃ e, (q, e) ∈ L') := by
      obtain table | ⟨e, member⟩ := added
      · exact table.imp .inl .inl
      · exact member.imp (fun m => .inr ⟨e, m⟩) fun m => .inr ⟨e, m⟩
    obtain first | second := split
    · exact g.vacant q first
    · exact g.vacant_before (h.vacant q second)
  · intro q away
    rw [h.node_old q fun m => away (.inr m), g.node_old q fun m => away (.inl m)]
  · intro q added
    by_cases second : q ∈ N'
    · exact h.node_new q second
    · rw [h.node_old q second]
      exact g.node_new q (added.resolve_right second)
  · rintro q e (first | second)
    · exact h.leaf_kept (g.leaf_new q e first)
    · exact h.leaf_new q e second
  · intro i q under noTable noLeaf
    have noTable' : i :: q ∉ N' := fun m => noTable (.inr m)
    have noLeaf' : ∀ e, (i :: q, e) ∉ L' := fun e m => noLeaf e (.inr m)
    by_cases second : q ∈ N'
    · exact h.cell_new i q second noTable' noLeaf'
    · rw [h.cell_old i q second noTable' noLeaf']
      exact g.cell_new i q (under.resolve_right second) (fun m => noTable (.inl m))
        fun e m => noLeaf e (.inl m)
  · intro i q away noTable noLeaf
    rw [h.cell_old i q (fun m => away (.inr m)) (fun m => noTable (.inr m))
      fun e m => noLeaf e (.inr m)]
    exact g.cell_old i q (fun m => away (.inl m)) (fun m => noTable (.inl m))
      fun e m => noLeaf e (.inl m)

end

end

structure Grows (s t : TableState) (tables : Set Path) (leaves : Set (Path × Word)) : Prop where
  grown : Grown s t tables leaves
  finite : tables.Finite
  drawn : supply s = supply t + tables.ncard

section
variable {s t u : TableState} {N N' : Set Path} {L L' : Set (Path × Word)}

theorem Grows.refl (sound : HierarchySound s) : Grows s s ∅ ∅ := by
  refine ⟨Grown.refl sound, Set.finite_empty, ?_⟩
  rw [Set.ncard_empty, add_zero]

theorem Grows.trans (g : Grows s t N L) (h : Grows t u N' L') : Grows s u (N ∪ N') (L ∪ L') := by
  have apart : Disjoint N N' := by
    apply Set.disjoint_left.mpr
    intro q first second
    exact g.grown.node_new q first (h.grown.vacant q (.inl second)).1
  refine ⟨g.grown.trans h.grown, g.finite.union h.finite, ?_⟩
  rw [Set.ncard_union_eq apart g.finite h.finite, g.drawn, h.drawn]
  omega

/-- Hanging an empty table on a vacant slot. -/
theorem Grows.link (sound : HierarchySound s) (adopts : Adopts s b t) (parent : s.node p = some a)
    (absent : present (s.tables a i) = false) (shallow : p.length < 3) (user : Bool) :
    Grows s (writeEntry t a i (linkEntry user b)) {i :: p} ∅ ∧
      (writeEntry t a i (linkEntry user b)).node (i :: p) = some b := by
  have page : PageAddress b := adopts.held.pageAddress adopts.supply
  obtain ⟨-, -, open_, reach, -⟩ := linkEntry_bits user page
  have zeroed : ∀ j, t.tables b j = 0 := by
    intro j
    rw [adopts.tables]
    exact if_pos rfl
  have graft : Grafts s t p a i b (linkEntry user b) t.tables := by
    refine ⟨sound, adopts, parent, pageView_child_absent absent,
      pageView_linkEntry user page shallow, ⟨open_, reach⟩, ?_, ?_, ?_⟩
    · intro c other
      rw [adopts.tables]
      funext j
      exact if_neg other
    · intro j
      rw [zeroed, pageView_zero]
      rfl
    · intro j _
      exact zeroed j
  have node := graft.node
  have cell := graft.cell
  have self : (writeEntry t a i (linkEntry user b)).node (i :: p) = some b :=
    (node (i :: p)).trans (if_pos rfl)
  refine ⟨⟨⟨graft.edits, ?_, ?_, ?_, nofun, ?_, ?_⟩, Set.finite_singleton _, ?_⟩, self⟩
  · intro q added
    have same : q = i :: p := added.resolve_right fun leaf => leaf.elim nofun
    rw [same]
    exact vacant_of_absent sound parent absent
  · intro q away
    exact (node q).trans (if_neg away)
  · intro q here
    rw [show q = i :: p from here, self]
    nofun
  · intro j q under _ _
    have below : q = i :: p := under
    have other : j :: q ≠ i :: p := by
      intro same
      have length := congrArg List.length same
      simp only [below, List.length_cons] at length
      omega
    refine (cell j q).trans ?_
    rw [if_neg other, if_pos below, zeroed]
  · intro j q away noTable _
    exact (cell j q).trans ((if_neg noTable).trans (if_neg away))
  · rw [Set.ncard_singleton]
    exact adopts.drawn

/-- Writing a leaf into a vacant slot. -/
theorem Grows.leaf (sound : HierarchySound s) (parent : s.node p = some a)
    (absent : present (s.tables a i) = false) (leaf : pageView p.length e = .leaf) :
    Grows s (writeEntry s a i e) ∅ {(i :: p, e)} := by
  have old := pageView_child_absent (d := p.length) absent
  have new : (pageView p.length e).child = none := by rw [leaf]; rfl
  have zero : present e = false → e = 0 := by
    intro gone
    rw [(pageView_eq_leaf leaf).1] at gone
    cases gone
  have cell := cell_setLeaf sound parent old new
  refine ⟨⟨edits_setLeaf sound parent old new zero, ?_, ?_, nofun, ?_, nofun, ?_⟩,
    Set.finite_empty, ?_⟩
  · intro q added
    obtain table | ⟨e', member⟩ := added
    · cases table
    · rw [(Prod.mk.inj member).1]
      exact vacant_of_absent sound parent absent
  · intro q _
    exact node_setLeaf sound parent old new q
  · intro q e' member
    obtain ⟨rfl, rfl⟩ := Prod.mk.inj member
    exact leaf_eq_some.mpr ⟨(cell _).trans (if_pos rfl), leaf⟩
  · intro j q _ _ noLeaf
    refine (cell _).trans (if_neg fun same => noLeaf e ?_)
    rw [same]
    rfl
  · rw [Set.ncard_empty]
    rfl

end

end Sapote.Paging
