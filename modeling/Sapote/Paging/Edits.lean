import Sapote.Paging.Tree

/-!
The three edits. Each keeps the hierarchy's invariant, stays inside the tree and
the fresh frame, and has an exact effect on the tables and slots of the tree.
-/

namespace Sapote.Paging
open Frames Library
variable {q : List TableIndex} {c : Nat}

section
variable {s : TableState} {p : List TableIndex} {a : Nat} {i : TableIndex} {e : Word}

section
variable (sound : HierarchySound s) (parent : s.node p = some a)
  (old : (pageView p.length (s.tables a i)).child = none) (new : (pageView p.length e).child = none)
include sound parent old new

theorem node_setLeaf (q : List TableIndex) : (writeEntry s a i e).node q = s.node q :=
  node_writeLeaf sound.unshared parent old new q

theorem cell_setLeaf (q : List TableIndex) :
    (writeEntry s a i e).cell q = if q = i :: p then some e else s.cell q :=
  cell_writeLeaf sound.unshared parent old new q

omit old in
theorem slots_setLeaf (zero : present e = false → e = 0) (here : s.node q = some c)
    (j : TableIndex) :
    let slot := writeCell s.tables a i e c j
    (present slot = false → slot = 0) ∧ ∀ d, pageView q.length slot = .table d →
      writable slot ∧ noExecute slot = false := by
  by_cases changed : c = a ∧ j = i
  · obtain ⟨rfl, rfl⟩ := changed
    rw [writeCell_self]
    refine ⟨zero, fun d seen => ?_⟩
    rw [sound.unshared q p c here parent] at seen
    rw [seen] at new
    cases new
  · rw [writeCell_of_ne _ _ fun h k => changed ⟨h, k⟩]
    exact ⟨sound.vacant q c j here, fun d => sound.links q c j d here⟩

/-- Exchanging one leaf or empty slot for another. -/
theorem edits_setLeaf (zero : present e = false → e = 0) : Edits s (writeEntry s a i e) := by
  have nodes := node_setLeaf sound parent old new
  have same : (writeEntry s a i e).tableSet = s.tableSet := tableSet_congr nodes
  have kept : HierarchySound (writeEntry s a i e) := by
    refine ⟨⟨sound.supply.frames, sound.supply.arena⟩,
      unshared_writeLeaf sound.unshared parent old new, ?_, ?_, ?_, ?_⟩
    · intro q b here
      rw [nodes] at here
      exact sound.held q b here
    · intro q b j here
      rw [nodes] at here
      exact (slots_setLeaf sound parent new zero here j).1
    · intro q b j c here
      rw [nodes] at here
      exact (slots_setLeaf sound parent new zero here j).2 c
    · rw [same]
      exact sound.counted
  refine ⟨kept, rfl, rfl, rfl, ?_, ?_⟩
  · intro c held away
    refine ⟨held, by rw [same]; exact away, ?_⟩
    funext j
    apply writeCell_of_ne
    intro here
    exact absurd ⟨p, by rw [here]; exact parent⟩ away
  · intro f
    rw [same]
    exact (Edits.refl sound).used f

end

variable {t : TableState} {b : Nat} {m : TableMemory}

/-- `u` is `s` with the freshly drawn table `b`, filled as `m` says, hung on slot
`i` of the table `a` at `p`. -/
structure Grafts (s t : TableState) (p : List TableIndex) (a : Nat) (i : TableIndex) (b : Nat)
    (e : Word) (m : TableMemory) : Prop where
  sound : HierarchySound s
  adopts : Adopts s b t
  parent : s.node p = some a
  old : (pageView p.length (s.tables a i)).child = none
  new : pageView p.length e = .table b
  free : writable e ∧ noExecute e = false
  off : ∀ c, c ≠ b → m c = s.tables c
  flat : ∀ j, (pageView (p.length + 1) (m b j)).child = none
  zero : ∀ j, present (m b j) = false → m b j = 0

def grafted (t : TableState) (a : Nat) (i : TableIndex) (e : Word) (m : TableMemory) : TableState :=
  { t with tables := writeCell m a i e }

theorem tables_grafted (t : TableState) (a : Nat) (i : TableIndex) (e : Word) (m : TableMemory) :
    (grafted t a i e m).tables = writeCell m a i e := rfl

section
variable (g : Grafts s t p a i b e m)
include g

theorem Grafts.fresh (q : List TableIndex) : s.node q ≠ some b :=
  fun here => g.adopts.fresh (g.sound.held q b here)

theorem Grafts.root : t.hierarchy.root = s.hierarchy.root := by
  rw [g.adopts.hierarchy]

theorem Grafts.same (q : List TableIndex) (c : Nat)
    (here : s.node q = some c) (j : TableIndex) : m c j = s.tables c j := by
  rw [g.off c fun equal => g.fresh q (equal ▸ here)]

theorem Grafts.node_filled (q : List TableIndex) :
    Library.node pageView m t.hierarchy.root q = s.node q := by
  rw [g.root]
  exact node_congr g.same q

theorem Grafts.cell_filled (q : List TableIndex) :
    Library.cell pageView m t.hierarchy.root q = s.cell q := by
  rw [g.root]
  exact cell_congr g.same q

theorem Grafts.unshared_filled : Unshared pageView m t.hierarchy.root := by
  intro q r c hq hr
  rw [g.node_filled] at hq hr
  exact g.sound.unshared q r c hq hr

theorem Grafts.parent_filled : Library.node pageView m t.hierarchy.root p = some a := by
  rw [g.node_filled, g.parent]

theorem Grafts.old_filled : (pageView p.length (m a i)).child = none := by
  rw [g.same p a g.parent]
  exact g.old

theorem Grafts.fresh_filled (q : List TableIndex) :
    Library.node pageView m t.hierarchy.root q ≠ some b := by
  rw [g.node_filled]
  exact g.fresh q

theorem Grafts.node (q : List TableIndex) :
    (grafted t a i e m).node q = if q = i :: p then some b else s.node q := by
  rw [← g.node_filled q]
  exact node_graft g.unshared_filled g.parent_filled g.old_filled g.new g.fresh_filled g.flat q

theorem Grafts.cell (j : TableIndex) (q : List TableIndex) :
    (grafted t a i e m).cell (j :: q) =
      if j :: q = i :: p then some e
      else if q = i :: p then some (m b j) else s.cell (j :: q) := by
  rw [← g.cell_filled (j :: q)]
  exact cell_graft g.unshared_filled g.parent_filled g.old_filled g.new g.fresh_filled g.flat j q

theorem Grafts.tableSet : (grafted t a i e m).tableSet = insert b s.tableSet := by
  have before : Library.tables pageView m t.hierarchy.root = s.tableSet := by
    ext c
    exact exists_congr fun q => (g.node_filled q).congr_left
  rw [← before]
  exact tables_graft g.unshared_filled g.parent_filled g.old_filled g.new g.fresh_filled g.flat

/-- The table at a path of the grafted tree, with its contents but for the slot. -/
theorem Grafts.table_cases (here : (grafted t a i e m).node q = some c) :
    (q = i :: p ∧ c = b ∧ ∀ j, (grafted t a i e m).tables c j = m b j) ∨
      (s.node q = some c ∧ ∀ j, (c = a → j ≠ i) → (grafted t a i e m).tables c j = s.tables c j) := by
  rw [g.node] at here
  have other : b ≠ a := fun same => g.fresh p (same ▸ g.parent)
  by_cases slot : q = i :: p
  · rw [if_pos slot] at here
    cases here
    exact .inl ⟨slot, rfl, fun j => writeCell_of_ne m e fun same => absurd same other⟩
  · rw [if_neg slot] at here
    refine .inr ⟨here, fun j away => ?_⟩
    rw [tables_grafted, writeCell_of_ne m e away, g.same q c here]

theorem Grafts.sound_grafted : HierarchySound (grafted t a i e m) := by
  have outsideTree : b ∉ s.tableSet := fun h => h.elim fun q hq => g.fresh q hq
  refine ⟨⟨g.adopts.supply.frames, g.adopts.supply.arena⟩, ?_, ?_, ?_, ?_, ?_⟩
  · exact unshared_graft g.unshared_filled g.parent_filled g.old_filled g.new g.fresh_filled g.flat
  · intro q c here
    obtain new | before := g.table_cases here
    · rw [new.2.1]
      exact g.adopts.held
    · exact g.adopts.kept c (g.sound.held q c before.1)
  · intro q c j here absent
    obtain new | before := g.table_cases here
    · rw [new.2.2 j] at absent ⊢
      exact g.zero j absent
    by_cases slot : c = a ∧ j = i
    · obtain ⟨rfl, rfl⟩ := slot
      rw [tables_grafted, writeCell_self, (pageView_table g.new).1] at absent
      cases absent
    · rw [before.2 j fun h k => slot ⟨h, k⟩] at absent ⊢
      exact g.sound.vacant q c j before.1 absent
  · intro q c j d here seen
    obtain new | before := g.table_cases here
    · obtain ⟨rfl, rfl, contents⟩ := new
      have leaf := g.flat j
      rw [contents j] at seen
      rw [List.length_cons] at seen
      rw [seen] at leaf
      cases leaf
    by_cases slot : c = a ∧ j = i
    · obtain ⟨rfl, rfl⟩ := slot
      rw [tables_grafted, writeCell_self]
      exact g.free
    · rw [before.2 j fun h k => slot ⟨h, k⟩] at seen ⊢
      exact g.sound.links q c j d before.1 seen
  · rw [g.tableSet, Set.ncard_insert_of_notMem outsideTree g.sound.finite, ← g.sound.counted]
    change t.hierarchy.tableFrames = _
    rw [g.adopts.hierarchy]

theorem Grafts.edits : Edits s (grafted t a i e m) := by
  refine ⟨g.sound_grafted, ?_, g.adopts.eligible, g.adopts.records, ?_, ?_⟩
  · change t.hierarchy = { s.hierarchy with
      arenaUsed := t.hierarchy.arenaUsed, tableFrames := t.hierarchy.tableFrames }
    rw [g.adopts.hierarchy]
  · intro c held away
    have notFresh : c ≠ b := fun same => g.adopts.fresh (same ▸ held)
    refine ⟨g.adopts.kept c held, ?_, ?_⟩
    · rw [g.tableSet]
      intro h
      exact h.elim notFresh away
    · funext j
      have notParent : c ≠ a := fun same => away ⟨p, same ▸ g.parent⟩
      rw [tables_grafted, writeCell_of_ne m e fun same => absurd same notParent, g.off c notFresh]
  · intro f
    change t.frames.used f ↔ _
    rw [g.adopts.used, g.tableSet]
    constructor
    · rintro (before | new)
      · obtain kept | mine := ((Edits.refl g.sound).used f).mp before
        · exact .inl kept
        · exact .inr ⟨mine.1, Set.mem_insert_of_mem _ mine.2⟩
      · exact .inr ⟨new.1, .inl new.2⟩
    · rintro (before | mine)
      · exact .inl before.1
      · obtain new | before := mine.2
        · exact .inr ⟨mine.1, new⟩
        · exact .inl (g.sound.table_used mine.1 before)

end

/-- The slot `i` of the table `a` at `p` holds the table `b`, which has no tables
of its own and can be taken off for `e`. -/
structure Prunes (s : TableState) (p : List TableIndex) (a : Nat) (i : TableIndex) (b : Nat)
    (e : Word) : Prop where
  sound : HierarchySound s
  parent : s.node p = some a
  old : pageView p.length (s.tables a i) = .table b
  new : (pageView p.length e).child = none
  zero : present e = false → e = 0
  flat : ∀ j, (pageView (p.length + 1) (s.tables b j)).child = none

def pruned (s : TableState) (a : Nat) (i : TableIndex) (b : Nat) (e : Word) : TableState :=
  releaseTable (writeEntry s a i e) b

section
variable (g : Prunes s p a i b e)
include g

theorem Prunes.child : s.node (i :: p) = some b :=
  node_cons_eq_some.mpr ⟨a, g.parent, g.old⟩

theorem Prunes.releases :
    Releases (writeEntry s a i e) b (pruned s a i b e) :=
  releaseTable_releases (s := writeEntry s a i e)
    ⟨g.sound.supply.frames, g.sound.supply.arena⟩ (g.sound.held _ b g.child)

omit g in
theorem pruned_root : (pruned s a i b e).hierarchy.root = s.hierarchy.root := by
  rfl

theorem Prunes.tables_eq : (pruned s a i b e).tables = writeCell s.tables a i e := g.releases.tables

theorem Prunes.node (q : List TableIndex) :
    (pruned s a i b e).node q = if q = i :: p then none else s.node q := by
  exact node_prune g.sound.unshared g.parent g.old g.new g.flat q

theorem Prunes.cell (j : TableIndex) (q : List TableIndex) :
    (pruned s a i b e).cell (j :: q) =
      if j :: q = i :: p then some e else if q = i :: p then none else s.cell (j :: q) := by
  exact cell_prune g.sound.unshared g.parent g.old g.new g.flat j q

theorem Prunes.tableSet : (pruned s a i b e).tableSet = s.tableSet \ {b} := by
  exact tables_prune g.sound.unshared g.parent g.old g.new g.flat

theorem Prunes.node_some (here : (pruned s a i b e).node q = some c) :
    s.node q = some c ∧ c ≠ b := by
  rw [g.node] at here
  by_cases slot : q = i :: p
  · rw [if_pos slot] at here
    cases here
  · rw [if_neg slot] at here
    refine ⟨here, fun same => slot ?_⟩
    rw [same] at here
    exact g.sound.unshared q _ b here g.child

theorem Prunes.sound_pruned : HierarchySound (pruned s a i b e) := by
  refine ⟨g.releases.supply, ?_, ?_, ?_, ?_, ?_⟩
  · rw [pruned_root, g.tables_eq]
    exact unshared_prune g.sound.unshared g.parent g.old g.new g.flat
  · intro q c here
    obtain ⟨before, other⟩ := g.node_some here
    exact g.releases.kept c other (g.sound.held q c before)
  · intro q c j here
    rw [g.tables_eq]
    exact (slots_setLeaf g.sound g.parent g.new g.zero (g.node_some here).1 j).1
  · intro q c j d here
    rw [g.tables_eq]
    exact (slots_setLeaf g.sound g.parent g.new g.zero (g.node_some here).1 j).2 d
  · have member : b ∈ s.tableSet := ⟨_, g.child⟩
    have positive : 0 < s.tableSet.ncard :=
      (Set.ncard_pos g.sound.finite).mpr ⟨b, member⟩
    have counted : (writeEntry s a i e).hierarchy.tableFrames = s.tableSet.ncard := g.sound.counted
    rw [g.tableSet, Set.ncard_sdiff_singleton_of_mem member, g.releases.hierarchy, counted]
    exact sizeSub_of_le positive

theorem Prunes.edits : Edits s (pruned s a i b e) := by
  refine ⟨g.sound_pruned, ?_, g.releases.eligible, g.releases.records, ?_, ?_⟩
  · rw [g.releases.hierarchy]
    rfl
  · intro c held away
    have other : c ≠ b := fun same => away ⟨_, same ▸ g.child⟩
    have notParent : c ≠ a := fun same => away ⟨p, same ▸ g.parent⟩
    refine ⟨g.releases.kept c other held, ?_, ?_⟩
    · rw [g.tableSet]
      exact fun h => away h.1
    · rw [g.tables_eq]
      funext j
      exact writeCell_of_ne _ _ fun same => absurd same notParent
  · intro f
    rw [g.releases.used, g.tableSet]
    have member : b ∈ s.tableSet := ⟨_, g.child⟩
    constructor
    · intro h
      obtain kept | mine := ((Edits.refl g.sound).used f).mp h.1
      · exact .inl kept
      · exact .inr ⟨mine.1, mine.2, fun same => h.2 ⟨mine.1, same⟩⟩
    · rintro (kept | mine)
      · exact ⟨kept.1, fun gone => kept.2 ⟨gone.1, gone.2 ▸ member⟩⟩
      · exact ⟨g.sound.table_used mine.1 mine.2.1, fun gone => mine.2.2 gone.2⟩

end

end

end Sapote.Paging
