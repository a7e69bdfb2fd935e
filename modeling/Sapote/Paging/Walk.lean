import Sapote.Paging.Growth

/-!
The walks of `src/kernel/paging.c` on a sound hierarchy: what `entry_for` finds
or builds, what `translate_address` reports, what `reclaim_empty_tables` takes
away. Operations above this module are reasoned about through these results.
-/

namespace Sapote.Paging
open Frames Library List
variable {s t : TableState} {va d target e table level : Nat} {m : Nat} {user : Bool} {l : List Nat}

def vaKey (va depth : Nat) : TableIndex := tableIndex va (4 - depth)

/-- The path of the table a walk reaches after `depth` steps; also the path of the
slot it reads in the last of them. -/
def pathTo (va depth : Nat) : Path := spine (vaKey va) depth

theorem pathTo_succ (va depth : Nat) :
    pathTo va (depth + 1) = tableIndex va (4 - depth) :: pathTo va depth := rfl

@[simp] theorem length_pathTo (va depth : Nat) : (pathTo va depth).length = depth :=
  length_spine _ _

theorem pathTo_ne_nil {depth : Nat} (inner : 1 ≤ depth) : pathTo va depth ≠ [] :=
  ne_nil_of_length_pos (by rwa [length_pathTo])

theorem pathTo_level (high : level < 4) :
    pathTo va (4 - level) = tableIndex va (level + 1) :: pathTo va (3 - level) := by
  rw [show 4 - level = 3 - level + 1 by omega, pathTo_succ, show 4 - (3 - level) = level + 1 by omega]

theorem pathTo_suffix (h : d ≤ e) : pathTo va d <:+ pathTo va e := spine_suffix _ h

theorem pathTo_inj (h : pathTo va d = pathTo va e) : d = e := by
  rw [← length_pathTo va d, h, length_pathTo]

theorem node_above (h : d ≤ e) (below : s.node (pathTo va e) ≠ none) :
    s.node (pathTo va d) ≠ none :=
  fun missing => below (node_none_of_suffix missing (pathTo_suffix h))

/-- The slot a walk reads at `level + 1`. -/
theorem cell_pathTo (high : level < 4) (here : s.node (pathTo va (3 - level)) = some table) :
    s.cell (pathTo va (4 - level)) = some (s.tables table (tableIndex va (level + 1))) := by
  rw [pathTo_level high]
  exact cell_cons_of here

/-- One step down through a link. -/
theorem node_pathTo (inner : 1 ≤ level) (high : level < 4)
    (here : s.node (pathTo va (3 - level)) = some table)
    (there : present (s.tables table (tableIndex va (level + 1))))
    (link : huge (s.tables table (tableIndex va (level + 1))) = false) :
    s.node (pathTo va (4 - level)) = some (frameOf (s.tables table (tableIndex va (level + 1)))) := by
  rw [pathTo_level high]
  refine node_cons_eq_some.mpr ⟨table, here, ?_⟩
  apply pageView_of_table there link
  rw [length_pathTo]
  omega

/-- A slot on the way down to `targetLevel` is empty. -/
def AbsentAbove (s : TableState) (va targetLevel : Nat) : Prop :=
  ∃ d e, d < 4 - targetLevel ∧ s.cell (pathTo va (d + 1)) = some e ∧ present e = false

/-- A slot on the way down from depth `start` is one the walk refuses. -/
def RefusedAbove (s : TableState) (user : Bool) (va start targetLevel : Nat) : Prop :=
  ∃ d e, start ≤ d ∧ d < 4 - targetLevel ∧ s.cell (pathTo va (d + 1)) = some e ∧
    present e ∧ walkRefuses user e

theorem link_of_not_refused {entry : Word} (taken : ¬walkRefuses user entry) :
    huge entry = false := by
  apply Bool.eq_false_iff.mpr
  intro large
  exact taken (by rw [walkRefuses, large, Bool.true_or])

theorem entryWalk_false (s : TableState) (user : Bool) (low : 1 ≤ target) (level : Nat)
    (bound : level ≤ 4) (above : target ≤ level) (table : Nat)
    (here : s.node (pathTo va (4 - level)) = some table) :
    (∃ a, s.node (pathTo va (4 - target)) = some a ∧
        entryWalk user false va target level table s = ⟨.ok, a, s⟩) ∨
      (AbsentAbove s va target ∧
        entryWalk user false va target level table s = ⟨.notMapped, 0, s⟩) ∨
      (RefusedAbove s user va 0 target ∧
        entryWalk user false va target level table s = ⟨walkRefusal user, 0, s⟩) := by
  induction level generalizing table with
  | zero => omega
  | succ level ih =>
    rw [entryWalk]
    split
    · have same : target = level + 1 := by omega
      rw [same]
      exact .inl ⟨table, here, rfl⟩
    rw [show 4 - (level + 1) = 3 - level by omega] at here
    have slot := cell_pathTo (by omega) here
    have depth : 3 - level < 4 - target := by omega
    rw [show 4 - level = 3 - level + 1 by omega] at slot
    by_cases there : present (s.tables table (tableIndex va (level + 1)))
    · rw [if_neg (by simp [there])]
      split
      · next refused =>
            exact .inr (.inr ⟨⟨_, _, Nat.zero_le _, depth, slot, there, refused⟩, rfl⟩)
      next refused =>
      exact ih (by omega) (by omega) _
        (node_pathTo (by omega) (by omega) here there (link_of_not_refused refused))
    · have gone := Bool.eq_false_iff.mpr there
      rw [if_pos (by simp [gone]), if_pos (by decide)]
      exact .inr (.inl ⟨⟨_, _, depth, slot, gone⟩, rfl⟩)

theorem entryFor_false (s : TableState) (va : Nat) (low : 1 ≤ target) (high : target ≤ 4) :
    (∃ a, s.node (pathTo va (4 - target)) = some a ∧ entryFor s va target false = ⟨.ok, a, s⟩) ∨
      (AbsentAbove s va target ∧ entryFor s va target false = ⟨.notMapped, 0, s⟩) ∨
      (RefusedAbove s false va 0 target ∧ entryFor s va target false = ⟨.hugePagePresent, 0, s⟩) :=
  entryWalk_false s false low 4 (le_refl 4) high s.hierarchy.root rfl

theorem entryFor_ok (low : 1 ≤ target) (high : target ≤ 4)
    (ok : (entryFor s va target false).status = .ok) :
    ∃ a, s.node (pathTo va (4 - target)) = some a ∧ entryFor s va target false = ⟨.ok, a, s⟩ := by
  obtain found | ⟨-, result⟩ | ⟨-, result⟩ := entryFor_false s va low high
  · exact found
  · rw [result] at ok
    cases ok
  · rw [result] at ok
    cases ok

/-- A slot that is no link ends the path. -/
theorem node_none_of_cell {entry : Word} (deeper : d < e)
    (slot : s.cell (pathTo va (d + 1)) = some entry) (ends : (pageView d entry).child = none) :
    s.node (pathTo va e) = none := by
  have missing : s.node (pathTo va (d + 1)) = none := by
    apply Option.eq_none_iff_forall_ne_some.mpr
    intro b here
    rw [pathTo_succ] at here slot
    obtain ⟨entry', slot', seen⟩ := node_iff_cell.mp here
    rw [slot] at slot'
    cases slot'
    rw [length_pathTo] at seen
    rw [seen] at ends
    cases ends
  exact node_none_of_suffix missing (pathTo_suffix deeper)

theorem AbsentAbove.node_none (absent : AbsentAbove s va target) :
    s.node (pathTo va (4 - target)) = none := by
  obtain ⟨d, e, depth, slot, gone⟩ := absent
  exact node_none_of_cell depth slot (pageView_child_absent gone)

theorem leaf_pathTo {e : Word} :
    s.leaf (pathTo va (d + 1)) = some e ↔
      s.cell (pathTo va (d + 1)) = some e ∧ pageView d e = .leaf := by
  rw [leaf_eq_some, length_pathTo, Nat.add_sub_cancel]

theorem leaf_child {e : Word} (leaf : s.leaf (pathTo va (d + 1)) = some e) :
    (pageView d e).child = none := by
  rw [(leaf_pathTo.mp leaf).2]
  rfl

theorem leaf_unique {d' : Nat} {e e' : Word} (leaf : s.leaf (pathTo va (d + 1)) = some e)
    (leaf' : s.leaf (pathTo va (d' + 1)) = some e') : d = d' ∧ e = e' := by
  have order : ∀ {x y : Nat} {f g : Word}, s.leaf (pathTo va (x + 1)) = some f →
      s.leaf (pathTo va (y + 1)) = some g → ¬x < y := by
    intro x y f g first second deeper
    have missing := node_none_of_cell deeper (leaf_pathTo.mp first).1 (leaf_child first)
    have slot := (leaf_pathTo.mp second).1
    exact parent_of_cell slot missing
  have first := order leaf leaf'
  have second := order leaf' leaf
  obtain rfl : d = d' := by omega
  rw [leaf] at leaf'
  exact ⟨rfl, Option.some.inj leaf'⟩

def missing (s : TableState) (va m : Nat) : Set Path :=
  {q | ∃ j, j ≤ m ∧ q = pathTo va j ∧ s.node q = none}

theorem missing_empty (here : s.node (pathTo va m) ≠ none) : missing s va m = ∅ := by
  apply Set.eq_empty_iff_forall_notMem.mpr
  rintro q ⟨j, bound, rfl, gone⟩
  exact node_above bound here gone

/-- Hanging one table shortens what is missing by it. -/
theorem missing_link {L : Set (Path × Word)} (bound : d ≤ m) (gone : s.node (pathTo va d) = none)
    (grown : Grown s t {pathTo va d} L) : {pathTo va d} ∪ missing t va m = missing s va m := by
  ext q
  constructor
  · rintro (here | ⟨j, small, same, absent⟩)
    · exact ⟨d, bound, here, by rw [show q = pathTo va d from here]; exact gone⟩
    · have old : q ∉ ({pathTo va d} : Set Path) := fun new => grown.node_new q new absent
      exact ⟨j, small, same, (grown.node_old q old).symm.trans absent⟩
  · rintro ⟨j, small, same, absent⟩
    by_cases here : q ∈ ({pathTo va d} : Set Path)
    · exact .inl here
    · exact .inr ⟨j, small, same, (grown.node_old q here).trans absent⟩

/-- What a creating walk from depth `start` did. -/
def Creates (s : TableState) (user : Bool) (va start target : Nat) (r : TableResult) : Prop :=
  (r.status = .ok ∧ Grows s r.state (missing s va (4 - target)) ∅ ∧
      r.state.node (pathTo va (4 - target)) = some r.table) ∨
    (r.status = .outOfFrames ∧ supply r.state = 0 ∧
      ∃ m, m < 4 - target ∧ Grows s r.state (missing s va m) ∅ ∧
        s.node (pathTo va (m + 1)) = none ∧ r.state.node (pathTo va (m + 1)) = none) ∨
    (r = ⟨walkRefusal user, 0, s⟩ ∧ RefusedAbove s user va start target)

/-- Below a freshly hung table there is nothing to refuse. -/
theorem not_refused_below (gone : Vacant s (pathTo va d)) (grown : Grown s t {pathTo va d} ∅) :
    ¬RefusedAbove t user va d target := by
  rintro ⟨j, e, start, bound, slot, there, -⟩
  have table : ∀ k, pathTo va k ∈ ({pathTo va d} : Set Path) → k = d := fun k same => pathTo_inj same
  have noTable : tableIndex va (4 - j) :: pathTo va j ∉ ({pathTo va d} : Set Path) := by
    rw [← pathTo_succ]
    intro h
    have := table _ h
    omega
  by_cases under : j = d
  · have zero := grown.cell_new (tableIndex va (4 - j)) (pathTo va j) (by rw [under]; rfl) noTable nofun
    rw [← pathTo_succ, slot] at zero
    rw [Option.some.inj zero] at there
    cases there
  · have old := grown.cell_old (tableIndex va (4 - j)) (pathTo va j)
      (fun h => under (table _ h)) noTable nofun
    rw [← pathTo_succ, slot, pathTo_succ] at old
    exact parent_of_cell old.symm (node_none_of_suffix gone.1 (pathTo_suffix start))

/-- A walk goes on below a table it has just hung. -/
theorem Creates.after_link {r : TableResult} (bound : d ≤ 4 - target)
    (gone : Vacant s (pathTo va d)) (grows : Grows s t {pathTo va d} ∅)
    (deep : t.node (pathTo va d) ≠ none) {start : Nat} (rest : Creates t user va d target r) :
    Creates s user va start target r := by
  have earlier : ∀ m, m < d → t.node (pathTo va (m + 1)) ≠ none :=
    fun m small => node_above small deep
  obtain ⟨status, further, found⟩ | ⟨status, empty, m, small, further, stop, stop'⟩ | refused := rest
  · refine .inl ⟨status, ?_, found⟩
    have whole := grows.trans further
    rw [missing_link bound gone.1 grows.grown, Set.union_empty] at whole
    exact whole
  · have reached : d ≤ m := by
      by_contra short
      exact earlier m (by omega) stop
    refine .inr (.inl ⟨status, empty, m, small, ?_, ?_, stop'⟩)
    · have whole := grows.trans further
      rw [missing_link reached gone.1 grows.grown, Set.union_empty] at whole
      exact whole
    · exact node_none_of_suffix gone.1 (pathTo_suffix (by omega))
  · exact absurd refused.2 (not_refused_below gone grows.grown)

theorem entryWalk_creates (sound : HierarchySound s) (user : Bool) (low : 1 ≤ target)
    (level : Nat) (bound : level ≤ 4) (above : target ≤ level) (table : Nat)
    (here : s.node (pathTo va (4 - level)) = some table) :
    Creates s user va (4 - level) target (entryWalk user true va target level table s) := by
  induction level generalizing s table with
  | zero => omega
  | succ level ih =>
    have existing : s.node (pathTo va (4 - (level + 1))) ≠ none := by
      rw [here]
      nofun
    rw [entryWalk]
    split
    · have same : target = level + 1 := by omega
      refine .inl ⟨rfl, ?_, by rw [same]; exact here⟩
      rw [same, missing_empty existing]
      exact .refl sound
    rw [show 4 - (level + 1) = 3 - level by omega] at here existing ⊢
    have slot := cell_pathTo (by omega) here
    have depth : 3 - level < 4 - target := by omega
    by_cases there : present (s.tables table (tableIndex va (level + 1)))
    · rw [if_neg (by simp [there])]
      by_cases refused : walkRefuses user (s.tables table (tableIndex va (level + 1)))
      · rw [if_pos refused]
        rw [show 4 - level = 3 - level + 1 by omega] at slot
        exact .inr (.inr ⟨rfl, _, _, le_refl _, depth, slot, there, refused⟩)
      rw [if_neg refused]
      have rest := ih sound (by omega) (by omega) _
        (node_pathTo (by omega) (by omega) here there (link_of_not_refused refused))
      exact rest.imp_right (.imp_right (.imp_right fun refused => by
        obtain ⟨d, e, start, more⟩ := refused
        exact ⟨d, e, by omega, more⟩))
    · have gone := Bool.eq_false_iff.mpr there
      rw [if_pos (by simp [gone]), if_neg (by decide)]
      have vacant : Vacant s (pathTo va (4 - level)) := by
        rw [pathTo_level (by omega)]
        exact vacant_of_absent sound here gone
      obtain starved | ⟨b, t, result, adopts⟩ := allocateTable_cases sound.supply
      · rw [starved.2, if_pos (by simp)]
        refine .inr (.inl ⟨rfl, starved.1, 3 - level, depth, ?_, ?_, ?_⟩)
        · rw [missing_empty existing]
          exact .refl sound
        all_goals
          rw [show 3 - level + 1 = 4 - level by omega]
          exact vacant.1
      rw [result, if_neg (by simp)]
      have shallow : (pathTo va (3 - level)).length < 3 := by
        rw [length_pathTo]
        omega
      obtain ⟨grows, found⟩ := Grows.link sound adopts here gone shallow user
      rw [← pathTo_level (by omega)] at grows found
      have deep : (writeEntry t table (tableIndex va (level + 1)) (linkEntry user b)).node
          (pathTo va (4 - level)) ≠ none := by
        rw [found]
        nofun
      exact (ih grows.grown.edits.sound (by omega) (by omega) b found).after_link
        (by omega) vacant grows deep

theorem entryFor_true (sound : HierarchySound s) (va : Nat) (low : 1 ≤ target) (high : target ≤ 4) :
    Creates s false va 0 target (entryFor s va target true) :=
  entryWalk_creates sound false low 4 (le_refl 4) high s.hierarchy.root rfl

/-- `entry_for_user` hangs exactly what is missing on the path, stops when the supply runs dry, or
is refused at an entry of the path and leaves everything as it was. -/
theorem entryForUser_creates (s : { s : TableState // HierarchySound s }) (va : Nat) :
    Creates s.1 true va 0 1 (entryForUser s.1 va) :=
  entryWalk_creates s.2 true (le_refl 1) 4 (le_refl 4) (by omega) s.1.hierarchy.root rfl

/-- The tables on a path, from depth `d` up to the root. -/
def Spans (s : TableState) (va : Nat) : Nat → List Nat → Prop
  | 0, l => l = [s.hierarchy.root]
  | d + 1, l => ∃ a above, l = a :: above ∧ s.node (pathTo va (d + 1)) = some a ∧ Spans s va d above

theorem Spans.head (spans : Spans s va d l) :
    ∃ a above, l = a :: above ∧ s.node (pathTo va d) = some a := by
  cases d with
  | zero => exact ⟨s.hierarchy.root, [], spans, rfl⟩
  | succ d =>
    obtain ⟨a, above, shape, here, -⟩ := spans
    exact ⟨a, above, shape, here⟩

theorem Spans.congr (spans : Spans s va d l) (root : t.hierarchy.root = s.hierarchy.root)
    (same : ∀ j, j ≤ d → t.node (pathTo va j) = s.node (pathTo va j)) : Spans t va d l := by
  induction d generalizing l with
  | zero =>
    rw [Spans, root]
    exact spans
  | succ d ih =>
    obtain ⟨a, above, shape, here, rest⟩ := spans
    exact ⟨a, above, shape, (same _ (le_refl _)).trans here,
      ih rest fun j small => same j (by omega)⟩

/-- The descent of `reclaim_empty_tables` when the page table is there. -/
theorem tablesOnPath_spans (bottom : s.node (pathTo va 3) ≠ none) (level : Nat) (high : level < 4)
    (table : Nat) (above : List Nat) (spans : Spans s va (3 - level) (table :: above)) :
    ∃ l, tablesOnPath s.tables va (level + 1) table = some l ∧ Spans s va 3 (l ++ above) := by
  induction level generalizing table above with
  | zero => exact ⟨[table], rfl, spans⟩
  | succ level ih =>
    obtain ⟨a, rest, shape, here⟩ := spans.head
    obtain ⟨rfl, rfl⟩ := List.cons.inj shape
    have below : s.node (pathTo va (3 - level)) ≠ none := node_above (by omega) bottom
    obtain ⟨b, child⟩ := Option.ne_none_iff_exists'.mp below
    have step := child
    rw [show 3 - level = 4 - (level + 1) by omega, pathTo_level (by omega)] at step
    obtain ⟨a', parent, seen⟩ := node_cons_eq_some.mp step
    have same : a' = table := Option.some.inj (parent.symm.trans here)
    rw [same, length_pathTo] at seen
    obtain ⟨there, link, -, frame⟩ := pageView_table seen
    have deeper : Spans s va (3 - level) (b :: table :: above) := by
      rw [show 3 - level = 3 - (level + 1) + 1 by omega] at child ⊢
      exact ⟨b, table :: above, rfl, child, spans⟩
    obtain ⟨l, found, whole⟩ := ih (by omega) b (table :: above) deeper
    refine ⟨l ++ [table], ?_, ?_⟩
    · rw [tablesOnPath, if_neg (by simp [there, link]), frame, found]
      rfl
    · rw [append_assoc]
      exact whole

theorem tableIsEmpty_iff {tables : TableMemory} :
    tableIsEmpty tables table ↔ ∀ i, present (tables table i) = false := by
  simp only [tableIsEmpty, all_eq_true, mem_finRange, true_implies, Bool.not_eq_true']
  rfl

/-- `t` is `s` after a climb that took away the empty tables of one path from depth
`d` up to, and not including, depth `c`. -/
structure Climbed (s t : TableState) (va d c : Nat) : Prop where
  edits : Edits s t
  bound : c ≤ d
  node_gone : ∀ j, c < j → j ≤ d → t.node (pathTo va j) = none
  node_kept : ∀ q, (∀ j, c < j → j ≤ d → q ≠ pathTo va j) → t.node q = s.node q
  cell_cut : c < d → t.cell (pathTo va (c + 1)) = some 0
  cell_kept : ∀ i q, (∀ j, c < j → j ≤ d → q ≠ pathTo va j) → (c < d → i :: q ≠ pathTo va (c + 1)) →
    t.cell (i :: q) = s.cell (i :: q)
  /-- A table that went held nothing but the table below it. -/
  emptied : ∀ j, c < j → j ≤ d → ∀ i e, s.cell (i :: pathTo va j) = some e → present e →
    j < d ∧ i :: pathTo va j = pathTo va (j + 1)
  /-- The climb stops at the root or at a table that is still in use. -/
  stops : c = 0 ∨ ∃ i e, t.cell (i :: pathTo va c) = some e ∧ present e

theorem Climbed.refl (sound : HierarchySound s)
    (stops : d = 0 ∨ ∃ i e, s.cell (i :: pathTo va d) = some e ∧ present e) :
    Climbed s s va d d :=
  ⟨Edits.refl sound, le_refl d, fun j low high => by omega, fun _ _ => rfl,
    fun low => absurd low (lt_irrefl d), fun _ _ _ _ => rfl, fun j low high => by omega, stops⟩

/-- One more empty table at the bottom. -/
theorem Climbed.prune {c a b : Nat} (prunes : Prunes s (pathTo va d) a (tableIndex va (4 - d)) b 0)
    (empty : ∀ i, present (s.tables b i) = false)
    (rest : Climbed (pruned s a (tableIndex va (4 - d)) b 0) t va d c) :
    Climbed s t va (d + 1) c := by
  have node : ∀ q, _ = if q = pathTo va (d + 1) then none else s.node q := prunes.node
  have cell : ∀ j q, _ = if j :: q = pathTo va (d + 1) then some 0
    else if q = pathTo va (d + 1) then none else s.cell (j :: q) := prunes.cell
  have other : ∀ {j}, j ≤ d → pathTo va j ≠ pathTo va (d + 1) := by
    intro j small same
    have := pathTo_inj same
    omega
  refine ⟨prunes.edits.trans rest.edits, Nat.le_succ_of_le rest.bound, ?_, ?_, ?_, ?_, ?_, rest.stops⟩
  · intro j low high
    by_cases last : j = d + 1
    · rw [last, rest.node_kept _ fun k _ small => (other small).symm, node, if_pos rfl]
    · exact rest.node_gone j low (by omega)
  · intro q away
    rw [rest.node_kept q fun j low high => away j low (by omega), node,
      if_neg (away (d + 1) (by have := rest.bound; omega) (le_refl _))]
  · intro _
    by_cases last : c = d
    · rw [last, pathTo_succ, rest.cell_kept _ _ (fun j low high => by omega) fun low => by omega,
        ← pathTo_succ]
      exact (cell _ _).trans (if_pos rfl)
    · exact rest.cell_cut (by have := rest.bound; omega)
  · intro i q away cut
    have here : q ≠ pathTo va (d + 1) :=
      away (d + 1) (by have := rest.bound; omega) (le_refl _)
    have slot : i :: q ≠ pathTo va (d + 1) := by
      intro same
      obtain ⟨-, below⟩ := List.cons.inj same
      by_cases last : c = d
      · apply cut (by omega)
        rw [same, last, pathTo_succ]
      · exact away d (by have := rest.bound; omega) (by omega) below
    rw [rest.cell_kept i q (fun j low high => away j low (by omega)) fun low => cut (by omega)]
    exact (cell i q).trans ((if_neg slot).trans (if_neg here))
  · intro j low high i e slot there
    by_cases last : j = d + 1
    · rw [last] at slot
      obtain ⟨b', parent, same⟩ := cell_cons_eq_some.mp slot
      have child : s.node (pathTo va (d + 1)) = some b := prunes.child
      obtain rfl : b' = b := Option.some.inj (parent.symm.trans child)
      rw [← same, empty i] at there
      cases there
    by_cases top : i :: pathTo va j = pathTo va (d + 1)
    · have length := congrArg List.length top
      simp only [length_cons, length_pathTo] at length
      obtain rfl : j = d := by omega
      exact ⟨Nat.lt_succ_self _, top⟩
    · have kept := ((cell i _).trans ((if_neg top).trans (if_neg (other (by omega))))).trans slot
      obtain ⟨deeper, same⟩ := rest.emptied j low (by omega) i e kept there
      exact ⟨by omega, same⟩

theorem reclaimClimb_climbed (sound : HierarchySound s) (d : Nat) (bound : d ≤ 3) (l : List Nat)
    (spans : Spans s va d l) : ∃ c, Climbed s (reclaimClimb va (4 - d) l s) va d c := by
  induction d generalizing s l with
  | zero =>
    rw [show l = [s.hierarchy.root] from spans]
    exact ⟨0, .refl sound (.inl rfl)⟩
  | succ d ih =>
    obtain ⟨b, rest, rfl, here, above⟩ := spans
    obtain ⟨a, top, rfl, parent⟩ := above.head
    rw [reclaimClimb]
    by_cases empty : tableIsEmpty s.tables b
    swap
    · rw [if_pos (by simp [empty])]
      refine ⟨d + 1, .refl sound (.inr ?_)⟩
      rw [tableIsEmpty_iff, not_forall] at empty
      obtain ⟨i, there⟩ := empty
      exact ⟨i, _, cell_cons_of here, by simpa using there⟩
    rw [if_neg (by simp [empty]), show 4 - (d + 1) + 1 = 4 - d by omega]
    have blank := tableIsEmpty_iff.mp empty
    have child := here
    obtain ⟨a', parent', seen⟩ := node_cons_eq_some.mp child
    obtain rfl : a' = a := Option.some.inj (parent'.symm.trans parent)
    have prunes : Prunes s (pathTo va d) a' (tableIndex va (4 - d)) b 0 := by
      refine ⟨sound, parent, seen, ?_, fun _ => rfl, ?_⟩
      · rw [pageView_zero]
        rfl
      · intro j
        exact pageView_child_absent (blank j)
    have fewer : Spans (pruned s a' (tableIndex va (4 - d)) b 0) va d (a' :: top) := by
      apply above.congr pruned_root
      intro j small
      rw [prunes.node, if_neg]
      intro same
      rw [← pathTo_succ] at same
      have := pathTo_inj same
      omega
    obtain ⟨c, climbed⟩ := ih prunes.sound_pruned (by omega) _ fewer
    exact ⟨c, .prune prunes blank climbed⟩

theorem reclaimEmptyTables_climbed (sound : HierarchySound s)
    (bottom : s.node (pathTo va 3) ≠ none) : ∃ c, Climbed s (reclaimEmptyTables s va) va 3 c := by
  obtain ⟨l, found, spans⟩ := tablesOnPath_spans bottom 3 (by omega) s.hierarchy.root [] rfl
  rw [append_nil] at spans
  have path : tablesOnPath s.tables va pagingLevelCount s.hierarchy.root = some l := found
  rw [reclaimEmptyTables, path]
  exact reclaimClimb_climbed sound 3 (le_refl 3) l spans

theorem leaf_none_of_node {q : Path} (table : s.node q ≠ none) : s.leaf q = none := by
  apply Option.eq_none_iff_forall_ne_some.mpr
  intro e leaf
  obtain ⟨slot, seen⟩ := leaf_eq_some.mp leaf
  cases q with
  | nil => cases slot
  | cons i q =>
    obtain ⟨b, here⟩ := Option.ne_none_iff_exists'.mp table
    obtain ⟨e', slot', seen'⟩ := node_iff_cell.mp here
    obtain rfl : e' = e := Option.some.inj (slot'.symm.trans slot)
    rw [length_cons, Nat.add_sub_cancel] at seen
    rw [seen] at seen'
    cases seen'

/-- Taking empty tables away takes no leaf away. -/
theorem Climbed.leaf {c : Nat} (climbed : Climbed s t va 3 c)
    (bottom : s.node (pathTo va 3) ≠ none) (q : Path) : t.leaf q = s.leaf q := by
  cases q with
  | nil => rfl
  | cons i q => ?_
  by_cases gone : ∃ j, c < j ∧ j ≤ 3 ∧ q = pathTo va j
  · obtain ⟨j, low, high, rfl⟩ := gone
    have after : t.leaf (i :: pathTo va j) = none := by
      apply Option.eq_none_iff_forall_ne_some.mpr
      intro e leaf
      exact parent_of_cell (leaf_eq_some.mp leaf).1 (climbed.node_gone j low high)
    have before : s.leaf (i :: pathTo va j) = none := by
      apply Option.eq_none_iff_forall_ne_some.mpr
      intro e leaf
      obtain ⟨deeper, same⟩ :=
        climbed.emptied j low high i e (leaf_eq_some.mp leaf).1 (leaf_present leaf)
      rw [same, leaf_none_of_node (node_above (by omega) bottom)] at leaf
      cases leaf
    rw [after, before]
  · have away : ∀ j, c < j → j ≤ 3 → q ≠ pathTo va j :=
      fun j low high same => gone ⟨j, low, high, same⟩
    by_cases cut : c < 3 ∧ i :: q = pathTo va (c + 1)
    · have before := leaf_none_of_node (node_above (show c + 1 ≤ 3 by omega) bottom)
      rw [cut.2, before]
      apply Option.eq_none_iff_forall_ne_some.mpr
      intro e leaf
      have slot := (leaf_eq_some.mp leaf).1
      rw [climbed.cell_cut cut.1] at slot
      exact ne_zero_of_present (leaf_present leaf) (Option.some.inj slot).symm
    · exact leaf_congr (climbed.cell_kept i q away fun low same => cut ⟨low, same⟩)

end Sapote.Paging
