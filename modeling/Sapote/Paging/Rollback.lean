import Mathlib.Data.Set.Finite.List
import Sapote.Paging.Shrink
import Sapote.Paging.Refinement

/-!
When a refused `map_range` leaves the hierarchy as it found it. A refusal by the
checks always does. A request that runs out of tables does exactly when the
failing page had not yet drawn a table of its own and the climbs of the rollback
meet no table that was empty before; 2 MiB rollbacks never give tables back.
-/

namespace Sapote.Paging
open Frames Library
variable {s t : TableState}

/-- `t` has the tables, entries, table count and allocated frames of `s`. -/
structure Restored (s t : TableState) : Prop where
  root : t.hierarchy.root = s.hierarchy.root
  entries : ∀ a ∈ s.tableSet, t.tables a = s.tables a
  tableFrames : t.hierarchy.tableFrames = s.hierarchy.tableFrames
  used : ∀ f, t.frames.used f = s.frames.used f

theorem node_eq_of_cell (root : t.hierarchy.root = s.hierarchy.root)
    (same : ∀ q, t.cell q = s.cell q) (q : Path) : t.node q = s.node q := by
  cases q with
  | nil => exact congrArg some root
  | cons i q => exact node_congr_cell (same (i :: q))

/-- After edits, the slots of the tree decide whether everything is restored. -/
theorem restored_iff (sound : HierarchySound s) (edits : Edits s t) :
    Restored s t ↔ ∀ q, t.cell q = s.cell q := by
  constructor
  · intro restored q
    rw [TableState.cell, restored.root]
    exact cell_congr (fun p a here i => by rw [restored.entries a ⟨p, here⟩]) q
  · intro same
    have nodes := node_eq_of_cell edits.root same
    refine ⟨edits.root, ?_, edits.tableFrames_eq sound nodes, edits.used_eq sound nodes⟩
    rintro a ⟨p, here⟩
    funext i
    have before : s.cell (i :: p) = some (s.tables a i) := cell_cons_of here
    have after : t.cell (i :: p) = some (t.tables a i) := cell_cons_of ((nodes p).trans here)
    exact Option.some.inj (after.symm.trans ((same _).trans before))

/-- The states and requests for which `map_range` keeps its promise. -/
def RollbackSafe (s : TableState) (va pa length : Nat) (permissions : Permissions) (level : Nat) :
    Prop :=
  mapAdmission s va pa length permissions level ≠ .ok ∨
    (needed s va level (length / levelPageSize level)).ncard ≤ supply s ∨
    (level = 2 ∧ supply s = 0) ∨
    (level = 1 ∧ ∃ k, k < length / levelPageSize level ∧ (needed s va level k).ncard = supply s ∧
      supply s < (needed s va level (k + 1)).ncard ∧ ∀ i, i < k → Anchored s (pageAt va level i))

section
variable {s : TableState} {va level : Nat}

theorem needed_finite (k : Nat) : (needed s va level k).Finite := by
  apply (List.finite_length_le TableIndex (4 - level)).subset
  rintro q ⟨i, -, path⟩
  exact missing_length path

theorem needed_mono {k k' : Nat} (le : k ≤ k') : needed s va level k ⊆ needed s va level k' := by
  rintro q ⟨i, small, path⟩
  exact ⟨i, by omega, path⟩

theorem needed_card_mono {k k' : Nat} (le : k ≤ k') :
    (needed s va level k).ncard ≤ (needed s va level k').ncard :=
  Set.ncard_le_ncard (needed_mono le) (needed_finite k')

variable {f : TableState} {pa n j m : Nat} {permissions : Permissions}

section
variable (starved : Starved s f va pa permissions level j m)
include starved

/-- A starved request has used the supply up. -/
theorem Starved.supply_eq :
    supply s = (needed s va level j ∪ missing s (pageAt va level j) m).ncard := by
  rw [starved.grows.drawn, starved.empty, zero_add]

theorem Starved.needed_le : (needed s va level j).ncard ≤ supply s := by
  rw [starved.supply_eq]
  exact Set.ncard_le_ncard Set.subset_union_left starved.grows.finite

theorem Starved.supply_lt : supply s < (needed s va level (j + 1)).ncard := by
  rw [starved.supply_eq]
  apply Set.ncard_lt_ncard _ (needed_finite (j + 1))
  have depth := starved.depth
  rw [needed_succ]
  constructor
  · apply Set.union_subset_union_right
    rintro q ⟨d, small, shape, absent⟩
    exact ⟨d, by omega, shape, absent⟩
  · intro all
    have fresh : pathTo (pageAt va level j) (m + 1) ∉
        needed s va level j ∪ missing s (pageAt va level j) m :=
      fun member => starved.grows.grown.node_new _ member starved.stuck
    apply fresh
    apply all
    right
    refine ⟨m + 1, by omega, rfl, ?_⟩
    rw [← starved.grows.grown.node_old _ fresh]
    exact starved.stuck

/-- The page at which a request starves is determined by what it needs. -/
theorem Starved.page_unique {k : Nat} (exact_ : (needed s va level k).ncard = supply s)
    (more : supply s < (needed s va level (k + 1)).ncard) : k = j := by
  have low := starved.needed_le
  have high := starved.supply_lt
  by_contra other
  by_cases before : k < j
  · have := @needed_card_mono s va level _ _ (show k + 1 ≤ j from before)
    omega
  · have := @needed_card_mono s va level _ _ (show j + 1 ≤ k by omega)
    omega

end

/-- Clearing 2 MiB pages takes no table away. -/
theorem clearRange_large (sound : HierarchySound s) {va : Nat} (k : Nat)
    (noTable : ∀ i, i < k → s.node (slotAt va 2 i) = none) :
    let t := clearRange s va (k * levelPageSize 2) 2
    (∀ q, t.node q = s.node q) ∧
      (∀ q, (∀ i, i < k → q ≠ slotAt va 2 i) → t.cell q = s.cell q) ∧
      ∀ i, i < k → s.node (pathTo (pageAt va 2 i) 2) ≠ none →
        t.cell (slotAt va 2 i) = some 0 := by
  induction k with
  | zero =>
    rw [clearRange_zero]
    exact ⟨fun _ => rfl, fun _ _ => rfl, fun i small => absurd small (Nat.not_lt_zero i)⟩
  | succ k ih =>
    obtain ⟨nodes, kept, zero⟩ := ih fun i small => noTable i (by omega)
    have edits := (clearRange_cleared sound va 2 (.inr rfl) k
      fun i small => noTable i (by omega)).edits
    rw [clearRange_succ]
    have last := noTable k (Nat.lt_succ_self k)
    rw [← nodes] at last
    obtain unchanged | cleared := clearPage_cases edits.sound (pageAt va 2 k) 2 (.inr rfl) last
    · rw [unchanged.2]
      refine ⟨nodes, fun q away => kept q fun i small => away i (by omega), ?_⟩
      intro i small here
      by_cases mine : i = k
      · subst mine
        rw [← nodes] at here
        exact absurd unchanged.1 here
      · exact zero i (by omega) here
    obtain ⟨z, -, zeroed, after⟩ := cleared
    have same : clearPage 2 (clearRange s va (k * levelPageSize 2) 2) (pageAt va 2 k) = z :=
      (after.resolve_left fun climbed => absurd climbed.1 (by decide)).2
    rw [same]
    have cell : ∀ q, z.cell q = if q = slotAt va 2 k then some 0
        else (clearRange s va (k * levelPageSize 2) 2).cell q := zeroed.cell
    refine ⟨fun q => (zeroed.node q).trans (nodes q), ?_, ?_⟩
    · intro q away
      rw [cell, if_neg (away k (Nat.lt_succ_self k))]
      exact kept q fun i small => away i (by omega)
    · intro i small here
      rw [cell]
      by_cases mine : slotAt va 2 i = slotAt va 2 k
      · rw [if_pos mine]
      · rw [if_neg mine]
        refine zero i ?_ here
        by_contra past
        obtain rfl : i = k := by omega
        exact mine rfl

variable {s f : TableState} {va pa n j m : Nat} {permissions : Permissions}

/-- A starved 2 MiB request restores the hierarchy exactly when it drew nothing. -/
theorem restored_large_iff (request : MapRequest s va pa permissions 2 n) (small : j < n)
    (starved : Starved s f va pa permissions 2 j m)
    (edits : Edits s (clearRange f va (j * levelPageSize 2) 2)) :
    Restored s (clearRange f va (j * levelPageSize 2) 2) ↔ supply s = 0 := by
  obtain ⟨nodes, kept, zero⟩ := clearRange_large starved.grows.grown.edits.sound j
    fun i earlier => starved.no_table request small earlier
  have grown := starved.grows.grown
  rw [restored_iff request.sound edits]
  constructor
  · intro same
    have empty : needed s va 2 j ∪ missing s (pageAt va 2 j) m = ∅ := by
      apply Set.eq_empty_iff_forall_notMem.mpr
      intro q member
      apply grown.node_new q member
      rw [← nodes, node_eq_of_cell edits.root same]
      exact (grown.vacant q (.inl member)).1
    rw [starved.supply_eq, empty, Set.ncard_empty]
  · intro none
    have empty : needed s va 2 j ∪ missing s (pageAt va 2 j) m = ∅ := by
      rw [starved.supply_eq] at none
      exact (Set.ncard_eq_zero starved.grows.finite).mp none
    rw [empty] at grown
    intro q
    obtain ⟨i, earlier, rfl⟩ | other := Classical.em (∃ i, i < j ∧ q = slotAt va 2 i)
    · have leaf := (leaf_eq_some.mp (grown.leaf_new _ _ ⟨i, earlier, rfl⟩)).1
      have shape := @slot_cons (pageAt va 2 i) _ (.inr rfl)
      rw [slotAt, shape] at leaf
      have parent := parent_of_cell leaf
      rw [zero i earlier parent]
      rw [grown.node_old _ (Set.notMem_empty _)] at parent
      obtain ⟨a, here⟩ := Option.ne_none_iff_exists'.mp parent
      have slot : s.cell (slotAt va 2 i) = some (s.tables a (tableIndex (pageAt va 2 i) 2)) := by
        rw [slotAt, shape]
        exact cell_cons_of here
      rw [slot, (request.free i (by omega)).vacant.2 _ slot]
    rw [kept q fun i earlier same => other ⟨i, earlier, same⟩]
    cases q with
    | nil => rfl
    | cons k q =>
      apply grown.cell_old k q (Set.notMem_empty _) (Set.notMem_empty _)
      rintro e ⟨i, earlier, pair⟩
      exact other ⟨i, earlier, (Prod.mk.inj pair).1⟩

/-- Partway through a rollback of 4 KiB pages: the paths of the cleared pages have
no empty table left, and nothing off those paths has gone. -/
theorem clearRange_partway (sound : HierarchySound f)
    (mapped : ∀ i, i < j → ∃ e, f.leaf (slotAt va 1 i) = some e)
    (distinct : ∀ i i', i < j → i' < j → slotAt va 1 i = slotAt va 1 i' → i = i') (c : Nat)
    (bound : c ≤ j) :
    let t := clearRange f va (c * levelPageSize 1) 1
    (∀ i, i < c → ∀ d, 1 ≤ d → t.node (pathTo (pageAt va 1 i) d) ≠ none →
        InUse t (pathTo (pageAt va 1 i) d)) ∧
      ∀ q, (∀ i, i < c → ∀ d, q ≠ pathTo (pageAt va 1 i) d) → t.node q = f.node q := by
  induction c with
  | zero =>
    rw [clearRange_zero]
    exact ⟨fun i small => absurd small (Nat.not_lt_zero i), fun _ _ => rfl⟩
  | succ c ih =>
    obtain ⟨used, off⟩ := ih (by omega)
    have cleared := clearRange_cleared sound va 1 (.inl rfl) c
      fun i _ => node_four (pageAt va 1 i)
    obtain ⟨e, here⟩ := mapped c (by omega)
    have still := cleared.leaf_kept (slotAt va 1 c) fun i small same => by
      have := distinct c i (by omega) (by omega) same
      omega
    rw [here] at still
    rw [clearRange_succ]
    constructor
    · intro i small d inner node
      by_cases mine : i = c
      · rw [mine] at node ⊢
        exact clearPage_path_inUse cleared.edits.sound still inner node
      have before := (clearPage_cleared cleared.edits.sound (pageAt va 1 c) 1
        (.inl rfl) (node_four _)).node _ node
      refine clearPage_inUse cleared.edits.sound still (pathTo_ne_nil inner) node ?_
      refine used i (by omega) d inner ?_
      rw [← before]
      exact node
    · intro q away
      rw [clearPage_node_off cleared.edits.sound still fun d => away c (Nat.lt_succ_self c) d]
      exact off q fun i small => away i (by omega)

theorem Grown.cell_eq (grown : Grown s t ∅ ∅) (q : Path) : t.cell q = s.cell q := by
  cases q with
  | nil => rfl
  | cons i q =>
    exact grown.cell_old i q (Set.notMem_empty _) (Set.notMem_empty _) fun _ => Set.notMem_empty _

/-- A starved 4 KiB request restores the hierarchy exactly when the failing page
drew nothing and the climbs met no table that was empty before. -/
theorem restored_small_iff (request : MapRequest s va pa permissions 1 n) (small : j < n)
    (starved : Starved s f va pa permissions 1 j m)
    (edits : Edits s (clearRange f va (j * levelPageSize 1) 1)) :
    Restored s (clearRange f va (j * levelPageSize 1) 1) ↔
      (needed s va 1 j).ncard = supply s ∧ ∀ i, i < j → Anchored s (pageAt va 1 i) := by
  have grown := starved.grows.grown
  rw [restored_iff request.sound edits]
  constructor
  · intro same
    have nodes := node_eq_of_cell edits.root same
    obtain ⟨used, off⟩ := clearRange_partway grown.edits.sound
      (fun i earlier => ⟨_, grown.leaf_new _ _ ⟨i, earlier, rfl⟩⟩)
      (fun i i' hi hi' => request.distinct (by omega) (by omega)) j (le_refl j)
    constructor
    · have own : missing s (pageAt va 1 j) m ⊆ needed s va 1 j := by
        intro q member
        by_contra fresh
        have away : ∀ i, i < j → ∀ d, q ≠ pathTo (pageAt va 1 i) d := by
          intro i earlier d shape
          have bound := missing_length member
          have depth := starved.depth
          obtain ⟨-, -, -, absent⟩ := member
          rw [shape, length_pathTo] at bound
          exact fresh ⟨i, earlier, d, by omega, shape, absent⟩
        apply grown.node_new q (.inr member)
        rw [← off q away, nodes q]
        exact (grown.vacant q (.inl (.inr member))).1
      rw [starved.supply_eq, Set.union_eq_left.mpr own]
    · intro i earlier d a inner here
      apply (inUse_iff here).mp
      obtain ⟨k, e, slot, there⟩ := used i earlier d inner (by rw [nodes, here]; exact nofun)
      exact ⟨k, e, (same _).symm.trans slot, there⟩
  · intro safe
    have all : needed s va 1 j = needed s va 1 j ∪ missing s (pageAt va 1 j) m := by
      apply Set.eq_of_subset_of_ncard_le Set.subset_union_left _ starved.grows.finite
      rw [← starved.supply_eq, safe.1]
    rw [← all] at grown
    exact (clearRange_undoes request (le_of_lt small) grown safe.2).cell_eq

end

/-- A refused `map_range` leaves everything as it was, exactly when the request and
the state are safe to roll back. -/
theorem map_range_refusal_restores_iff {s : TableState} (sound : HierarchySound s)
    (va pa length : Nat) (permissions : Permissions) (large : Bool) :
    ((mapRange s va pa length permissions (leafLevel large)).status ≠ .ok →
        Restored s (mapRange s va pa length permissions (leafLevel large)).state) ↔
      RollbackSafe s va pa length permissions (leafLevel large) := by
  have sized := leafLevel_cases large
  obtain refused | admitted := mapRange_cases sound va pa length permissions sized
  · rw [refused.2]
    exact ⟨fun _ => .inl refused.1, fun _ _ => ⟨rfl, fun _ _ => rfl, rfl, fun _ => rfl⟩⟩
  obtain ⟨passed, n, rfl, request, outcome⟩ := admitted
  have pages : n * levelPageSize (leafLevel large) / levelPageSize (leafLevel large) = n :=
    Nat.mul_div_cancel _ (levelPageSize_pos _)
  rw [RollbackSafe, pages]
  obtain ok | ⟨j, m, f, small, starved, result⟩ := outcome
  · refine ⟨fun _ => .inr (.inl ?_), fun _ status => absurd ok.1 status⟩
    rw [ok.2.drawn]
    omega
  have edits := (mapRange_leaves sound va pa (n * levelPageSize (leafLevel large)) permissions
    sized).1
  rw [result] at edits ⊢
  have short : ¬(needed s va (leafLevel large) n).ncard ≤ supply s := by
    have more := starved.supply_lt
    have := @needed_card_mono s va (leafLevel large) _ _ (show j + 1 ≤ n from small)
    omega
  have failing : (PagingStatus.outOfFrames ≠ .ok →
      Restored s (clearRange f va (j * levelPageSize (leafLevel large)) (leafLevel large))) ↔
      Restored s (clearRange f va (j * levelPageSize (leafLevel large)) (leafLevel large)) :=
    ⟨fun h => h nofun, fun h _ => h⟩
  refine failing.trans ?_
  cases large with
  | true =>
    refine (restored_large_iff request small starved edits).trans ⟨?_, ?_⟩
    · exact fun none => .inr (.inr (.inl ⟨rfl, none⟩))
    · rintro (refused | enough | none | other)
      · exact absurd passed refused
      · exact absurd enough short
      · exact none.2
      · exact absurd other.1 (by decide)
  | false => ?_
  refine (restored_small_iff request small starved edits).trans ⟨?_, ?_⟩
  · intro safe
    exact .inr (.inr (.inr ⟨rfl, j, small, safe.1, starved.supply_lt, safe.2⟩))
  · rintro (refused | enough | other | ⟨-, k, -, drawn, more, anchored⟩)
    · exact absurd passed refused
    · exact absurd enough short
    · exact absurd other.1 (by decide)
    · obtain rfl := starved.page_unique drawn more
      exact ⟨drawn, anchored⟩

/-- Over an empty root every table on the way to a page is lacking. -/
theorem EmptyRoot.needed_eq (empty : EmptyRoot s) (va k : Nat) :
    needed s va 1 k = ((Finset.range k ×ˢ Finset.Icc 1 3).image fun p =>
      pathTo (pageAt va 1 p.1) p.2 : Finset Path) := by
  ext q
  simp only [needed, missing, Finset.coe_image, Set.mem_image, Finset.mem_coe, Finset.mem_product,
    Finset.mem_range, Finset.mem_Icc, Set.mem_ofPred_eq, Prod.exists]
  constructor
  · rintro ⟨i, low, j, high, rfl, gone⟩
    cases j with
    | zero => cases gone
    | succ j => exact ⟨i, j + 1, ⟨low, Nat.le_add_left _ _, high⟩, rfl⟩
  · rintro ⟨i, j, ⟨low, inner, high⟩, rfl⟩
    refine ⟨i, low, j, high, rfl, Option.eq_none_iff_forall_ne_some.mpr fun a here => ?_⟩
    exact pathTo_ne_nil inner (empty.node here).1

/-- The first page of an arena that has `capacity` of them is its root. -/
def freshRoot (capacity : Nat) : TableState :=
  ⟨fun _ _ => 0, smallStart.2, ⟨0x200000, 0x200000, capacity, 1, 1, false⟩⟩

/-- Three tables are left, which is what the first page takes; the second one lies behind the next
table, and its refusal takes the three away again. -/
theorem map_range_refusal_restores_three_tables :
    (mapRange (freshRoot 4) 0x2001FF000 0x5000 0x2000 pagingWrite 1).status = .outOfFrames ∧
      Restored (freshRoot 4) (mapRange (freshRoot 4) 0x2001FF000 0x5000 0x2000 pagingWrite 1).state := by
  have empty : EmptyRoot (freshRoot 4) :=
    emptyRoot_of_arena smallStart_sound (by decide) rfl rfl rfl (by decide)
  have refused : (mapRange (freshRoot 4) 0x2001FF000 0x5000 0x2000 pagingWrite 1).status =
      .outOfFrames := by decide +kernel
  have tables (k : Nat) := congrArg Set.ncard (empty.needed_eq 0x2001FF000 k)
  simp only [Set.ncard_coe_finset] at tables
  refine ⟨refused, (map_range_refusal_restores_iff empty.sound _ _ _ _ false).mpr
    (.inr (.inr (.inr ⟨rfl, 1, by decide, (tables 1).trans (by decide +kernel),
      lt_of_lt_of_eq (by decide +kernel) (tables 2).symm, ?_⟩))) (by rw [leafLevel]; simp [refused])⟩
  intro i _ d a inner here
  exact absurd (empty.node here).1 (pathTo_ne_nil inner)

/-- With one table left, mapping a page draws it for the topmost table and keeps it
when the next one is refused. -/
theorem map_range_refusal_keeps_table :
    ∃ s : TableState, HierarchySound s ∧
      (mapRange s 0x200000000 0x5000 0x1000 pagingWrite 1).status = .outOfFrames ∧
      (mapRange s 0x200000000 0x5000 0x1000 pagingWrite 1).state.hierarchy.tableFrames ≠
        s.hierarchy.tableFrames ∧
      ¬Restored s (mapRange s 0x200000000 0x5000 0x1000 pagingWrite 1).state := by
  have counts : (mapRange (freshRoot 2) 0x200000000 0x5000 0x1000 pagingWrite
      1).state.hierarchy.tableFrames ≠ 1 := by decide +kernel
  refine ⟨freshRoot 2, ?_, by decide +kernel, counts, fun restored => counts restored.tableFrames⟩
  exact (emptyRoot_of_arena smallStart_sound (by decide) rfl rfl rfl (by decide)).sound

end Sapote.Paging
