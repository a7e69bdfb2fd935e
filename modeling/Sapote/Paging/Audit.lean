import Sapote.Paging.Translation

/-!
The audit against the walk. `audit_table` scans every slot of every table while
`translate_address` follows one path, so both are read off one list: the leaves
under a table, each with its path and the rights conjoined along it. The audit
folds over that list, and a walk reports the leaf on its own path.
-/

namespace Sapote.Paging
open Library List
variable {entry pat : Word} {tr : PagingTranslation} {s : TableState}

structure AuditedLeaf where
  path : Path
  entry : Word
  (writable executable user : Bool)

def AuditedLeaf.level (leaf : AuditedLeaf) : Nat := 5 - leaf.path.length

def AuditedLeaf.On (leaf : AuditedLeaf) (va : Nat) : Prop := leaf.path = pathTo va leaf.path.length

def AuditedLeaf.translation (leaf : AuditedLeaf) (va : Nat) (pat : Word) : PagingTranslation :=
  fillTranslation leaf.entry va leaf.level leaf.writable leaf.executable leaf.user pat

def AuditedLeaf.tally (audit : PagingAudit) (leaf : AuditedLeaf) : PagingAudit :=
  auditLeaf audit leaf.level leaf.writable leaf.executable leaf.user

/-- What one slot of the table at `path` contributes, given the leaves of a table
one level down. -/
def slotLeaves (below : Nat → Path → Bool → Bool → Bool → List AuditedLeaf) (level : Nat)
    (entry : Word) (path : Path) (w x u : Bool) : List AuditedLeaf :=
  let w := w && writable entry
  let x := x && !noExecute entry
  let u := u && userBit entry
  if !present entry then []
  else if level = 0 ∨ huge entry then [⟨path, entry, w, x, u⟩]
  else below (frameOf entry) path w x u

def tableLeaves (tables : TableMemory) : Nat → Nat → Path → Bool → Bool → Bool → List AuditedLeaf
  | 0, _, _, _, _, _ => []
  | level + 1, table, path, w, x, u =>
    (List.finRange 512).flatMap fun index =>
      slotLeaves (tableLeaves tables level) level (tables table index) (index :: path) w x u

section
variable {tables : TableMemory} {level table : Nat} {path : Path} {w x u : Bool}
variable {leaf : AuditedLeaf} {va : Nat}

theorem auditTable_eq (deep : path.length + level = 4) (audit : PagingAudit) :
    auditTable tables level table w x u audit =
      (tableLeaves tables level table path w x u).foldl AuditedLeaf.tally audit := by
  induction level generalizing table path w x u audit with
  | zero => rfl
  | succ level ih =>
    rw [auditTable, tableLeaves, foldl_flatMap]
    congr 1
    funext audit index
    have height : 5 - (path.length + 1) = level + 1 := by omega
    have next : (index :: path).length + level = 4 := by
      rw [length_cons]
      omega
    have turn : (0 < level ∧ (!huge (tables table index))) ↔
        ¬(level = 0 ∨ huge (tables table index)) := by
      simp [Nat.pos_iff_ne_zero]
    by_cases there : present (tables table index)
    · by_cases ends : level = 0 ∨ huge (tables table index)
      · simp only [slotLeaves, there, turn, ends, not_true_eq_false, Bool.not_true,
          Bool.false_eq_true, if_false, if_true, foldl_cons, foldl_nil,
          AuditedLeaf.tally, AuditedLeaf.level, length_cons, height]
      · simp only [slotLeaves, there, turn, ends, not_false_eq_true, Bool.not_true,
          Bool.false_eq_true, if_false, if_true]
        exact ih next audit
    · simp [slotLeaves, there]

theorem tally_counts (leaves : List AuditedLeaf) (audit : PagingAudit) :
    let after := leaves.foldl AuditedLeaf.tally audit
    after.leafCount = audit.leafCount + leaves.length ∧
      after.writeExecuteLeaves = audit.writeExecuteLeaves +
        leaves.countP (fun leaf => leaf.writable && leaf.executable) ∧
      after.userLeaves = audit.userLeaves + leaves.countP AuditedLeaf.user := by
  induction leaves generalizing audit with
  | nil => simp
  | cons leaf leaves ih =>
    obtain ⟨count, both, user⟩ := ih (AuditedLeaf.tally audit leaf)
    simp only [foldl_cons, length_cons, countP_cons, count, both, user]
    simp only [AuditedLeaf.tally, auditLeaf]
    omega

theorem mem_slotLeaves {below : Nat → Path → Bool → Bool → Bool → List AuditedLeaf} :
    leaf ∈ slotLeaves below level entry path w x u ↔ present entry ∧
      if level = 0 ∨ huge entry = true then
        leaf = ⟨path, entry, w && writable entry, x && !noExecute entry, u && userBit entry⟩
      else leaf ∈ below (frameOf entry) path (w && writable entry) (x && !noExecute entry)
        (u && userBit entry) := by
  unfold slotLeaves
  by_cases there : present entry
  · simp only [there, Bool.not_true, Bool.false_eq_true, if_false, true_and]
    split <;> simp
  · simp [there]

theorem mem_tableLeaves_succ : leaf ∈ tableLeaves tables (level + 1) table path w x u ↔ ∃ index,
      leaf ∈ slotLeaves (tableLeaves tables level) level (tables table index) (index :: path) w x u := by
  simp [tableLeaves]

theorem tableLeaves_suffix (mem : leaf ∈ tableLeaves tables level table path w x u) :
    path <:+ leaf.path ∧ leaf.path.length ≤ path.length + level ∧ path.length < leaf.path.length := by
  induction level generalizing table path w x u with
  | zero => cases mem
  | succ level ih =>
    obtain ⟨index, slot⟩ := mem_tableLeaves_succ.mp mem
    have rest := (mem_slotLeaves.mp slot).2
    split at rest
    · rw [rest]
      exact ⟨suffix_cons _ _, by simp, by simp⟩
    · obtain ⟨below, short, long⟩ := ih rest
      rw [length_cons] at short long
      exact ⟨(suffix_cons _ _).trans below, by omega, by omega⟩

theorem slotLeaves_suffix
    (mem : leaf ∈ slotLeaves (tableLeaves tables level) level entry path w x u) :
    path <:+ leaf.path := by
  have rest := (mem_slotLeaves.mp mem).2
  split at rest
  · rw [rest]
  · exact (tableLeaves_suffix rest).1

/-- A leaf on the path of `va` is what the walk of `va` reports. -/
theorem translateWalk_of_leaf (deep : path.length + level = 4) (pat : Word)
    (mem : leaf ∈ tableLeaves tables level table path w x u) (here : leaf.On va) :
    translateWalk tables va pat level table w x u = (.ok, leaf.translation va pat) := by
  induction level generalizing table path w x u with
  | zero => cases mem
  | succ level ih =>
    obtain ⟨index, slot⟩ := mem_tableLeaves_succ.mp mem
    have under := slotLeaves_suffix slot
    rw [here] at under
    have taken : tableIndex va (level + 1) = index := by
      rw [(List.cons.inj (suffix_spine under).1).1, vaKey, show 4 - path.length = level + 1 by omega]
    obtain ⟨there, rest⟩ := mem_slotLeaves.mp slot
    rw [translateWalk, taken]
    rw [if_neg (by simp [there])]
    split at rest
    · rename_i ends
      rw [if_pos ends, rest, AuditedLeaf.translation, AuditedLeaf.level, length_cons,
        show 5 - (path.length + 1) = level + 1 by omega]
    · rename_i inner
      rw [if_neg inner]
      exact ih (by rw [length_cons]; omega) rest

/-- What a walk reports is a leaf on its path. -/
theorem leaf_of_translateWalk (deep : path.length + level = 4) (here : path = pathTo va path.length)
    (found : translateWalk tables va pat level table w x u = (.ok, tr)) :
    ∃ leaf ∈ tableLeaves tables level table path w x u,
      leaf.On va ∧ tr = leaf.translation va pat := by
  induction level generalizing table path w x u with
  | zero => simp [translateWalk] at found
  | succ level ih =>
    have slot : tableIndex va (level + 1) :: path = pathTo va (path.length + 1) := by
      rw [pathTo_succ, ← here, show 4 - path.length = level + 1 by omega]
    rw [translateWalk] at found
    by_cases there : present (tables table (tableIndex va (level + 1)))
    swap
    · simp [there] at found
    rw [if_neg (by simp [there])] at found
    by_cases ends : level = 0 ∨ huge (tables table (tableIndex va (level + 1)))
    · rw [if_pos ends] at found
      refine ⟨_, mem_tableLeaves_succ.mpr
        ⟨_, mem_slotLeaves.mpr ⟨there, Eq.mpr (if_pos ends) rfl⟩⟩, slot, ?_⟩
      rw [← (Prod.mk.inj found).2, AuditedLeaf.translation, AuditedLeaf.level,
        length_cons, show 5 - (path.length + 1) = level + 1 by omega]
    · rw [if_neg ends] at found
      obtain ⟨leaf, mem, on, same⟩ := ih (by rw [length_cons]; omega) slot found
      refine ⟨leaf, mem_tableLeaves_succ.mpr ⟨_, mem_slotLeaves.mpr ⟨there, ?_⟩⟩, on, same⟩
      rw [if_neg ends]
      exact mem

theorem nodup_tableLeaves :
    ((tableLeaves tables level table path w x u).map AuditedLeaf.path).Nodup := by
  induction level generalizing table path w x u with
  | zero => exact nodup_nil
  | succ level ih =>
    rw [tableLeaves, map_flatMap, nodup_flatMap]
    constructor
    · intro index _
      unfold slotLeaves
      split
      · exact nodup_nil
      · split
        · exact nodup_singleton _
        · exact ih
    · apply (nodup_finRange _).imp
      intro i j apart p left right
      obtain ⟨leaf, first, rfl⟩ := mem_map.mp left
      obtain ⟨other, second, same⟩ := mem_map.mp right
      have under := slotLeaves_suffix second
      rw [same] at under
      have inside := suffix_of_suffix_length_le (slotLeaves_suffix first) under (le_refl _)
      exact apart (List.cons.inj (inside.eq_of_length rfl)).1

end

/-- Every path of at most four slots is the path of a canonical address: the upper
half of the root is the sign-extended half of the address space. -/
theorem exists_canonical (p : Path) :
    ∃ va, addressIsCanonical va ∧ (p.length ≤ 4 → p = pathTo va p.length) := by
  obtain ⟨k, same⟩ := exists_spine p
  obtain ⟨top, extended⟩ : ∃ top, (k 0).val < 256 ∧ top = 0 ∨
      256 ≤ (k 0).val ∧ top = 2 ^ 64 - 2 ^ 48 := by
    by_cases low : (k 0).val < 256
    · exact ⟨0, .inl ⟨low, rfl⟩⟩
    · exact ⟨_, .inr ⟨by omega, rfl⟩⟩
  refine ⟨top + (k 0).val * 2 ^ 39 + (k 1).val * 2 ^ 30 + (k 2).val * 2 ^ 21 + (k 3).val * 2 ^ 12,
    ?_, ?_⟩
  · simp only [addressIsCanonical, Bool.or_eq_true, decide_eq_true_eq]
    omega
  · intro short
    conv_lhs => rw [← same]
    apply spine_congr
    intro j small
    apply Fin.ext
    obtain rfl | rfl | rfl | rfl : j = 0 ∨ j = 1 ∨ j = 2 ∨ j = 3 := by omega
    all_goals
      simp only [vaKey, tableIndex]
      omega

/-- The pages `translate_address` resolves, each as its number at the size of its
leaf and the level of that leaf. -/
def resolvedPages (s : TableState) (pat : Word) : Set (Nat × Nat) :=
  {page | ∃ va tr, addressIsCanonical va ∧ translateAddress s va pat = (.ok, tr) ∧
    page = (va / levelPageSize tr.level, tr.level)}

def hierarchyLeaves (s : TableState) : List AuditedLeaf :=
  tableLeaves s.tables pagingLevelCount s.hierarchy.root [] true true true

theorem hierarchyLeaves_length {leaf : AuditedLeaf} (mem : leaf ∈ hierarchyLeaves s) :
    1 ≤ leaf.path.length ∧ leaf.path.length ≤ 4 := by
  obtain ⟨-, short, long⟩ := tableLeaves_suffix mem
  exact ⟨long, le_trans short (le_of_eq (zero_add 4))⟩

theorem translateAddress_iff {va : Nat} (canonical : addressIsCanonical va) :
    translateAddress s va pat = (.ok, tr) ↔
      ∃ leaf ∈ hierarchyLeaves s, leaf.On va ∧ tr = leaf.translation va pat := by
  rw [translateAddress, if_neg (by simp [canonical])]
  constructor
  · exact leaf_of_translateWalk rfl rfl
  · rintro ⟨leaf, mem, on, rfl⟩
    exact translateWalk_of_leaf rfl pat mem on

/-- Some leaf has a property of its rights exactly when some canonical address
translates through such a leaf. -/
theorem exists_leaf_iff {P : AuditedLeaf → Prop} {Q : PagingTranslation → Prop}
    (same : ∀ leaf va, Q (leaf.translation va pat) ↔ P leaf) :
    (∃ leaf ∈ hierarchyLeaves s, P leaf) ↔ ∃ va tr, addressIsCanonical va ∧
      translateAddress s va pat = (.ok, tr) ∧ Q tr := by
  constructor
  · rintro ⟨leaf, mem, holds⟩
    obtain ⟨va, canonical, on⟩ := exists_canonical leaf.path
    refine ⟨va, _, canonical, (translateAddress_iff canonical).mpr ⟨leaf, mem, ?_, rfl⟩,
      (same leaf va).mpr holds⟩
    exact on (hierarchyLeaves_length mem).2
  · rintro ⟨va, tr, canonical, found, holds⟩
    obtain ⟨leaf, mem, -, rfl⟩ := (translateAddress_iff canonical).mp found
    exact ⟨leaf, mem, (same leaf va).mp holds⟩

theorem translation_rights (leaf : AuditedLeaf) (va : Nat) (pat : Word) :
    wantsWrite (leaf.translation va pat).permissions = leaf.writable ∧
      wantsExecute (leaf.translation va pat).permissions = leaf.executable := by
  unfold AuditedLeaf.translation fillTranslation
  dsimp only
  generalize leaf.writable = w, leaf.executable = x
  generalize leafMemoryType leaf.entry leaf.level pat = memoryType
  cases w <;> cases x <;> cases memoryType <;> decide

/-- Leaves lie in the same page of the same level only when they are one leaf. -/
theorem page_eq_iff {leaf other : AuditedLeaf} (mem : leaf ∈ hierarchyLeaves s)
    (mem' : other ∈ hierarchyLeaves s) {x y : Nat} (hx : addressIsCanonical x)
    (hy : addressIsCanonical y) (onX : leaf.On x) (onY : other.On y) :
    (x / levelPageSize leaf.level, leaf.level) = (y / levelPageSize other.level, other.level) ↔
      leaf.path = other.path := by
  have size := hierarchyLeaves_length mem
  have size' := hierarchyLeaves_length mem'
  have height : 5 - leaf.level = leaf.path.length := by
    unfold AuditedLeaf.level
    omega
  have height' : 5 - other.level = other.path.length := by
    unfold AuditedLeaf.level
    omega
  constructor
  · intro same
    obtain ⟨page, level⟩ := Prod.mk.inj same
    rw [onX, onY, ← height, ← height', ← level]
    rw [← level] at page
    exact (pathTo_eq_iff (by omega) hx hy).mpr page
  · intro same
    have level : leaf.level = other.level := by rw [AuditedLeaf.level, same, AuditedLeaf.level]
    rw [onX, onY, ← height, ← height', ← level] at same
    rw [← level, (pathTo_eq_iff (by omega) hx hy).mp same]

theorem resolvedPages_ncard (s : TableState) (pat : Word) :
    (resolvedPages s pat).ncard = (hierarchyLeaves s).length := by
  choose va canonical on using exists_canonical
  let page (leaf : AuditedLeaf) := (va leaf.path / levelPageSize leaf.level, leaf.level)
  have here : ∀ leaf ∈ hierarchyLeaves s, leaf.On (va leaf.path) :=
    fun leaf mem => on leaf.path (hierarchyLeaves_length mem).2
  have pages : resolvedPages s pat = ((hierarchyLeaves s).map page).toFinset := by
    ext p
    rw [coe_toFinset, Set.mem_ofPred_eq, mem_map]
    constructor
    · rintro ⟨x, tr, canonicalX, found, rfl⟩
      obtain ⟨leaf, mem, onX, rfl⟩ := (translateAddress_iff canonicalX).mp found
      have same := (page_eq_iff mem mem (canonical leaf.path) canonicalX (here leaf mem) onX).mpr rfl
      exact ⟨leaf, mem, same⟩
    · rintro ⟨leaf, mem, rfl⟩
      exact ⟨va leaf.path, _, canonical _, (translateAddress_iff (canonical _)).mpr
        ⟨leaf, mem, here leaf mem, rfl⟩, rfl⟩
  have apart : ((hierarchyLeaves s).map page).Nodup := by
    apply List.Nodup.map_on _ nodup_tableLeaves.of_map
    intro leaf mem other mem' same
    exact inj_on_of_nodup_map nodup_tableLeaves mem mem'
      ((page_eq_iff mem mem' (canonical _) (canonical _) (here leaf mem) (here other mem')).mp same)
  rw [pages, Set.ncard_coe_finset, toFinset_card_of_nodup apart, length_map]

theorem audit_sees_what_walk_sees (s : TableState) (pat : Word) :
    ((auditHierarchy s).writeExecuteLeaves = 0 ↔ ¬∃ va tr, addressIsCanonical va = true ∧
        translateAddress s va pat = (.ok, tr) ∧
        wantsWrite tr.permissions = true ∧ wantsExecute tr.permissions = true) ∧
      ((auditHierarchy s).userLeaves = 0 ↔ ¬∃ va tr, addressIsCanonical va = true ∧
        translateAddress s va pat = (.ok, tr) ∧ tr.user = true) ∧
      (auditHierarchy s).leafCount = (resolvedPages s pat).ncard := by
  have same : auditHierarchy s = (hierarchyLeaves s).foldl AuditedLeaf.tally ⟨0, 0, 0, 0, 0, 0⟩ :=
    auditTable_eq rfl _
  obtain ⟨count, both, user⟩ := tally_counts (hierarchyLeaves s) ⟨0, 0, 0, 0, 0, 0⟩
  rw [same, count, both, user, resolvedPages_ncard, zero_add, zero_add, zero_add,
    countP_eq_zero, countP_eq_zero]
  refine ⟨?_, ?_, rfl⟩
  · rw [← exists_leaf_iff (P := fun leaf => leaf.writable = true ∧ leaf.executable = true)]
    · simp
    · intro leaf va
      rw [(translation_rights leaf va pat).1, (translation_rights leaf va pat).2]
  · rw [← exists_leaf_iff (P := fun leaf => leaf.user = true) fun leaf va => Iff.rfl]
    simp

end Sapote.Paging
