import Mathlib.Tactic

/-!
A radix tree laid out in a store of tables. A path names a table by the indices
that lead to it, the deepest one first. As long as no table is reached by two
paths, one write changes one slot of the tree, and the three edits a page-table
walker makes (changing a leaf, hanging a table on a slot, taking one off) have
exact read-after-write laws.
-/

namespace Sapote.Library
open List Option

universe u v w

inductive EntryView (A : Type u) where
  | absent | leaf
  | table (address : A)
deriving DecidableEq

def EntryView.child {A : Type u} : EntryView A → Option A
  | .table a => some a
  | _ => none

section
variable {A : Type u} {I : Type v} {E : Type w}
variable (view : Nat → E → EntryView A)

def node (m : A → I → E) (r : A) : List I → Option A
  | [] => some r
  | i :: p => (node m r p).bind fun a => (view p.length (m a i)).child

def cell (m : A → I → E) (r : A) : List I → Option E
  | [] => none
  | i :: p => (node view m r p).map fun a => m a i

def Unshared (m : A → I → E) (r : A) : Prop :=
  ∀ p q a, node view m r p = some a → node view m r q = some a → p = q

def tables (m : A → I → E) (r : A) : Set A :=
  {a | ∃ p, node view m r p = some a}

def spine (k : Nat → I) : Nat → List I
  | 0 => []
  | d + 1 => k d :: spine k d

@[simp] theorem length_spine (k : Nat → I) (d : Nat) : (spine k d).length = d := by
  induction d with
  | zero => rfl
  | succ d ih => rw [spine, length_cons, ih]

theorem spine_congr {k k' : Nat → I} {d : Nat} (same : ∀ j < d, k j = k' j) :
    spine k d = spine k' d := by
  induction d with
  | zero => rfl
  | succ d ih => rw [spine, spine, same d (by omega), ih (fun j hj => same j (by omega))]

theorem spine_inj {k k' : Nat → I} {d : Nat} (same : spine k d = spine k' d) :
    ∀ j < d, k j = k' j := by
  induction d with
  | zero =>
    intro j hj
    omega
  | succ d ih =>
    obtain ⟨top, rest⟩ := List.cons.inj same
    intro j hj
    by_cases last : j = d
    · rw [last]
      exact top
    · exact ih rest j (by omega)

theorem exists_spine [Inhabited I] (p : List I) : ∃ k : Nat → I, spine k p.length = p := by
  induction p with
  | nil => exact ⟨fun _ => default, rfl⟩
  | cons i p ih =>
    obtain ⟨k, same⟩ := ih
    refine ⟨Function.update k p.length i, ?_⟩
    rw [length_cons, spine, Function.update_self,
      spine_congr fun j small => Function.update_of_ne (ne_of_lt small) i k, same]

theorem suffix_spine {k : Nat → I} {d : Nat} {p : List I} (h : p <:+ spine k d) :
    p = spine k p.length ∧ p.length ≤ d := by
  induction d with
  | zero =>
    rw [spine, suffix_nil] at h
    rw [h]
    exact ⟨rfl, le_refl 0⟩
  | succ d ih =>
    obtain same | further := suffix_cons_iff.mp h
    · rw [same]
      simp [spine]
    · obtain ⟨shape, bound⟩ := ih further
      exact ⟨shape, by omega⟩

theorem spine_suffix (k : Nat → I) {d e : Nat} (h : d ≤ e) : spine k d <:+ spine k e := by
  induction e with
  | zero =>
    obtain rfl := Nat.le_zero.mp h
    exact suffix_rfl
  | succ e ih =>
    by_cases last : d = e + 1
    · subst last
      exact suffix_rfl
    · exact (ih (by omega)).trans (suffix_cons _ _)

variable {view}
variable {m : A → I → E} {r a b : A} {i : I} {p q : List I} {e : E}

theorem node_cons_of (parent : node view m r p = some a) :
    node view m r (i :: p) = (view p.length (m a i)).child := by
  rw [node, parent, bind_some]

theorem node_cons_eq_some :
    node view m r (i :: p) = some b ↔
      ∃ a, node view m r p = some a ∧ view p.length (m a i) = .table b := by
  rw [node, bind_eq_some_iff]
  constructor
  · rintro ⟨a, parent, child⟩
    refine ⟨a, parent, ?_⟩
    cases seen : view p.length (m a i) with
    | absent | leaf =>
      rw [seen] at child
      cases child
    | table c =>
      rw [seen] at child
      cases child
      rfl
  · rintro ⟨a, parent, seen⟩
    exact ⟨a, parent, by rw [seen]; rfl⟩

theorem cell_cons_of (parent : node view m r p = some a) :
    cell view m r (i :: p) = some (m a i) := by
  rw [cell, parent, map_some]

theorem cell_cons_eq_none : cell view m r (i :: p) = none ↔ node view m r p = none := by
  rw [cell, map_eq_none_iff]

theorem cell_cons_eq_some :
    cell view m r (i :: p) = some e ↔ ∃ a, node view m r p = some a ∧ m a i = e := by
  rw [cell, map_eq_some_iff]

/-- Below a missing table everything is missing. -/
theorem node_none_of_suffix (missing : node view m r p = none) (below : p <:+ q) :
    node view m r q = none := by
  induction q with
  | nil =>
    rw [suffix_nil.mp below] at missing
    exact missing
  | cons j q ih =>
    obtain same | further := suffix_cons_iff.mp below
    · rw [← same]
      exact missing
    · rw [node, ih further, bind_none]

/-- Stores that agree on the tables of a tree hold the same tree. -/
theorem node_congr {m' : A → I → E}
    (same : ∀ p a, node view m r p = some a → ∀ i, m' a i = m a i) (q : List I) :
    node view m' r q = node view m r q := by
  induction q with
  | nil => rfl
  | cons j q ih =>
    rw [node, node, ih]
    cases parent : node view m r q with
    | none => rfl
    | some b => rw [bind_some, bind_some, same q b parent]

theorem cell_congr {m' : A → I → E}
    (same : ∀ p a, node view m r p = some a → ∀ i, m' a i = m a i) (q : List I) :
    cell view m' r q = cell view m r q := by
  cases q with
  | nil => rfl
  | cons j q =>
    rw [cell, cell, node_congr same]
    cases parent : node view m r q with
    | none => rfl
    | some b => rw [map_some, map_some, same q b parent]

variable [DecidableEq A] [DecidableEq I]

def writeCell (m : A → I → E) (a : A) (i : I) (e : E) : A → I → E :=
  fun b j => if b = a ∧ j = i then e else m b j

@[simp] theorem writeCell_self (m : A → I → E) (a : A) (i : I) (e : E) :
    writeCell m a i e a i = e := by
  simp [writeCell]

theorem writeCell_of_ne (m : A → I → E) {j : I} (e : E) (h : b = a → j ≠ i) :
    writeCell m a i e b j = m b j :=
  if_neg fun same => h same.1 same.2

section
variable (unshared : Unshared view m r)
include unshared

section
variable (parent : node view m r p = some a)
include parent

theorem writeCell_elsewhere (found : node view m r q = some b)
    (away : j :: q ≠ i :: p) : writeCell m a i e b j = m b j := by
  refine writeCell_of_ne m e fun sameTable sameIndex => away ?_
  rw [sameTable] at found
  rw [← unshared q p a found parent, sameIndex]

/-- A write is felt only through the slot it is made in. -/
theorem node_writeCell_of_not_suffix (away : ¬(i :: p) <:+ q) :
    node view (writeCell m a i e) r q = node view m r q := by
  induction q with
  | nil => rfl
  | cons j q ih =>
    have shorter : ¬(i :: p) <:+ q := fun h => away (h.trans (suffix_cons j q))
    rw [node, node, ih shorter]
    cases here : node view m r q with
    | none => rfl
    | some b =>
      rw [bind_some, bind_some, writeCell_elsewhere unshared parent here]
      exact fun same => away (same ▸ suffix_rfl)

theorem node_writeCell_parent : node view (writeCell m a i e) r p = some a := by
  have above : ¬(i :: p) <:+ p := by
    intro h
    have := h.length_le
    simp at this
  rw [node_writeCell_of_not_suffix unshared parent above, parent]

theorem node_writeCell_slot :
    node view (writeCell m a i e) r (i :: p) = (view p.length e).child := by
  rw [node_cons_of (node_writeCell_parent unshared parent), writeCell_self]

theorem cell_writeCell_slot : cell view (writeCell m a i e) r (i :: p) = some e := by
  rw [cell_cons_of (node_writeCell_parent unshared parent), writeCell_self]

theorem cell_writeCell_of_ne (same : node view (writeCell m a i e) r q = node view m r q)
    (away : j :: q ≠ i :: p) : cell view (writeCell m a i e) r (j :: q) = cell view m r (j :: q) := by
  rw [cell, cell, same]
  cases found : node view m r q with
  | none => rfl
  | some b => simp only [map_some, writeCell_elsewhere unshared parent found away]

end

section
variable (parent : node view m r p = some a) (old : (view p.length (m a i)).child = none)
  (new : (view p.length e).child = none)
include parent old new

/-- Exchanging one non-table entry for another leaves every table where it is. -/
theorem node_writeLeaf (q : List I) : node view (writeCell m a i e) r q = node view m r q := by
  by_cases below : (i :: p) <:+ q
  · have before : node view m r (i :: p) = none := by rw [node_cons_of parent, old]
    have after : node view (writeCell m a i e) r (i :: p) = none := by
      rw [node_writeCell_slot unshared parent, new]
    rw [node_none_of_suffix before below, node_none_of_suffix after below]
  · exact node_writeCell_of_not_suffix unshared parent below

theorem cell_writeLeaf (q : List I) :
    cell view (writeCell m a i e) r q = if q = i :: p then some e else cell view m r q := by
  split
  · next here =>
        rw [here, cell_writeCell_slot unshared parent]
  next here =>
  cases q with
  | nil => rfl
  | cons j q =>
    exact cell_writeCell_of_ne unshared parent (node_writeLeaf unshared parent old new q) here

theorem unshared_writeLeaf : Unshared view (writeCell m a i e) r := by
  intro s t c hs ht
  rw [node_writeLeaf unshared parent old new] at hs ht
  exact unshared s t c hs ht

end

end

omit [DecidableEq A] in
/-- The shape of a tree in which nothing hangs below one slot. -/
theorem node_of_flat {m' : A → I → E} (away : ∀ q, ¬p <:+ q → node view m' r q = node view m r q)
    (here : node view m' r p = some b) (flat : ∀ j, (view p.length (m' b j)).child = none)
    (missing : node view m r p = none) (q : List I) :
    node view m' r q = if q = p then some b else node view m r q := by
  split
  · next same =>
        rw [same, here]
  next same =>
  by_cases below : p <:+ q
  · rw [node_none_of_suffix missing below]
    obtain ⟨s, hs⟩ := below
    -- The index next to `p` is already missing.
    obtain ⟨j, t, hj⟩ : ∃ j t, q = t ++ j :: p := by
      cases s using List.reverseRecOn with
      | nil => exact absurd hs.symm same
      | append_singleton t j => exact ⟨j, t, by rw [← hs, append_assoc]; rfl⟩
    have gone : node view m' r (j :: p) = none := by rw [node_cons_of here, flat]
    exact node_none_of_suffix gone ⟨t, hj.symm⟩
  · exact away q below

section
variable (unshared : Unshared view m r)
include unshared

section
variable (parent : node view m r p = some a) (old : (view p.length (m a i)).child = none)
  (new : view p.length e = .table b) (fresh : ∀ s, node view m r s ≠ some b)
  (flat : ∀ j, (view (p.length + 1) (m b j)).child = none)
include parent old new fresh flat

/-- Hanging a table without tables of its own on a slot adds one path. -/
theorem node_graft (q : List I) :
    node view (writeCell m a i e) r q = if q = i :: p then some b else node view m r q := by
  have other : b ≠ a := fun same => fresh p (by rw [same, parent])
  apply node_of_flat
  · intro s away
    exact node_writeCell_of_not_suffix unshared parent away
  · rw [node_writeCell_slot unshared parent, new]
    rfl
  · intro j
    rw [writeCell_of_ne m e (fun same => absurd same other)]
    exact flat j
  · rw [node_cons_of parent, old]

theorem cell_graft (j : I) (q : List I) : cell view (writeCell m a i e) r (j :: q) =
      if j :: q = i :: p then some e
      else if q = i :: p then some (m b j) else cell view m r (j :: q) := by
  have other : b ≠ a := fun same => fresh p (by rw [same, parent])
  split
  · next here =>
        rw [here, cell_writeCell_slot unshared parent]
  next here =>
  have node := node_graft unshared parent old new fresh flat q
  by_cases under : q = i :: p
  · rw [if_pos under] at node ⊢
    rw [cell_cons_of node, writeCell_of_ne m e (fun same => absurd same other)]
  · rw [if_neg under] at node ⊢
    exact cell_writeCell_of_ne unshared parent node here

theorem unshared_graft : Unshared view (writeCell m a i e) r := by
  intro s t c hs ht
  rw [node_graft unshared parent old new fresh flat] at hs ht
  split at hs <;> split at ht
  · next heres heret => rw [heres, heret]
  · exact absurd (ht.trans hs.symm) (fresh t)
  · exact absurd (hs.trans ht.symm) (fresh s)
  · exact unshared s t c hs ht

theorem tables_graft : tables view (writeCell m a i e) r = insert b (tables view m r) := by
  have missing : node view m r (i :: p) = none := by rw [node_cons_of parent, old]
  ext c
  constructor
  · rintro ⟨q, hq⟩
    rw [node_graft unshared parent old new fresh flat] at hq
    split at hq
    · cases hq
      exact Set.mem_insert _ _
    · exact Set.mem_insert_of_mem _ ⟨q, hq⟩
  · intro h
    obtain same | ⟨q, hq⟩ := h
    · refine ⟨i :: p, ?_⟩
      rw [node_graft unshared parent old new fresh flat, if_pos rfl, same]
    refine ⟨q, ?_⟩
    have here : q ≠ i :: p := by
      intro same
      rw [same, missing] at hq
      cases hq
    rw [node_graft unshared parent old new fresh flat, if_neg here, hq]

end

section
variable (parent : node view m r p = some a) (old : view p.length (m a i) = .table b)
  (new : (view p.length e).child = none) (flat : ∀ j, (view (p.length + 1) (m b j)).child = none)
include parent old new flat

/-- Taking a table without tables of its own off its slot removes one path. -/
theorem node_prune (q : List I) :
    node view (writeCell m a i e) r q = if q = i :: p then none else node view m r q := by
  have before : node view m r (i :: p) = some b := by rw [node_cons_of parent, old]; rfl
  have after : node view (writeCell m a i e) r (i :: p) = none := by
    rw [node_writeCell_slot unshared parent, new]
  have back : node view m r q =
      if q = i :: p then some b else node view (writeCell m a i e) r q := by
    apply node_of_flat _ before flat after
    intro s away
    exact (node_writeCell_of_not_suffix unshared parent away).symm
  by_cases here : q = i :: p
  · rw [if_pos here, here, after]
  · simp only [if_neg here, back]

theorem cell_prune (j : I) (q : List I) : cell view (writeCell m a i e) r (j :: q) =
      if j :: q = i :: p then some e
      else if q = i :: p then none else cell view m r (j :: q) := by
  split
  · next here =>
        rw [here, cell_writeCell_slot unshared parent]
  next here =>
  have node := node_prune unshared parent old new flat q
  by_cases under : q = i :: p
  · rw [if_pos under] at node ⊢
    exact cell_cons_eq_none.mpr node
  · rw [if_neg under] at node ⊢
    exact cell_writeCell_of_ne unshared parent node here

theorem unshared_prune : Unshared view (writeCell m a i e) r := by
  have kept : ∀ s c, node view (writeCell m a i e) r s = some c → node view m r s = some c := by
    intro s c hs
    rw [node_prune unshared parent old new flat] at hs
    split at hs
    · cases hs
    · exact hs
  intro s t c hs ht
  exact unshared s t c (kept s c hs) (kept t c ht)

theorem tables_prune : tables view (writeCell m a i e) r = tables view m r \ {b} := by
  have before : node view m r (i :: p) = some b := by rw [node_cons_of parent, old]; rfl
  ext c
  constructor
  · rintro ⟨q, hq⟩
    rw [node_prune unshared parent old new flat] at hq
    split at hq
    · cases hq
    · next here =>
      refine ⟨⟨q, hq⟩, fun same => here ?_⟩
      rw [show c = b from same] at hq
      exact unshared q (i :: p) b hq before
  · rintro ⟨⟨q, hq⟩, other⟩
    refine ⟨q, ?_⟩
    have here : q ≠ i :: p := by
      intro same
      rw [same, before] at hq
      cases hq
      exact other rfl
    rw [node_prune unshared parent old new flat, if_neg here, hq]

end

end

end

end Sapote.Library
