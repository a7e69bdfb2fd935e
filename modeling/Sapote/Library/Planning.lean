import Mathlib.Data.Set.Finite.List
import Mathlib.Order.WellFoundedSet

/-!
Greedy topological planning. Nodes are added one at a time, each when everything
it needs is planned, and among the ready nodes the one of least key.
-/

namespace Sapote.Library
open List
variable {ι κ : Type*} [LinearOrder κ] {needs : ι → ι → Prop} {nodes : Set ι} {key : ι → κ}

def Acyclic (needs : ι → ι → Prop) : Prop := ∀ i, ¬Relation.TransGen needs i i

def Ready (needs : ι → ι → Prop) (planned : List ι) (i : ι) : Prop :=
  i ∉ planned ∧ ∀ p, needs i p → p ∈ planned

/-- The plans in which each node was the ready node of least key when it was added. -/
inductive Greedy (needs : ι → ι → Prop) (nodes : Set ι) (key : ι → κ) : List ι → Prop where
  | nil : Greedy needs nodes key []
  | add {order : List ι} {i : ι} : Greedy needs nodes key order → i ∈ nodes →
      Ready needs order i → (∀ j ∈ nodes, Ready needs order j → key i ≤ key j) →
      Greedy needs nodes key (order ++ [i])

section
variable {order : List ι} (plan : Greedy needs nodes key order)
include order plan

theorem Greedy.nodup : order.Nodup := by
  induction plan with
  | nil => exact nodup_nil
  | add _ _ ready _ ih =>
    rw [← concat_eq_append]
    exact ih.concat ready.1

theorem Greedy.mem_nodes {i : ι} (member : i ∈ order) : i ∈ nodes := by
  induction plan with
  | nil => cases member
  | add _ inside _ _ ih =>
    obtain old | new := mem_append.mp member
    · exact ih old
    · exact mem_singleton.mp new ▸ inside

/-- What a planned node needs stands before it. -/
theorem Greedy.precedes {before after : List ι} {i p : ι} (split : order = before ++ i :: after) (need : needs i p) :
    p ∈ before := by
  induction plan generalizing after with
  | nil => simp at split
  | @add order j plan _ ready _ ih =>
    cases after using List.reverseRecOn with
    | nil =>
      obtain ⟨same, last⟩ := append_inj' split rfl
      obtain rfl := singleton_inj.mp last
      exact same ▸ ready.2 p need
    | append_singleton after k =>
      rw [← cons_append, ← append_assoc] at split
      exact ih (append_inj' split rfl).1

theorem Greedy.precedes_transGen {i p : ι} (chain : Relation.TransGen needs i p) {before after : List ι}
    (split : order = before ++ i :: after) : p ∈ before := by
  induction chain with
  | single need => exact plan.precedes split need
  | @tail p q _ need ih =>
    obtain ⟨first, rest, rfl⟩ := append_of_mem ih
    rw [append_assoc, cons_append] at split
    exact mem_append_left _ (plan.precedes split need)

/-- A plan of every node that needs something shows that there is no cycle. -/
theorem Greedy.acyclic (complete : ∀ i p, needs i p → i ∈ order) : Acyclic needs := by
  intro i cycle
  have planned : i ∈ order := by
    cases Relation.TransGen.head'_iff.mp cycle with
    | intro p chain => exact complete i p chain.1
  obtain ⟨before, after, split⟩ := append_of_mem planned
  have earlier := plan.precedes_transGen cycle split
  have nodup := plan.nodup
  rw [split, nodup_append] at nodup
  exact nodup.2.2 i earlier i mem_cons_self rfl

end

/-- Without a cycle some node outside the plan is ready. -/
theorem exists_ready (acyclic : Acyclic needs) (finite : nodes.Finite)
    (closed : ∀ i ∈ nodes, ∀ p, needs i p → p ∈ nodes) {planned : List ι} {i : ι}
    (inside : i ∈ nodes) (waiting : i ∉ planned) : ∃ j ∈ nodes, Ready needs planned j := by
  have order : IsStrictOrder ι (fun a b => Relation.TransGen needs b a) :=
    { irrefl := acyclic, trans := fun _ _ _ first second => second.trans first }
  -- A node of the rest that reaches no other node of the rest.
  have founded : (nodes \ {j | j ∈ planned}).WellFoundedOn
      (fun a b => Relation.TransGen needs b a) := (finite.subset Set.sdiff_subset).wellFoundedOn
  obtain ⟨⟨j, member, outside⟩, -, least⟩ :=
    founded.has_min Set.univ ⟨⟨i, inside, waiting⟩, trivial⟩
  refine ⟨j, member, outside, ?_⟩
  intro p need
  by_contra missing
  exact least ⟨p, closed j member p need, missing⟩ trivial (.single need)

/-- The least ready node is unique, so the length of a plan decides the plan. -/
theorem Greedy.eq_of_length (injective : Set.InjOn key nodes) {first second : List ι}
    (plan : Greedy needs nodes key first) (other : Greedy needs nodes key second)
    (length : first.length = second.length) : first = second := by
  induction plan generalizing second with
  | nil => exact (length_eq_zero_iff.mp length.symm).symm
  | @add order i _ inside ready least ih =>
    cases other with
    | nil => simp at length
    | @add order' j plan' inside' ready' least' =>
      obtain rfl : order = order' := ih plan' (by simpa using length)
      have same := le_antisymm (least j inside' ready') (least' i inside ready)
      rw [injective inside inside' same]

/-- A plan seen through a renaming of the nodes. -/
theorem Greedy.map {ι' : Type*} {needs' : ι' → ι' → Prop} {key' : ι' → κ} (f : ι → ι')
    (injective : Set.InjOn f nodes)
    (renamed : ∀ i ∈ nodes, ∀ q, needs' (f i) q ↔ ∃ p, needs i p ∧ f p = q)
    (closed : ∀ i ∈ nodes, ∀ p, needs i p → p ∈ nodes) (keys : ∀ i ∈ nodes, key' (f i) = key i)
    {order : List ι} (plan : Greedy needs nodes key order) :
    Greedy needs' (f '' nodes) key' (order.map f) := by
  have ready_iff : ∀ {order : List ι}, (∀ p ∈ order, p ∈ nodes) → ∀ i ∈ nodes,
      (Ready needs' (order.map f) (f i) ↔ Ready needs order i) := by
    intro order inside i member
    have mem_iff : ∀ j ∈ nodes, (f j ∈ order.map f ↔ j ∈ order) := by
      intro j there
      constructor
      · intro mapped
        obtain ⟨k, planned, same⟩ := mem_map.mp mapped
        exact injective (inside k planned) there same ▸ planned
      · exact mem_map_of_mem
    unfold Ready
    rw [mem_iff i member]
    constructor
    · intro ready
      refine ⟨ready.1, fun p need => ?_⟩
      exact (mem_iff p (closed i member p need)).mp
        (ready.2 (f p) ((renamed i member _).mpr ⟨p, need, rfl⟩))
    · intro ready
      refine ⟨ready.1, fun q need => ?_⟩
      obtain ⟨p, needed, rfl⟩ := (renamed i member q).mp need
      exact mem_map_of_mem (ready.2 p needed)
  induction plan with
  | nil => exact .nil
  | @add order i plan inside ready least ih =>
    have nodesOnly : ∀ p ∈ order, p ∈ nodes := fun p => plan.mem_nodes
    rw [map_append, map_singleton]
    refine Greedy.add ih (Set.mem_image_of_mem f inside)
      ((ready_iff nodesOnly i inside).mpr ready) ?_
    intro j member there
    obtain ⟨j, member, rfl⟩ := member
    rw [keys i inside, keys j member]
    exact least j member ((ready_iff nodesOnly j member).mp there)

end Sapote.Library
