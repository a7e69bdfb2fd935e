import Mathlib.Tactic

/-!
Lists of spans that tile an interval: each span starts where the previous one
ends. Offsets and sizes are read off an arbitrary item type, so the same lemmas
serve any table that describes memory as consecutive blocks.
-/

namespace Sapote.Library
open List

universe u
variable {α : Type u} {offset size : α → Nat}

/-- The items cover `[start, stop)` in list order, without gap or overlap. -/
def Tiles (offset size : α → Nat) : Nat → List α → Nat → Prop
  | start, [], stop => start = stop
  | start, x :: xs, stop => offset x = start ∧ Tiles offset size (start + size x) xs stop

theorem tiles_append (xs ys : List α) (start stop : Nat) :
    Tiles offset size start (xs ++ ys) stop ↔
      ∃ middle, Tiles offset size start xs middle ∧ Tiles offset size middle ys stop := by
  induction xs generalizing start with
  | nil => simp [Tiles]
  | cons x xs ih => simp [Tiles, ih, and_assoc]

section
variable (xs : List α) (start stop : Nat) (h : Tiles offset size start xs stop)
include xs start stop h

/-- The end of a tiling is the start plus everything it covers. -/
theorem tiles_stop : stop = start + (xs.map size).sum := by
  induction xs generalizing start with
  | nil => simpa [Tiles] using h.symm
  | cons x xs ih =>
    have := ih (start + size x) h.2
    simp only [map_cons, sum_cons]
    omega

theorem tiles_mem (x : α) (hx : x ∈ xs) : start ≤ offset x ∧ offset x + size x ≤ stop := by
  induction xs generalizing start with
  | nil => cases hx
  | cons y ys ih =>
    obtain ⟨hy, rest⟩ := h
    have total := tiles_stop ys _ _ rest
    obtain rfl | hx := mem_cons.mp hx
    · omega
    · have := ih _ rest hx
      omega

/-- Earlier items end before later ones begin. -/
theorem tiles_pairwise : xs.Pairwise (fun x y => offset x + size x ≤ offset y) := by
  induction xs generalizing start with
  | nil => exact .nil
  | cons x xs ih =>
    refine .cons ?_ (ih _ h.2)
    intro y hy
    have := tiles_mem xs _ _ h.2 y hy
    have hx := h.1
    omega

/-- Two items of a tiling are the same item or occupy disjoint ranges. -/
theorem tiles_disjoint (x y : α) (hx : x ∈ xs) (hy : y ∈ xs) :
    x = y ∨ offset x + size x ≤ offset y ∨ offset y + size y ≤ offset x := by
  have ordered := tiles_pairwise xs start stop h
  induction xs generalizing start with
  | nil => cases hx
  | cons z zs ih =>
    obtain ⟨front, rest⟩ := pairwise_cons.mp ordered
    obtain hx | hx := mem_cons.mp hx
    · obtain hy | hy := mem_cons.mp hy
      · exact .inl (hx.trans hy.symm)
      · exact .inr (.inl (hx ▸ front y hy))
    · obtain hy | hy := mem_cons.mp hy
      · exact .inr (.inr (hy ▸ front x hx))
      · exact ih _ h.2 hx hy rest

/-- Items of positive size are told apart by where they start. -/
theorem tiles_offset_inj (positive : ∀ x ∈ xs, 0 < size x) (x y : α) (hx : x ∈ xs) (hy : y ∈ xs)
    (same : offset x = offset y) : x = y := by
  have px := positive x hx
  have py := positive y hy
  obtain h | h | h := tiles_disjoint xs start stop h x y hx hy
  · exact h
  · omega
  · omega

end

section

-- Items with `P` are fixed, and of two neighbours at least one is.
variable {P : α → Prop} {x y : α} {xs ys : List α} {start stop : Nat}

/-- A loose first item reaches as far as in any tiling with the same fixed items. -/
theorem tiles_loose_le (hx : Tiles offset size start (x :: xs) stop)
    (hy : Tiles offset size start (y :: ys) stop) (chain : (x :: xs).IsChain fun a b => P a ∨ P b)
    (loose : ¬P x ∧ ¬P y) (fixed : ∀ a, P a → a ∈ x :: xs → a ∈ y :: ys) : size y ≤ size x := by
  have bounds := tiles_mem _ _ _ hy y mem_cons_self
  have first := hy.1
  cases xs with
  | nil =>
    have : start + size x = stop := hx.2
    omega
  | cons a as =>
    have here : P a := chain.rel.resolve_left loose.1
    obtain rfl | later := mem_cons.mp (fixed a here (by simp))
    · exact absurd here loose.2
    · have := (tiles_mem _ _ _ hy.2 a later).1
      have := hx.2.1
      omega

/-- A tiling without two loose neighbours is determined by its fixed items. -/
theorem tiles_ext (loose : ∀ x y, ¬P x ∧ ¬P y → offset x = offset y → size x = size y → x = y)
    (hx : Tiles offset size start xs stop) (hy : Tiles offset size start ys stop)
    (px : ∀ x ∈ xs, 0 < size x) (py : ∀ y ∈ ys, 0 < size y)
    (cx : xs.IsChain fun a b => P a ∨ P b) (cy : ys.IsChain fun a b => P a ∨ P b)
    (fixed : ∀ a, P a → (a ∈ xs ↔ a ∈ ys)) : xs = ys := by
  induction xs generalizing start ys with
  | nil =>
    cases ys with
    | nil => rfl
    | cons y ys =>
      have := tiles_mem _ _ _ hy y mem_cons_self
      have := py y mem_cons_self
      simp only [Tiles] at hx
      omega
  | cons x xs ih =>
    have bounds := tiles_mem _ _ _ hx x mem_cons_self
    have positive := px x mem_cons_self
    cases ys with
    | nil =>
      simp only [Tiles] at hy
      omega
    | cons y ys =>
      have starts : offset x = offset y := hx.1.trans hy.1.symm
      have same : x = y := by
        by_cases here : P x
        · have member := (fixed x here).mp mem_cons_self
          exact tiles_offset_inj _ _ _ hy py x y member mem_cons_self starts
        by_cases there : P y
        · have member := (fixed y there).mpr mem_cons_self
          exact tiles_offset_inj _ _ _ hx px x y mem_cons_self member starts
        refine loose x y ⟨here, there⟩ starts (le_antisymm ?_ ?_)
        · exact tiles_loose_le hy hx cy ⟨there, here⟩ fun a p => (fixed a p).mpr
        · exact tiles_loose_le hx hy cx ⟨here, there⟩ fun a p => (fixed a p).mp
      subst same
      have first := hx.1
      have left := fun a ha => (tiles_mem _ _ _ hx.2 a ha).1
      have right := fun a ha => (tiles_mem _ _ _ hy.2 a ha).1
      rw [ih hx.2 hy.2 (forall_mem_of_forall_mem_cons px) (forall_mem_of_forall_mem_cons py)
        cx.tail cy.tail]
      grind

end

/-- If every size is a multiple of `unit`, so is every offset past the start. -/
theorem tiles_aligned (unit : Nat) (xs : List α) (start stop : Nat)
    (h : Tiles offset size start xs stop) (aligned : start % unit = 0)
    (whole : ∀ x ∈ xs, size x % unit = 0) (x : α) (hx : x ∈ xs) : offset x % unit = 0 := by
  induction xs generalizing start with
  | nil => cases hx
  | cons y ys ih =>
    obtain rfl | hx := mem_cons.mp hx
    · rw [h.1]; exact aligned
    · apply ih _ h.2 _ (fun z hz => whole z (.tail y hz)) hx
      rw [Nat.add_mod, aligned, whole y mem_cons_self]
      simp

end Sapote.Library
