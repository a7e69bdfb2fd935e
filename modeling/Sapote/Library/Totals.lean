import Mathlib.Algebra.Order.BigOperators.Group.Finset

/-!
Quantities recounted over the holders that are live. A counter that an operation
moves along with one holder stays equal to the recount.
-/

namespace Sapote.Library
open Function Finset
variable {ι C : Type*} {f : C → Nat} {held : ι → C} {live : Finset ι} {i j : ι}

/-- The sum of `f` over what the live holders hold. -/
def total (f : C → Nat) (held : ι → C) (live : Finset ι) : Nat := ∑ i ∈ live, f (held i)

theorem total_empty (f : C → Nat) (held : ι → C) : total f held ∅ = 0 := sum_empty

theorem le_total (member : i ∈ live) : f (held i) ≤ total f held live :=
  single_le_sum (f := fun k => f (held k)) (fun _ _ => Nat.zero_le _) member

variable [DecidableEq ι]

/-- A holder that is not live does not count. -/
theorem total_outside (away : i ∉ live) (c : C) :
    total f (Function.update held i c) live = total f held live := by
  apply sum_congr rfl
  intro k member
  have other : k ≠ i := fun same => away (same ▸ member)
  rw [update_of_ne other]

theorem total_insert (new : i ∉ live) (c : C) :
    total f (Function.update held i c) (insert i live) = f c + total f held live := by
  rw [total, sum_insert new, update_self]
  exact congrArg (f c + ·) (total_outside new c)

theorem total_erase (member : i ∈ live) (c : C) :
    f (held i) + total f (Function.update held i c) (live.erase i) = total f held live := by
  rw [total_outside (notMem_erase i live)]
  exact add_sum_erase live (fun k => f (held k)) member

theorem total_update (member : i ∈ live) (c : C) :
    total f (Function.update held i c) live + f (held i) = total f held live + f c := by
  have before : f (held i) + total f (update held i c) (live.erase i) =
      total f held live := total_erase member c
  have after : f (update held i c i) +
      total f (update (update held i c) i c) (live.erase i) =
      total f (update held i c) live := total_erase member c
  rw [update_self, update_idem] at after
  omega

/-- A counter that moves by as much as the holder's weight stays the recount. -/
theorem total_moved {n m : Nat} (counted : n = total f held live) (member : i ∈ live) (c : C)
    (balance : m + f (held i) = n + f c) : m = total f (Function.update held i c) live := by
  have moved := @total_update _ _ f held live i _ member c
  omega

theorem add_le_total (here : i ∈ live) (there : j ∈ live) (apart : i ≠ j) :
    f (held i) + f (held j) ≤ total f held live := by
  have rest := @le_total _ _ f held (live.erase i) j (mem_erase.mpr ⟨apart.symm, there⟩)
  have split := add_sum_erase live (fun k => f (held k)) here
  rw [total] at rest ⊢
  omega

end Sapote.Library
