import Mathlib.Tactic

/-!
Counting the members of a Boolean set below a bound, and how the count moves
when one member is added or removed. `Nat.count` supplies the count itself.
-/

namespace Sapote.Library

variable {p q : Nat → Bool} {n : Nat}

/-- Members of `p` below `n`. Irreducible, since `n` is often a large literal. -/
@[irreducible]
def population (p : Nat → Bool) (n : Nat) : Nat :=
  Nat.count (fun k => p k) n

theorem population_succ (p : Nat → Bool) (n : Nat) :
    population p (n + 1) = population p n + if p n = true then 1 else 0 := by
  unfold population
  exact Nat.count_succ _ n

theorem population_congr (same : ∀ k < n, p k = q k) : population p n = population q n := by
  induction n with
  | zero => simp [population]
  | succ n ih =>
    simp only [population_succ, ih (fun k hk => same k (by omega)), same n (by omega)]

theorem population_eq_zero : population p n = 0 ↔ ∀ k < n, p k = false := by
  rw [population, Nat.count_iff_forall_not]
  simp

theorem population_pos {k : Nat} (hk : k < n) (member : p k) : 0 < population p n := by
  apply pos_of_ne_zero
  intro none
  have := population_eq_zero.mp none k hk
  rw [member] at this
  cases this

/-- A set and the part of it left after removing `q` split its population. -/
theorem population_split (p q : Nat → Bool) (n : Nat) :
    population (fun k => p k && q k) n + population (fun k => p k && !q k) n = population p n := by
  induction n with
  | zero => simp [population]
  | succ n ih =>
    simp only [population_succ]
    cases p n <;> cases q n <;> simp <;> omega

theorem population_add_compl (p : Nat → Bool) (n : Nat) :
    population p n + population (fun k => !p k) n = n := by
  have whole : population (fun _ => true) n = n := by
    simp [population]
  calc population p n + population (fun k => !p k) n
      = population (fun k => true && p k) n + population (fun k => true && !p k) n := by
        simp only [Bool.true_and]
    _ = n := by rw [population_split (fun _ => true) p n, whole]

/-- Adding one new member below the bound adds one to the population. -/
theorem population_insert {k : Nat} (hk : k < n) (new : p k = false) (added : q k)
    (same : ∀ j, j ≠ k → q j = p j) : population q n = population p n + 1 := by
  induction n with
  | zero => omega
  | succ n ih =>
    simp only [population_succ]
    by_cases here : k = n
    · subst here
      rw [population_congr (q := p) (fun j hj => same j (by omega)), new, added]
      simp
    · rw [ih (by omega), same n (by omega)]
      omega

/-- Adding a run of new members adds its length. -/
theorem population_insert_run {first count : Nat} (bound : first + count ≤ n)
    (new : ∀ j, first ≤ j → j < first + count → p j = false)
    (added : ∀ j, q j = (p j || (decide (first ≤ j) && decide (j < first + count)))) :
    population q n = population p n + count := by
  induction count generalizing q with
  | zero =>
    have same : ∀ j < n, q j = p j := by
      intro j _
      rw [added]
      have empty : ¬(first ≤ j ∧ j < first + 0) := by omega
      simp only [← Bool.decide_and, decide_eq_false empty, Bool.or_false]
    rw [population_congr same, add_zero]
  | succ count ih =>
    have shorter := ih (q := fun j => p j || (decide (first ≤ j) && decide (j < first + count)))
      (by omega) (fun j low high => new j low (by omega)) (fun _ => rfl)
    have last : population q n = population
        (fun j => p j || (decide (first ≤ j) && decide (j < first + count))) n + 1 := by
      apply population_insert (k := first + count) (by omega)
      · simp [new (first + count) (by omega) (by omega)]
      · rw [added]
        simp
      · intro j other
        rw [added]
        have : decide (j < first + (count + 1)) = decide (j < first + count) := by
          apply decide_eq_decide.mpr
          omega
        rw [this]
    omega

end Sapote.Library
