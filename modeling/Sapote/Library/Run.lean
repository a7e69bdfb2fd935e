import Mathlib.Data.List.Infix

/-!
Runs of a total transition function, and the two ways an invariant is carried
along one: unconditionally, or as long as every step meets a side condition.
Nothing here knows what a state or an operation is.
-/

namespace Sapote.Library
open List

universe u v
variable {S : Type u} {O : Type v}

/-- The state reached from `s` by performing `ops` in order. -/
def run (step : S → O → S) (s : S) (ops : List O) : S :=
  ops.foldl step s

section
variable (step : S → O → S)
include step

@[simp] theorem run_nil (s : S) : run step s [] = s := rfl

@[simp] theorem run_cons (s : S) (o : O) (ops : List O) :
    run step s (o :: ops) = run step (step s o) ops := rfl

theorem run_append (s : S) (xs ys : List O) :
    run step s (xs ++ ys) = run step (run step s xs) ys :=
  foldl_append

theorem run_invariant (Inv : S → Prop)
    (preserved : ∀ s o, Inv s → Inv (step s o)) (ops : List O) (s : S) (h : Inv s) :
    Inv (run step s ops) := by
  induction ops generalizing s with
  | nil => exact h
  | cons o ops ih => exact ih (step s o) (preserved s o h)

end

/-- Every step of the run, looked at in the state before it, satisfies `P`. -/
def Along (step : S → O → S) (P : S → O → Prop) : S → List O → Prop
  | _, [] => True
  | s, o :: ops => P s o ∧ Along step P (step s o) ops

instance Along.decidable (step : S → O → S) (P : S → O → Prop) [∀ s o, Decidable (P s o)] (s : S) :
    (ops : List O) → Decidable (Along step P s ops)
  | [] => .isTrue trivial
  | o :: ops => @instDecidableAnd _ _ _ (Along.decidable step P (step s o) ops)

/-- Every state of the run, the first and the last included, satisfies `I`. -/
def Throughout (step : S → O → S) (I : S → Prop) (s : S) (ops : List O) : Prop :=
  ∀ done, done <+: ops → I (run step s done)

section
variable (step : S → O → S)
include step

theorem throughout_cons (I : S → Prop) (s : S) (o : O) (ops : List O) :
    Throughout step I s (o :: ops) ↔ I s ∧ Throughout step I (step s o) ops := by
  constructor
  · intro h
    refine ⟨h [] nil_prefix, ?_⟩
    intro done pre
    exact h (o :: done) ((prefix_cons_inj o).mpr pre)
  · rintro ⟨first, rest⟩ done pre
    cases done with
    | nil => exact first
    | cons o' done =>
      obtain ⟨same, tail⟩ := cons_prefix_cons.mp pre
      subst same
      exact rest done tail

theorem throughout_of_along (I : S → Prop) (P : S → O → Prop)
    (preserved : ∀ s o, I s → P s o → I (step s o)) (ops : List O) (s : S) (h : I s)
    (along : Along step P s ops) : Throughout step I s ops := by
  induction ops generalizing s with
  | nil =>
    intro done pre
    rw [prefix_nil.mp pre]
    exact h
  | cons o ops ih =>
    obtain ⟨first, rest⟩ := along
    exact (throughout_cons step I s o ops).mpr ⟨h, ih (step s o) (preserved s o h first) rest⟩

theorem along_append (P : S → O → Prop) (s : S) (xs ys : List O) :
    Along step P s (xs ++ ys) ↔ Along step P s xs ∧ Along step P (run step s xs) ys := by
  induction xs generalizing s with
  | nil => exact ⟨fun h => ⟨trivial, h⟩, fun h => h.2⟩
  | cons x xs ih =>
    rw [cons_append, Along, Along, run_cons, ih, and_assoc]

/-- What every step does to what was there before it, a run does. -/
theorem run_relates (I : S → Prop) (P : S → O → Prop) (R : S → S → Prop)
    (refl : ∀ s, R s s) (trans : ∀ s t u, R s t → R t u → R s u)
    (move : ∀ s o, I s → P s o → I (step s o) ∧ R s (step s o)) (ops : List O) (s : S) (h : I s)
    (along : Along step P s ops) : I (run step s ops) ∧ R s (run step s ops) := by
  induction ops generalizing s with
  | nil => exact ⟨h, refl s⟩
  | cons o ops ih =>
    obtain ⟨first, rest⟩ := along
    obtain ⟨next, related⟩ := move s o h first
    obtain ⟨last, relates⟩ := ih (step s o) next rest
    exact ⟨last, trans _ _ _ related relates⟩

/-- When the side condition is exactly what one step needs, a run keeps the
invariant in all its states precisely if every one of its steps meets it. -/
theorem throughout_iff_along (I : S → Prop) (P : S → O → Prop)
    (exact_step : ∀ s o, I s → (I (step s o) ↔ P s o)) (ops : List O) (s : S) (h : I s) :
    Throughout step I s ops ↔ Along step P s ops := by
  induction ops generalizing s with
  | nil => exact ⟨fun _ => trivial, throughout_of_along step I P (fun s o hs => (exact_step s o hs).mpr) [] s h⟩
  | cons o ops ih =>
    rw [throughout_cons]
    constructor
    · rintro ⟨_, rest⟩
      have next : I (step s o) := rest [] nil_prefix
      exact ⟨(exact_step s o h).mp next, (ih _ next).mp rest⟩
    · rintro ⟨first, rest⟩
      have next := (exact_step s o h).mpr first
      exact ⟨h, (ih _ next).mpr rest⟩

end

end Sapote.Library
