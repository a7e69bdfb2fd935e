import Mathlib.Data.List.Induction

/-!
Functions that check their input step by step and stop with a status at the first check
that fails: what it takes for one of them to accept, and with which status it can refuse.
-/

namespace Sapote.Library
open List
variable {ε α β : Type}

variable {items : List α} {f : α → Except ε β} {x : Except ε α} {status : ε}
  {Admits : List α → α → Prop} {a : α} {b bound c : Nat} {passed : Bool} {p : α → Bool}
  {value : Option α}

def accept (passed : Bool) (status : ε) : Except ε Unit :=
  if passed then .ok () else .error status

@[simp]
theorem accept_true (status : ε) : accept true status = .ok () := rfl

theorem accept_eq_ok {u : Unit} : accept passed status = .ok u ↔ passed := by
  cases passed with
  | false => exact iff_of_false nofun nofun
  | true => exact iff_of_true rfl rfl

theorem accept_bind_eq_ok {f : Unit → Except ε α} :
    (accept passed status >>= f) = .ok a ↔ passed ∧ f () = .ok a := by
  cases passed with
  | false => exact iff_of_false nofun fun h => nomatch h.1
  | true => exact ⟨fun h => ⟨rfl, h⟩, fun h => h.2⟩

theorem accept_bind_eq_error {e : ε} {f : Unit → Except ε α} :
    (accept passed status >>= f) = .error e ↔
      passed = false ∧ status = e ∨ passed ∧ f () = .error e := by
  cases passed with
  | false =>
    constructor
    · intro h
      exact .inl ⟨rfl, Except.error.inj h⟩
    · rintro (h | h)
      · exact congrArg Except.error h.2
      · exact nomatch h.1
  | true =>
    constructor
    · exact fun h => .inr ⟨rfl, h⟩
    · rintro (h | h)
      · exact nomatch h.1
      · exact h.2

/-- A guard in front of the rest of a function. -/
theorem guard_eq_ok {c : Prop} [Decidable c] :
    (if c then .error status else x) = .ok a ↔ ¬c ∧ x = .ok a := by
  by_cases stops : c
  · simp [stops]
  · simp [stops]

theorem bind_eq_ok {b : β} : (x >>= f) = .ok b ↔ ∃ a, x = .ok a ∧ f a = .ok b := by
  cases x with
  | error e => exact iff_of_false nofun fun ⟨_, h, _⟩ => nomatch h
  | ok a =>
    constructor
    · exact fun h => ⟨a, rfl, h⟩
    · rintro ⟨_, same, h⟩
      cases same
      exact h

theorem unit_bind_eq_ok {x : Except ε Unit} {f : Unit → Except ε β} {b : β} :
    (x >>= f) = .ok b ↔ x = .ok () ∧ f () = .ok b := by
  rw [bind_eq_ok]
  exact ⟨fun ⟨_, h⟩ => h, fun h => ⟨(), h⟩⟩

theorem bind_eq_error {e : ε} :
    (x >>= f) = .error e ↔ x = .error e ∨ ∃ a, x = .ok a ∧ f a = .error e := by
  cases x with
  | error e' =>
    constructor
    · exact fun h => .inl (congrArg Except.error (Except.error.inj h))
    · rintro (h | ⟨_, h, _⟩)
      · exact congrArg Except.error (Except.error.inj h)
      · cases h
  | ok a =>
    constructor
    · exact fun h => .inr ⟨a, rfl, h⟩
    · rintro (h | ⟨_, same, h⟩)
      · cases h
      · cases same
        exact h

@[simp]
theorem ok_bind (a : α) (f : α → Except ε β) : (Except.ok a >>= f) = f a := rfl

/-- A status handed on unless it is the one that lets the function go on. -/
theorem guard_eq_iff [DecidableEq α] {status rest ok : α} :
    (if status ≠ ok then status else rest) = ok ↔ status = ok ∧ rest = ok := by
  split <;> simp_all

/-- Whatever status a function stops with, it is one of `E`. -/
def Refuses (x : Except ε α) (E : ε → Prop) : Prop := ∀ e, x = .error e → E e

namespace Refuses
open List
variable {x : Except ε α} {E : ε → Prop}

theorem ok : Refuses (.ok a) E := nofun

theorem accept {f : Unit → Except ε α} (now : E status) (rest : passed → Refuses (f ()) E) :
    Refuses (accept passed status >>= f) E := by
  intro e h
  obtain ⟨-, rfl⟩ | ⟨passed, h⟩ := accept_bind_eq_error.mp h
  · exact now
  · exact rest passed e h

theorem check (now : E status) : Refuses (Sapote.Library.accept passed status) E := by
  intro e h
  cases passed with
  | false =>
    cases h
    exact now
  | true => cases h

theorem bind (first : Refuses x E) (rest : ∀ a, x = .ok a → Refuses (f a) E) :
    Refuses (x >>= f) E := by
  intro e h
  obtain h | ⟨a, ok, h⟩ := bind_eq_error.mp h
  · exact first e h
  · exact rest a ok e h

end Refuses

section
variable {σ : Type}

/-- Every item is admitted by a rule on the items before it. -/
def InOrder (Admits : List α → α → Prop) (items : List α) : Prop :=
  ∀ passed a rest, items = passed ++ a :: rest → Admits passed a

theorem inOrder_iff_forall {P : α → Prop} : InOrder (fun _ => P) items ↔ ∀ a ∈ items, P a := by
  constructor
  · intro order a member
    obtain ⟨passed, rest, split⟩ := append_of_mem member
    exact order passed a rest split
  · intro all passed a rest split
    exact all a (by rw [split]; exact mem_append_right _ mem_cons_self)

theorem inOrder_nil : InOrder Admits [] := by
  intro passed a rest split
  exact absurd split.symm (append_ne_nil_of_right_ne_nil passed (cons_ne_nil a rest))

theorem inOrder_concat : InOrder Admits (items ++ [a]) ↔ InOrder Admits items ∧ Admits items a := by
  constructor
  · intro order
    refine ⟨fun passed b rest split => order passed b (rest ++ [a]) ?_, order items a [] rfl⟩
    rw [split, append_assoc, cons_append]
  · rintro ⟨order, last⟩ passed b rest split
    obtain rfl | ⟨rest, c, rfl⟩ := eq_nil_or_concat rest
    · obtain ⟨rfl, same⟩ := append_inj' split rfl
      cases same
      exact last
    · rw [concat_eq_append, ← cons_append, ← append_assoc] at split
      exact order passed b rest (append_inj' split rfl).1

/-- No item with a property comes after another: there is one of them at most. -/
theorem inOrder_fresh_iff :
    InOrder (fun passed a => p a → passed.filter p = []) items ↔ (items.filter p).length ≤ 1 := by
  induction items using List.reverseRecOn with
  | nil => exact iff_of_true inOrder_nil (Nat.zero_le _)
  | append_singleton items a ih =>
    rw [inOrder_concat, ih, filter_append, length_append]
    by_cases now : p a
    · rw [filter_cons_of_pos now, filter_nil, length_singleton]
      constructor
      · rintro ⟨-, fresh⟩
        rw [fresh now]
        exact Nat.le_refl 1
      · intro most
        have none : items.filter p = [] := eq_nil_of_length_eq_zero (by omega)
        rw [none]
        exact ⟨Nat.zero_le _, fun _ => rfl⟩
    · rw [filter_cons_of_neg now, filter_nil, length_nil, Nat.add_zero]
      exact ⟨fun h => h.1, fun most => ⟨most, fun h => absurd h now⟩⟩

def lastWith (p : α → Bool) (items : List α) : Option α := (items.filter p).getLast?

theorem lastWith_concat (p : α → Bool) (items : List α) (a : α) :
    lastWith p (items ++ [a]) = if p a then some a else lastWith p items := by
  rw [lastWith, filter_append]
  split
  · next now => rw [filter_cons_of_pos now, filter_nil, getLast?_concat]
  · next other =>
      rw [filter_cons_of_neg other, filter_nil, append_nil]
      rfl

theorem lastWith_eq_none : lastWith p items = none ↔ items.filter p = [] :=
  getLast?_eq_none_iff

/-- Where there is one item with a property at most, the last one is the only one. -/
theorem lastWith_eq_some :
    (items.filter p).length ≤ 1 ∧ lastWith p items = some a ↔ items.filter p = [a] := by
  rw [lastWith]
  constructor
  · rintro ⟨most, last⟩
    obtain ⟨before, split⟩ := getLast?_eq_some_iff.mp last
    rw [split, length_append, length_singleton] at most
    rw [split, eq_nil_of_length_eq_zero (Nat.le_zero.mp (Nat.le_of_succ_le_succ most)), nil_append]
  · intro only
    rw [only]
    exact ⟨Nat.le_refl 1, rfl⟩

/-- A rule that holds between an item and each before it. -/
theorem inOrder_pairwise_iff {R : α → α → Prop} :
    InOrder (fun passed a => ∀ b ∈ passed, R b a) items ↔ items.Pairwise R := by
  induction items using List.reverseRecOn with
  | nil => exact iff_of_true inOrder_nil List.Pairwise.nil
  | append_singleton items a ih =>
    rw [inOrder_concat, ih, pairwise_append]
    constructor
    · rintro ⟨pairs, last⟩
      refine ⟨pairs, pairwise_singleton R a, fun b member c last' => ?_⟩
      rw [mem_singleton.mp last']
      exact last b member
    · rintro ⟨pairs, -, last⟩
      exact ⟨pairs, fun b member => last b member a mem_cons_self⟩

theorem inOrder_and_iff {P Q : List α → α → Prop} :
    InOrder (fun passed a => P passed a ∧ Q passed a) items ↔ InOrder P items ∧ InOrder Q items := by
  constructor
  · intro order
    exact ⟨fun passed a rest split => (order passed a rest split).1,
      fun passed a rest split => (order passed a rest split).2⟩
  · rintro ⟨first, second⟩ passed a rest split
    exact ⟨first passed a rest split, second passed a rest split⟩

/-- A fold whose state is told by the items taken so far, and which takes the next by a rule. -/
theorem foldlM_eq_ok {f : σ → α → Except ε σ} {describe : List α → σ} {Admits : List α → α → Prop}
    {Good : α → Prop} (step : ∀ before a s, InOrder Admits before → Good a →
      (f (describe before) a = .ok s ↔ Admits before a ∧ s = describe (before ++ [a])))
    {items : List α} (good : ∀ a ∈ items, Good a) {s : σ} :
    items.foldlM f (describe []) = .ok s ↔ InOrder Admits items ∧ s = describe items := by
  induction items using List.reverseRecOn generalizing s with
  | nil =>
    constructor
    · intro same
      cases same
      exact ⟨inOrder_nil, rfl⟩
    · rintro ⟨-, rfl⟩
      rfl
  | append_singleton items a ih =>
    have now := good a (mem_append_right _ mem_cons_self)
    have earlier := fun s => @ih (fun b member => good b (mem_append_left _ member)) s
    rw [foldlM_append, bind_eq_ok, inOrder_concat]
    constructor
    · rintro ⟨s', taken, last⟩
      obtain ⟨order, rfl⟩ := (earlier s').mp taken
      rw [foldlM_cons, bind_eq_ok] at last
      obtain ⟨s'', last, same⟩ := last
      cases same
      obtain ⟨admitted, rfl⟩ := (step items a _ order now).mp last
      exact ⟨⟨order, admitted⟩, rfl⟩
    · rintro ⟨⟨order, admitted⟩, rfl⟩
      refine ⟨describe items, (earlier _).mpr ⟨order, rfl⟩, ?_⟩
      rw [foldlM_cons, (step items a _ order now).mpr ⟨admitted, rfl⟩]
      rfl

theorem Refuses.foldlM {f : σ → α → Except ε σ} {E : ε → Prop} {P : σ → Prop}
    (step : ∀ s, P s → ∀ a ∈ items, Refuses (f s a) E ∧ ∀ s', f s a = .ok s' → P s') {s : σ}
    (now : P s) : Refuses (items.foldlM f s) E := by
  induction items generalizing s with
  | nil => exact .ok
  | cons a items ih =>
    obtain ⟨first, next⟩ := step s now a mem_cons_self
    exact .bind first fun s' taken =>
      ih (fun s before b member => step s before b (.tail _ member)) (next s' taken)

end

theorem mapError_eq_ok {ε' : Type} {f : ε → ε'} : x.mapError f = .ok a ↔ x = .ok a := by
  cases x with
  | ok b => rw [Except.mapError, Except.ok.injEq, Except.ok.injEq]
  | error e => exact iff_of_false nofun nofun

theorem Refuses.mapError {ε' : Type} {f : ε → ε'} {E : ε' → Prop} (all : ∀ e, E (f e)) :
    Refuses (x.mapError f) E := by
  cases x with
  | ok b => exact .ok
  | error e =>
    rintro _ ⟨⟩
    exact all e

def okOr (value : Option α) (status : ε) : Except ε α :=
  match value with
  | some a => .ok a
  | none => .error status

@[simp]
theorem okOr_some (a : α) (status : ε) : okOr (some a) status = .ok a := rfl

theorem okOr_bind : (okOr (some a) status >>= f) = f a := rfl

theorem okOr_eq_ok : okOr value status = .ok a ↔ value = some a := by
  cases value with
  | none => exact iff_of_false nofun nofun
  | some a' =>
    rw [okOr_some, Except.ok.injEq, Option.some.injEq]

theorem okOr_bind_eq_ok {b : β} :
    (okOr value status >>= f) = .ok b ↔ ∃ a, value = some a ∧ f a = .ok b := by
  simp only [bind_eq_ok, okOr_eq_ok]

theorem Refuses.okOr {E : ε → Prop} (now : E status) : Refuses (okOr value status) E := by
  cases value with
  | none =>
    intro e same
    cases same
    exact now
  | some a => exact .ok

/-- Additions, multiplications and subtractions of numbers below a bound. -/
def checkedAdd (bound a b : Nat) : Option Nat := if a + b < bound then some (a + b) else none

def checkedMul (bound a b : Nat) : Option Nat := if a * b < bound then some (a * b) else none

def checkedSub (a b : Nat) : Option Nat := if b ≤ a then some (a - b) else none

theorem checkedAdd_eq_some {a : Nat} :
    checkedAdd bound a b = some c ↔ a + b < bound ∧ a + b = c := by
  rw [checkedAdd, Option.ite_none_right_eq_some, Option.some.injEq]

theorem checkedAdd_of_lt {a : Nat} (fits : a + b < bound) :
    checkedAdd bound a b = some (a + b) := if_pos fits

theorem checkedMul_of_lt {a : Nat} (fits : a * b < bound) :
    checkedMul bound a b = some (a * b) := if_pos fits

theorem checkedMul_eq_some {a : Nat} :
    checkedMul bound a b = some c ↔ a * b < bound ∧ a * b = c := by
  rw [checkedMul, Option.ite_none_right_eq_some, Option.some.injEq]

theorem checkedSub_eq_some {a : Nat} : checkedSub a b = some c ↔ b ≤ a ∧ a - b = c := by
  rw [checkedSub, Option.ite_none_right_eq_some, Option.some.injEq]

theorem checkedSub_of_le {a : Nat} (fits : b ≤ a) : checkedSub a b = some (a - b) := if_pos fits

end Sapote.Library
