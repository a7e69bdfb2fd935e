import Mathlib.Data.Nat.Bitwise
import Sapote.Library.Checks

/-!
Waiting on the power management timer, `pm_timer.c`. The counter has 24 or 32 bits and wraps;
a wait adds up the differences of consecutive samples, of which only the counter's own bits
mean anything, and gives up after a number of polls.
-/

namespace Sapote.Timer

open Library

def acpiPmTimerBaseBits : Nat := 24
def acpiPmTimerExtendedBits : Nat := 32
def pmTimerMaxWaitTicks : Nat := 2 ^ (acpiPmTimerBaseBits - 2)
def pmTimerPollsPerTick : Nat := 64

inductive PmTimerStatus where
  | ok | nullArgument | absent | badCounterWidth | badInterval | stalled
  deriving DecidableEq

structure PmTimerWait where
  (target elapsed polls pollLimit previous counterBits : Nat)

def counterWidthIsSupported (counterBits : Nat) : Prop :=
  counterBits = acpiPmTimerBaseBits ∨ counterBits = acpiPmTimerExtendedBits

instance (counterBits : Nat) : Decidable (counterWidthIsSupported counterBits) :=
  inferInstanceAs (Decidable (_ ∨ _))

def maskForWidth (counterBits : Nat) : Nat :=
  if counterBits = acpiPmTimerExtendedBits then 0xFFFFFFFF else 2 ^ acpiPmTimerBaseBits - 1

def waitBegin (ticks counterBits firstSample : Nat) : Except PmTimerStatus PmTimerWait :=
  if ¬counterWidthIsSupported counterBits then .error .badCounterWidth
  else if ticks = 0 ∨ pmTimerMaxWaitTicks < ticks then .error .badInterval
  else
    .ok ⟨ticks, 0, 0, ticks * pmTimerPollsPerTick, firstSample &&& maskForWidth counterBits,
      counterBits⟩

/-- The wait with one sample more, and whether it is complete. -/
def waitStep (wait : PmTimerWait) (sample : Nat) : Except PmTimerStatus (PmTimerWait × Bool) :=
  let mask := maskForWidth wait.counterBits
  let masked := sample &&& mask
  if wait.pollLimit ≤ wait.polls then .error .stalled
  else
    let gap := (masked + 2 ^ 32 - wait.previous) % 2 ^ 32 &&& mask
    let elapsed := (wait.elapsed + gap) % 2 ^ 64
    .ok ({ wait with polls := wait.polls + 1, elapsed := elapsed, previous := masked },
      wait.target ≤ elapsed)

def waitLoop (samples : Nat → Nat) : (fuel : Nat) → (next : Nat) → PmTimerWait →
    Option (PmTimerStatus × Nat)
  | 0, _, _ => none
  | fuel + 1, next, wait =>
    match waitStep wait (samples next) with
    | .error status => some (status, 0)
    | .ok (wait, true) => some (.ok, wait.elapsed)
    | .ok (wait, false) => waitLoop samples fuel (next + 1) wait

/-- The status and the ticks that went by; `writable` is a non-null `elapsed`. -/
def pmTimerWait (present : Bool) (counterBits : Nat) (samples : Nat → Nat) (ticks : Nat)
    (writable : Bool) (fuel : Nat) : Option (PmTimerStatus × Nat) :=
  if !writable then some (.nullArgument, 0)
  else if !present then some (.absent, 0)
  else
    match waitBegin ticks counterBits (samples 0) with
    | .error status => some (status, 0)
    | .ok wait => waitLoop samples fuel 1 wait

def waitSteps (samples : Nat → Nat) (wait : PmTimerWait) : Nat →
    Except PmTimerStatus (PmTimerWait × Bool)
  | 0 => .ok (wait, false)
  | n + 1 => waitSteps samples wait n >>= fun before => waitStep before.1 (samples (n + 1))

/-- The samples show the low bits of a counter that advances by less than a period each time. -/
structure Shows (bits : Nat) (counter samples : Nat → Nat) : Prop where
  low : ∀ k, samples k % 2 ^ bits = counter k % 2 ^ bits
  rises : ∀ k, counter k ≤ counter (k + 1)
  gap : ∀ k, counter (k + 1) < counter k + 2 ^ bits

variable {bits ticks n : Nat} {counter samples : Nat → Nat} {wait : PmTimerWait}

theorem and_maskForWidth (supported : counterWidthIsSupported bits) (sample : Nat) :
    sample &&& maskForWidth bits = sample % 2 ^ bits := by
  obtain rfl | rfl := supported
  · exact Nat.and_two_pow_sub_one_eq_mod sample 24
  · exact Nat.and_two_pow_sub_one_eq_mod sample 32

/-- A difference below one period survives the wrap. -/
theorem gap_exact (supported : counterWidthIsSupported bits) {a b : Nat} (rises : a ≤ b)
    (gap : b < a + 2 ^ bits) : (b % 2 ^ bits + 2 ^ 32 - a % 2 ^ bits) % 2 ^ 32 % 2 ^ bits = b - a := by
  obtain rfl | rfl := supported
  · unfold acpiPmTimerBaseBits at gap ⊢
    omega
  · unfold acpiPmTimerExtendedBits at gap ⊢
    omega

theorem Shows.total (seen : Shows bits counter samples) (n : Nat) :
    counter 0 ≤ counter n ∧ counter n ≤ counter 0 + n * 2 ^ bits := by
  induction n with
  | zero => exact ⟨le_refl _, Nat.le_add_right _ _⟩
  | succ n ih =>
    have rises := seen.rises n
    have gap := seen.gap n
    rw [Nat.succ_mul]
    omega

theorem waitBegin_eq_ok {sample : Nat} : waitBegin ticks bits sample = .ok wait ↔
    counterWidthIsSupported bits ∧ ¬(ticks = 0 ∨ pmTimerMaxWaitTicks < ticks) ∧
      wait = ⟨ticks, 0, 0, ticks * pmTimerPollsPerTick, sample &&& maskForWidth bits, bits⟩ := by
  simp only [waitBegin, guard_eq_ok, not_not, Except.ok.injEq, eq_comm (b := wait)]

/-- The wait after `n` samples of a counter. -/
def waitAfter (bits ticks : Nat) (counter : Nat → Nat) (n : Nat) : PmTimerWait :=
  ⟨ticks, counter n - counter 0, n, ticks * pmTimerPollsPerTick, counter n % 2 ^ bits, bits⟩

section
variable (supported : counterWidthIsSupported bits) (interval : ticks ≤ pmTimerMaxWaitTicks)
  (seen : Shows bits counter samples)
include supported interval seen

/-- Below the limit a sample is folded in, and completes the wait if the target is reached. -/
theorem waitStep_waitAfter (below : n < ticks * pmTimerPollsPerTick) :
    waitStep (waitAfter bits ticks counter n) (samples (n + 1)) = .ok
      (waitAfter bits ticks counter (n + 1), decide (ticks ≤ counter (n + 1) - counter 0)) := by
  have total : (counter n - counter 0 + (counter (n + 1) - counter n)) % 2 ^ 64 =
      counter (n + 1) - counter 0 := by
    obtain ⟨least, most⟩ := seen.total (n + 1)
    have period : 2 ^ bits ≤ 2 ^ 32 := by
      obtain rfl | rfl := supported
      all_goals decide
    have wide : (n + 1) * 2 ^ bits ≤ ticks * pmTimerPollsPerTick * 2 ^ 32 :=
      Nat.mul_le_mul below period
    have rises := seen.rises n
    have start := (seen.total n).1
    unfold pmTimerMaxWaitTicks acpiPmTimerBaseBits pmTimerPollsPerTick at *
    omega
  unfold waitStep waitAfter
  dsimp only
  simp only [if_neg (not_le.mpr below), and_maskForWidth supported, seen.low,
    gap_exact supported (seen.rises n) (seen.gap n), total]

theorem waitSteps_waitAfter (positive : 0 < ticks) (within : n ≤ ticks * pmTimerPollsPerTick) :
    waitSteps samples (waitAfter bits ticks counter 0) n =
      .ok (waitAfter bits ticks counter n, decide (ticks ≤ counter n - counter 0)) := by
  induction n with
  | zero => rw [waitSteps, Nat.sub_self, decide_eq_false (Nat.not_le.mpr positive)]
  | succ n ih =>
    rw [waitSteps, ih (Nat.le_of_succ_le within)]
    exact waitStep_waitAfter supported interval seen within

omit supported interval seen in
theorem waitStep_stalls (sample : Nat) :
    waitStep (waitAfter bits ticks counter (ticks * pmTimerPollsPerTick)) sample = .error .stalled :=
  if_pos (le_refl _)

/-- The loop completes at the first sample that reaches the target, or stalls. -/
theorem waitLoop_waitAfter {left : Nat} (limit : n + left = ticks * pmTimerPollsPerTick)
    (before : ∀ k ≤ n, counter k - counter 0 < ticks) :
    (∃ m ≤ ticks * pmTimerPollsPerTick, (∀ k < m, counter k - counter 0 < ticks) ∧
      ticks ≤ counter m - counter 0 ∧
      waitLoop samples (left + 1) (n + 1) (waitAfter bits ticks counter n) =
        some (.ok, counter m - counter 0)) ∨
    (∀ k ≤ ticks * pmTimerPollsPerTick, counter k - counter 0 < ticks) ∧
      waitLoop samples (left + 1) (n + 1) (waitAfter bits ticks counter n) = some (.stalled, 0) := by
  induction left generalizing n with
  | zero =>
    obtain rfl : n = ticks * pmTimerPollsPerTick := limit
    rw [waitLoop, waitStep_stalls]
    exact .inr ⟨before, rfl⟩
  | succ left ih =>
    rw [waitLoop, waitStep_waitAfter supported interval seen (by omega)]
    by_cases reached : ticks ≤ counter (n + 1) - counter 0
    · rw [decide_eq_true reached]
      exact .inl ⟨n + 1, by omega, fun k small => before k (by omega), reached, rfl⟩
    rw [decide_eq_false reached]
    refine ih (by omega) fun k small => ?_
    obtain earlier | last := Nat.lt_or_eq_of_le small
    · exact before k (by omega)
    · rw [last]
      omega

end

/-- On any samples the loop ends, at the latest with the poll that the limit refuses. -/
theorem waitLoop_ends (samples : Nat → Nat) {left : Nat} (next : Nat)
    (enough : wait.pollLimit ≤ wait.polls + left) :
    (waitLoop samples (left + 1) next wait).isSome := by
  induction left generalizing next wait with
  | zero =>
    rw [waitLoop, waitStep, if_pos (add_zero wait.polls ▸ enough)]
    rfl
  | succ left ih =>
    rw [waitLoop]
    by_cases past : wait.pollLimit ≤ wait.polls
    · rw [waitStep, if_pos past]
      rfl
    obtain ⟨after, complete, stepped, limit, polls⟩ : ∃ after complete,
        waitStep wait (samples next) = .ok (after, complete) ∧
        after.pollLimit = wait.pollLimit ∧ after.polls = wait.polls + 1 :=
      ⟨_, _, if_neg past, rfl, rfl⟩
    rw [stepped]
    cases complete with
    | true => rfl
    | false => exact ih (next + 1) (by omega)

/-- Once `wait_begin` has accepted the interval, the samples add up to what the counter has
advanced, and the wait ends as that says: at the first sample with which the target is
reached, or stalled when all polls have gone by. It ends on any other samples too. -/
theorem pm_timer_wait_exact (seen : Shows bits counter samples)
    (begun : waitBegin ticks bits (samples 0) = .ok wait) :
    (∀ k ≤ 64 * ticks, ∃ after, waitSteps samples wait k =
      .ok (after, decide (ticks ≤ counter k - counter 0)) ∧
      after.elapsed = counter k - counter 0) ∧
    waitSteps samples wait (64 * ticks + 1) = .error .stalled ∧
    ((∃ m ≤ 64 * ticks, (∀ k < m, counter k - counter 0 < ticks) ∧ ticks ≤ counter m - counter 0 ∧
      pmTimerWait true bits samples ticks true (64 * ticks + 1) =
        some (.ok, counter m - counter 0)) ∨
    (∀ k ≤ 64 * ticks, counter k - counter 0 < ticks) ∧
      pmTimerWait true bits samples ticks true (64 * ticks + 1) = some (.stalled, 0)) ∧
    ∀ others writable present counterBits,
      (pmTimerWait present counterBits others ticks writable (64 * ticks + 1)).isSome := by
  obtain ⟨supported, interval, same⟩ := waitBegin_eq_ok.mp begun
  have first : wait = waitAfter bits ticks counter 0 := by
    rw [same, waitAfter, Nat.sub_self, and_maskForWidth supported, seen.low]
  rw [show 64 * ticks = ticks * pmTimerPollsPerTick from mul_comm 64 ticks]
  refine ⟨fun k small => ⟨waitAfter bits ticks counter k, ?_, rfl⟩, ?_, ?_, ?_⟩
  · rw [first]
    exact waitSteps_waitAfter supported (by omega) seen (by omega) small
  · rw [waitSteps, first, waitSteps_waitAfter supported (by omega) seen (by omega) (le_refl _)]
    exact waitStep_stalls _
  · rw [pmTimerWait, begun, first]
    refine waitLoop_waitAfter supported (by omega) seen (zero_add _) fun k small => ?_
    rw [Nat.le_zero.mp small]
    omega
  · intro others writable present counterBits
    unfold pmTimerWait
    split
    · rfl
    split
    · rfl
    split
    · rfl
    next begun =>
    obtain ⟨-, -, rfl⟩ := waitBegin_eq_ok.mp begun
    exact waitLoop_ends others 1 (Nat.le_add_left _ _)

/-- A counter of 24 bits wraps before the first poll, which reads a bit that is not its own. -/
theorem pm_timer_wait_wraps : ∃ wait, waitBegin 10 24 0xFFFFFC = .ok wait ∧
    pmTimerWait true 24 (fun k => 0xFFFFFC + 16 * k) 10 true 641 = some (.ok, 16) := by
  have seen : Shows 24 (fun k => 0xFFFFFC + 16 * k) (fun k => 0xFFFFFC + 16 * k) :=
    ⟨fun k => rfl, fun k => by omega, fun k => by omega⟩
  have begun : waitBegin 10 24 0xFFFFFC = .ok ⟨10, 0, 0, 640, 0xFFFFFC, 24⟩ := rfl
  obtain ⟨m, small, before, reached, result⟩ | ⟨never, -⟩ := (pm_timer_wait_exact seen begun).2.2.1
  · have one : m = 1 := by
      have last := before (m - 1)
      omega
    refine ⟨_, begun, result.trans ?_⟩
    rw [one]
  · exact absurd (never 1 (by decide)) (by decide)

end Sapote.Timer
