import Sapote.Library.Checks
import Sapote.Timer.Deadlines

/-!
The arithmetic of the clocks. `tsc.c`, `pm_timer.c` and `apic_timer.c` convert between counts
and nanoseconds in two parts, whole seconds and the rest, so that the products fit 64 bits.
For a calibrated local APIC timer they need not: its rate is bounded only by what one
countdown can show.
-/

namespace Sapote.Timer

open Library

def tscMaxFrequency : Nat := 18000000000
def pmTimerFrequencyHz : Nat := 3579545

section

/-- `value * scale / per` in 64 bits, in two parts. -/
def scaleSplit (scale per value : Nat) : Nat :=
  (value / per * scale % 2 ^ 64 + value % per * scale % 2 ^ 64 / per) % 2 ^ 64

def spanToNanoseconds (elapsed rate : Nat) : Nat := scaleSplit nanosecondsPerSecond rate elapsed

def pmTimerTicksToNanoseconds (ticks : Nat) : Nat :=
  scaleSplit nanosecondsPerSecond pmTimerFrequencyHz ticks

def pmTimerNanosecondsToTicks (nanoseconds : Nat) : Nat :=
  scaleSplit pmTimerFrequencyHz nanosecondsPerSecond nanoseconds

/-- Neither product of a conversion wraps, nor does their sum. -/
structure Unwrapped (scale per value : Nat) : Prop where
  whole : value / per * scale < 2 ^ 64
  rest : value % per * scale < 2 ^ 64
  sum : value / per * scale + value % per * scale / per < 2 ^ 64

variable {scale per value : Nat}

theorem split_mul_div (positive : 0 < per) (value scale : Nat) :
    value / per * scale + value % per * scale / per = value * scale / per := by
  conv_rhs => rw [← Nat.div_add_mod value per, Nat.add_mul, Nat.mul_assoc]
  rw [Nat.mul_add_div positive]

theorem Unwrapped.exact (unwrapped : Unwrapped scale per value) (positive : 0 < per) :
    scaleSplit scale per value = value * scale / per := by
  rw [scaleSplit, Nat.mod_eq_of_lt unwrapped.whole, Nat.mod_eq_of_lt unwrapped.rest,
    Nat.mod_eq_of_lt unwrapped.sum, split_mul_div positive]

/-- The rest is below `per`, so nothing wraps where `per * scale` fits. -/
theorem unwrapped_of_fits (positive : 0 < per) (narrow : per * scale ≤ 2 ^ 64)
    (fits : value * scale / per < 2 ^ 64) : Unwrapped scale per value := by
  rw [← split_mul_div positive] at fits
  refine ⟨Nat.lt_of_le_of_lt (Nat.le_add_right _ _) fits, ?_, fits⟩
  cases scale with
  | zero => exact Nat.two_pow_pos 64
  | succ scale =>
    exact Nat.lt_of_lt_of_le (Nat.mul_lt_mul_of_pos_right (Nat.mod_lt value positive)
      (Nat.succ_pos scale)) narrow

/-- The way there rounds down by less than one, and so does the way back. -/
theorem round_trip (positive : 0 < per) (finer : per ≤ scale) (value : Nat) :
    value * scale / per * per / scale = value ∨ value * scale / per * per / scale = value - 1 := by
  have least := Nat.div_mul_le_self (value * scale) per
  have most := Nat.lt_div_mul_add positive (a := value * scale)
  have room : 0 < scale := by omega
  have high : value * scale / per * per / scale ≤ value :=
    Nat.div_le_of_le_mul (by rw [mul_comm scale]; exact least)
  have low : value - 1 ≤ value * scale / per * per / scale := by
    rw [Nat.le_div_iff_mul_le room, Nat.sub_mul, Nat.one_mul]
    omega
  omega

/-- Every conversion is the floor of the exact quotient, for all rates a time-stamp counter
may have, and the power management timer's ticks survive the way to nanoseconds and back. -/
theorem clock_conversions_exact :
    (∀ elapsed rate, 1 ≤ rate → rate ≤ tscMaxFrequency → elapsed * nanosecondsPerSecond / rate < 2 ^ 64 →
      Unwrapped nanosecondsPerSecond rate elapsed ∧
      spanToNanoseconds elapsed rate = elapsed * nanosecondsPerSecond / rate ∧
      ∀ earlier ≤ elapsed, spanToNanoseconds earlier rate ≤ spanToNanoseconds elapsed rate) ∧
    (∀ ticks, ticks * nanosecondsPerSecond / pmTimerFrequencyHz < 2 ^ 64 →
      Unwrapped nanosecondsPerSecond pmTimerFrequencyHz ticks ∧
      pmTimerTicksToNanoseconds ticks = ticks * nanosecondsPerSecond / pmTimerFrequencyHz ∧
      (pmTimerNanosecondsToTicks (pmTimerTicksToNanoseconds ticks) = ticks ∨
        pmTimerNanosecondsToTicks (pmTimerTicksToNanoseconds ticks) = ticks - 1)) ∧
    ∀ nanoseconds < 2 ^ 64, Unwrapped pmTimerFrequencyHz nanosecondsPerSecond nanoseconds ∧
      pmTimerNanosecondsToTicks nanoseconds = nanoseconds * pmTimerFrequencyHz / nanosecondsPerSecond := by
  have back : ∀ nanoseconds < 2 ^ 64,
      Unwrapped pmTimerFrequencyHz nanosecondsPerSecond nanoseconds := by
    intro nanoseconds small
    refine unwrapped_of_fits (by decide) (by decide) ?_
    unfold pmTimerFrequencyHz nanosecondsPerSecond
    omega
  refine ⟨?_, ?_, fun nanoseconds small => ⟨back _ small, (back _ small).exact (by decide)⟩⟩
  · intro elapsed rate positive bounded fits
    have narrow : rate * nanosecondsPerSecond ≤ 2 ^ 64 :=
      Nat.le_trans (Nat.mul_le_mul_right _ bounded) (by decide)
    have exact_floor : ∀ earlier ≤ elapsed, Unwrapped nanosecondsPerSecond rate earlier := by
      intro earlier before
      refine unwrapped_of_fits positive narrow (Nat.lt_of_le_of_lt ?_ fits)
      exact Nat.div_le_div_right (Nat.mul_le_mul_right _ before)
    refine ⟨exact_floor _ (Nat.le_refl _), (exact_floor _ (Nat.le_refl _)).exact positive, ?_⟩
    intro earlier before
    simp only [spanToNanoseconds, (exact_floor _ before).exact positive,
      (exact_floor _ (Nat.le_refl _)).exact positive]
    exact Nat.div_le_div_right (Nat.mul_le_mul_right _ before)
  · intro ticks fits
    have there : Unwrapped nanosecondsPerSecond pmTimerFrequencyHz ticks :=
      unwrapped_of_fits (by decide) (by decide) fits
    refine ⟨there, there.exact (by decide), ?_⟩
    rw [pmTimerNanosecondsToTicks, pmTimerTicksToNanoseconds, there.exact (by decide),
      (back _ fits).exact (by decide)]
    exact round_trip (by decide) (by decide) ticks

end

inductive CalibrationRefusal where
  | badFrequency | counterExhausted | notCounting
  deriving DecidableEq

def rateFromCountdown (start ending referenceFrequency referenceTicks : Nat) :
    Except CalibrationRefusal Nat :=
  if referenceFrequency = 0 ∨ referenceTicks = 0 then .error .badFrequency
  else if ending = 0 then .error .counterExhausted
  else if start ≤ ending then .error .notCounting
  else
    let rate := (start - ending) * referenceFrequency % 2 ^ 64 / referenceTicks
    if rate = 0 then .error .notCounting else .ok rate

/-- The count is the floor where that is a count, and the interval is refused elsewhere. The
products are formed once the number of whole seconds has been admitted. -/
structure CountExact (rate nanoseconds : Nat) : Prop where
  count : ∀ count, countForNanoseconds rate nanoseconds = some count ↔
    1 ≤ nanoseconds * rate / nanosecondsPerSecond ∧ nanoseconds * rate / nanosecondsPerSecond < 2 ^ 32 ∧
      count = nanoseconds * rate / nanosecondsPerSecond
  whole : nanoseconds / nanosecondsPerSecond ≤ apicTimerMaxCount / rate →
    nanoseconds / nanosecondsPerSecond * rate < 2 ^ 64
  rest : nanoseconds / nanosecondsPerSecond ≤ apicTimerMaxCount / rate →
    nanoseconds % nanosecondsPerSecond * rate < 2 ^ 64

theorem whole_le_maxCount {rate seconds : Nat} (admitted : seconds ≤ apicTimerMaxCount / rate) :
    seconds * rate ≤ apicTimerMaxCount :=
  Nat.le_trans (Nat.mul_le_mul_right rate admitted) (Nat.div_mul_le_self _ rate)

theorem countExact_of_rest {rate nanoseconds : Nat} (positive : 0 < rate)
    (rest : nanoseconds / nanosecondsPerSecond ≤ apicTimerMaxCount / rate →
      nanoseconds % nanosecondsPerSecond * rate < 2 ^ 64) : CountExact rate nanoseconds := by
  have parts := split_mul_div (show 0 < nanosecondsPerSecond by decide) nanoseconds rate
  refine ⟨?_, fun admitted => Nat.lt_of_le_of_lt (whole_le_maxCount admitted) (by decide), rest⟩
  intro count
  unfold countForNanoseconds
  by_cases zero : nanoseconds = 0
  · rw [if_pos (.inr zero), zero]
    exact iff_of_false nofun fun h => absurd h.1 (by rw [Nat.zero_mul, Nat.zero_div]; decide)
  rw [if_neg (by omega)]
  by_cases admitted : nanoseconds / nanosecondsPerSecond ≤ apicTimerMaxCount / rate
  · have whole := whole_le_maxCount admitted
    have small := rest admitted
    have below : nanoseconds % nanosecondsPerSecond * rate / nanosecondsPerSecond < 2 ^ 63 :=
      Nat.div_lt_of_lt_mul (Nat.lt_of_lt_of_le small (by decide))
    have unwrapped : Unwrapped rate nanosecondsPerSecond nanoseconds := by
      unfold apicTimerMaxCount at whole
      exact ⟨by omega, small, by omega⟩
    have floor := unwrapped.exact (by decide)
    unfold scaleSplit at floor
    rw [if_neg (Nat.not_lt.mpr admitted)]
    simp only [floor]
    generalize nanoseconds * rate / nanosecondsPerSecond = quotient
    unfold apicTimerMaxCount
    split
    · exact iff_of_false nofun fun h => by omega
    · rw [Option.some.injEq]
      omega
  · have beyond : apicTimerMaxCount < nanoseconds / nanosecondsPerSecond * rate :=
      (Nat.div_lt_iff_lt_mul positive).mp (Nat.not_le.mp admitted)
    rw [if_pos (Nat.not_le.mp admitted)]
    refine iff_of_false nofun ?_
    rintro ⟨-, small, -⟩
    rw [← parts] at small
    exact absurd (Nat.lt_of_lt_of_le beyond (Nat.le_add_right _ _)) (Nat.not_lt.mpr
      (Nat.le_of_lt_succ small))

/-- For a calibrated rate the count is right exactly where the second product fits. -/
theorem oneshot_count_exact_iff {start ending referenceTicks rate : Nat} (small : start < 2 ^ 32)
    (calibrated : rateFromCountdown start ending pmTimerFrequencyHz referenceTicks = .ok rate)
    (nanoseconds : Nat) :
    (start - ending) * pmTimerFrequencyHz < 2 ^ 64 ∧ (CountExact rate nanoseconds ↔
      (nanoseconds / nanosecondsPerSecond ≤ apicTimerMaxCount / rate →
        nanoseconds % nanosecondsPerSecond * rate < 2 ^ 64)) := by
  have positive : 0 < rate := by
    unfold rateFromCountdown at calibrated
    simp only [guard_eq_ok] at calibrated
    obtain ⟨-, -, -, some, same⟩ := calibrated
    cases same
    exact Nat.pos_of_ne_zero some
  refine ⟨?_, CountExact.rest, countExact_of_rest positive⟩
  unfold pmTimerFrequencyHz
  omega

/-- Half a second at the rate of the longest countdown over the shortest reference, 21
thousand million counts, is taken for a count that fits. -/
theorem oneshot_count_wraps :
    rateFromCountdown 0xFFFFFFFF 1 pmTimerFrequencyHz 357954 = .ok 42949732933 ∧
      countForNanoseconds 42949732933 500000000 = some 3028122392 ∧
      2 ^ 32 ≤ 500000000 * 42949732933 / nanosecondsPerSecond := by
  decide

theorem oneshot_count_millisecond : CountExact 62500087 1000000 := by
  have calibrated : rateFromCountdown 0xFFFFFFFF (0xFFFFFFFF - 6250000) pmTimerFrequencyHz 357954 =
      .ok 62500087 := rfl
  exact (oneshot_count_exact_iff (by decide) calibrated 1000000).2.mpr fun _ => by decide

end Sapote.Timer
