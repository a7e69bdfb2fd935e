import Mathlib.Data.Finset.Card
import Mathlib.Data.List.GetD
import Mathlib.Data.List.MinMax
import Mathlib.Tactic.Ring
import Mathlib.Tactic.Linarith
import Sapote.Library.Run
import Sapote.Timer.Deadlines

/-!
When a pending deadline has hardware armed for it. Arming converts the interval to a
32-bit count and refuses what does not fit; a deadline that was accepted behind a
nearer one is then left without a count when the nearer one is gone. Runs whose
deadlines all fit the count register never come to that.
-/

namespace Sapote.Timer
open Library List Nat
variable {rate now now' deadline : Nat} {s : TimerState} {call : TimerCall}
  {scripts : List (List TimerCall)}

/-- Intervals from the minimum up to the one that ends at `deadline` can be counted. -/
def Countable (rate now deadline : Nat) : Prop :=
  ∀ interval, timerMinimumIntervalNs ≤ interval → now + interval ≤ deadline →
    (countForNanoseconds rate interval).isSome

theorem Countable.later (countable : Countable rate now deadline) (advance : now ≤ now') :
    Countable rate now' deadline :=
  fun interval least bound => countable interval least (by omega)

/-- A started timer over a calibrated, online local APIC whose writes take effect. -/
structure Ready (s : TimerState) : Prop where
  started : s.started
  online : s.online
  calibrated : s.calibrated
  idle : s.running = false
  oneshotReady : s.oneshotReady
  readback : s.readbackMatches

def Pending (s : TimerState) (e : TimerEntry) : Prop := e ∈ s.entries ∧ e.inUse

structure Programmable (s : TimerState) : Prop extends Ready s where
  least : ∀ e, Pending s e → (countForNanoseconds s.countsPerSecond timerMinimumIntervalNs).isSome
  countable : ∀ e, Pending s e → Countable s.countsPerSecond s.lastReportedNs e.deadlineNs

/-- The hardware is armed and its count runs out in time for every pending deadline. -/
def Served (s : TimerState) : Prop :=
  ∀ e, Pending s e → s.armed ∧
    s.countsPerSecond * s.armedAt + nanosecondsPerSecond * s.count ≤
      s.countsPerSecond * max e.deadlineNs (s.lastReportedNs + timerMinimumIntervalNs)

/-- What no call changes, and time that only passes. -/
structure Steady (s t : TimerState) : Prop where
  started : t.started = s.started
  online : t.online = s.online
  calibrated : t.calibrated = s.calibrated
  running : t.running = s.running
  oneshotReady : t.oneshotReady = s.oneshotReady
  readbackMatches : t.readbackMatches = s.readbackMatches
  countsPerSecond : t.countsPerSecond = s.countsPerSecond
  interruptsEnabled : t.interruptsEnabled = s.interruptsEnabled
  lastReportedNs : s.lastReportedNs ≤ t.lastReportedNs

/-- Nothing new pending, and the hardware left alone. -/
structure Settles (s t : TimerState) : Prop extends Steady s t where
  pending : ∀ e, Pending t e → Pending s e
  armed : t.armed = s.armed
  count : t.count = s.count
  armedAt : t.armedAt = s.armedAt

section
variable {s t u : TimerState}

theorem Steady.refl (s : TimerState) : Steady s s :=
  ⟨rfl, rfl, rfl, rfl, rfl, rfl, rfl, rfl, le_refl _⟩

theorem Steady.trans (first : Steady s t) (second : Steady t u) : Steady s u :=
  ⟨second.started.trans first.started, second.online.trans first.online,
    second.calibrated.trans first.calibrated, second.running.trans first.running,
    second.oneshotReady.trans first.oneshotReady,
    second.readbackMatches.trans first.readbackMatches,
    second.countsPerSecond.trans first.countsPerSecond,
    second.interruptsEnabled.trans first.interruptsEnabled,
    le_trans first.lastReportedNs second.lastReportedNs⟩

theorem Steady.ready (steady : Steady s t) (ready : Ready s) : Ready t :=
  ⟨steady.started.trans ready.started, steady.online.trans ready.online,
    steady.calibrated.trans ready.calibrated, steady.running.trans ready.idle,
    steady.oneshotReady.trans ready.oneshotReady,
    steady.readbackMatches.trans ready.readback⟩

/-- Fewer pending deadlines, later: still programmable. -/
theorem Programmable.steady (steady : Steady s t) (programmable : Programmable s)
    (pending : ∀ e, Pending t e → Pending s e) : Programmable t := by
  refine ⟨steady.ready programmable.toReady, ?_, ?_⟩
  · intro e here
    rw [steady.countsPerSecond]
    exact programmable.least e (pending e here)
  · intro e here
    rw [steady.countsPerSecond]
    exact (programmable.countable e (pending e here)).later steady.lastReportedNs

theorem Served.settles (settles : Settles s t) (served : Served s) : Served t := by
  intro e here
  obtain ⟨armed, bound⟩ := served e (settles.pending e here)
  refine ⟨settles.armed.trans armed, ?_⟩
  rw [settles.countsPerSecond, settles.armedAt, settles.count]
  have later := settles.lastReportedNs
  refine le_trans bound (Nat.mul_le_mul_left _ ?_)
  omega

theorem Settles.refl (s : TimerState) : Settles s s :=
  ⟨.refl s, fun _ => id, rfl, rfl, rfl⟩

theorem clockMonotonicNs_settles (tsc : Nat → Nat) (s : TimerState) :
    Settles s (clockMonotonicNs tsc s).2 :=
  { Settles.refl s with lastReportedNs := clockMonotonicNs_advances tsc }

theorem clockMonotonicNs_reported (tsc : Nat → Nat) (s : TimerState) :
    (clockMonotonicNs tsc s).2.lastReportedNs = (clockMonotonicNs tsc s).1 := rfl

theorem clearSlot_settles (s : TimerState) (slot : Nat) : Settles s (clearSlot s slot) := by
  refine { Settles.refl s with pending := ?_ }
  intro e here
  obtain old | empty := mem_or_eq_of_mem_set here.1
  · exact ⟨old, here.2⟩
  · have used := here.2
    rw [empty] at used
    cases used

end

/-- A count never runs longer than its interval, whatever the 64-bit products drop. -/
theorem countForNanoseconds_le {interval count : Nat}
    (here : countForNanoseconds rate interval = some count) :
    nanosecondsPerSecond * count ≤ rate * interval := by
  unfold countForNanoseconds at here
  split at here
  · cases here
  split at here
  · cases here
  dsimp only at here
  split at here
  · cases here
  obtain rfl := Option.some.inj here
  generalize nanosecondsPerSecond = second
  have whole : interval / second * rate % 2 ^ 64 ≤ interval / second * rate := mod_le _ _
  have part : interval % second * rate % 2 ^ 64 / second * second ≤ interval % second * rate :=
    le_trans (div_mul_le_self _ _) (mod_le _ _)
  calc second * ((interval / second * rate % 2 ^ 64 +
        interval % second * rate % 2 ^ 64 / second) % 2 ^ 64)
      ≤ second * (interval / second * rate % 2 ^ 64 + interval % second * rate % 2 ^ 64 / second) :=
        Nat.mul_le_mul_left _ (mod_le _ _)
    _ ≤ second * (interval / second * rate) + interval % second * rate := by
        rw [mul_add, mul_comm second (_ % 2 ^ 64 / second)]
        exact Nat.add_le_add (Nat.mul_le_mul_left _ whole) part
    _ = rate * (interval / second * second + interval % second) := by ring
    _ = rate * interval := by rw [Nat.div_add_mod']

/-- The earliest pending deadline is one of the table's and none is nearer. -/
theorem earliestDeadline_spec (entries : List TimerEntry) :
    match earliestDeadline entries with
    | none => ∀ e ∈ entries, e.inUse = false
    | some deadline => (∃ e ∈ entries, e.inUse ∧ e.deadlineNs = deadline) ∧
        ∀ e ∈ entries, e.inUse → deadline ≤ e.deadlineNs := by
  induction entries using List.reverseRecOn with
  | nil => exact forall_mem_nil _
  | append_singleton before last ih =>
    unfold earliestDeadline at ih ⊢
    rw [foldl_append, foldl_cons, foldl_nil]
    generalize before.foldl _ _ = found at ih
    cases used : last.inUse with
    | false | true =>
      cases found with
      | none | some => grind

theorem earliestDeadline_none (here : earliestDeadline s.entries = none) (e : TimerEntry) :
    ¬ Pending s e := by
  have spec := earliestDeadline_spec s.entries
  rw [here] at spec
  intro pending
  exact absurd pending.2 (by simp [spec e pending.1])

theorem earliestDeadline_some (here : earliestDeadline s.entries = some deadline) :
    (∃ e, Pending s e ∧ e.deadlineNs = deadline) ∧
      ∀ e, Pending s e → deadline ≤ e.deadlineNs := by
  have spec := earliestDeadline_spec s.entries
  rw [here] at spec
  obtain ⟨⟨e, member, used, named⟩, nearest⟩ := spec
  exact ⟨⟨e, ⟨member, used⟩, named⟩, fun e pending => nearest e pending.1 pending.2⟩

section
variable (tsc : Nat → Nat) {s : TimerState}

theorem reprogram_frame (s : TimerState) : (reprogram tsc s).2.entries = s.entries ∧
    s.lastReportedNs ≤ (reprogram tsc s).2.lastReportedNs := by
  have disarmed : (apicTimerDisarm s).2.entries = s.entries ∧
      (apicTimerDisarm s).2.lastReportedNs = s.lastReportedNs := by
    grind [apicTimerDisarm]
  have armed : ∀ t interval now, (apicTimerArmOneshot t interval now).2.entries = t.entries ∧
      (apicTimerArmOneshot t interval now).2.lastReportedNs = t.lastReportedNs := by
    grind [apicTimerArmOneshot]
  have read := fun t => (clockMonotonicNs_settles tsc t).lastReportedNs
  have same : ∀ t, (clockMonotonicNs tsc t).2.entries = t.entries := fun _ => rfl
  unfold reprogram
  grind

/-- With interrupts on the hardware refuses: the table is looked at and no more. -/
theorem reprogram_refused (interrupts : s.interruptsEnabled) : Settles s (reprogram tsc s).2 ∧
      ((reprogram tsc s).1 = .ok → ∀ e, ¬ Pending s e) := by
  unfold reprogram
  cases armed : s.armed with
  | true =>
    simp only [apicTimerDisarm, interrupts, if_true, ne_eq, reduceCtorEq, not_false_eq_true]
    exact ⟨.refl s, nofun⟩
  | false => ?_
  simp only [Bool.false_eq_true, if_false, ne_eq, not_true_eq_false]
  cases found : earliestDeadline s.entries with
  | none => exact ⟨.refl s, fun _ => earliestDeadline_none found⟩
  | some deadline => ?_
  have settled := clockMonotonicNs_settles tsc s
  dsimp only
  generalize (if _ < timerMinimumIntervalNs then _ else _) = interval
  have refused : ∃ status, apicTimerArmOneshot (clockMonotonicNs tsc s).2 interval
      (clockMonotonicNs tsc s).1 = (status, (clockMonotonicNs tsc s).2) ∧
      status ≠ .ok := by
    have still : (clockMonotonicNs tsc s).2.interruptsEnabled := interrupts
    simp only [apicTimerArmOneshot, still, if_true]
    split
    · exact ⟨_, rfl, nofun⟩
    · exact ⟨_, rfl, nofun⟩
  obtain ⟨status, refused, failed⟩ := refused
  rw [refused]
  simp only [failed, not_false_eq_true, if_true]
  exact ⟨settled, nofun⟩

/-- The interval `reprogram` asks for, and that it can be counted. -/
theorem Programmable.interval_counted (programmable : Programmable s)
    (here : earliestDeadline s.entries = some deadline) (advance : s.lastReportedNs ≤ now) :
    ∃ count, countForNanoseconds s.countsPerSecond
        (max (deadline - now) timerMinimumIntervalNs) = some count := by
  obtain ⟨⟨e, pending, named⟩, -⟩ := earliestDeadline_some here
  refine Option.isSome_iff_exists.mp ?_
  by_cases near : deadline - now ≤ timerMinimumIntervalNs
  · rw [max_eq_right near]
    exact programmable.least e pending
  · rw [max_eq_left (by omega)]
    exact programmable.countable e pending _ (by omega) (by omega)

/-- With interrupts off a programmable table ends up served. -/
theorem reprogram_served (programmable : Programmable s)
    (interrupts : s.interruptsEnabled = false) :
    (reprogram tsc s).1 = .ok ∧ Steady s (reprogram tsc s).2 ∧ Served (reprogram tsc s).2 := by
  -- Disarming, where needed, leaves a state that differs in the hardware's fields only.
  have disarmed : ∃ t, (if s.armed then apicTimerDisarm s else (.ok, s)) =
      (.ok, t) ∧ t.armed = false ∧ t.entries = s.entries ∧ Steady s t := by
    cases armed : s.armed with
    | true =>
      refine ⟨{ s with armed := false, count := 0 }, ?_, rfl, rfl, ?_⟩
      · simp [apicTimerDisarm, interrupts, armed]
      · exact { Steady.refl s with }
    | false => exact ⟨s, by simp, armed, rfl, .refl s⟩
  obtain ⟨t, disarm, armed, entries, steady⟩ := disarmed
  have pending : ∀ e, Pending t e → Pending s e := fun e here => ⟨entries ▸ here.1, here.2⟩
  have programmable := programmable.steady steady pending
  unfold reprogram
  rw [disarm]
  simp only [ne_eq, not_true_eq_false, if_false]
  cases found : earliestDeadline t.entries with
  | none => exact ⟨rfl, steady, fun e here => absurd here (earliestDeadline_none found e)⟩
  | some deadline => ?_
  have settled := clockMonotonicNs_settles tsc t
  have reported := clockMonotonicNs_reported tsc t
  have same : (clockMonotonicNs tsc t).2.entries = t.entries := rfl
  have ready := settled.toSteady.ready programmable.toReady
  have off : (clockMonotonicNs tsc t).2.interruptsEnabled = false :=
    steady.interruptsEnabled.trans interrupts
  have rate := settled.countsPerSecond
  have idle := settled.armed.trans armed
  obtain ⟨count, counted⟩ := programmable.interval_counted found
    (reported ▸ settled.lastReportedNs)
  dsimp only
  generalize clockMonotonicNs tsc t = clock at settled reported same ready off rate idle counted ⊢
  have interval : (if (if clock.1 < deadline then deadline - clock.1 else 0) <
      timerMinimumIntervalNs then timerMinimumIntervalNs else
      (if clock.1 < deadline then deadline - clock.1 else 0)) =
      max (deadline - clock.1) timerMinimumIntervalNs := by grind
  rw [interval]
  rw [← rate] at counted
  have arm : apicTimerArmOneshot clock.2 (max (deadline - clock.1) timerMinimumIntervalNs)
      clock.1 = (.ok, { clock.2 with armed := true, count := count, armedAt := clock.1 }) := by
    simp [apicTimerArmOneshot, ready.online, off, ready.calibrated, ready.idle, idle,
      ready.oneshotReady, ready.readback, counted]
  rw [arm]
  simp only [not_true_eq_false, if_false]
  refine ⟨trivial, steady.trans { settled with }, ?_⟩
  intro e here
  refine ⟨rfl, ?_⟩
  have nearest : deadline ≤ e.deadlineNs :=
    (earliestDeadline_some found).2 e ⟨same ▸ here.1, here.2⟩
  have bound := countForNanoseconds_le counted
  calc clock.2.countsPerSecond * clock.1 + nanosecondsPerSecond * count
      ≤ clock.2.countsPerSecond *
          (clock.1 + max (deadline - clock.1) timerMinimumIntervalNs) := by
        rw [mul_add]
        exact Nat.add_le_add_left bound _
    _ ≤ clock.2.countsPerSecond *
          max e.deadlineNs (clock.2.lastReportedNs + timerMinimumIntervalNs) := by
        refine Nat.mul_le_mul_left _ ?_
        omega

end

/-- What a call leaves: a programmable table, served if it was before. -/
structure Keeps (s t : TimerState) : Prop where
  steady : Steady s t
  programmable : Programmable t
  served : Served s → Served t

section
variable (tsc : Nat → Nat) {s t u : TimerState} {slot : Nat} {callback : Option Callback}

theorem Settles.keeps (settles : Settles s t) (programmable : Programmable s) : Keeps s t :=
  ⟨settles.toSteady, programmable.steady settles.toSteady settles.pending, .settles settles⟩

theorem Keeps.trans (first : Keeps s t) (second : Keeps t u) : Keeps s u :=
  ⟨first.steady.trans second.steady, second.programmable,
    fun served => second.served (first.served served)⟩

theorem reprogram_keeps (programmable : Programmable s) : Keeps s (reprogram tsc s).2 := by
  cases interrupts : s.interruptsEnabled with
  | true => exact (reprogram_refused tsc interrupts).1.keeps programmable
  | false =>
    obtain ⟨-, steady, served⟩ := reprogram_served tsc programmable interrupts
    have entries := (reprogram_frame tsc s).1
    exact ⟨steady, programmable.steady steady fun e here => ⟨entries ▸ here.1, here.2⟩,
      fun _ => served⟩

theorem placeEntry_steady (s : TimerState) (slot deadline : Nat) (callback : Option Callback) :
    Steady s (placeEntry s slot deadline callback) := { Steady.refl s with }

theorem placeEntry_programmable (programmable : Programmable s)
    (countable : Countable s.countsPerSecond s.lastReportedNs deadline)
    (room : s.lastReportedNs + timerMinimumIntervalNs ≤ deadline) :
    Programmable (placeEntry s slot deadline callback) := by
  have split : ∀ e, Pending (placeEntry s slot deadline callback) e →
      Pending s e ∨ e.deadlineNs = deadline := by
    intro e here
    obtain old | new := mem_or_eq_of_mem_set here.1
    · exact .inl ⟨old, here.2⟩
    · exact .inr (by rw [new])
  refine ⟨(placeEntry_steady s slot deadline callback).ready programmable.toReady, ?_, ?_⟩
  · intro e here
    obtain old | new := split e here
    · exact programmable.least e old
    · exact countable _ (le_refl _) room
  · intro e here
    obtain old | new := split e here
    · exact programmable.countable e old
    · exact new ▸ countable

/-- A refused entry is taken out again before anything else changed. -/
theorem clearSlot_placeEntry_settles
    (settles : Settles (placeEntry s slot deadline callback) t)
    (entries : t.entries = (placeEntry s slot deadline callback).entries) :
    Settles s (clearSlot t slot) := by
  have steady := (placeEntry_steady s slot deadline callback).trans
    (settles.toSteady.trans (clearSlot_settles t slot).toSteady)
  refine ⟨steady, ?_, settles.armed, settles.count, settles.armedAt⟩
  intro e here
  refine (clearSlot_settles s slot).pending e ⟨?_, here.2⟩
  have member := here.1
  simp only [clearSlot, entries, placeEntry, set_set] at member
  exact member

theorem timerArm_keeps {writable : Bool} (programmable : Programmable s)
    (countable : Countable s.countsPerSecond s.lastReportedNs deadline) :
    Keeps s (timerArm tsc s deadline callback writable).2.2 := by
  unfold timerArm
  split
  · exact (Settles.refl s).keeps programmable
  rw [programmable.started]
  simp only [Bool.not_true, Bool.false_eq_true, if_false]
  have read := (clockMonotonicNs_settles tsc s).keeps programmable
  have reported := clockMonotonicNs_reported tsc s
  generalize clockMonotonicNs tsc s = clock at read reported ⊢
  have countable : Countable clock.2.countsPerSecond clock.2.lastReportedNs deadline := by
    rw [read.steady.countsPerSecond]
    exact countable.later read.steady.lastReportedNs
  split
  · exact read
  rename_i valid
  split
  · exact read
  rename_i room
  have inside : freeSlot clock.2.entries < clock.2.entries.length :=
    lt_of_le_of_ne findIdx_le_length room
  refine read.trans ?_
  generalize freeSlot clock.2.entries = slot at inside ⊢
  have steady := placeEntry_steady clock.2 slot deadline callback
  have admitted := @placeEntry_programmable deadline _ slot callback read.programmable countable
    (by omega)
  have new : Pending (placeEntry clock.2 slot deadline callback)
      ⟨deadline, clock.2.nextIdentifier, callback, true⟩ := ⟨mem_set inside _, rfl⟩
  have undone := fun t => @clearSlot_placeEntry_settles deadline clock.2 t slot callback
  generalize placeEntry clock.2 slot deadline callback = next at steady admitted new undone ⊢
  cases interrupts : next.interruptsEnabled with
  | false =>
    obtain ⟨ok, programmed, served⟩ := reprogram_served tsc admitted interrupts
    rw [if_neg (not_not_intro ok)]
    exact ⟨steady.trans programmed, (reprogram_keeps tsc admitted).programmable, fun _ => served⟩
  | true =>
    obtain ⟨settles, failed⟩ := reprogram_refused tsc interrupts
    rw [if_pos fun ok => failed ok _ new]
    exact (undone _ settles (reprogram_frame tsc next).1).keeps read.programmable

theorem timerCancel_keeps {identifier : Nat} (programmable : Programmable s) :
    Keeps s (timerCancel tsc s identifier).2 := by
  unfold timerCancel
  rw [programmable.started]
  simp only [Bool.not_true, Bool.false_eq_true, if_false]
  split
  · exact (Settles.refl s).keeps programmable
  · have cleared := (clearSlot_settles s (slotOf s.entries identifier)).keeps programmable
    exact cleared.trans (reprogram_keeps tsc cleared.programmable)

/-- The deadlines of a callback's calls fit the count register at `now`. -/
def CallFits (rate now : Nat) : TimerCall → Prop
  | .arm deadline _ _ => Countable rate now deadline
  | .cancel _ => True

theorem CallFits.later (fits : CallFits rate now call) (advance : now ≤ now') :
    CallFits rate now' call := by
  cases call with
  | arm deadline callback writable => exact .later fits advance
  | cancel identifier => trivial

theorem performCall_keeps (programmable : Programmable s)
    (fits : CallFits s.countsPerSecond s.lastReportedNs call) :
    Keeps s (performCall tsc s call) := by
  cases call with
  | arm deadline callback writable => exact timerArm_keeps tsc programmable fits
  | cancel identifier => exact timerCancel_keeps tsc programmable

theorem script_keeps {script : List TimerCall} (programmable : Programmable s)
    (fits : ∀ call ∈ script, CallFits s.countsPerSecond s.lastReportedNs call) :
    Keeps s (script.foldl (performCall tsc) s) := by
  induction script generalizing s with
  | nil => exact (Settles.refl s).keeps programmable
  | cons call script ih =>
    have first := performCall_keeps tsc programmable (fits call mem_cons_self)
    refine first.trans (ih first.programmable fun later member => ?_)
    rw [first.steady.countsPerSecond]
    exact (fits later (.tail _ member)).later first.steady.lastReportedNs

/-- The deadlines armed by callbacks of an expiry fit the count register at `now`. -/
def ScriptsFit (rate now : Nat) (scripts : List (List TimerCall)) : Prop :=
  ∀ script ∈ scripts, ∀ call ∈ script, CallFits rate now call

theorem ScriptsFit.keeps (fit : ScriptsFit s.countsPerSecond s.lastReportedNs scripts)
    (keeps : Keeps s t) : ScriptsFit t.countsPerSecond t.lastReportedNs scripts := by
  intro script here call member
  rw [keeps.steady.countsPerSecond]
  exact (fit script here call member).later keeps.steady.lastReportedNs

theorem ScriptsFit.head (fit : ScriptsFit rate now scripts) :
    ∀ call ∈ scripts.headD [], CallFits rate now call := by
  cases scripts with
  | nil => exact forall_mem_nil _
  | cons script scripts => exact fit script mem_cons_self

theorem ScriptsFit.tail (fit : ScriptsFit rate now scripts) : ScriptsFit rate now scripts.tail :=
  fun script here => fit script (mem_of_mem_tail here)

theorem expireReached_keeps {fuel : Nat} (programmable : Programmable s)
    (fit : ScriptsFit s.countsPerSecond s.lastReportedNs scripts) :
    Keeps s (expireReached tsc now fuel scripts s).2 := by
  induction fuel generalizing s scripts with
  | zero => exact (Settles.refl s).keeps programmable
  | succ fuel ih =>
    unfold expireReached
    cases chooseDue s.entries now with
    | none => exact (Settles.refl s).keeps programmable
    | some chosen => ?_
    have cleared := (clearSlot_settles s chosen).keeps programmable
    refine cleared.trans ?_
    have fit := fit.keeps cleared
    dsimp only
    cases (s.entries.getD chosen emptyEntry).callback with
    | none => exact ih cleared.programmable fit
    | some callback =>
      cases callback with
      | sleep =>
        have marked : Keeps (clearSlot s chosen)
            { clearSlot s chosen with sleepExpired := true } :=
          Settles.keeps { Settles.refl (clearSlot s chosen) with } cleared.programmable
        exact marked.trans (ih marked.programmable (fit.keeps marked))
      | client pointer =>
        have called := script_keeps tsc cleared.programmable fit.head
        exact called.trans (ih called.programmable (fit.tail.keeps called))

/-- After the expiry handler the table is served, whatever was armed before. -/
theorem onExpiry_served (programmable : Programmable s) (interrupts : s.interruptsEnabled = false)
    (fit : ScriptsFit s.countsPerSecond s.lastReportedNs scripts) :
    Programmable (onExpiry tsc scripts s) ∧ Served (onExpiry tsc scripts s) := by
  have read := (clockMonotonicNs_settles tsc s).keeps programmable
  have expired := read.trans (@expireReached_keeps (clockMonotonicNs tsc s).1 _ tsc _
    (clockMonotonicNs tsc s).2.entries.length read.programmable (fit.keeps read))
  unfold onExpiry
  dsimp only
  generalize expireReached tsc _ _ scripts _ = result at expired ⊢
  have counted : Keeps result.2 { result.2 with
      expiryCounter := (result.2.expiryCounter + result.1) % 2 ^ 64 } :=
    Settles.keeps { Settles.refl result.2 with } expired.programmable
  have off := (expired.trans counted).steady.interruptsEnabled.trans interrupts
  exact ⟨(reprogram_keeps tsc counted.programmable).programmable,
    (reprogram_served tsc counted.programmable off).2.2⟩

end

section
variable (tsc : Nat → Nat) {s : TimerState} {entries : List TimerEntry} {bound slot : Nat}

/-- The slots a turn of `expire_reached` may choose. -/
def due (now : Nat) (entries : List TimerEntry) : Finset Nat :=
  (Finset.range entries.length).filter fun slot =>
    (entries.getD slot emptyEntry).inUse ∧ (entries.getD slot emptyEntry).deadlineNs ≤ now

theorem due_set {entry : TimerEntry} (new : entry.inUse → now < entry.deadlineNs) :
    due now (entries.set slot entry) = (due now entries).erase slot := by
  ext other
  simp only [due, Finset.mem_filter, Finset.mem_range, Finset.mem_erase, length_set]
  grind

theorem chooseDue_mem (found : chooseDue entries now = some slot) : slot ∈ due now entries := by
  have turns := foldlRecOn (motive := fun found => ∀ slot ∈ found, slot ∈ due now entries)
    (List.range entries.length) (chooseTurn entries now) (b := none) nofun
    fun before kept index inside => by
      simp only [due, Finset.mem_filter, Finset.mem_range] at kept ⊢
      unfold chooseTurn
      grind
  exact turns slot found

theorem performCall_due (reported : now ≤ s.lastReportedNs) (call : TimerCall) :
    now ≤ (performCall tsc s call).lastReportedNs ∧
      due now (performCall tsc s call).entries ⊆ due now s.entries := by
  have frame := reprogram_frame tsc
  have advance := (clockMonotonicNs_settles tsc s).lastReportedNs
  have same : (clockMonotonicNs tsc s).2.entries = s.entries := rfl
  have read := clockMonotonicNs_reported tsc s
  cases call with
  | arm deadline callback writable =>
    unfold performCall timerArm
    generalize clockMonotonicNs tsc s = clock at *
    grind [placeEntry, clearSlot, due_set, timerMinimumIntervalNs, emptyEntry, Finset.erase_subset]
  | cancel identifier =>
    unfold performCall timerCancel
    grind [clearSlot, due_set, emptyEntry, Finset.erase_subset]

/-- A turn for each slot that is due is enough: the loop ends because none is. -/
theorem expireReached_done (reported : now ≤ s.lastReportedNs)
    (enough : (due now s.entries).card ≤ bound) :
    chooseDue (expireReached tsc now bound scripts s).2.entries now = none := by
  induction bound generalizing s scripts with
  | zero =>
    have none := Finset.card_eq_zero.mp (Nat.le_zero.mp enough)
    refine Option.eq_none_iff_forall_ne_some.mpr fun chosen found => ?_
    exact Finset.notMem_empty chosen (none ▸ chooseDue_mem found)
  | succ bound ih =>
    unfold expireReached
    cases found : chooseDue s.entries now with
    | none => exact found
    | some chosen => ?_
    have fewer : (due now (clearSlot s chosen).entries).card ≤ bound := by
      rw [clearSlot, due_set (fun used => by cases used), Finset.card_erase_of_mem (chooseDue_mem found)]
      omega
    dsimp only
    split
    · exact ih reported fewer
    · exact ih reported fewer
    · have called := foldlRecOn (motive := fun t : TimerState => now ≤ t.lastReportedNs ∧
        (due now t.entries).card ≤ bound) (scripts.headD []) (performCall tsc)
        (b := clearSlot s chosen) ⟨reported, fewer⟩ fun t before call _ =>
          have step := performCall_due tsc before.1 call
          ⟨step.1, (Finset.card_le_card step.2).trans before.2⟩
      exact ih called.1 called.2

/-- So the bound of `on_expiry` suffices: nothing that was due when it read the clock is left. -/
theorem onExpiry_done (s : TimerState) :
    chooseDue (onExpiry tsc scripts s).entries (clockMonotonicNs tsc s).1 = none := by
  rw [onExpiry, (reprogram_frame tsc _).1]
  exact expireReached_done tsc (le_refl _)
    ((Finset.card_filter_le _ _).trans_eq (Finset.card_range _))

end

structure Covered (s : TimerState) : Prop extends Programmable s where
  served : Served s

section
variable (tsc : Nat → Nat) {s t : TimerState}

section
variable (covered : Covered s)
include covered

theorem Covered.keeps (keeps : Keeps s t) : Covered t :=
  ⟨keeps.programmable, keeps.served covered.served⟩

/-- The interrupt flag and the sleep in progress do not matter to the table. -/
theorem Covered.flags (interrupts expired : Bool)
    (sleeper : Option (Nat × Nat)) :
    Covered { s with
      interruptsEnabled := interrupts, sleepExpired := expired, sleeper := sleeper } :=
  { covered with }

theorem apicTimerHandler_covered (fit : ScriptsFit s.countsPerSecond s.lastReportedNs scripts) :
    Covered (apicTimerHandler tsc scripts s) := by
  unfold apicTimerHandler
  split
  · have fired : Programmable { s with armed := false, interruptsEnabled := false } :=
      { covered.toProgrammable with }
    obtain ⟨programmable, served⟩ := onExpiry_served tsc fired rfl fit
    exact .flags ⟨programmable, served⟩ _ _ _
  · exact covered

theorem timerSleepNs_covered {nanoseconds : Nat}
    (fits : Countable s.countsPerSecond 0 nanoseconds) :
    Covered (timerSleepNs tsc s nanoseconds).2 := by
  unfold timerSleepNs
  rw [covered.started]
  simp only [Bool.not_true, Bool.false_eq_true, if_false]
  split
  · exact covered
  have read := (clockMonotonicNs_settles tsc s).keeps covered.toProgrammable
  have reported := clockMonotonicNs_reported tsc s
  generalize clockMonotonicNs tsc s = clock at read reported ⊢
  have cleared := (covered.keeps read).flags clock.2.interruptsEnabled false clock.2.sleeper
  have countable : Countable clock.2.countsPerSecond clock.2.lastReportedNs
      ((clock.1 + nanoseconds) % 2 ^ 64) := by
    intro interval least bound
    rw [read.steady.countsPerSecond]
    exact fits interval least (by omega)
  have armed := cleared.keeps (@timerArm_keeps _ tsc _ (some .sleep) true
    cleared.toProgrammable countable)
  split
  · exact armed
  · exact armed.flags _ _ _

theorem sleepTurn_covered : Covered (sleepTurn tsc s).2 := by
  unfold sleepTurn
  cases s.sleeper with
  | none => exact covered
  | some sleeping =>
    dsimp only
    split
    · exact covered.flags _ _ _
    have read := covered.keeps ((clockMonotonicNs_settles tsc s).keeps covered.toProgrammable)
    have cancelled := read.keeps
      (@timerCancel_keeps tsc _ sleeping.1 read.toProgrammable)
    split
    · exact cancelled.flags _ _ _
    · split
      · exact cancelled.flags _ _ _
      · exact read.flags _ _ _

end

/-- The deadlines of an event fit the count register, counted from the last clock reading. -/
def EventFits (s : TimerState) : TimerEvent → Prop
  | .arm deadline _ _ _ => Countable s.countsPerSecond s.lastReportedNs deadline
  | .sleep nanoseconds _ => Countable s.countsPerSecond 0 nanoseconds
  | .interrupt scripts => ScriptsFit s.countsPerSecond s.lastReportedNs scripts
  | .cancel _ _ => True
  | .sleepTurn => True

theorem timerStep_covered (event : TimerEvent) (covered : Covered s) (fits : EventFits s event) :
    Covered (timerStep tsc s event).2 := by
  have called := fun interrupts => covered.flags interrupts s.sleepExpired s.sleeper
  cases event with
  | arm deadline callback writable interrupts =>
    exact (called interrupts).keeps (timerArm_keeps tsc (called interrupts).toProgrammable fits)
  | cancel identifier interrupts =>
    exact (called interrupts).keeps (timerCancel_keeps tsc (called interrupts).toProgrammable)
  | sleep nanoseconds interrupts => exact timerSleepNs_covered tsc (called interrupts) fits
  | sleepTurn => exact sleepTurn_covered tsc covered
  | interrupt scripts => exact apicTimerHandler_covered tsc covered fits

end

/-- If a deadline is pending, the hardware is armed with a count that runs out no later
than the earliest one, or than the minimum interval from now. -/
def DeadlineArmed (s : TimerState) : Prop :=
  ∀ deadline, earliestDeadline s.entries = some deadline → s.armed ∧
    s.countsPerSecond * s.armedAt + nanosecondsPerSecond * s.count ≤
      s.countsPerSecond * max deadline (s.lastReportedNs + timerMinimumIntervalNs)

theorem Served.deadlineArmed (served : Served s) : DeadlineArmed s := by
  intro deadline here
  obtain ⟨⟨e, pending, named⟩, -⟩ := earliestDeadline_some here
  exact named ▸ served e pending

structure Fresh (s : TimerState) : Prop extends Ready s where
  vacant : ∀ e ∈ s.entries, e.inUse = false

theorem Fresh.covered (fresh : Fresh s) : Covered s := by
  have none : ∀ e, ¬ Pending s e := fun e here =>
    absurd here.2 (by simp [fresh.vacant e here.1])
  exact ⟨⟨fresh.toReady, fun e here => absurd here (none e), fun e here => absurd here (none e)⟩,
    fun e here => absurd here (none e)⟩

/-- As long as every deadline that is armed fits the count register, also by the time
the ones before it are gone, no pending deadline is ever without hardware. -/
theorem pending_deadline_is_armed (tsc : Nat → Nat) (s : TimerState) (fresh : Fresh s)
    (events : List TimerEvent)
    (fits : Along (fun s event => (timerStep tsc s event).2) EventFits s events) :
    Throughout (fun s event => (timerStep tsc s event).2) DeadlineArmed s events := by
  intro done before
  have covered := throughout_of_along _ Covered EventFits
    (fun s event covered fits => timerStep_covered tsc event covered fits) events s fresh.covered
    fits done before
  exact covered.served.deadlineArmed

def startedTimer : TimerState where
  entries := List.replicate timerMaxPending emptyEntry
  nextIdentifier := 1
  expiryCounter := 0
  started := true
  sleepExpired := false
  sleeper := none
  online := true
  calibrated := true
  running := false
  oneshotReady := true
  readbackMatches := true
  countsPerSecond := 62500000
  armed := false
  count := 0
  armedAt := 0
  lastReportedNs := 0
  clockReads := 0
  interruptsEnabled := false

theorem startedTimer_fresh : Fresh startedTimer :=
  ⟨⟨rfl, rfl, rfl, rfl, rfl, rfl⟩, fun _ member => by rw [eq_of_mem_replicate member]; rfl⟩

/-- On that clock every interval below a second can be counted. -/
theorem second_countable (now : Nat) (soon : deadline < nanosecondsPerSecond) :
    Countable 62500000 now deadline := by
  intro interval least bound
  have small : interval < 1000000000 := lt_of_le_of_lt (by omega) soon
  have product : interval * 62500000 % 2 ^ 64 = interval * 62500000 :=
    mod_eq_of_lt (by omega)
  have count : interval * 62500000 / 1000000000 % 2 ^ 64 = interval / 16 := by omega
  have counted : countForNanoseconds 62500000 interval = some (interval / 16) := by
    simp only [countForNanoseconds, nanosecondsPerSecond, div_eq_of_lt small,
      mod_eq_of_lt small, product, zero_mul, zero_mod, zero_add, count]
    unfold timerMinimumIntervalNs at least
    rw [if_neg (by omega), if_neg (by omega), if_neg (by unfold apicTimerMaxCount; omega)]
  rw [counted]
  rfl

/-- A deadline of a millisecond whose callback arms the next one: the table is never
without hardware. -/
theorem pending_deadline_is_armed_rearm :
    Fresh startedTimer ∧ Throughout (fun s event => (timerStep (fun n => n * 1000000) s event).2)
      DeadlineArmed startedTimer
      [.arm 1000000 (some (.client 0)) true false,
        .interrupt [[.arm 3000000 (some (.client 0)) true]]] := by
  refine ⟨startedTimer_fresh, pending_deadline_is_armed _ _ startedTimer_fresh _ ⟨?_, ?_, trivial⟩⟩
  · exact second_countable _ (by decide)
  · intro script here call member
    obtain rfl := mem_singleton.mp here
    obtain rfl := mem_singleton.mp member
    exact second_countable _ (by decide)

/-- A deadline two minutes off is accepted behind a near one. When the near one expires
the hardware refuses the count, and the deadline stays pending with nothing armed. -/
theorem far_deadline_left_unarmed :
    let step := fun s event => timerStep (fun n => n * 1000000) s event
    let near := step startedTimer (.arm 2000000 (some (.client 0)) true false)
    let far := step near.2 (.arm 120000000000 (some (.client 0)) true false)
    let expired := step far.2 (.interrupt [])
    near.1 = some .ok ∧ far.1 = some .ok ∧ DeadlineArmed far.2 ∧
      earliestDeadline expired.2.entries = some 120000000000 ∧ ¬ DeadlineArmed expired.2 := by
  intro step near far expired
  have pending : earliestDeadline expired.2.entries = some 120000000000 := by decide +kernel
  refine ⟨by decide +kernel, by decide +kernel, ?_, pending, ?_⟩
  · intro deadline here
    have nearest : earliestDeadline far.2.entries = some 2000000 := by decide +kernel
    obtain rfl := Option.some.inj (nearest.symm.trans here)
    decide +kernel
  · intro armed
    have bare : expired.2.armed = false := by decide +kernel
    exact absurd (armed _ pending).1 (by simp [bare])

end Sapote.Timer
