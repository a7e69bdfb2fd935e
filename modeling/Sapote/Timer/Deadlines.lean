import Mathlib.Algebra.Group.Nat.Defs
import Mathlib.Data.List.Basic

/-!
The pending-deadline table of `timer.c` over the one-shot local APIC timer of
`apic_timer.c`. The n-th reading of the time-stamp counter is an arbitrary value
`tsc n`; the monotonic clock repairs readings that go back. Callbacks may do any
sequence of `timer_arm` and `timer_cancel` calls.
-/

namespace Sapote.Timer

def timerMaxPending : Nat := 32
def timerMinimumIntervalNs : Nat := 100000
def timerSleepGraceNs : Nat := 50000000
def nanosecondsPerSecond : Nat := 1000000000
def apicTimerMaxCount : Nat := 0xFFFFFFFF

inductive TimerStatus where
  | ok | nullArgument | notStarted | alreadyStarted | noClock | noCapacity | noMemory | badInterval
  | unknownTimer | hardwareFailure | expiredLate
  deriving DecidableEq

inductive ApicTimerStatus where
  | ok | apicOffline | interruptsEnabled | notCalibrated | alreadyRunning | alreadyArmed
  | interruptFailure | badInterval | readbackMismatch | notArmed
  deriving DecidableEq

inductive Callback where
  | sleep
  | client (pointer : Nat)
  deriving DecidableEq

structure TimerEntry where
  (deadlineNs identifier : Nat)
  callback : Option Callback
  inUse : Bool
  deriving DecidableEq

def emptyEntry : TimerEntry := ⟨0, 0, none, false⟩

/-- The statics of both files, the clock, and the processor's interrupt flag.
`armedAt` is the clock reading the programmed count was computed from; the code
does not keep it. `sleeper` is the sleep in progress: its identifier and the
instant at which it gives up. -/
structure TimerState where
  entries : List TimerEntry
  (nextIdentifier expiryCounter : Nat)
  (started sleepExpired : Bool)
  sleeper : Option (Nat × Nat)
  (online calibrated running oneshotReady readbackMatches : Bool)
  countsPerSecond : Nat
  armed : Bool
  (count armedAt lastReportedNs clockReads : Nat)
  interruptsEnabled : Bool

/-- The count for an interval, with the 64-bit arithmetic of the source. -/
def countForNanoseconds (rate nanoseconds : Nat) : Option Nat :=
  if rate = 0 ∨ nanoseconds = 0 then none
  else if apicTimerMaxCount / rate < nanoseconds / nanosecondsPerSecond then none
  else
    let requested := (nanoseconds / nanosecondsPerSecond * rate % 2 ^ 64 +
      nanoseconds % nanosecondsPerSecond * rate % 2 ^ 64 / nanosecondsPerSecond) % 2 ^ 64
    if requested = 0 ∨ apicTimerMaxCount < requested then none else some requested

def apicTimerArmOneshot (state : TimerState) (nanoseconds now : Nat) :
    ApicTimerStatus × TimerState :=
  if !state.online then (.apicOffline, state)
  else if state.interruptsEnabled then (.interruptsEnabled, state)
  else if !state.calibrated then (.notCalibrated, state)
  else if state.running then (.alreadyRunning, state)
  else if state.armed then (.alreadyArmed, state)
  else if !state.oneshotReady then (.interruptFailure, state)
  else
    match countForNanoseconds state.countsPerSecond nanoseconds with
    | none => (.badInterval, state)
    | some count =>
      if !state.readbackMatches then (.readbackMismatch, { state with count := 0 })
      else (.ok, { state with armed := true, count := count, armedAt := now })

def apicTimerDisarm (state : TimerState) : ApicTimerStatus × TimerState :=
  if state.interruptsEnabled then (.interruptsEnabled, state)
  else if !state.armed then (.notArmed, state)
  else (.ok, { state with armed := false, count := 0 })

section
variable (tsc : Nat → Nat)

def clockMonotonicNs (state : TimerState) : Nat × TimerState :=
  let candidate := tsc state.clockReads
  let reported := if candidate < state.lastReportedNs then state.lastReportedNs else candidate
  (reported, { state with lastReportedNs := reported, clockReads := state.clockReads + 1 })

end

def slotOf (entries : List TimerEntry) (identifier : Nat) : Nat :=
  if identifier = 0 then entries.length
  else entries.findIdx fun entry => entry.inUse && entry.identifier == identifier

def freeSlot (entries : List TimerEntry) : Nat := entries.findIdx fun entry => !entry.inUse

def earliestDeadline (entries : List TimerEntry) : Option Nat :=
  entries.foldl (fun found entry =>
    if !entry.inUse then found
    else
      match found with
      | none => some entry.deadlineNs
      | some deadline =>
        if entry.deadlineNs < deadline then some entry.deadlineNs else some deadline) none

def chooseTurn (entries : List TimerEntry) (now : Nat) (chosen : Option Nat) (index : Nat) :
    Option Nat :=
  let entry := entries.getD index emptyEntry
  if !entry.inUse ∨ now < entry.deadlineNs then chosen
  else
    match chosen with
    | none => some index
    | some best =>
      if entry.deadlineNs < (entries.getD best emptyEntry).deadlineNs then some index
      else some best

def chooseDue (entries : List TimerEntry) (now : Nat) : Option Nat :=
  (List.range entries.length).foldl (chooseTurn entries now) none

section
variable (tsc : Nat → Nat)

def reprogram (state : TimerState) : TimerStatus × TimerState :=
  let disarmed :=
    if state.armed then apicTimerDisarm state else (ApicTimerStatus.ok, state)
  if disarmed.1 ≠ .ok then (.hardwareFailure, disarmed.2)
  else
    match earliestDeadline disarmed.2.entries with
    | none => (.ok, disarmed.2)
    | some deadline =>
      let clock := clockMonotonicNs tsc disarmed.2
      let interval := if clock.1 < deadline then deadline - clock.1 else 0
      let interval := if interval < timerMinimumIntervalNs then timerMinimumIntervalNs
        else interval
      let armed := apicTimerArmOneshot clock.2 interval clock.1
      if armed.1 ≠ .ok then (.hardwareFailure, armed.2) else (.ok, armed.2)

def clearSlot (state : TimerState) (slot : Nat) : TimerState :=
  { state with entries := state.entries.set slot emptyEntry }

def placeEntry (state : TimerState) (slot deadline : Nat) (callback : Option Callback) : TimerState :=
  { state with
    entries := state.entries.set slot ⟨deadline, state.nextIdentifier, callback, true⟩
    nextIdentifier := (state.nextIdentifier + 1) % 2 ^ 64 }

/-- The status and the identifier handed out; `writable` is a non-null `identifier`. -/
def timerArm (state : TimerState) (deadline : Nat) (callback : Option Callback)
    (writable : Bool) : TimerStatus × Nat × TimerState :=
  if callback.isNone ∨ !writable then (.nullArgument, 0, state)
  else if !state.started then (.notStarted, 0, state)
  else
    let clock := clockMonotonicNs tsc state
    let state := clock.2
    if deadline < clock.1 ∨ deadline - clock.1 < timerMinimumIntervalNs then
      (.badInterval, 0, state)
    else
      let slot := freeSlot state.entries
      if slot = state.entries.length then (.noCapacity, 0, state)
      else
        let programmed := reprogram tsc (placeEntry state slot deadline callback)
        if programmed.1 ≠ .ok then (.hardwareFailure, 0, clearSlot programmed.2 slot)
        else (.ok, state.nextIdentifier, programmed.2)

def timerCancel (state : TimerState) (identifier : Nat) : TimerStatus × TimerState :=
  let slot := slotOf state.entries identifier
  if !state.started then (.notStarted, state)
  else if slot = state.entries.length then (.unknownTimer, state)
  else reprogram tsc (clearSlot state slot)

inductive TimerCall where
  | arm (deadline : Nat) (callback : Option Callback) (writable : Bool)
  | cancel (identifier : Nat)

def performCall (state : TimerState) : TimerCall → TimerState
  | .arm deadline callback writable => (timerArm tsc state deadline callback writable).2.2
  | .cancel identifier => (timerCancel tsc state identifier).2

/-- The loop of `expire_reached`. The k-th client callback it runs makes the k-th
list of calls. Every turn releases a reached deadline and no call adds one, so
`fuel` turns are enough for a table of that many entries. -/
def expireReached (now : Nat) : (fuel : Nat) → List (List TimerCall) → TimerState →
    Nat × TimerState
  | 0, _, state => (0, state)
  | fuel + 1, scripts, state =>
    match chooseDue state.entries now with
    | none => (0, state)
    | some chosen =>
      let due := state.entries.getD chosen emptyEntry
      let state := clearSlot state chosen
      let rest :=
        match due.callback with
        | none => expireReached now fuel scripts state
        | some .sleep => expireReached now fuel scripts { state with sleepExpired := true }
        | some (.client _) =>
          expireReached now fuel scripts.tail ((scripts.headD []).foldl (performCall tsc) state)
      (rest.1 + 1, rest.2)

def onExpiry (scripts : List (List TimerCall)) (state : TimerState) : TimerState :=
  let clock := clockMonotonicNs tsc state
  let expired := expireReached tsc clock.1 clock.2.entries.length scripts clock.2
  (reprogram tsc { expired.2 with
    expiryCounter := (expired.2.expiryCounter + expired.1) % 2 ^ 64 }).2

def apicTimerHandler (scripts : List (List TimerCall)) (state : TimerState) : TimerState :=
  if state.armed then
    { onExpiry tsc scripts { state with armed := false, interruptsEnabled := false } with
      interruptsEnabled := state.interruptsEnabled }
  else state

/-- `timer_sleep_ns` up to its loop. It returns only when the deadline was refused. -/
def timerSleepNs (state : TimerState) (nanoseconds : Nat) : Option TimerStatus × TimerState :=
  if !state.started then (some .notStarted, state)
  else if nanoseconds < timerMinimumIntervalNs then (some .badInterval, state)
  else
    let clock := clockMonotonicNs tsc state
    let deadline := (clock.1 + nanoseconds) % 2 ^ 64
    let abandon := (deadline + nanoseconds + timerSleepGraceNs) % 2 ^ 64
    let armed := timerArm tsc { clock.2 with sleepExpired := false } deadline (some .sleep) true
    if armed.1 ≠ .ok then (some armed.1, armed.2.2)
    else (none, { armed.2.2 with sleeper := some (armed.2.1, abandon) })

def sleepTurn (state : TimerState) : Option TimerStatus × TimerState :=
  match state.sleeper with
  | none => (none, state)
  | some (identifier, abandon) =>
    if state.sleepExpired then
      (some .ok, { state with sleeper := none, interruptsEnabled := false })
    else
      let clock := clockMonotonicNs tsc state
      if abandon < clock.1 then
        (some .expiredLate, { (timerCancel tsc clock.2 identifier).2 with sleeper := none })
      else if !clock.2.armed then
        (some .hardwareFailure, { (timerCancel tsc clock.2 identifier).2 with sleeper := none })
      else (none, { clock.2 with interruptsEnabled := true })

/-- What happens to the timers, with the interrupt flag a caller has. -/
inductive TimerEvent where
  | arm (deadline : Nat) (callback : Option Callback) (writable interrupts : Bool)
  | cancel (identifier : Nat) (interrupts : Bool)
  | sleep (nanoseconds : Nat) (interrupts : Bool)
  | sleepTurn
  | interrupt (scripts : List (List TimerCall))

def timerStep (state : TimerState) : TimerEvent → Option TimerStatus × TimerState
  | .arm deadline callback writable interrupts =>
    let armed := timerArm tsc { state with interruptsEnabled := interrupts } deadline callback
      writable
    (some armed.1, armed.2.2)
  | .cancel identifier interrupts =>
    let cancelled := timerCancel tsc { state with interruptsEnabled := interrupts } identifier
    (some cancelled.1, cancelled.2)
  | .sleep nanoseconds interrupts =>
    timerSleepNs tsc { state with interruptsEnabled := interrupts } nanoseconds
  | .sleepTurn => sleepTurn tsc state
  | .interrupt scripts => (none, apicTimerHandler tsc scripts state)

end

theorem clockMonotonicNs_advances (tsc : Nat → Nat) {s : TimerState} :
    s.lastReportedNs ≤ (clockMonotonicNs tsc s).2.lastReportedNs := by
  simp only [clockMonotonicNs]
  split <;> omega

end Sapote.Timer
