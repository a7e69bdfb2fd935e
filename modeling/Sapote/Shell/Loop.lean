import Sapote.Library.Run
import Sapote.Shell.Input

/-!
The loop of `shell_run` between two halts, at the boundaries where an interrupt can come in.
What the loop computes from an event, draws and prints is left open: it touches neither queue
nor the interrupt flag, and what it decides is an argument of the step.
-/

namespace Sapote.Shell
open Library (Along throughout_of_along)

inductive Section where
  | keyboardRead
  | publish (event : UiEvent)
  | popEvent
  deriving DecidableEq

inductive Answer where
  | key (event : KeyboardEvent)
  | keyboardEmpty
  | published (taken : Bool)
  | popped (event : UiEvent)
  | eventsEmpty
  deriving DecidableEq

/-- Where the processor stands. The first five are one bracket: the flag is read, interrupts
are disabled if they were enabled, the queue is used, `sti` is executed if they were enabled,
and `ret`. -/
inductive Location where
  | flag (part : Section)
  | disable (part : Section) (enabled : Bool)
  | critical (part : Section) (enabled : Bool)
  | enable (enabled : Bool) (answer : Answer)
  | leave (answer : Answer)
  | feed (character : UInt8)
  | uiEntry
  | apply (event : UiEvent)
  | render | flush | disableUi | sti | hlt | halted | wake
  deriving DecidableEq

structure State where
  keyboard : Keyboard
  events : UiEvents
  uiActive : Bool
  activePanel : UiPanel
  (uiOperational interruptFlag : Bool)
  /-- The instruction after an `sti` that set the flag has not been executed. -/
  shadow : Bool
  location : Location
  deriving DecidableEq

/-- What the user interface decides in a step: whether it succeeds, and which panel is active
afterwards. -/
structure Decision where
  ok : Bool
  panel : UiPanel
  deriving DecidableEq

def State.goto (s : State) (location : Location) : State := { s with location := location, shadow := false }

def uiEventFor (event : KeyboardEvent) : Option UiEvent :=
  if event.scancode = 0x0F then
    some ⟨if event.shift then .keyboardFocusPrevious else .keyboardFocusNext, 0, 0, .none⟩
  else if event.scancode = 0x1C then some ⟨.keyboardActivation, 0, 0, .none⟩
  else if event.scancode = 0x01 then some ⟨.panelClose, 0, 0, .none⟩
  else none

def dispatch (s : State) (event : KeyboardEvent) : Location :=
  if !event.pressed then .flag .keyboardRead
  else if s.uiOperational && (event.scancode = 0x0F || event.scancode = 0x01 ||
      (event.scancode = 0x1C && s.activePanel ≠ .terminal)) then
    match uiEventFor event with
    | some uiEvent => if s.uiActive then .flag (.publish uiEvent) else .flag .keyboardRead
    | none => .flag .keyboardRead
  else if event.character ≠ 0 && (!s.uiOperational || s.activePanel = .terminal) then .feed event.character
  else .flag .keyboardRead

def useQueue (s : State) (part : Section) (enabled : Bool) : State :=
  match part with
  | .keyboardRead =>
    match s.keyboard.queue with
    | [] => s.goto (.enable enabled .keyboardEmpty)
    | event :: rest =>
      { s with keyboard := { s.keyboard with queue := rest } }.goto (.enable enabled (.key event))
  | .publish event =>
    let published := uiEventPublish s.events (some (.ok event))
    { s with events := published.2 }.goto (.enable enabled (.published (published.1 = UiStatus.ok)))
  | .popEvent =>
    match s.events.queue with
    | [] => s.goto (.enable enabled .eventsEmpty)
    | event :: _ =>
      { s with events := (popEvent s.events).2 }.goto (.enable enabled (.popped event))

def resume (s : State) : Answer → State
  | .key event => s.goto (dispatch s event)
  | .keyboardEmpty => s.goto .uiEntry
  | .published taken => { s with uiOperational := s.uiOperational && taken }.goto (.flag .keyboardRead)
  | .popped event => s.goto (.apply event)
  | .eventsEmpty => s.goto .render

/-- `sti`, which holds interrupts off for one more instruction if they were off. -/
def State.setInterruptFlag (s : State) (location : Location) : State :=
  { s with interruptFlag := true, shadow := !s.interruptFlag, location := location }

def advance (s : State) (decision : Decision) : State :=
  match s.location with
  | .flag .keyboardRead =>
    if s.keyboard.active then s.goto (.disable .keyboardRead s.interruptFlag)
    else s.goto (.leave .keyboardEmpty)
  | .flag part => s.goto (.disable part s.interruptFlag)
  | .disable part enabled =>
    { s with interruptFlag := s.interruptFlag && !enabled }.goto (.critical part enabled)
  | .critical part enabled => useQueue s part enabled
  | .enable true answer => s.setInterruptFlag (.leave answer)
  | .enable false answer => s.goto (.leave answer)
  | .leave answer => resume s answer
  | .feed _ => s.goto (.flag .keyboardRead)
  | .uiEntry =>
    if !s.uiOperational then s.goto .sti
    else if s.uiActive then s.goto (.flag .popEvent)
    else s.goto .disableUi
  | .apply _ =>
    { s with activePanel := decision.panel }.goto (if decision.ok then .flag .popEvent else .disableUi)
  | .render => s.goto (if decision.ok then .flush else .disableUi)
  | .flush => s.goto (if decision.ok then .sti else .disableUi)
  | .disableUi => { s with uiOperational := false }.goto .sti
  | .sti => s.setInterruptFlag .hlt
  | .hlt => s.goto .halted
  | .halted => s
  | .wake => s.goto (.flag .keyboardRead)

inductive Interrupt where
  | keyboard (bytes : List UInt8)
  | pointer (events : List UiEvent)
  | other
  deriving DecidableEq

def pointerInterrupt (queue : UiEvents) (events : List UiEvent) : UiEvents :=
  events.foldl (fun queue event => (uiEventPublish queue (some (.ok event))).2) queue

/-- Handlers run with interrupts disabled and return to the flag as it was. -/
def handle (s : State) : Interrupt → State
  | .keyboard bytes => { s with keyboard := keyboardInterrupt s.keyboard bytes }
  | .pointer events => { s with events := pointerInterrupt s.events events }
  | .other => s

def deliver (s : State) (interrupt : Interrupt) : State :=
  let s := handle s interrupt
  if s.location = .halted then { s with location := .wake } else s

inductive Event where
  | run (decision : Decision)
  | interrupt (interrupt : Interrupt)
  deriving DecidableEq

def step (s : State) : Event → State
  | .run decision => advance s decision
  | .interrupt interrupt => deliver s interrupt

/-- An interrupt is delivered where the flag is set and no `sti` has just set it; the
keyboard's handler is there once the keyboard is initialized. -/
def deliverable (s : State) : Event → Bool
  | .run _ => true
  | .interrupt (.keyboard _) => s.interruptFlag && !s.shadow && s.keyboard.active
  | .interrupt _ => s.interruptFlag && !s.shadow

/-- The entry of `shell_run`, with whatever waits in the queues and with interrupts on or off. -/
structure Entry (s : State) : Prop where
  location : s.location = .flag .keyboardRead
  operational : s.uiOperational = s.uiActive
  shadow : s.shadow = false
  inactive : s.keyboard.active = false → s.keyboard.queue = []

section
variable {s : State}

/-- In this pass the keyboard's queue has been found empty. -/
def Location.keysRead : Location → Bool
  | .enable _ .keyboardEmpty | .leave .keyboardEmpty => true
  | .flag .popEvent | .disable .popEvent _ | .critical .popEvent _ => true
  | .enable _ (.popped _) | .leave (.popped _) | .enable _ .eventsEmpty | .leave .eventsEmpty => true
  | .uiEntry | .apply _ | .render | .flush | .disableUi | .sti | .hlt => true
  | _ => false

/-- In this pass the queue of the user interface has been found empty, unless it is out of use. -/
def Location.eventsRead : Location → Bool
  | .enable _ .eventsEmpty | .leave .eventsEmpty => true
  | .render | .flush | .sti | .hlt => true
  | _ => false

/-- Nothing comes into a queue between the look that finds it empty and the halt. -/
def timely (s : State) : Event → Bool
  | .run _ => true
  | .interrupt (.keyboard bytes) => !s.location.keysRead || bytes.all fun b => b = extendedCode
  | .interrupt (.pointer events) => !s.location.eventsRead || !s.uiOperational || events.isEmpty
  | .interrupt .other => true

structure Settled (s : State) : Prop where
  keys : s.location.keysRead → s.keyboard.queue = []
  events : s.location.eventsRead → s.uiOperational → s.events.queue = []
  inactive : s.keyboard.active = false → s.keyboard.queue = []

theorem Entry.settled (entry : Entry s) : Settled s where
  keys now := by
    rw [entry.location] at now
    cases now
  events now := by
    rw [entry.location] at now
    cases now
  inactive := entry.inactive

section
variable (settled : Settled s)
include settled

/-- A bracket that looks at a queue and finds it empty says so. -/
theorem Settled.useQueue {part : Section} {enabled : Bool}
    (here : s.location = .critical part enabled) : Settled (useQueue s part enabled) := by
  obtain ⟨keys, -, inactive⟩ := settled
  rw [here] at keys
  cases part with
  | keyboardRead =>
    rw [Shell.useQueue]
    split
    · next empty => exact ⟨fun _ => empty, nofun, fun _ => empty⟩
    · next event rest more =>
        refine ⟨nofun, nofun, fun off => ?_⟩
        rw [inactive off] at more
        cases more
  | publish event => exact ⟨nofun, nofun, inactive⟩
  | popEvent =>
    rw [Shell.useQueue]
    split
    · next empty => exact ⟨fun _ => keys rfl, fun _ _ => empty, inactive⟩
    · exact ⟨fun _ => keys rfl, nofun, inactive⟩

theorem Settled.resume {answer : Answer} (here : s.location = .leave answer) :
    Settled (resume s answer) := by
  obtain ⟨keys, events, inactive⟩ := settled
  rw [here] at keys events
  cases answer with
  | key event =>
    have again : (dispatch s event).keysRead = false ∧ (dispatch s event).eventsRead = false := by
      rw [dispatch]
      split
      · exact ⟨rfl, rfl⟩
      split
      · split
        · split <;> exact ⟨rfl, rfl⟩
        · exact ⟨rfl, rfl⟩
      split <;> exact ⟨rfl, rfl⟩
    exact ⟨fun now => absurd (again.1.symm.trans now) nofun, fun now => absurd (again.2.symm.trans now) nofun,
      inactive⟩
  | keyboardEmpty => exact ⟨fun _ => keys rfl, nofun, inactive⟩
  | published taken => exact ⟨nofun, nofun, inactive⟩
  | popped event => exact ⟨fun _ => keys rfl, nofun, inactive⟩
  | eventsEmpty => exact ⟨fun _ => keys rfl, fun _ => events rfl, inactive⟩

theorem Settled.advance (decision : Decision) : Settled (advance s decision) := by
  obtain ⟨keys, events, inactive⟩ := settled
  rw [Shell.advance]
  split
  · split
    · exact ⟨nofun, nofun, inactive⟩
    · next off => exact ⟨fun _ => inactive (Bool.not_eq_true _ ▸ off), nofun, inactive⟩
  · next part other here =>
      rw [here] at keys
      cases part with
      | keyboardRead => exact (other rfl).elim
      | publish event => exact ⟨nofun, nofun, inactive⟩
      | popEvent => exact ⟨fun _ => keys rfl, nofun, inactive⟩
  · next part enabled here =>
      rw [here] at keys
      cases part with
      | keyboardRead => exact ⟨nofun, nofun, inactive⟩
      | publish event => exact ⟨nofun, nofun, inactive⟩
      | popEvent => exact ⟨fun _ => keys rfl, nofun, inactive⟩
  · next part enabled here => exact .useQueue ⟨keys, events, inactive⟩ here
  · next answer here =>
      rw [here] at keys events
      cases answer <;> exact ⟨keys, events, inactive⟩
  · next answer here =>
      rw [here] at keys events
      cases answer <;> exact ⟨keys, events, inactive⟩
  · next answer here => exact .resume ⟨keys, events, inactive⟩ here
  · exact ⟨nofun, nofun, inactive⟩
  · next here =>
      rw [here] at keys
      split
      · next off =>
          have unused : s.uiOperational = false := by simpa using off
          exact ⟨fun _ => keys rfl, fun _ on => absurd (unused.symm.trans on) nofun, inactive⟩
      split
      · exact ⟨fun _ => keys rfl, nofun, inactive⟩
      · exact ⟨fun _ => keys rfl, nofun, inactive⟩
  · next here =>
      rw [here] at keys
      cases decision.ok
      · exact ⟨fun _ => keys rfl, nofun, inactive⟩
      · exact ⟨fun _ => keys rfl, nofun, inactive⟩
  · next here =>
      rw [here] at keys events
      cases decision.ok
      · exact ⟨fun _ => keys rfl, nofun, inactive⟩
      · exact ⟨fun _ => keys rfl, fun _ => events rfl, inactive⟩
  · next here =>
      rw [here] at keys events
      cases decision.ok
      · exact ⟨fun _ => keys rfl, nofun, inactive⟩
      · exact ⟨fun _ => keys rfl, fun _ => events rfl, inactive⟩
  · next here =>
      rw [here] at keys
      exact ⟨fun _ => keys rfl, fun _ => nofun, inactive⟩
  · next here =>
      rw [here] at keys events
      exact ⟨fun _ => keys rfl, fun _ => events rfl, inactive⟩
  · exact ⟨nofun, nofun, inactive⟩
  · exact ⟨keys, events, inactive⟩
  · exact ⟨nofun, nofun, inactive⟩

/-- A timely interrupt leaves an empty queue as it is. -/
theorem Settled.deliver {interrupt : Interrupt} (allowed : deliverable s (.interrupt interrupt))
    (now : timely s (.interrupt interrupt)) : Settled (deliver s interrupt) := by
  have handled : Settled (handle s interrupt) := by
    obtain ⟨keys, events, inactive⟩ := settled
    cases interrupt with
    | keyboard bytes =>
      simp only [deliverable, Bool.and_eq_true] at allowed
      refine ⟨fun read => ?_, events, fun off => ?_⟩
      · have codes : ∀ b ∈ bytes, b = extendedCode := by
          rw [timely, show s.location.keysRead = true from read] at now
          simpa using now
        exact (keyboardInterrupt_codes codes).trans (keys read)
      · have on := (keyboardInterrupt_active s.keyboard bytes).trans allowed.2
        exact nomatch on.symm.trans off
    | pointer more =>
      refine ⟨keys, fun read on => ?_, inactive⟩
      have none : more = [] := by
        rw [timely, show s.location.eventsRead = true from read, show s.uiOperational = true from on] at now
        simpa using now
      rw [none]
      exact events read on
    | other => exact ⟨keys, events, inactive⟩
  rw [Shell.deliver]
  split
  · exact ⟨nofun, nofun, handled.inactive⟩
  · exact handled

theorem Settled.step {event : Event} (met : deliverable s event ∧ timely s event) :
    Settled (step s event) := by
  cases event with
  | run decision => exact settled.advance decision
  | interrupt interrupt => exact settled.deliver met.1 met.2

end

/-- In a run whose interrupts are timely, the processor halts on empty queues. -/
theorem halts_on_empty_queues {events : List Event} (entry : Entry s)
    (met : Along step (fun s event => deliverable s event ∧ timely s event) s events) :
    let s' := Library.run step s events
    s'.location = .hlt →
      s'.keyboard.queue = [] ∧ (s'.uiOperational = true → s'.events.queue = []) := by
  intro s' halting
  have settled : Settled s' := throughout_of_along step Settled _
    (fun _ _ settled met => settled.step met) events s entry.settled met events List.prefix_rfl
  exact ⟨settled.keys (by rw [halting]; rfl), settled.events (by rw [halting]; rfl)⟩

/-- `shell_run` is entered with empty queues and interrupts off. -/
def quietEntry (ui : Bool) : State where
  keyboard := idleKeyboard
  events := noEvents
  uiActive := ui
  activePanel := .none
  uiOperational := ui
  interruptFlag := false
  shadow := false
  location := .flag .keyboardRead

theorem quietEntry_entry (ui : Bool) : Entry (quietEntry ui) := ⟨rfl, rfl, rfl, nofun⟩

def proceed (steps : Nat) : List Event := List.replicate steps (.run ⟨true, .none⟩)

/-- A key wakes the processor, and its release and a movement of the pointer come in before the
queues are looked at again. -/
def keyAndMotion : List Event :=
  proceed 15 ++ [.interrupt (.keyboard [0x1E])] ++ proceed 1 ++
    [.interrupt (.keyboard [0x9E]), .interrupt (.pointer [⟨.pointerMovement, 5, 5, .none⟩])] ++
    proceed 30

theorem halts_on_empty_queues_after_key :
    let s := Library.run step (quietEntry true) keyAndMotion
    s.location = .hlt ∧ s.keyboard.events = 2 ∧ s.events.drained = 1 ∧ s.uiOperational = true ∧
      s.keyboard.queue = [] ∧ s.events.queue = [] := by
  intro s
  have halting : s.location = .hlt := by decide
  obtain ⟨keys, events⟩ := halts_on_empty_queues (quietEntry_entry true) (by decide) halting
  have operational : s.uiOperational = true := by decide
  exact ⟨halting, by decide, by decide, operational, keys, events operational⟩

/-- A key wakes the processor. Its release comes in after `keyboard_read` has found the queue
empty and enabled interrupts again, and before the halt. -/
def lostRelease : List Event :=
  proceed 8 ++ [.interrupt (.keyboard [0x1E])] ++ proceed 12 ++ [.interrupt (.keyboard [0x9E])] ++
    proceed 2

theorem halts_on_waiting_key :
    let s := Library.run step (quietEntry false) lostRelease
    Entry (quietEntry false) ∧
      Along step (fun s event => deliverable s event) (quietEntry false) lostRelease ∧
      s.location = .hlt ∧ s.keyboard.queue ≠ [] :=
  ⟨quietEntry_entry false, by decide, by decide, by decide⟩

end

end Sapote.Shell
