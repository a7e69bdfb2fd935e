import Sapote.Library.Run
import Sapote.Shell.Input

/-!
The 8042 controller that the keyboard and the pointer share. Its status register
tags the byte at the head as the keyboard's or the auxiliary device's, and each of
the two interrupt handlers drains it in a loop of its own. The pointer's loop stops
at a keyboard byte. The keyboard's loop looks only at whether a byte is there, so
it also takes what the auxiliary device sent.
-/

namespace Sapote.Shell
open Library List
variable {c : Controller} {event : ControllerEvent}

inductive ByteSource where
  | keyboard | auxiliary
  deriving DecidableEq

structure ControllerByte where
  source : ByteSource
  value : UInt8
  deriving DecidableEq

/-- `packetIndex` is set back to zero as soon as a packet is complete, so it always
names one of the three bytes. -/
structure PointerState where
  (left middle right : Bool)
  (x y boundWidth boundHeight : Nat)
  packetIndex : Fin 3
  packet : Fin 3 → UInt8
  (interrupts bytes packets movements buttonTransitions overflows desynchronizations : UInt64)

def clampCoordinate (value : Int) (bound : Nat) : Nat :=
  if value ≤ 0 ∨ bound = 0 then 0 else if bound ≤ value then bound - 1 else value.toNat

abbrev Decoded := PointerState × UiEvents

def publishMovement (target : Decoded) : Decoded :=
  ({ target.1 with movements := target.1.movements + 1 },
    (uiEventPublish target.2 (some (.ok ⟨.pointerMovement, target.1.x, target.1.y, .none⟩))).2)

def publishButton (target : Decoded) (button : UiPointerButton) (before pressed : Bool) : Decoded :=
  if pressed = before then target
  else
    ({ target.1 with buttonTransitions := target.1.buttonTransitions + 1 },
      (uiEventPublish target.2 (some (.ok
        ⟨if pressed then .pointerButtonPress else .pointerButtonRelease, target.1.x, target.1.y,
          button⟩))).2)

def decodePacket (pointer : PointerState) (events : UiEvents) : Decoded :=
  let flags := pointer.packet 0
  let left : Bool := flags &&& 0x01 ≠ 0
  let right : Bool := flags &&& 0x02 ≠ 0
  let middle : Bool := flags &&& 0x04 ≠ 0
  let pointer := { pointer with packets := pointer.packets + 1 }
  if flags &&& 0xC0 ≠ 0 then ({ pointer with overflows := pointer.overflows + 1 }, events)
  else
    let moved := { pointer with
      x := clampCoordinate (pointer.x + (pointer.packet 1).toInt8.toInt) pointer.boundWidth
      y := clampCoordinate (pointer.y - (pointer.packet 2).toInt8.toInt) pointer.boundHeight }
    let target := if moved.x ≠ pointer.x ∨ moved.y ≠ pointer.y then publishMovement (moved, events)
      else (moved, events)
    let target := publishButton target .left pointer.left left
    let target := publishButton target .middle pointer.middle middle
    let target := publishButton target .right pointer.right right
    ({ target.1 with left := left, middle := middle, right := right }, target.2)

def decodeByte (pointer : PointerState) (events : UiEvents) (byte : UInt8) : Decoded :=
  let pointer := { pointer with bytes := pointer.bytes + 1 }
  if pointer.packetIndex = 0 ∧ byte &&& 0x08 = 0 then
    ({ pointer with desynchronizations := pointer.desynchronizations + 1 }, events)
  else
    let pointer := { pointer with packet := Function.update pointer.packet pointer.packetIndex byte }
    if pointer.packetIndex = 2 then decodePacket { pointer with packetIndex := 0 } events
    else ({ pointer with packetIndex := pointer.packetIndex + 1 }, events)

inductive Handler where
  | keyboard | pointer
  deriving DecidableEq

/-- The controller with its two drivers. `running` is the handler at work and the
turns its loop has left; the last three lists record what arrived and what was
passed to `handle_byte` and to `decode_byte`. -/
structure Controller where
  waiting : List ControllerByte
  running : Option (Handler × Nat)
  keyboard : Keyboard
  pointer : PointerState
  events : UiEvents
  (arrived handled decoded : List ControllerByte)

def keyboardPoll (c : Controller) (turns : Nat) : Controller :=
  match c.waiting with
  | [] => { c with running := none }
  | byte :: waiting => { c with
      waiting := waiting
      running := some (.keyboard, turns)
      keyboard := handleByte c.keyboard byte.value
      handled := c.handled ++ [byte] }

def pointerPoll (c : Controller) (turns : Nat) : Controller :=
  match c.waiting with
  | [] => { c with running := none }
  | byte :: waiting =>
    if byte.source ≠ .auxiliary then { c with running := none }
    else
      let target := decodeByte c.pointer c.events byte.value
      { c with
        waiting := waiting
        running := some (.pointer, turns)
        pointer := target.1
        events := target.2
        decoded := c.decoded ++ [byte] }

inductive ControllerEvent where
  | arrive (byte : ControllerByte)
  | interrupt (handler : Handler)
  | poll

/-- Bytes arrive at any time. An interrupt is taken between two runs of a handler,
as both run with interrupts off; its loop then makes its turns one by one. -/
def controllerStep (c : Controller) : ControllerEvent → Controller
  | .arrive byte => { c with waiting := c.waiting ++ [byte], arrived := c.arrived ++ [byte] }
  | .interrupt handler =>
    match c.running, handler with
    | some _, _ => c
    | none, .keyboard => { c with
        running := some (.keyboard, keyboardQueueSize)
        keyboard.interrupts := c.keyboard.interrupts + 1 }
    | none, .pointer => { c with
        running := some (.pointer, uiEventQueueCapacity)
        pointer.interrupts := c.pointer.interrupts + 1 }
  | .poll =>
    match c.running with
    | none => c
    | some (_, 0) => { c with running := none }
    | some (.keyboard, turns + 1) => keyboardPoll c turns
    | some (.pointer, turns + 1) => pointerPoll c turns

def controllerStart (keyboard : Keyboard) (pointer : PointerState) (events : UiEvents) :
    Controller :=
  ⟨[], none, keyboard, pointer, events, [], [], []⟩

def sentBy (source : ByteSource) (bytes : List ControllerByte) : List ControllerByte :=
  bytes.filter fun byte => byte.source = source

/-- Each driver was given bytes of its own only, in the order they arrived and
without a gap. -/
def Demultiplexed (c : Controller) : Prop :=
  c.handled <+: sentBy .keyboard c.arrived ∧ c.decoded <+: sentBy .auxiliary c.arrived

def MeetsAuxiliary (c : Controller) (event : ControllerEvent) : Prop :=
  event = .poll ∧ (∃ turns, c.running = some (.keyboard, turns + 1)) ∧
    c.waiting.head?.map ControllerByte.source = some .auxiliary

structure Conserved (c : Controller) : Prop where
  handled : c.handled ++ sentBy .keyboard c.waiting = sentBy .keyboard c.arrived
  decoded : c.decoded ++ sentBy .auxiliary c.waiting = sentBy .auxiliary c.arrived

theorem Conserved.demultiplexed (conserved : Conserved c) : Demultiplexed c :=
  ⟨⟨_, conserved.handled⟩, ⟨_, conserved.decoded⟩⟩

theorem sentBy_append (source : ByteSource) (xs ys : List ControllerByte) :
    sentBy source (xs ++ ys) = sentBy source xs ++ sentBy source ys :=
  filter_append xs ys

theorem Conserved.keyboardPoll (conserved : Conserved c) (turns : Nat)
    (own : c.waiting.head?.map ControllerByte.source ≠ some .auxiliary) :
    Conserved (keyboardPoll c turns) := by
  obtain ⟨handled, decoded⟩ := conserved
  rw [Shell.keyboardPoll]
  split
  · exact ⟨handled, decoded⟩
  rename_i byte waiting head
  rw [head] at own handled decoded
  cases source : byte.source with
  | keyboard =>
    constructor
    · rw [← handled]
      simp [sentBy, source]
    · rw [← decoded]
      simp [sentBy, source]
  | auxiliary => exact absurd (congrArg some source) own

theorem Conserved.pointerPoll (conserved : Conserved c) (turns : Nat) :
    Conserved (pointerPoll c turns) := by
  obtain ⟨handled, decoded⟩ := conserved
  rw [Shell.pointerPoll]
  split
  · exact ⟨handled, decoded⟩
  rename_i byte waiting head
  split
  · exact ⟨handled, decoded⟩
  rename_i own
  rw [head] at handled decoded
  constructor
  · rw [← handled]
    simp [sentBy, not_not.mp own]
  · rw [← decoded]
    simp [sentBy, not_not.mp own]

theorem Conserved.step (conserved : Conserved c) (own : ¬MeetsAuxiliary c event) :
    Conserved (controllerStep c event) := by
  cases event with
  | arrive byte =>
    constructor
    · simp only [controllerStep, sentBy_append, ← conserved.handled, append_assoc]
    · simp only [controllerStep, sentBy_append, ← conserved.decoded, append_assoc]
  | interrupt handler =>
    simp only [controllerStep]
    split <;> exact ⟨conserved.handled, conserved.decoded⟩
  | poll =>
    simp only [controllerStep]
    split
    · exact conserved
    · exact ⟨conserved.handled, conserved.decoded⟩
    · rename_i turns running
      exact conserved.keyboardPoll turns fun head => own ⟨rfl, ⟨turns, running⟩, head⟩
    · exact conserved.pointerPoll _

theorem handled_kept {byte : ControllerByte} (mem : byte ∈ c.handled) (event : ControllerEvent) :
    byte ∈ (controllerStep c event).handled := by
  cases event with
  | arrive byte => exact mem
  | interrupt handler =>
    simp only [controllerStep]
    split <;> exact mem
  | poll =>
    simp only [controllerStep]
    split
    · exact mem
    · exact mem
    · unfold keyboardPoll
      split
      · exact mem
      · exact mem_append_left _ mem
    · unfold pointerPoll
      split
      · exact mem
      · split <;> exact mem

theorem MeetsAuxiliary.handled (meets : MeetsAuxiliary c event) :
    ∃ byte ∈ (controllerStep c event).handled, byte.source = .auxiliary := by
  obtain ⟨rfl, ⟨turns, running⟩, head⟩ := meets
  obtain ⟨byte, first, source⟩ := Option.map_eq_some_iff.mp head
  obtain ⟨rest, waiting⟩ := head?_eq_some_iff.mp first
  refine ⟨byte, ?_, source⟩
  simp [controllerStep, running, keyboardPoll, waiting]

theorem demultiplexed_run_iff (conserved : Conserved c) (run : List ControllerEvent) :
    Demultiplexed (Library.run controllerStep c run) ↔
      Along controllerStep (fun c event => ¬MeetsAuxiliary c event) c run := by
  induction run generalizing c with
  | nil => exact ⟨fun _ => trivial, fun _ => conserved.demultiplexed⟩
  | cons event run ih =>
    rw [run_cons, Along]
    by_cases meets : MeetsAuxiliary c event
    · obtain ⟨byte, mem, source⟩ := meets.handled
      have last := run_invariant controllerStep (fun c => byte ∈ c.handled)
        (fun c event mem => handled_kept mem event) run _ mem
      constructor
      · intro apart
        have own := (mem_filter.mp (apart.1.mem last)).2
        rw [decide_eq_true_eq, source] at own
        cases own
      · exact fun along => absurd meets along.1
    · rw [ih (conserved.step meets), and_iff_right meets]

/-- The shared controller is demultiplexed exactly in the runs in which the
keyboard's handler never finds an auxiliary byte at the head. -/
theorem controller_demultiplexed_iff (keyboard : Keyboard) (pointer : PointerState)
    (events : UiEvents) (run : List ControllerEvent) :
    Demultiplexed (Library.run controllerStep (controllerStart keyboard pointer events) run) ↔
      Along controllerStep (fun c event => ¬MeetsAuxiliary c event)
        (controllerStart keyboard pointer events) run :=
  demultiplexed_run_iff ⟨rfl, rfl⟩ run

def quietPointer : PointerState :=
  ⟨false, false, false, 0, 0, 1024, 768, 0, fun _ => 0, 0, 0, 0, 0, 0, 0, 0⟩

def keyThenMotion : List ControllerEvent :=
  [.arrive ⟨.keyboard, 0x1E⟩, .interrupt .keyboard, .poll, .arrive ⟨.auxiliary, 0x08⟩, .poll]

/-- The pointer's byte is taken for a key, the 7 of the upper row. -/
theorem keyboard_takes_auxiliary_byte :
    let c := Library.run controllerStep (controllerStart idleKeyboard quietPointer noEvents)
      keyThenMotion
    ¬Demultiplexed c ∧ (⟨.auxiliary, 0x08⟩ : ControllerByte) ∈ c.handled ∧
      c.keyboard.queue.map KeyboardEvent.character = [0x61, 0x37] := by
  refine ⟨?_, by decide, by decide⟩
  unfold Demultiplexed
  decide

end Sapote.Shell
