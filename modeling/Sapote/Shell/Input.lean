/-!
The two queues of input: the keyboard's, which its interrupt fills and `keyboard_read` empties,
and the user interface's. Both are rings or arrays of a fixed size in the source and lists
here, the oldest event first.
-/

namespace Sapote.Shell

structure KeyboardEvent where
  scancode : UInt8
  (pressed shift : Bool)
  character : UInt8
  deriving DecidableEq

structure Keyboard where
  active : Bool
  queue : List KeyboardEvent
  (expectingExtended shift capsLock : Bool)
  (interrupts events dropped extended : UInt64)
  deriving DecidableEq

def idleKeyboard : Keyboard := ⟨true, [], false, false, false, 0, 0, 0, 0⟩

def keyboardQueueSize : Nat := 64
def extendedCode : UInt8 := 0xE0
def releaseBit : UInt8 := 0x80

def unshifted : List UInt8 := [
  0, 0, 49, 50, 51, 52, 53, 54, 55, 56, 57, 48, 45, 61, 8, 9, 113, 119, 101, 114, 116, 121, 117,
  105, 111, 112, 91, 93, 10, 0, 97, 115, 100, 102, 103, 104, 106, 107, 108, 59, 39, 96, 0, 92,
  122, 120, 99, 118, 98, 110, 109, 44, 46, 47, 0, 42, 0, 32]

def shifted : List UInt8 := [
  0, 0, 33, 64, 35, 36, 37, 94, 38, 42, 40, 41, 95, 43, 8, 9, 81, 87, 69, 82, 84, 89, 85, 73, 79,
  80, 123, 125, 10, 0, 65, 83, 68, 70, 71, 72, 74, 75, 76, 58, 34, 126, 0, 124, 90, 88, 67, 86,
  66, 78, 77, 60, 62, 63, 0, 42, 0, 32]

def keyboardCharacterFor (scancode : UInt8) (shift capsLock : Bool) : UInt8 :=
  let make := scancode &&& ~~~releaseBit
  let character := if shift then shifted.getD make.toNat 0 else unshifted.getD make.toNat 0
  if capsLock then
    if 0x61 ≤ character ∧ character ≤ 0x7A then character - 0x20
    else if 0x41 ≤ character ∧ character ≤ 0x5A then character + 0x20
    else character
  else character

def enqueue (keyboard : Keyboard) (event : KeyboardEvent) : Keyboard :=
  if keyboard.queue.length + 1 = keyboardQueueSize then { keyboard with dropped := keyboard.dropped + 1 }
  else { keyboard with queue := keyboard.queue ++ [event], events := keyboard.events + 1 }

def handleByte (keyboard : Keyboard) (byte : UInt8) : Keyboard :=
  if byte = extendedCode then
    { keyboard with expectingExtended := true, extended := keyboard.extended + 1 }
  else
    let make := byte &&& ~~~releaseBit
    let pressed : Bool := byte &&& releaseBit = 0
    let shift := if make = 0x2A ∨ make = 0x36 then pressed else keyboard.shift
    let capsLock := if ¬(make = 0x2A ∨ make = 0x36) ∧ make = 0x3A ∧ pressed then !keyboard.capsLock
      else keyboard.capsLock
    let keyboard := { keyboard with expectingExtended := false, shift := shift, capsLock := capsLock }
    enqueue keyboard {
      scancode := make
      pressed := pressed
      shift := shift
      character := if pressed then keyboardCharacterFor make shift capsLock else 0 }

/-- The controller holds these bytes; one interrupt takes no more than the queue has room for. -/
def keyboardInterrupt (keyboard : Keyboard) (bytes : List UInt8) : Keyboard :=
  (bytes.take keyboardQueueSize).foldl handleByte { keyboard with interrupts := keyboard.interrupts + 1 }

/-- The first byte of an extended code is no event. -/
theorem keyboardInterrupt_codes {keyboard : Keyboard} {bytes : List UInt8}
    (codes : ∀ b ∈ bytes, b = extendedCode) : (keyboardInterrupt keyboard bytes).queue = keyboard.queue := by
  have steps : ∀ (bytes : List UInt8) (keyboard : Keyboard), (∀ b ∈ bytes, b = extendedCode) →
      (bytes.foldl handleByte keyboard).queue = keyboard.queue := by
    intro bytes
    induction bytes with
    | nil => exact fun _ _ => rfl
    | cons b bytes ih =>
      intro keyboard codes
      rw [List.foldl_cons, ih _ fun b' later => codes b' (.tail _ later), handleByte,
        if_pos (codes b (.head _))]
  exact steps _ _ fun b member => codes b (List.mem_of_mem_take member)

theorem enqueue_active (keyboard : Keyboard) (event : KeyboardEvent) :
    (enqueue keyboard event).active = keyboard.active := by
  rw [enqueue]
  split <;> rfl

theorem handleByte_active (keyboard : Keyboard) (byte : UInt8) :
    (handleByte keyboard byte).active = keyboard.active := by
  rw [handleByte]
  split
  · rfl
  · exact enqueue_active _ _

theorem keyboardInterrupt_active (keyboard : Keyboard) (bytes : List UInt8) :
    (keyboardInterrupt keyboard bytes).active = keyboard.active := by
  refine List.foldlRecOn (motive := fun k : Keyboard => k.active = keyboard.active) _ _ rfl
    fun k same b _ => ?_
  exact (handleByte_active k b).trans same

inductive UiEventType where
  | pointerMovement | pointerButtonPress | pointerButtonRelease | keyboardFocusNext
  | keyboardFocusPrevious | keyboardActivation | panelClose | redrawRequest
  deriving DecidableEq

inductive UiPointerButton where
  | none | left | middle | right
  deriving DecidableEq

structure UiEvent where
  type : UiEventType
  (x y : Int)
  button : UiPointerButton
  deriving DecidableEq

inductive UiPanel where
  | none | terminal | ledger | system | about
  deriving DecidableEq

def uiEventQueueCapacity : Nat := 64

inductive UiStatus where
  | ok | nullArgument | badEvent | eventQueueFull
  deriving DecidableEq

/-- `event_queue` as far as `event_count`, and `state.events`. -/
structure UiEvents where
  queue : List UiEvent
  (accepted drained coalesced dropped : UInt64)
  deriving DecidableEq

def noEvents : UiEvents := ⟨[], 0, 0, 0, 0⟩

def UiEvent.moves (event : UiEvent) : Bool := event.type = .pointerMovement

/-- `ui_event_publish`, with a type that is no enumerator as an error. Movements are merged, and
a full queue gives up its oldest movement for anything else. -/
def uiEventPublish (s : UiEvents) : Option (Except Int UiEvent) → UiStatus × UiEvents
  | none => (.nullArgument, s)
  | some (.error _) => (.badEvent, s)
  | some (.ok event) =>
    let s := { s with accepted := s.accepted + 1 }
    if event.moves ∧ s.queue.getLast?.any UiEvent.moves then
      (.ok, { s with queue := s.queue.dropLast ++ [event], coalesced := s.coalesced + 1 })
    else if s.queue.length = uiEventQueueCapacity then
      let full := { s with dropped := s.dropped + 1 }
      if event.moves then (.eventQueueFull, full)
      else if s.queue.any UiEvent.moves then
        (.ok, { full with queue := s.queue.eraseP UiEvent.moves ++ [event] })
      else (.eventQueueFull, full)
    else (.ok, { s with queue := s.queue ++ [event] })

def popEvent (s : UiEvents) : Option UiEvent × UiEvents :=
  match s.queue with
  | [] => (none, s)
  | event :: rest => (some event, { s with queue := rest, drained := s.drained + 1 })

end Sapote.Shell
