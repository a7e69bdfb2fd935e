import Sapote.Library.Run
import Sapote.Shell.Input

/-!
What the keyboard's bytes mean: which keys they leave held, and what the driver makes of them.
-/

namespace Sapote.Shell
open List

def keyOf (byte : UInt8) : UInt8 := byte &&& ~~~releaseBit

def isPress (byte : UInt8) : Bool := byte &&& releaseBit = 0

abbrev IsShift (byte : UInt8) : Prop := keyOf byte = 0x2A ∨ keyOf byte = 0x36

/-- A key is held from its make code until its break code. -/
def keyHeld (key : UInt8) (fed : List UInt8) : Bool :=
  fed.foldl (fun held byte => if keyOf byte = key then isPress byte else held) false

def shiftHeld (fed : List UInt8) : Bool := keyHeld 0x2A fed || keyHeld 0x36 fed

/-- One shift key was let go last, and the other is still held. -/
abbrev Straddled (fed : List UInt8) : Prop :=
  (fed.reverse.find? (IsShift ·)).any (fun byte => !isPress byte) = true ∧ shiftHeld fed

/-- How often caps lock was pressed. -/
def capsLocks (fed : List UInt8) : Nat :=
  fed.countP fun byte => keyOf byte = 0x3A ∧ isPress byte

def invertCase (character : UInt8) : UInt8 :=
  if 0x61 ≤ character ∧ character ≤ 0x7A then character - 0x20
  else if 0x41 ≤ character ∧ character ≤ 0x5A then character + 0x20
  else character

/-- The event that `handle_byte` makes of a byte. -/
def decoded (keyboard : Keyboard) (byte : UInt8) : KeyboardEvent where
  scancode := keyOf byte
  pressed := isPress byte
  shift := (handleByte keyboard byte).shift
  character := if isPress byte then
    keyboardCharacterFor (keyOf byte) (handleByte keyboard byte).shift (handleByte keyboard byte).capsLock
    else 0

theorem enqueue_modifiers (keyboard : Keyboard) (event : KeyboardEvent) :
    (enqueue keyboard event).shift = keyboard.shift ∧
      (enqueue keyboard event).capsLock = keyboard.capsLock := by
  rw [enqueue]
  split <;> exact ⟨rfl, rfl⟩

section
variable (keyboard : Keyboard) {byte : UInt8} (plain : byte ≠ extendedCode)
include plain

theorem handleByte_modifiers :
    (handleByte keyboard byte).shift = (if IsShift byte then isPress byte else keyboard.shift) ∧
    (handleByte keyboard byte).capsLock = if ¬IsShift byte ∧ keyOf byte = 0x3A ∧ isPress byte then
      !keyboard.capsLock else keyboard.capsLock := by
  rw [handleByte, if_neg plain]
  exact enqueue_modifiers _ _

theorem handleByte_eq : handleByte keyboard byte = enqueue { keyboard with
    expectingExtended := false
    shift := (handleByte keyboard byte).shift
    capsLock := (handleByte keyboard byte).capsLock } (decoded keyboard byte) := by
  rw [decoded, (handleByte_modifiers keyboard plain).1, (handleByte_modifiers keyboard plain).2]
  exact if_neg plain

end

theorem shiftHeld_append (fed : List UInt8) (byte : UInt8) : shiftHeld (fed ++ [byte]) =
    ((if keyOf byte = 0x2A then isPress byte else keyHeld 0x2A fed) ||
      if keyOf byte = 0x36 then isPress byte else keyHeld 0x36 fed) := by
  simp only [shiftHeld, keyHeld, foldl_append, foldl_cons, foldl_nil]

theorem last_shift (fed : List UInt8) :
    (∀ byte ∈ fed.reverse.find? (IsShift ·), isPress byte → shiftHeld fed) ∧
    (fed.reverse.find? (IsShift ·) = none → shiftHeld fed = false) := by
  induction fed using List.reverseRecOn with
  | nil => exact ⟨nofun, fun _ => rfl⟩
  | append_singleton fed byte ih =>
    rw [reverse_concat, find?_cons, shiftHeld_append]
    by_cases shift : IsShift byte
    · simp only [shift, decide_true]
      refine ⟨?_, nofun⟩
      rintro _ ⟨⟩ press
      obtain left | right := shift
      · rw [if_pos left, press, Bool.true_or]
      · rw [if_pos right, press, Bool.or_true]
    · obtain ⟨left, right⟩ := not_or.mp shift
      simp only [shift, decide_false, if_neg left, if_neg right]
      exact ih

theorem modifiers_after {keyboard : Keyboard} (released : keyboard.shift = false ∧ keyboard.capsLock = false)
    {fed : List UInt8} (plain : ∀ byte ∈ fed, byte ≠ extendedCode) :
    (fed.foldl handleByte keyboard).shift = (fed.reverse.find? (IsShift ·)).any isPress ∧
    (fed.foldl handleByte keyboard).capsLock = decide (capsLocks fed % 2 = 1) := by
  induction fed using List.reverseRecOn with
  | nil => exact released
  | append_singleton fed byte ih =>
    rw [forall_mem_append, forall_mem_singleton] at plain
    obtain ⟨shift, capsLock⟩ := ih plain.1
    obtain ⟨shift', capsLock'⟩ := handleByte_modifiers (fed.foldl handleByte keyboard) plain.2
    rw [foldl_append, reverse_concat, find?_cons]
    refine ⟨shift'.trans ?_, capsLock'.trans ?_⟩
    · rw [shift]
      by_cases press : IsShift byte <;> simp only [press] <;> rfl
    · have other : ¬IsShift byte ∧ keyOf byte = 0x3A ∧ isPress byte ↔ keyOf byte = 0x3A ∧ isPress byte :=
        ⟨.right, fun caps => ⟨by rw [IsShift, caps.1]; decide, caps⟩⟩
      rw [capsLock, capsLocks, capsLocks, countP_append]
      simp only [other, countP_singleton, decide_eq_true_eq]
      split <;> simp only [← decide_not, decide_eq_decide, Nat.add_zero]
      omega

/-- The driver keeps one bit for two shift keys, the edge that came last: it is right exactly
unless that edge let one of them go under the other. -/
theorem modifiers_follow_keys_iff {keyboard : Keyboard}
    (released : keyboard.shift = false ∧ keyboard.capsLock = false) (stream : List UInt8) (byte : UInt8)
    (plain : ∀ b ∈ stream ++ [byte], b ≠ extendedCode) :
    let fed := stream ++ [byte]
    let before := stream.foldl handleByte keyboard
    let event := decoded before byte
    let entry := if event.shift then shifted.getD (keyOf byte).toNat 0
      else unshifted.getD (keyOf byte).toNat 0
    (∃ ready, handleByte before byte = enqueue ready event) ∧
    (event.shift = shiftHeld fed ↔ ¬Straddled fed) ∧
    (handleByte before byte).capsLock = decide (capsLocks fed % 2 = 1) ∧
    (event.pressed = true →
      event.character = if capsLocks fed % 2 = 1 then invertCase entry else entry) := by
  intro fed before event entry
  obtain ⟨shift, capsLock⟩ := modifiers_after released plain
  rw [foldl_append] at shift capsLock
  obtain ⟨made, none⟩ := last_shift fed
  refine ⟨⟨_, handleByte_eq before (plain byte (by simp))⟩, ?_, capsLock, ?_⟩
  · rw [show event.shift = _ from shift, Straddled]
    cases last : fed.reverse.find? (IsShift ·) with
    | none => simp [fed, none last]
    | some byte =>
      have made := made byte last
      cases press : isPress byte <;> simp_all [fed]
  · intro pressed
    have character : event.character = _ := if_pos pressed
    have key : keyOf byte &&& ~~~releaseBit = keyOf byte := by
      rw [keyOf, UInt8.and_assoc, UInt8.and_self]
    rw [character, show (handleByte before byte).capsLock = _ from capsLock, keyboardCharacterFor, key]
    simp only [decide_eq_true_eq]
    rfl

theorem modifiers_follow_keys_plain :
    let fed : List UInt8 := [0x2A, 0x1E]
    ¬Straddled fed ∧ shiftHeld fed = true ∧
      (decoded ([0x2A].foldl handleByte idleKeyboard) 0x1E).shift = shiftHeld fed :=
  ⟨by decide, by decide,
    (modifiers_follow_keys_iff (by decide) [0x2A] 0x1E (by decide +kernel)).2.1.mpr (by decide)⟩

/-- Left shift down, right shift down, left shift up: right shift is held, and the event says not. -/
theorem shift_lost_under_other :
    shiftHeld [0x2A, 0x36, 0xAA] = true ∧
      (decoded ([0x2A, 0x36].foldl handleByte idleKeyboard) 0xAA).shift = false := by
  decide

/-- `queue[KEYBOARD_QUEUE_SIZE]` and its two indices; one slot stays free. -/
structure Ring where
  slots : Nat → KeyboardEvent
  (head tail : Nat)

def Ring.enqueue (ring : Ring) (event : KeyboardEvent) : Option Ring :=
  let next := (ring.tail + 1) % keyboardQueueSize
  if next = ring.head then none
  else some { ring with slots := Function.update ring.slots ring.tail event, tail := next }

def Ring.read (ring : Ring) : Option (KeyboardEvent × Ring) :=
  if ring.head = ring.tail then none
  else some (ring.slots ring.head, { ring with head := (ring.head + 1) % keyboardQueueSize })

/-- `keyboard_get_state().queued`. -/
def Ring.queued (ring : Ring) : Nat :=
  (ring.tail + keyboardQueueSize - ring.head) % keyboardQueueSize

def Ring.contents (ring : Ring) : List KeyboardEvent :=
  (List.range ring.queued).map fun i => ring.slots ((ring.head + i) % keyboardQueueSize)

/-- The driver over its ring (the list in `keyboard` is not used), and what happened to its queue:
the events that were put in and taken out, and the number of bytes that were not a prefix. -/
structure KeyboardDriver where
  keyboard : Keyboard
  ring : Ring
  (kept taken : List KeyboardEvent)
  bytes : Nat

inductive KeyboardCall where
  | byte (byte : UInt8)
  | read

def keyboardStep (d : KeyboardDriver) : KeyboardCall → KeyboardDriver
  | .byte byte =>
    let keyboard := { d.keyboard with
      expectingExtended := byte = extendedCode
      shift := (handleByte d.keyboard byte).shift
      capsLock := (handleByte d.keyboard byte).capsLock }
    let event := decoded d.keyboard byte
    if byte = extendedCode then
      { d with keyboard := { keyboard with extended := keyboard.extended + 1 } }
    else match d.ring.enqueue event with
    | none => { d with
        keyboard := { keyboard with dropped := keyboard.dropped + 1 }, bytes := d.bytes + 1 }
    | some ring => { d with
        keyboard := { keyboard with events := keyboard.events + 1 }
        ring := ring
        kept := d.kept ++ [event]
        bytes := d.bytes + 1 }
  | .read =>
    if !d.keyboard.active then d
    else match d.ring.read with
    | none => d
    | some (event, ring) => { d with ring := ring, taken := d.taken ++ [event] }

structure Ring.Bounded (ring : Ring) : Prop where
  head : ring.head < 64
  tail : ring.tail < 64

theorem Ring.enqueue_cases {ring : Ring} (bounded : ring.Bounded) (event : KeyboardEvent) :
    ring.queued = 63 ∧ ring.enqueue event = none ∨ ring.queued < 63 ∧ ∃ next,
      ring.enqueue event = some next ∧ next.Bounded ∧ next.contents = ring.contents ++ [event] := by
  obtain ⟨head, tail⟩ := bounded
  have queued : ring.queued = (ring.tail + 64 - ring.head) % 64 := rfl
  by_cases full : (ring.tail + 1) % 64 = ring.head
  · exact .inl ⟨by omega, if_pos full⟩
  · refine .inr ⟨by omega, _, if_neg full, ⟨head, Nat.mod_lt _ (by decide)⟩, ?_⟩
    simp only [Ring.contents, Ring.queued, keyboardQueueSize]
    rw [show ((ring.tail + 1) % 64 + 64 - ring.head) % 64 =
      (ring.tail + 64 - ring.head) % 64 + 1 by omega, range_succ, map_append]
    congr 1
    · refine map_congr_left fun i inside => Function.update_of_ne ?_ _ _
      rw [mem_range] at inside
      omega
    · rw [map_singleton, show (ring.head + (ring.tail + 64 - ring.head) % 64) % 64 = ring.tail by omega,
        Function.update_self]

theorem Ring.read_cases {ring : Ring} (bounded : ring.Bounded) :
    ring.contents = [] ∧ ring.read = none ∨ ∃ event next,
      ring.read = some (event, next) ∧ next.Bounded ∧ ring.contents = event :: next.contents := by
  obtain ⟨head, tail⟩ := bounded
  by_cases empty : ring.head = ring.tail
  · refine .inl ⟨?_, if_pos empty⟩
    rw [Ring.contents, Ring.queued, empty, Nat.add_sub_cancel_left]
    rfl
  · refine .inr ⟨_, _, if_neg empty, ⟨Nat.mod_lt _ (by decide), tail⟩, ?_⟩
    simp only [Ring.contents, Ring.queued, keyboardQueueSize]
    rw [show (ring.tail + 64 - ring.head) % 64 =
      (ring.tail + 64 - (ring.head + 1) % 64) % 64 + 1 by omega, range_succ_eq_map, map_cons,
      map_map, Nat.add_zero, Nat.mod_eq_of_lt head]
    congr 1
    refine map_congr_left fun i _ => ?_
    simp only [Function.comp]
    congr 1
    omega

/-- The driver with the contents of its ring as the list. -/
def KeyboardDriver.listed (d : KeyboardDriver) : Keyboard := { d.keyboard with queue := d.ring.contents }

theorem Ring.length_contents (ring : Ring) : ring.contents.length = ring.queued := by
  rw [Ring.contents, length_map, length_range]

/-- The ring refines the list: a byte does to the contents of the ring what it does to a list. -/
theorem listed_byte {d : KeyboardDriver} (bounded : d.ring.Bounded) (byte : UInt8) :
    (keyboardStep d (.byte byte)).listed = handleByte d.listed byte := by
  by_cases code : byte = extendedCode
  · simp only [keyboardStep, handleByte, code, if_true]
    rfl
  · have modifiers := handleByte_modifiers d.keyboard code
    have same := handleByte_modifiers d.listed code
    have event : decoded d.listed byte = decoded d.keyboard byte := by
      rw [decoded, decoded, modifiers.1, modifiers.2, same.1, same.2]
      rfl
    rw [handleByte_eq _ code, event, same.1, same.2, enqueue, keyboardStep, if_neg code,
      modifiers.1, modifiers.2]
    obtain ⟨full, none⟩ | ⟨room, next, put, -, contents⟩ :=
      Ring.enqueue_cases bounded (decoded d.keyboard byte)
    · simp only [none, KeyboardDriver.listed, Ring.length_contents, full, keyboardQueueSize, code,
        decide_false, if_true]
    · have short : ¬d.ring.queued + 1 = 64 := by omega
      simp only [put, KeyboardDriver.listed, Ring.length_contents, contents, keyboardQueueSize, code,
        decide_false, short, if_false]

/-- Counters are of 64 bits and wrap; the ring and the history do not. -/
structure Queued (d : KeyboardDriver) : Prop where
  bounded : d.ring.Bounded
  order : d.kept = d.taken ++ d.ring.contents
  events : d.keyboard.events = .ofNat d.kept.length
  counted : d.keyboard.events + d.keyboard.dropped = .ofNat d.bytes

theorem queued_step {d : KeyboardDriver} (queued : Queued d) (call : KeyboardCall) :
    Queued (keyboardStep d call) := by
  obtain ⟨bounded, order, events, counted⟩ := queued
  cases call with
  | byte byte =>
    rw [keyboardStep]
    split
    · exact ⟨bounded, order, events, counted⟩
    obtain ⟨-, full⟩ | ⟨-, next, put, bounded', contents⟩ := Ring.enqueue_cases bounded (decoded d.keyboard byte)
    · rw [full]
      refine ⟨bounded, order, events, ?_⟩
      grind [UInt64.ofNat_add d.bytes 1]
    · rw [put]
      refine ⟨bounded', ?_, ?_, ?_⟩ <;> dsimp only
      · rw [order, contents, append_assoc]
      · rw [events, length_append, length_singleton, UInt64.ofNat_add]
        rfl
      · grind [UInt64.ofNat_add d.bytes 1]
  | read =>
    rw [keyboardStep]
    split
    · exact ⟨bounded, order, events, counted⟩
    obtain ⟨-, empty⟩ | ⟨event, next, got, bounded', contents⟩ := Ring.read_cases bounded
    · rw [empty]
      exact ⟨bounded, order, events, counted⟩
    · rw [got]
      refine ⟨bounded', ?_, events, counted⟩
      rw [order, contents, append_assoc, singleton_append]

/-- An active driver with an empty queue and no counts, its ring at any place. -/
def emptyDriver (keyboard : Keyboard) (slots : Nat → KeyboardEvent) (head : Fin 64) : KeyboardDriver :=
  ⟨{ keyboard with active := true, events := 0, dropped := 0 }, ⟨slots, head, head⟩, [], [], 0⟩

/-- The keyboard's ring is a first-in first-out queue of 63 events that overwrites none, and
`handle_byte` over it is `handle_byte` over a list. -/
theorem keyboard_ring_fifo (keyboard : Keyboard) (slots : Nat → KeyboardEvent) (head : Fin 64)
    (calls : List KeyboardCall) :
    let d := Library.run keyboardStep (emptyDriver keyboard slots head) calls
    d.taken <+: d.kept ∧ d.ring.queued = d.kept.length - d.taken.length ∧
    d.keyboard.events = .ofNat d.kept.length ∧
    .ofNat d.ring.queued = d.keyboard.events - .ofNat d.taken.length ∧ d.ring.queued ≤ 63 ∧
    (∀ byte, byte ≠ extendedCode →
      ((keyboardStep d (.byte byte)).keyboard.dropped ≠ d.keyboard.dropped ↔ d.ring.queued = 63)) ∧
    (∀ byte, (keyboardStep d (.byte byte)).listed = handleByte d.listed byte) ∧
    d.keyboard.events + d.keyboard.dropped = .ofNat d.bytes := by
  intro d
  have start : Queued (emptyDriver keyboard slots head) :=
    ⟨⟨head.2, head.2⟩, by simp [emptyDriver, Ring.contents, Ring.queued], rfl, rfl⟩
  obtain ⟨bounded, order, events, counted⟩ : Queued d :=
    Library.run_invariant keyboardStep Queued (fun _ call h => queued_step h call) calls _ start
  have length := congrArg List.length order
  rw [length_append, Ring.length_contents] at length
  refine ⟨⟨_, order.symm⟩, by omega, events, ?_, Nat.le_of_lt_succ (Nat.mod_lt _ (by decide)), ?_,
    listed_byte bounded, counted⟩
  · rw [events, length, UInt64.ofNat_add]
    grind
  · intro byte plain
    rw [keyboardStep, if_neg plain]
    obtain ⟨full, none⟩ | ⟨room, next, put, -⟩ := Ring.enqueue_cases bounded (decoded d.keyboard byte)
    · rw [none]
      refine iff_of_true ?_ full
      dsimp only
      grind
    · rw [put]
      exact iff_of_false (not_not.mpr rfl) (ne_of_lt room)

end Sapote.Shell
