import Sapote.Interrupts.Vectors
import Sapote.Library.Run

/-!
The gate through which user mode enters the kernel, `interrupt_process_gate_*` and
`interrupt_dispatch` of `interrupts.c`.

A dispatch is two steps, the one that calls a handler and the one that continues once
the handler has returned, so that whatever a handler does, and whatever interrupts it,
lies between them. A fatal interrupt halts the machine. The history of a run is kept
newest first; no function of the source reads it.
-/

namespace Sapote.Interrupts
open List Function

open Library

def idtGatePresent : BitVec 8 := 0x80
def idtGateInterrupt : BitVec 8 := 0x0E
def idtGateDplZero : BitVec 8 := 0x00
def idtGateDplThree : BitVec 8 := 0x60
def idtGateAttributes : BitVec 8 := idtGatePresent ||| idtGateDplZero ||| idtGateInterrupt
def idtGateUserAttributes : BitVec 8 := idtGatePresent ||| idtGateDplThree ||| idtGateInterrupt

def interruptVectorCount : Nat := 256
def interruptPicMasterBase : Nat := 32
def interruptPicLimit : Nat := 48
def interruptIoapicBase : Nat := 48
def interruptLocalApicLimit : Nat := 72
def interruptIstTestVector : Nat := 0xF0

inductive ProcessGateState where
  | inactive | armed | entered | returned | disarmed
  deriving DecidableEq

structure ProcessGate where
  generation : BitVec 64
  state : ProcessGateState
  active : Bool
  deriving DecidableEq

/-- `struct process_gate_runtime`; a frame is known by its address. -/
structure ProcessGateRuntime where
  generation : BitVec 64
  state : ProcessGateState
  dispatchFrame : Option Nat
  resumeStack : BitVec 64
  owned : Bool
  deriving DecidableEq

/-- The handler table, the attributes of the proof vector's descriptor and the statics
of the gate. -/
structure GateStatics where
  table : HandlerTable
  typeAttributes : BitVec 8
  runtime : ProcessGateRuntime
  nextProcessGateGeneration : BitVec 64

/-- What the dispatcher reads of a saved frame, with the address it was saved at. -/
structure InterruptFrame where
  address : Nat
  (vector cs : BitVec 64)
  deriving DecidableEq

def expectedIst (vector : Nat) : Nat :=
  if vector = 8 ∨ vector = interruptIstTestVector then 1
  else if vector = 2 then 2
  else if vector = 18 then 3
  else 0

def interruptFrameHasStackTail (frame : InterruptFrame) : Bool :=
  frame.cs &&& 3 ≠ 0 ∨
    (frame.vector.toNat < interruptVectorCount ∧ expectedIst frame.vector.toNat ≠ 0)

/-- The descriptor check: `rest` says whether everything it reads besides the
attributes is as expected. -/
def processGateDescriptorValid (s : GateStatics) (rest : Bool) : Bool :=
  s.typeAttributes = idtGateUserAttributes ∧ rest

def inactiveGate : ProcessGate := ⟨0, .inactive, false⟩

def nextGateGeneration (generation : BitVec 64) : BitVec 64 :=
  if generation + 1 = 0 then 1 else generation + 1

def installProofHandler (s : GateStatics) (entry : Option HandlerEntry) : HandlerTable :=
  { s.table with
    handlers := Function.update s.table.handlers interruptProcessProofVector entry }

def openGate (s : GateStatics) (entry : HandlerEntry) : GateStatics where
  table := installProofHandler s (some entry)
  typeAttributes := idtGateUserAttributes
  runtime := ⟨s.nextProcessGateGeneration, .armed, none, 0, true⟩
  nextProcessGateGeneration := nextGateGeneration s.nextProcessGateGeneration

def interruptProcessGateArm (interrupts : Bool) (s : GateStatics) (handler : Option Nat)
    (context : Nat) (gate : Option ProcessGate) (rest : Bool) :
    InterruptStatus × GateStatics × Option ProcessGate :=
  match handler, gate with
  | none, gate => (.nullHandler, s, gate)
  | some _, none => (.badArgument, s, none)
  | some handler, some _ =>
    if !s.table.initialized then (.notInitialized, s, some inactiveGate)
    else if interrupts then (.interruptsEnabled, s, some inactiveGate)
    else if s.runtime.owned || (s.table.handlers interruptProcessProofVector).isSome then
      (.proofGateBusy, s, some inactiveGate)
    else
      let opened := openGate s ⟨handler, context⟩
      if !processGateDescriptorValid opened rest then
        (.proofGateBadDescriptor,
          { opened with
            table := installProofHandler opened none
            typeAttributes := idtGateAttributes
            runtime := { opened.runtime with owned := false } },
          some inactiveGate)
      else (.ok, opened, some ⟨opened.runtime.generation, opened.runtime.state, true⟩)

def gateTokenCurrent (s : GateStatics) (gate : ProcessGate) : Bool :=
  gate.active ∧ s.runtime.owned ∧ gate.generation = s.runtime.generation

def interruptProcessGateDisarm (interrupts : Bool) (s : GateStatics) (gate : Option ProcessGate) :
    InterruptStatus × GateStatics × Option ProcessGate :=
  match gate with
  | none => (.badArgument, s, none)
  | some gate =>
    if !gateTokenCurrent s gate then (.proofGateBadToken, s, some gate)
    else if interrupts then (.interruptsEnabled, s, some gate)
    else if s.runtime.state ≠ .armed ∧ s.runtime.state ≠ .returned then
      (.proofGateBadState, s, some gate)
    else
      (.ok,
        { s with
          table := installProofHandler s none
          typeAttributes := idtGateAttributes
          runtime := ⟨s.runtime.generation, .disarmed, none, 0, false⟩ },
        some { gate with state := .disarmed, active := false })

/-- The stack pointer a resume may name: not null, eight past a multiple of sixteen,
and canonical. -/
def resumeStackValid (resumeStack : BitVec 64) : Bool :=
  resumeStack ≠ 0 ∧ resumeStack &&& 0xF = 8 ∧
    (resumeStack >>> 47 = 0 ∨ resumeStack >>> 47 = 0x1FFFF)

def interruptRequestKernelResume (s : GateStatics) (frame : Option InterruptFrame)
    (resumeStack : BitVec 64) : InterruptStatus × GateStatics :=
  if !s.runtime.owned ∨ s.runtime.state ≠ .entered then (.proofGateBadState, s)
  else
    match frame with
    | none => (.proofGateBadFrame, s)
    | some frame =>
      if some frame.address ≠ s.runtime.dispatchFrame ∨ frame.cs &&& 3 ≠ 3 ∨
          !interruptFrameHasStackTail frame then
        (.proofGateBadFrame, s)
      else if !resumeStackValid resumeStack ∨ s.runtime.resumeStack ≠ 0 then
        (.proofGateBadResume, s)
      else (.ok, { s with runtime := { s.runtime with resumeStack := resumeStack } })

inductive Activation where
  | process (frame : Nat)
  | device (vector : Nat) (levelTriggered : Bool)
  deriving DecidableEq

inductive DispatchOutcome where
  | fatal | spurious
  | calls (activation : Activation) (s : GateStatics)

/-- What the rest of the kernel answers the dispatcher: whether the 8259 really raised
its interrupt, whether the I/O APIC routes the vector as level triggered, whether a
dynamic vector is allocated, and whether a directed end of interrupt succeeds. -/
structure DispatchAnswers where
  (irqReal levelTriggered vectorAllocated endOfInterrupt : Bool)
  deriving DecidableEq

def callHandler (s : GateStatics) (vector : Nat) (levelTriggered : Bool) : DispatchOutcome :=
  if (s.table.handlers vector).isNone then .fatal
  else .calls (.device vector levelTriggered) s

def enterProcessGate (s : GateStatics) (frame : InterruptFrame) : DispatchOutcome :=
  if frame.cs &&& 3 ≠ 3 ∨ !s.runtime.owned ∨ s.runtime.state ≠ .armed ∨
      (s.table.handlers interruptProcessProofVector).isNone ∨
      !interruptFrameHasStackTail frame then
    .fatal
  else
    .calls (.process frame.address)
      { s with
        runtime := { s.runtime with
          state := .entered, dispatchFrame := some frame.address, resumeStack := 0 } }

def dispatchDevice (answers : DispatchAnswers) (s : GateStatics) (vector : Nat) :
    DispatchOutcome :=
  if interruptPicMasterBase ≤ vector ∧ vector < interruptPicLimit then
    if !answers.irqReal then .spurious else callHandler s vector false
  else if interruptIoapicBase ≤ vector ∧ vector < interruptLocalApicLimit then
    callHandler s vector answers.levelTriggered
  else if interruptDynamicBase ≤ vector ∧ vector < interruptDynamicLimit then
    if !answers.vectorAllocated then .fatal else callHandler s vector false
  else callHandler s vector false

/-- `interrupt_dispatch` up to the call of the handler. -/
def interruptDispatch (answers : DispatchAnswers) (s : GateStatics) (frame : Option InterruptFrame) :
    DispatchOutcome :=
  match frame with
  | none => .fatal
  | some frame =>
    if interruptVectorCount ≤ frame.vector.toNat then .fatal
    else if frame.cs &&& 3 ≠ 0 then enterProcessGate s frame
    else if frame.vector.toNat = interruptProcessProofVector ∧ s.runtime.owned then .fatal
    else dispatchDevice answers s frame.vector.toNat

/-- `interrupt_dispatch` from the return of the handler on: the stack it returns, unless
it does not return. -/
def finishDispatch (answers : DispatchAnswers) (s : GateStatics) :
    Activation → Option (BitVec 64 × GateStatics)
  | .process _ =>
    if s.runtime.resumeStack = 0 then none
    else
      some (s.runtime.resumeStack,
        { s with runtime := { s.runtime with dispatchFrame := none, state := .returned } })
  | .device _ levelTriggered =>
    if levelTriggered && !answers.endOfInterrupt then none else some (0, s)

inductive GateEvent where
  | armed (generation : BitVec 64)
  | entered (frame : Nat)
  | accepted (frame : Nat) (resumeStack : BitVec 64)
  | returned (resumeStack : BitVec 64)
  | disarmed (generation : BitVec 64)
  deriving DecidableEq

structure GateMachine where
  statics : GateStatics
  activations : List Activation
  halted : Bool
  history : List GateEvent

inductive GateCall where
  | arm (interrupts : Bool) (handler : Option Nat) (context : Nat) (gate : Option ProcessGate)
      (rest : Bool)
  | validate (gate : Option ProcessGate) (rest : Bool)
  | disarm (interrupts : Bool) (gate : Option ProcessGate)
  | requestKernelResume (frame : Option InterruptFrame) (resumeStack : BitVec 64)
  | registerHandler (interrupts : Bool) (vector : Nat) (handler : Option Nat) (context : Nat)
  | unregisterHandler (interrupts : Bool) (vector : Nat)
  | dispatch (answers : DispatchAnswers) (frame : Option InterruptFrame)
  | handlerReturns (answers : DispatchAnswers) (index : Nat)

def GateMachine.halt (m : GateMachine) : GateMachine := { m with halted := true }

def GateMachine.arm (m : GateMachine) (interrupts : Bool) (handler : Option Nat) (context : Nat)
    (gate : Option ProcessGate) (rest : Bool) : GateMachine :=
  let result := interruptProcessGateArm interrupts m.statics handler context gate rest
  { m with
    statics := result.2.1
    history := if result.1 = .ok then .armed result.2.1.runtime.generation :: m.history
      else m.history }

def GateMachine.disarm (m : GateMachine) (interrupts : Bool) (gate : Option ProcessGate) :
    GateMachine :=
  let result := interruptProcessGateDisarm interrupts m.statics gate
  { m with
    statics := result.2.1
    history := if result.1 = .ok then .disarmed result.2.1.runtime.generation :: m.history
      else m.history }

def GateMachine.requestKernelResume (m : GateMachine) (frame : Option InterruptFrame)
    (resumeStack : BitVec 64) : GateMachine :=
  let result := interruptRequestKernelResume m.statics frame resumeStack
  match result.1, frame with
  | .ok, some frame =>
    { m with
      statics := result.2
      history := .accepted frame.address resumeStack :: m.history }
  | _, _ => { m with statics := result.2 }

def GateMachine.calls (m : GateMachine) (activation : Activation) (statics : GateStatics) :
    GateMachine :=
  { m with
    statics := statics
    activations := activation :: m.activations
    history :=
      match activation with
      | .process frame => .entered frame :: m.history
      | .device _ _ => m.history }

def GateMachine.dispatch (m : GateMachine) (answers : DispatchAnswers)
    (frame : Option InterruptFrame) : GateMachine :=
  match interruptDispatch answers m.statics frame with
  | .fatal => m.halt
  | .spurious => m
  | .calls activation statics => m.calls activation statics

/-- The handler at a place among the outstanding ones returns. Threads may switch inside
handlers, so they need not return in the order in which they were called. -/
def GateMachine.handlerReturns (m : GateMachine) (answers : DispatchAnswers) (index : Nat) :
    GateMachine :=
  match m.activations[index]? with
  | none => m
  | some activation =>
    match finishDispatch answers m.statics activation with
    | none => m.halt
    | some (resumeStack, statics) =>
      { m with
        statics := statics
        activations := m.activations.eraseIdx index
        history :=
          match activation with
          | .process _ => .returned resumeStack :: m.history
          | .device _ _ => m.history }

def gateStep (m : GateMachine) (call : GateCall) : GateMachine :=
  if m.halted then m
  else
    match call with
    | .arm interrupts handler context gate rest => m.arm interrupts handler context gate rest
    | .validate _ _ => m
    | .disarm interrupts gate => m.disarm interrupts gate
    | .requestKernelResume frame resumeStack => m.requestKernelResume frame resumeStack
    | .registerHandler interrupts vector handler context =>
      { m with statics := { m.statics with
          table := (interruptRegisterHandler interrupts m.statics.table vector handler context).2 } }
    | .unregisterHandler interrupts vector =>
      { m with statics := { m.statics with
          table := (interruptUnregisterHandler interrupts m.statics.table vector).2 } }
    | .dispatch answers frame => m.dispatch answers frame
    | .handlerReturns answers index => m.handlerReturns answers index

def bootGate (initialized : Bool) : GateMachine where
  statics :=
    { table := ⟨fun _ => none, initialized⟩
      typeAttributes := idtGateAttributes
      runtime := ⟨0, .inactive, none, 0, false⟩
      nextProcessGateGeneration := 1 }
  activations := []
  halted := false
  history := []

def descriptorPrivilege (typeAttributes : BitVec 8) : BitVec 8 := (typeAttributes >>> 5) &&& 3

def everArmed : List GateEvent → Bool
  | [] => false
  | .armed _ :: _ => true
  | _ :: earlier => everArmed earlier

def entriesSinceArm : List GateEvent → Nat
  | [] => 0
  | .armed _ :: _ => 0
  | .entered _ :: earlier => entriesSinceArm earlier + 1
  | _ :: earlier => entriesSinceArm earlier

def resumesSinceEntry : List GateEvent → Nat
  | [] => 0
  | .entered _ :: _ => 0
  | .accepted _ _ :: earlier => resumesSinceEntry earlier + 1
  | _ :: earlier => resumesSinceEntry earlier

def processFrames (activations : List Activation) : List Nat :=
  activations.filterMap fun
    | .process frame => some frame
    | .device _ _ => none

section
variable {s : GateStatics}

/-- The descriptor is open to user mode exactly while the gate is owned, and so is its
handler installed. -/
structure Fastened (s : GateStatics) : Prop where
  attributes : s.typeAttributes =
    if s.runtime.owned then idtGateUserAttributes else idtGateAttributes
  handled : (s.table.handlers interruptProcessProofVector).isSome = s.runtime.owned

theorem proofVector_reserved : vectorReserved interruptProcessProofVector := by
  decide

theorem interruptRegisterHandler_proof (interrupts : Bool) (table : HandlerTable) (vector : Nat)
    (handler : Option Nat) (context : Nat) :
    (interruptRegisterHandler interrupts table vector handler context).2.handlers
        interruptProcessProofVector = table.handlers interruptProcessProofVector := by
  unfold interruptRegisterHandler
  repeat' split
  all_goals try rfl
  next free _ =>
  refine update_of_ne ?_ _ _
  rintro rfl
  exact free proofVector_reserved

theorem interruptUnregisterHandler_proof (interrupts : Bool) (table : HandlerTable) (vector : Nat) :
    (interruptUnregisterHandler interrupts table vector).2.handlers
        interruptProcessProofVector = table.handlers interruptProcessProofVector := by
  unfold interruptUnregisterHandler
  repeat' split
  all_goals try rfl
  next free _ =>
  refine update_of_ne ?_ _ _
  rintro rfl
  exact free proofVector_reserved

theorem openGate_fastened (s : GateStatics) (entry : HandlerEntry) : Fastened (openGate s entry) :=
  ⟨rfl, by rw [openGate, installProofHandler]; dsimp only; rw [update_self]; rfl⟩

theorem closed_fastened (attributes : s.typeAttributes = idtGateAttributes)
    (handled : s.table.handlers interruptProcessProofVector = none)
    (owned : s.runtime.owned = false) : Fastened s :=
  ⟨by rw [attributes, owned]; rfl, by rw [handled, owned]; rfl⟩

theorem interruptProcessGateArm_cases (interrupts : Bool) (s : GateStatics) (handler : Option Nat)
    (context : Nat) (gate : Option ProcessGate) (rest : Bool) :
    let result := interruptProcessGateArm interrupts s handler context gate rest
    (result.1 ≠ .ok ∧ result.2.1 = s) ∨
      (result.1 ≠ .ok ∧ s.runtime.owned = false ∧ result.2.1.runtime.owned = false ∧
        Fastened result.2.1) ∨
      (result.1 = .ok ∧ s.runtime.owned = false ∧ ∃ entry, result.2.1 = openGate s entry) := by
  intro result
  unfold result interruptProcessGateArm
  split
  · exact .inl ⟨nofun, rfl⟩
  · exact .inl ⟨nofun, rfl⟩
  iterate 3
    split
    · exact .inl ⟨nofun, rfl⟩
  next free =>
  have unowned : s.runtime.owned = false := by
    cases owned : s.runtime.owned with
    | true => exact absurd (by rw [owned]; rfl) free
    | false => rfl
  dsimp only
  split
  · refine .inr (.inl ⟨nofun, unowned, rfl, closed_fastened rfl ?_ rfl⟩)
    rw [installProofHandler]
    dsimp only
    rw [update_self]
  · exact .inr (.inr ⟨rfl, unowned, _, rfl⟩)

theorem interruptProcessGateDisarm_cases (interrupts : Bool) (s : GateStatics)
    (gate : Option ProcessGate) :
    let result := interruptProcessGateDisarm interrupts s gate
    (result.1 ≠ .ok ∧ result.2.1 = s) ∨
      (result.1 = .ok ∧ Fastened result.2.1 ∧ result.2.1.runtime.owned = false ∧
        (s.runtime.state = .armed ∨ s.runtime.state = .returned) ∧
        ∃ token, gate = some token ∧ gateTokenCurrent s token) := by
  intro result
  unfold result interruptProcessGateDisarm
  split
  · exact .inl ⟨nofun, rfl⟩
  next token =>
  split
  · exact .inl ⟨nofun, rfl⟩
  next current =>
  split
  · exact .inl ⟨nofun, rfl⟩
  split
  · exact .inl ⟨nofun, rfl⟩
  next settled =>
  refine .inr ⟨rfl, closed_fastened rfl ?_ rfl, rfl, ?_, token, rfl, by simpa using current⟩
  · rw [installProofHandler]
    dsimp only
    rw [update_self]
  · by_cases armed : s.runtime.state = .armed
    · exact .inl armed
    · exact .inr (not_not.mp fun other => settled ⟨armed, other⟩)

theorem interruptRequestKernelResume_cases (s : GateStatics) (frame : Option InterruptFrame)
    (resumeStack : BitVec 64) :
    let result := interruptRequestKernelResume s frame resumeStack
    (result.1 ≠ .ok ∧ result.2 = s) ∨
      (result.1 = .ok ∧
        result.2 = { s with runtime := { s.runtime with resumeStack := resumeStack } } ∧
        s.runtime.owned ∧ s.runtime.state = .entered ∧
        s.runtime.resumeStack = 0 ∧ resumeStackValid resumeStack ∧
        ∃ saved, frame = some saved ∧ s.runtime.dispatchFrame = some saved.address) := by
  intro result
  unfold result interruptRequestKernelResume
  split
  · exact .inl ⟨nofun, rfl⟩
  next running =>
  split
  · exact .inl ⟨nofun, rfl⟩
  next saved =>
  split
  · exact .inl ⟨nofun, rfl⟩
  next framed =>
  split
  · exact .inl ⟨nofun, rfl⟩
  next first =>
  push Not at running framed first
  simp only [Bool.not_eq_true, Bool.not_eq_false'] at running first
  exact .inr ⟨rfl, rfl, running.1, running.2, first.2, first.1, saved, rfl, framed.1.symm⟩

/-- What a frame of user mode meets: the end, or a gate that is armed. -/
theorem interruptDispatch_user (answers : DispatchAnswers) (s : GateStatics)
    (frame : InterruptFrame) (user : frame.cs &&& 3 ≠ 0) :
    interruptDispatch answers s (some frame) = .fatal ∨
      (s.runtime.owned ∧ s.runtime.state = .armed ∧
        interruptDispatch answers s (some frame) = .calls (.process frame.address)
          { s with
            runtime := { s.runtime with
              state := .entered, dispatchFrame := some frame.address, resumeStack := 0 } }) := by
  unfold interruptDispatch
  dsimp only
  split
  · exact .inl rfl
  rw [enterProcessGate]
  split
  · exact .inl rfl
  next accepted =>
  push Not at accepted
  exact .inr ⟨by simpa using accepted.2.1, accepted.2.2.1, rfl⟩

/-- The gate is left as it is. -/
abbrev DispatchOutcome.Leaves (outcome : DispatchOutcome) (s : GateStatics) : Prop :=
  outcome = .fatal ∨ outcome = .spurious ∨
    ∃ vector levelTriggered, outcome = .calls (.device vector levelTriggered) s

theorem dispatchDevice_leaves (answers : DispatchAnswers) (s : GateStatics) (vector : Nat) :
    (dispatchDevice answers s vector).Leaves s := by
  have called : ∀ levelTriggered, (callHandler s vector levelTriggered).Leaves s := by
    intro levelTriggered
    unfold callHandler
    split
    · exact .inl rfl
    · exact .inr (.inr ⟨vector, levelTriggered, rfl⟩)
  unfold dispatchDevice
  split
  · split
    · exact .inr (.inl rfl)
    · exact called false
  split
  · exact called answers.levelTriggered
  split
  · split
    · exact .inl rfl
    · exact called false
  · exact called false

theorem interruptDispatch_kernel (answers : DispatchAnswers) (s : GateStatics)
    (frame : InterruptFrame) (kernel : frame.cs &&& 3 = 0) :
    (interruptDispatch answers s (some frame)).Leaves s := by
  unfold interruptDispatch
  dsimp only
  split
  · exact .inl rfl
  rw [if_neg (not_not.mpr kernel)]
  split
  · exact .inl rfl
  · exact dispatchDevice_leaves answers s frame.vector.toNat

variable {m : GateMachine}

/-- Where the gate stands. The frame of the only outstanding user entry is the frame
being dispatched, and only a gate that is armed has not been entered since. -/
inductive GatePhase (m : GateMachine) : Prop where
  | closed (owned : m.statics.runtime.owned = false) (idle : processFrames m.activations = [])
  | armed (owned : m.statics.runtime.owned) (state : m.statics.runtime.state = .armed)
      (idle : processFrames m.activations = []) (unentered : entriesSinceArm m.history = 0)
      (arm : everArmed m.history)
  | entered (frame : Nat) (owned : m.statics.runtime.owned)
      (state : m.statics.runtime.state = .entered)
      (dispatched : m.statics.runtime.dispatchFrame = some frame)
      (running : processFrames m.activations = [frame])
      (awaiting : m.statics.runtime.resumeStack = 0 → resumesSinceEntry m.history = 0)
  | returned (owned : m.statics.runtime.owned)
      (state : m.statics.runtime.state = .returned) (idle : processFrames m.activations = [])

structure GateSound (m : GateMachine) : Prop where
  fastened : Fastened m.statics
  phase : GatePhase m
  enteredOnce : entriesSinceArm m.history ≤ 1
  resumedOnce : resumesSinceEntry m.history ≤ 1

theorem bootGate_sound (initialized : Bool) : GateSound (bootGate initialized) :=
  ⟨⟨rfl, rfl⟩, .closed rfl rfl, Nat.zero_le 1, Nat.zero_le 1⟩

theorem GatePhase.idle (phase : GatePhase m)
    (away : m.statics.runtime.owned = false ∨ m.statics.runtime.state ≠ .entered) :
    processFrames m.activations = [] := by
  cases phase with
  | closed _ idle | armed _ _ idle _ _ | returned _ _ idle => exact idle
  | entered frame owned state _ _ _ =>
    obtain unowned | other := away
    · exact nomatch owned.symm.trans unowned
    · exact absurd state other

/-- The phase is read off the runtime, the outstanding user entries and the history. -/
theorem GatePhase.of_same {m' : GateMachine} (phase : GatePhase m)
    (runtime : m'.statics.runtime = m.statics.runtime)
    (frames : processFrames m'.activations = processFrames m.activations)
    (history : m'.history = m.history) : GatePhase m' := by
  cases phase with
  | closed owned idle => exact .closed (runtime ▸ owned) (frames.trans idle)
  | armed owned state idle unentered arm =>
    exact .armed (runtime ▸ owned) (runtime ▸ state) (frames.trans idle) (history ▸ unentered)
      (history ▸ arm)
  | entered frame owned state dispatched running awaiting =>
    refine .entered frame (runtime ▸ owned) (runtime ▸ state) (runtime ▸ dispatched)
      (frames.trans running) ?_
    rw [runtime, history]
    exact awaiting
  | returned owned state idle =>
    exact .returned (runtime ▸ owned) (runtime ▸ state) (frames.trans idle)

section
variable (sound : GateSound m)
include sound

/-- A change of the handler table away from the proof vector leaves the gate alone. -/
theorem GateSound.tabled {table : HandlerTable}
    (kept : table.handlers interruptProcessProofVector =
      m.statics.table.handlers interruptProcessProofVector) :
    GateSound { m with statics := { m.statics with table := table } } where
  fastened := ⟨sound.fastened.attributes, by dsimp only; rw [kept]; exact sound.fastened.handled⟩
  phase := sound.phase.of_same rfl rfl rfl
  enteredOnce := sound.enteredOnce
  resumedOnce := sound.resumedOnce

theorem GateSound.halt : GateSound m.halt :=
  ⟨sound.fastened, sound.phase.of_same rfl rfl rfl, sound.enteredOnce, sound.resumedOnce⟩

theorem GateSound.arm (interrupts : Bool) (handler : Option Nat)
    (context : Nat) (gate : Option ProcessGate) (rest : Bool) :
    GateSound (m.arm interrupts handler context gate rest) := by
  unfold GateMachine.arm
  have cases := interruptProcessGateArm_cases interrupts m.statics handler context gate rest
  dsimp only at cases ⊢
  rcases cases with ⟨refused, kept⟩ | ⟨refused, unowned, still, fastened⟩ |
    ⟨taken, unowned, entry, opened⟩
  · rw [if_neg refused, kept]
    exact sound
  · rw [if_neg refused]
    exact ⟨fastened, .closed still (sound.phase.idle (.inl unowned)), sound.enteredOnce,
      sound.resumedOnce⟩
  · rw [if_pos taken, opened]
    exact ⟨openGate_fastened m.statics entry,
      .armed rfl rfl (sound.phase.idle (.inl unowned)) rfl rfl, Nat.zero_le 1, sound.resumedOnce⟩

theorem GateSound.disarm (interrupts : Bool) (gate : Option ProcessGate) :
    GateSound (m.disarm interrupts gate) := by
  unfold GateMachine.disarm
  have cases := interruptProcessGateDisarm_cases interrupts m.statics gate
  dsimp only at cases ⊢
  obtain ⟨refused, kept⟩ | ⟨done, fastened, still, settled, -⟩ := cases
  · rw [if_neg refused, kept]
    exact sound
  rw [if_pos done]
  have away : m.statics.runtime.state ≠ .entered := by
    obtain armed | returned := settled
    · rw [armed]; nofun
    · rw [returned]; nofun
  exact ⟨fastened, .closed still (sound.phase.idle (.inr away)), sound.enteredOnce,
    sound.resumedOnce⟩

end

theorem resumeStackValid_ne_zero {resumeStack : BitVec 64}
    (valid : resumeStackValid resumeStack) : resumeStack ≠ 0 :=
  (of_decide_eq_true valid).1

theorem GateSound.requestKernelResume (sound : GateSound m) (frame : Option InterruptFrame)
    (resumeStack : BitVec 64) : GateSound (m.requestKernelResume frame resumeStack) := by
  unfold GateMachine.requestKernelResume
  have cases := interruptRequestKernelResume_cases m.statics frame resumeStack
  dsimp only at cases ⊢
  rcases cases with ⟨refused, kept⟩ |
    ⟨accepted, stored, owned, entered, empty, valid, saved, rfl, same⟩
  · split
    next _ ok => exact absurd ok refused
    · rw [kept]
      exact sound
  rw [accepted, stored]
  cases sound.phase with
  | closed unowned _ => exact nomatch owned.symm.trans unowned
  | armed _ state _ _ _ | returned _ state _ => exact nomatch entered.symm.trans state
  | entered frame _ state dispatched running awaiting =>
    refine ⟨⟨sound.fastened.attributes, sound.fastened.handled⟩,
      .entered frame owned state dispatched running ?_, sound.enteredOnce, ?_⟩
    · intro zero
      exact absurd zero (resumeStackValid_ne_zero valid)
    · exact le_of_eq (congrArg (· + 1) (awaiting empty))

theorem GateSound.dispatch (sound : GateSound m) (answers : DispatchAnswers)
    (frame : Option InterruptFrame) : GateSound (m.dispatch answers frame) := by
  unfold GateMachine.dispatch
  cases frame with
  | none => exact sound.halt
  | some frame => ?_
  by_cases kernel : frame.cs &&& 3 = 0
  · rcases interruptDispatch_kernel answers m.statics frame kernel with
      fatal | spurious | ⟨vector, level, calls⟩
    · rw [fatal]
      exact sound.halt
    · rw [spurious]
      exact sound
    · rw [calls]
      exact ⟨sound.fastened, sound.phase.of_same rfl rfl rfl, sound.enteredOnce, sound.resumedOnce⟩
  rcases interruptDispatch_user answers m.statics frame kernel with
    fatal | ⟨owned, armed, calls⟩
  · rw [fatal]
    exact sound.halt
  rw [calls]
  cases sound.phase with
  | closed unowned _ => exact nomatch owned.symm.trans unowned
  | entered _ _ state _ _ _ | returned _ state _ =>
    exact nomatch armed.symm.trans state
  | armed _ _ idle unentered _ =>
    refine ⟨⟨sound.fastened.attributes, sound.fastened.handled⟩,
      .entered frame.address owned rfl rfl ?_ fun _ => rfl, ?_, Nat.zero_le 1⟩
    · exact congrArg (frame.address :: ·) idle
    · exact le_of_eq (congrArg (· + 1) unentered)

theorem processFrames_eraseIdx {activations : List Activation} {index : Nat}
    {activation : Activation} (here : activations[index]? = some activation) :
    processFrames activations = processFrames (activations.take index) ++
        processFrames [activation] ++ processFrames (activations.drop (index + 1)) ∧
      processFrames (activations.eraseIdx index) = processFrames (activations.take index) ++
        processFrames (activations.drop (index + 1)) := by
  obtain ⟨inside, rfl⟩ := List.getElem?_eq_some_iff.mp here
  unfold processFrames
  rw [List.eraseIdx_eq_take_drop_succ, List.filterMap_append, ← List.filterMap_append,
    ← List.filterMap_append, append_assoc, singleton_append,
    getElem_cons_drop, take_append_drop]
  exact ⟨rfl, rfl⟩

theorem GateSound.handlerReturns (sound : GateSound m) (answers : DispatchAnswers) (index : Nat) :
    GateSound (m.handlerReturns answers index) := by
  unfold GateMachine.handlerReturns
  split
  · exact sound
  next activation here =>
  obtain ⟨before, after⟩ := processFrames_eraseIdx here
  split
  · exact sound.halt
  next resumeStack statics finished =>
  cases activation with
  | device vector level =>
    -- A device handler is not among the user entries, so these stay as they are.
    have same : processFrames (m.activations.eraseIdx index) = processFrames m.activations := by
      rw [before, after, show processFrames [.device vector level] = [] from rfl, append_nil]
    have kept : statics = m.statics := by
      rw [finishDispatch] at finished
      split at finished
      · cases finished
      · exact (congrArg Prod.snd (Option.some.inj finished)).symm
    rw [kept]
    exact ⟨sound.fastened, sound.phase.of_same rfl same rfl, sound.enteredOnce, sound.resumedOnce⟩
  | process frame => ?_
  rw [finishDispatch] at finished
  split at finished
  · cases finished
  have stored := congrArg Prod.snd (Option.some.inj finished)
  subst stored
  have outstanding : processFrames m.activations ≠ [] := by
    rw [before]
    simp [processFrames]
  cases sound.phase with
  | closed _ idle | armed _ _ idle _ _ | returned _ _ idle => exact absurd idle outstanding
  | entered other owned state dispatched running awaiting =>
    refine ⟨⟨sound.fastened.attributes, sound.fastened.handled⟩, .returned owned rfl ?_,
      sound.enteredOnce, sound.resumedOnce⟩
    rw [running] at before
    have count := congrArg List.length before
    simp only [processFrames, filterMap_cons, filterMap_nil, length_append,
      length_cons, length_nil] at count
    rw [after]
    apply eq_nil_of_length_eq_zero
    rw [length_append]
    unfold processFrames
    omega

theorem gateSound_step (m : GateMachine) (call : GateCall) (sound : GateSound m) :
    GateSound (gateStep m call) := by
  unfold gateStep
  split
  · exact sound
  cases call with
  | arm interrupts handler context gate rest =>
    exact sound.arm interrupts handler context gate rest
  | validate => exact sound
  | disarm interrupts gate => exact sound.disarm interrupts gate
  | requestKernelResume frame resumeStack => exact sound.requestKernelResume frame resumeStack
  | registerHandler interrupts vector handler context =>
    exact sound.tabled (interruptRegisterHandler_proof interrupts _ vector handler context)
  | unregisterHandler interrupts vector =>
    exact sound.tabled (interruptUnregisterHandler_proof interrupts _ vector)
  | dispatch answers frame => exact sound.dispatch answers frame
  | handlerReturns answers index => exact sound.handlerReturns answers index

theorem gateSound_run (initialized : Bool) (calls : List GateCall) :
    GateSound (run gateStep (bootGate initialized) calls) :=
  run_invariant gateStep GateSound gateSound_step calls _ (bootGate_sound initialized)

/-- A resume that is accepted answers the frame whose handler is outstanding, and is
the first for it. -/
theorem GateSound.accepted (sound : GateSound m) {frame : Option InterruptFrame}
    {resumeStack : BitVec 64}
    (ok : (interruptRequestKernelResume m.statics frame resumeStack).1 = .ok) :
    resumesSinceEntry m.history = 0 ∧ resumeStackValid resumeStack ∧
      ∃ saved, frame = some saved ∧ m.statics.runtime.dispatchFrame = some saved.address ∧
        .process saved.address ∈ m.activations := by
  rcases interruptRequestKernelResume_cases m.statics frame resumeStack with
    ⟨refused, -⟩ | ⟨-, -, owned, entered, empty, valid, saved, same, dispatched⟩
  · exact absurd ok refused
  cases sound.phase with
  | closed unowned _ => exact nomatch owned.symm.trans unowned
  | armed _ state _ _ _ | returned _ state _ => exact nomatch entered.symm.trans state
  | entered frame _ _ running outstanding awaiting =>
    have address : frame = saved.address := Option.some.inj (running.symm.trans dispatched)
    refine ⟨awaiting empty, valid, saved, same, dispatched, ?_⟩
    have member : saved.address ∈ processFrames m.activations := by
      rw [outstanding, address]
      exact mem_singleton_self _
    obtain ⟨activation, inside, shape⟩ := mem_filterMap.mp member
    cases activation with
    | process other => exact (Option.some.inj shape) ▸ inside
    | device _ _ => cases shape

/-- The gate opens once for each time it is armed. -/
theorem process_gate_opens_once (initialized : Bool) (calls : List GateCall) :
    let m := run gateStep (bootGate initialized) calls
    (descriptorPrivilege m.statics.typeAttributes = 3 ↔ m.statics.runtime.owned = true) ∧
      ((m.statics.table.handlers interruptProcessProofVector).isSome = true ↔
        m.statics.runtime.owned = true) ∧
      entriesSinceArm m.history ≤ 1 ∧
      (∀ answers frame, frame.cs &&& 3 = 3 → m.halted = false →
        (gateStep m (.dispatch answers (some frame))).halted = true ∨
          everArmed m.history = true ∧ entriesSinceArm m.history = 0 ∧
            (gateStep m (.dispatch answers (some frame))).history =
              .entered frame.address :: m.history) ∧
      resumesSinceEntry m.history ≤ 1 ∧
      (∀ frame resumeStack, (interruptRequestKernelResume m.statics frame resumeStack).1 = .ok →
        resumesSinceEntry m.history = 0 ∧ resumeStackValid resumeStack = true ∧
          ∃ saved, frame = some saved ∧ m.statics.runtime.dispatchFrame = some saved.address ∧
            .process saved.address ∈ m.activations) ∧
      ∀ interrupts gate, (interruptProcessGateDisarm interrupts m.statics gate).1 = .ok →
        (m.statics.runtime.state = .armed ∨ m.statics.runtime.state = .returned) ∧
          ∃ token, gate = some token ∧ token.active = true ∧ m.statics.runtime.owned = true ∧
            token.generation = m.statics.runtime.generation := by
  intro m
  have sound : GateSound m := gateSound_run initialized calls
  refine ⟨?_, ?_, sound.enteredOnce, ?_, sound.resumedOnce, ?_, ?_⟩
  · rw [sound.fastened.attributes]
    cases m.statics.runtime.owned <;> decide
  · rw [sound.fastened.handled]
  · intro answers frame user running
    have outside : frame.cs &&& 3 ≠ 0 := by
      rw [user]
      decide
    rw [gateStep, running, if_neg nofun]
    unfold GateMachine.dispatch
    rcases interruptDispatch_user answers m.statics frame outside with
      fatal | ⟨owned, armed, entered⟩
    · rw [fatal]
      exact .inl rfl
    rw [entered]
    cases sound.phase with
    | closed unowned _ => exact nomatch owned.symm.trans unowned
    | entered _ _ state _ _ _ | returned _ state _ =>
      exact nomatch armed.symm.trans state
    | armed _ _ _ unentered arm => exact .inr ⟨arm, unentered, rfl⟩
  · intro frame resumeStack ok
    exact sound.accepted ok
  · intro interrupts gate ok
    rcases interruptProcessGateDisarm_cases interrupts m.statics gate with
      ⟨refused, -⟩ | ⟨-, -, -, settled, token, same, current⟩
    · exact absurd ok refused
    · exact ⟨settled, token, same, of_decide_eq_true current⟩

-- One arm, one entry, one resume, and a second frame that finds the gate used up.
example :
    let answers : DispatchAnswers := ⟨true, false, false, true⟩
    let frame : InterruptFrame := ⟨0x7000, 0x81, 0x1B⟩
    let calls : List GateCall :=
      [.arm false (some 7) 0 (some inactiveGate) true, .dispatch answers (some frame),
        .requestKernelResume (some frame) 0x6008, .handlerReturns answers 0,
        .dispatch answers (some frame)]
    let m := run gateStep (bootGate true) calls
    m.history = [.returned 0x6008, .accepted 0x7000 0x6008, .entered 0x7000, .armed 1] ∧
      m.halted = true := by
  decide

end

end Sapote.Interrupts
