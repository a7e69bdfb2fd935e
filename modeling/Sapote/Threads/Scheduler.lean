import Mathlib.Algebra.Group.Nat.Defs
import Mathlib.Data.Fintype.Basic

/-!
The thread table and its round-robin scheduler, `thread.c`. The saved stack pointer
of a thread that does not run is modelled by the place it resumes at. Frames and
stack pages are kept as the layers below keep them: a frame is handed out once, a
page can be unmapped when it is mapped. A panic stops the machine.
-/

namespace Sapote.Threads

def threadMax : Nat := 8
def threadStackPages : Nat := 4
def pagingPageSize : Nat := 4096
def threadStackRegion : Nat := 0x800000000
def threadStackSize : Nat := threadStackPages * pagingPageSize
def threadStackStride : Nat := threadStackSize + pagingPageSize
def threadIdNone : Nat := 0

abbrev Slot := Fin threadMax

def bootSlot : Slot := ⟨0, by decide⟩

inductive ThreadState where
  | unused | ready | running | exited
  deriving DecidableEq

inductive ThreadStatus where
  | ok | nullArgument | alreadyStarted | notStarted | interruptsEnabled | noHeap | noMemory
  | noCapacity | outOfFrames | mappingFailure | badIdentifier | notTheBootThread
  | threadsStillRunnable | noTimer | noQuantum | alreadyPreemptive | notPreemptive
  | validationFailure
  deriving DecidableEq

/-- What the saved stack pointer of a thread leads back to. -/
inductive Resumption where
  | nowhere | trampoline
  | switchToNext (interrupted : Bool)
  | threadExit
  deriving DecidableEq

inductive Panic where
  | noNextQuantum | exitedBeforeStart | bootThreadExit | lastRunnableExited | exitedThreadScheduled
  deriving DecidableEq

structure Thread where
  resumption : Resumption
  (stackBase stackTop identifier switches entry context : Nat)
  state : ThreadState
  bootThread : Bool
  deriving DecidableEq

def unusedThread : Thread := ⟨.nowhere, 0, 0, threadIdNone, 0, 0, 0, .unused, false⟩

/-- The statics of the file, the stack pages with the frames behind them, the frames
that are taken, whether the heap holds the table, and the interrupt flag. -/
structure ThreadSystem where
  active : Bool
  (live ready exited current switches stackFrames preemptions : Nat)
  preemptive : Bool
  threads : Slot → Thread
  currentSlot : Slot
  nextIdentifier : Nat
  reschedulePending : Bool
  quantumIdentifier : Nat
  tableHeld : Bool
  stackPages : Slot → Nat → Option Nat
  (taken tableFrames : Nat → Bool)
  interruptsEnabled : Bool
  panic : Option Panic

def slotGuardPage (slot : Slot) : Nat := threadStackRegion + slot * threadStackStride
def slotStackBase (slot : Slot) : Nat := slotGuardPage slot + pagingPageSize
def slotStackTop (slot : Slot) : Nat := slotStackBase slot + threadStackSize

/-- The slot `step` places after `origin`, wrapping. -/
def slotAfter (origin : Slot) (step : Nat) : Slot :=
  ⟨(origin + step) % threadMax, Nat.mod_lt _ (by decide)⟩

def nextReadySlot (system : ThreadSystem) (origin : Slot) : Slot :=
  ((List.range threadMax).findSome? fun step =>
    if (system.threads (slotAfter origin (step + 1))).state = .ready then
      some (slotAfter origin (step + 1))
    else none).getD origin

def countSlots (system : ThreadSystem) (wanted : ThreadState → Bool) : Nat :=
  (List.finRange threadMax).countP fun slot => wanted (system.threads slot).state

def recount (system : ThreadSystem) : ThreadSystem :=
  { system with
    live := countSlots system fun state => state = .ready || state = .running
    ready := countSlots system fun state => state = .ready
    exited := countSlots system fun state => state = .exited }

def setThread (system : ThreadSystem) (slot : Slot) (thread : Thread) : ThreadSystem :=
  { system with threads := Function.update system.threads slot thread }

def setState (system : ThreadSystem) (slot : Slot) (state : ThreadState) : ThreadSystem :=
  setThread system slot { system.threads slot with state := state }

def accountSwitch (system : ThreadSystem) (target : Slot) : ThreadSystem :=
  let thread := system.threads target
  { setThread system target { thread with switches := (thread.switches + 1) % 2 ^ 64 } with
    switches := (system.switches + 1) % 2 ^ 64
    current := thread.identifier
    currentSlot := target }

/-- The frame allocator hands out any frame that is not taken, or none. -/
def frameAllocate (system : ThreadSystem) (choice : Option Nat) :
    Option (Nat × ThreadSystem) :=
  match choice with
  | none => none
  | some frame =>
    if system.taken frame || system.tableFrames frame then none
    else some (frame, { system with taken := Function.update system.taken frame true })

def frameRelease (system : ThreadSystem) (frame : Nat) : Option ThreadSystem :=
  if system.taken frame then
    some { system with taken := Function.update system.taken frame false }
  else none

def setPage (system : ThreadSystem) (slot : Slot) (page : Nat) (frame : Option Nat) :
    ThreadSystem :=
  { system with
    stackPages := Function.update system.stackPages slot
      (Function.update (system.stackPages slot) page frame) }

/-- How the paging layer answers for the pages of a stack: which pages it maps, the frames it
draws for page tables on the way, which it keeps when it is refused half way, and the page tables
that it gives back when the page is unmapped. -/
structure PagingAnswers where
  mappable : Nat → Bool
  (drawn returned : Nat → List Nat)

/-- A page that is mapped already is refused before a table is drawn. -/
def pagingMap (system : ThreadSystem) (slot : Slot) (page frame : Nat) (answers : PagingAnswers) :
    Bool × ThreadSystem :=
  if (system.stackPages slot page).isSome then (false, system)
  else
    let linked := { system with
      tableFrames := fun frame => system.tableFrames frame || (answers.drawn page).contains frame }
    if answers.mappable page then (true, setPage linked slot page (some frame)) else (false, linked)

def pagingUnmap (system : ThreadSystem) (slot : Slot) (page : Nat) (returned : List Nat) :
    ThreadSystem :=
  { setPage system slot page none with
    tableFrames := fun frame => system.tableFrames frame && !returned.contains frame }

def mapPages (slot : Slot) (supply : Nat → Option Nat) (answers : PagingAnswers) :
    List Nat → ThreadSystem → ThreadStatus × Nat × ThreadSystem
  | [], system => (.ok, 0, system)
  | page :: pages, system =>
    match frameAllocate system (supply page) with
    | none => (.outOfFrames, 0, system)
    | some (frame, allocated) =>
      match pagingMap allocated slot page frame answers with
      | (false, refused) => (.mappingFailure, 0, (frameRelease refused frame).getD refused)
      | (true, mapped) =>
        let rest := mapPages slot supply answers pages mapped
        (rest.1, rest.2.1 + 1, rest.2.2)

/-- One page of the unwinding; what fails is ignored. -/
def unwindPage (slot : Slot) (answers : PagingAnswers) (system : ThreadSystem) (page : Nat) :
    ThreadSystem :=
  match system.stackPages slot page with
  | none => system
  | some frame =>
    let unmapped := pagingUnmap system slot page (answers.returned page)
    (frameRelease unmapped frame).getD unmapped

def mapStack (system : ThreadSystem) (slot : Slot) (supply : Nat → Option Nat)
    (answers : PagingAnswers) : ThreadStatus × ThreadSystem :=
  let mapped := mapPages slot supply answers (List.range threadStackPages) system
  if mapped.2.1 ≠ threadStackPages then
    (mapped.1, (List.range mapped.2.1).foldl (unwindPage slot answers) mapped.2.2)
  else
    (.ok, { mapped.2.2 with
      stackFrames := (mapped.2.2.stackFrames + threadStackPages) % 2 ^ 64 })

def unmapStack (slot : Slot) (returned : Nat → List Nat) :
    List Nat → ThreadSystem → ThreadStatus × ThreadSystem
  | [], system => (.ok, system)
  | page :: pages, system =>
    match system.stackPages slot page with
    | none => (.validationFailure, system)
    | some frame =>
      let unmapped := pagingUnmap system slot page (returned page)
      match frameRelease unmapped frame with
      | none => (.validationFailure, unmapped)
      | some released =>
        unmapStack slot returned pages
          { released with stackFrames := (released.stackFrames + (2 ^ 64 - 1)) % 2 ^ 64 }

/-- `heap` and `paging` are whether those are up, `memory` whether the table fits. -/
def threadStart (system : ThreadSystem) (heap paging memory : Bool) :
    ThreadStatus × ThreadSystem :=
  if system.active then (.alreadyStarted, system)
  else if system.interruptsEnabled then (.interruptsEnabled, system)
  else if !heap || !paging then (.noHeap, system)
  else if !memory then (.noMemory, system)
  else
    let cleared := { system with
      tableHeld := true, switches := 0, stackFrames := 0, nextIdentifier := 1
      threads := fun _ => unusedThread }
    let boot := setThread cleared bootSlot { unusedThread with
      identifier := cleared.nextIdentifier, state := .running, bootThread := true }
    (.ok, recount { boot with
      nextIdentifier := cleared.nextIdentifier + 1, currentSlot := bootSlot
      current := cleared.nextIdentifier, preemptions := 0, preemptive := false
      reschedulePending := false, quantumIdentifier := threadIdNone, active := true })

def unusedSlot (system : ThreadSystem) : Option Slot :=
  (List.finRange threadMax).tail.find? fun slot => (system.threads slot).state = .unused

/-- The status and the identifier handed out; `writable` is a non-null `identifier`. -/
def threadCreate (system : ThreadSystem) (entry context : Nat) (writable : Bool)
    (supply : Nat → Option Nat) (answers : PagingAnswers) : ThreadStatus × Nat × ThreadSystem :=
  if entry = 0 ∨ !writable then (.nullArgument, threadIdNone, system)
  else if !system.active then (.notStarted, threadIdNone, system)
  else if system.interruptsEnabled then (.interruptsEnabled, threadIdNone, system)
  else
    match unusedSlot system with
    | none => (.noCapacity, threadIdNone, system)
    | some chosen =>
      let mapped := mapStack system chosen supply answers
      if mapped.1 ≠ .ok then (mapped.1, threadIdNone, mapped.2)
      else
        let identifier := mapped.2.nextIdentifier
        let thread : Thread :=
          { resumption := .trampoline
            stackBase := slotStackBase chosen
            stackTop := slotStackTop chosen
            identifier := identifier
            switches := 0
            entry := entry
            context := context
            state := .ready
            bootThread := false }
        (.ok, identifier, recount { setThread mapped.2 chosen thread with
          nextIdentifier := (identifier + 1) % 2 ^ 64 })

def suspend (system : ThreadSystem) (slot : Slot) (resumption : Resumption) : ThreadSystem :=
  setThread system slot { system.threads slot with resumption := resumption }

/-- What the thread just switched to does first, up to its own code. -/
def resume (system : ThreadSystem) : ThreadSystem :=
  match (system.threads system.currentSlot).resumption with
  | .nowhere => system
  | .trampoline => { system with interruptsEnabled := true }
  | .switchToNext interrupted => { system with interruptsEnabled := interrupted }
  | .threadExit => { system with panic := some .exitedThreadScheduled }

def switchToNext (system : ThreadSystem) : ThreadSystem :=
  let interrupted := system.interruptsEnabled
  let system := { system with interruptsEnabled := false }
  let previous := system.currentSlot
  let next := nextReadySlot system previous
  if next = previous then { system with interruptsEnabled := interrupted }
  else
    let system :=
      if (system.threads previous).state = .running then setState system previous .ready
      else system
    let system := recount (accountSwitch (setState system next .running) next)
    resume (suspend system previous (.switchToNext interrupted))

def threadYield (system : ThreadSystem) : ThreadSystem :=
  if !system.active then system else switchToNext system

/-- `armed` is the identifier `timer_arm` returned, if it did. -/
def armQuantum (system : ThreadSystem) (armed : Option Nat) : ThreadStatus × ThreadSystem :=
  match armed with
  | none => (.noQuantum, { system with quantumIdentifier := threadIdNone })
  | some identifier => (.ok, { system with quantumIdentifier := identifier })

def quantumExpired (system : ThreadSystem) (armed : Option Nat) : ThreadSystem :=
  let system := { system with quantumIdentifier := threadIdNone }
  if !system.active || !system.preemptive then system
  else
    let quantum := armQuantum system armed
    if quantum.1 ≠ .ok then { quantum.2 with panic := some .noNextQuantum }
    else if nextReadySlot quantum.2 quantum.2.currentSlot ≠ quantum.2.currentSlot then
      { quantum.2 with
        reschedulePending := true
        preemptions := (quantum.2.preemptions + 1) % 2 ^ 64 }
    else quantum.2

def threadOnInterruptReturn (system : ThreadSystem) : ThreadSystem :=
  if !system.reschedulePending then system
  else
    let system := { system with reschedulePending := false }
    if !system.active then system else switchToNext system

def threadEnablePreemption (system : ThreadSystem) (timer : Bool) (armed : Option Nat) :
    ThreadStatus × ThreadSystem :=
  if !system.active then (.notStarted, system)
  else if system.preemptive then (.alreadyPreemptive, system)
  else if !timer then (.noTimer, system)
  else
    let quantum := armQuantum { system with preemptive := true } armed
    if quantum.1 ≠ .ok then (quantum.1, { quantum.2 with preemptive := false })
    else quantum

def threadDisablePreemption (system : ThreadSystem) : ThreadStatus × ThreadSystem :=
  if !system.active then (.notStarted, system)
  else if !system.preemptive then (.notPreemptive, system)
  else
    (.ok, { system with
      preemptive := false, quantumIdentifier := threadIdNone, reschedulePending := false })

def threadExit (system : ThreadSystem) : ThreadSystem :=
  if !system.active then { system with panic := some .exitedBeforeStart }
  else
    let system := { system with interruptsEnabled := false }
    let previous := system.currentSlot
    if (system.threads previous).bootThread then { system with panic := some .bootThreadExit }
    else
      let system := setState system previous .exited
      let next := nextReadySlot system previous
      if next = previous then { system with panic := some .lastRunnableExited }
      else
        let system := recount (accountSwitch (setState system next .running) next)
        resume (suspend system previous .threadExit)

def releaseExited (returned : Slot → Nat → List Nat) :
    List Slot → ThreadSystem → ThreadStatus × ThreadSystem
  | [], system => (.ok, system)
  | slot :: slots, system =>
    if (system.threads slot).state = .exited then
      let unmapped := unmapStack slot (returned slot) (List.range threadStackPages) system
      if unmapped.1 ≠ .ok then unmapped
      else releaseExited returned slots (setThread unmapped.2 slot unusedThread)
    else releaseExited returned slots system

def threadStop (system : ThreadSystem) (returned : Slot → Nat → List Nat) :
    ThreadStatus × ThreadSystem :=
  if !system.active then (.notStarted, system)
  else if system.interruptsEnabled then (.interruptsEnabled, system)
  else if !(system.threads system.currentSlot).bootThread then (.notTheBootThread, system)
  else
    let system := if system.preemptive then (threadDisablePreemption system).2 else system
    if (List.finRange threadMax).tail.any fun slot =>
        (system.threads slot).state = .ready || (system.threads slot).state = .running then
      (.threadsStillRunnable, system)
    else
      let released := releaseExited returned (List.finRange threadMax).tail system
      if released.1 ≠ .ok then released
      else if released.2.stackFrames ≠ 0 then (.validationFailure, released.2)
      else if !released.2.tableHeld then (.validationFailure, released.2)
      else
        (.ok, { released.2 with
          tableHeld := false, active := false, preemptive := false, reschedulePending := false
          quantumIdentifier := threadIdNone, live := 0, ready := 0, exited := 0
          current := threadIdNone, currentSlot := bootSlot })

inductive ThreadEvent where
  | create (entry context : Nat) (writable : Bool) (supply : Nat → Option Nat)
      (answers : PagingAnswers)
  | yield
  | quantumExpired (armed : Option Nat)
  | interruptReturn | exit
  | enablePreemption (timer : Bool) (armed : Option Nat)
  | disablePreemption
  | stop (returned : Slot → Nat → List Nat)
  | setInterrupts (enabled : Bool)

/-- The status the event returned, if it has one. After a panic nothing happens. -/
def threadStep (system : ThreadSystem) (event : ThreadEvent) :
    Option ThreadStatus × ThreadSystem :=
  if system.panic.isSome then (none, system)
  else
    match event with
    | .create entry context writable supply answers =>
      let created := threadCreate system entry context writable supply answers
      (some created.1, created.2.2)
    | .yield => (none, threadYield system)
    | .quantumExpired armed => (none, quantumExpired system armed)
    | .interruptReturn => (none, threadOnInterruptReturn system)
    | .exit => (none, threadExit system)
    | .enablePreemption timer armed =>
      let enabled := threadEnablePreemption system timer armed
      (some enabled.1, enabled.2)
    | .disablePreemption =>
      let disabled := threadDisablePreemption system
      (some disabled.1, disabled.2)
    | .stop returned =>
      let stopped := threadStop system returned
      (some stopped.1, stopped.2)
    | .setInterrupts enabled => (none, { system with interruptsEnabled := enabled })

end Sapote.Threads
