import Mathlib.Algebra.Group.Nat.Defs
import Mathlib.Data.List.FinRange

/-!
Dynamic interrupt vectors, `interrupt_vector.c`, and the handler table of
`interrupts.c`. A slot of the handler table without a handler has no context either:
registering writes both and unregistering clears both.
-/

namespace Sapote.Interrupts
open Function

def interruptDynamicBase : Nat := 0x90
def interruptDynamicLimit : Nat := 0xF0
def interruptProcessProofVector : Nat := 0x81
def dynamicVectorCount : Nat := interruptDynamicLimit - interruptDynamicBase

inductive InterruptVectorStatus where
  | ok | notInitialized | interruptsEnabled | reserved | alreadyAllocated | exhausted
  | doubleRelease | staleAllocation
  deriving DecidableEq

structure InterruptVectorAllocation where
  vector : Nat
  generation : BitVec 32
  active : Bool
  deriving DecidableEq

structure InterruptVectors where
  allocated : Nat → Bool
  generations : Nat → BitVec 32
  (allocatedCount freeCount : Nat)
  active : Bool

def vectorIsDynamic (vector : Nat) : Bool :=
  interruptDynamicBase ≤ vector ∧ vector < interruptDynamicLimit

def vectorIndex (vector : Nat) : Nat := vector - interruptDynamicBase

def noAllocation : InterruptVectorAllocation := ⟨0, 0, false⟩

def nextGeneration (generation : BitVec 32) : BitVec 32 :=
  if generation + 1 = 0 then generation + 2 else generation + 1

def interruptVectorAllocateSpecific (interrupts : Bool) (s : InterruptVectors) (vector : Nat) :
    InterruptVectorStatus × InterruptVectors × InterruptVectorAllocation :=
  if !s.active then (.notInitialized, s, noAllocation)
  else if interrupts then (.interruptsEnabled, s, noAllocation)
  else if !vectorIsDynamic vector then (.reserved, s, noAllocation)
  else if s.allocated (vectorIndex vector) then (.alreadyAllocated, s, noAllocation)
  else
    let generation := nextGeneration (s.generations (vectorIndex vector))
    (.ok,
      { s with
        generations := Function.update s.generations (vectorIndex vector) generation
        allocated := Function.update s.allocated (vectorIndex vector) true
        allocatedCount := s.allocatedCount + 1
        freeCount := s.freeCount - 1 },
      ⟨vector, generation, true⟩)

def interruptVectorAllocate (interrupts : Bool) (s : InterruptVectors) :
    InterruptVectorStatus × InterruptVectors × InterruptVectorAllocation :=
  if !s.active then (.notInitialized, s, noAllocation)
  else if interrupts then (.interruptsEnabled, s, noAllocation)
  else
    match (List.range' interruptDynamicBase dynamicVectorCount).find? fun vector =>
        !s.allocated (vectorIndex vector) with
    | none => (.exhausted, s, noAllocation)
    | some vector => interruptVectorAllocateSpecific interrupts s vector

def interruptVectorRelease (interrupts : Bool) (s : InterruptVectors)
    (allocation : InterruptVectorAllocation) :
    InterruptVectorStatus × InterruptVectors × InterruptVectorAllocation :=
  if !s.active then (.notInitialized, s, allocation)
  else if interrupts then (.interruptsEnabled, s, allocation)
  else if !vectorIsDynamic allocation.vector then (.reserved, s, allocation)
  else if !allocation.active || !s.allocated (vectorIndex allocation.vector) then
    (.doubleRelease, s, allocation)
  else if s.generations (vectorIndex allocation.vector) ≠ allocation.generation then
    (.staleAllocation, s, allocation)
  else
    (.ok,
      { s with
        allocated := Function.update s.allocated (vectorIndex allocation.vector) false
        allocatedCount := s.allocatedCount - 1
        freeCount := s.freeCount + 1 },
      { allocation with active := false })

inductive InterruptStatus where
  | ok | notInitialized | interruptsEnabled | handlerPresent | handlerMissing | reservedVector
  | nullHandler | badArgument | proofGateBusy | proofGateBadToken | proofGateBadState
  | proofGateBadDescriptor | proofGateBadFrame | proofGateBadResume
  deriving DecidableEq

/-- A handler and its context, under the names their pointers give them. -/
structure HandlerEntry where
  (handler context : Nat)
  deriving DecidableEq

structure HandlerTable where
  handlers : Nat → Option HandlerEntry
  initialized : Bool

def vectorReserved (vector : Nat) : Bool :=
  vector = 2 ∨ vector = 8 ∨ vector = 18 ∨ vector = interruptProcessProofVector

def interruptRegisterHandler (interrupts : Bool) (s : HandlerTable) (vector : Nat)
    (handler : Option Nat) (context : Nat) : InterruptStatus × HandlerTable :=
  if !s.initialized then (.notInitialized, s)
  else
    match handler with
    | none => (.nullHandler, s)
    | some handler =>
      if interrupts then (.interruptsEnabled, s)
      else if vectorReserved vector then (.reservedVector, s)
      else if (s.handlers vector).isSome then (.handlerPresent, s)
      else (.ok, { s with handlers := Function.update s.handlers vector (some ⟨handler, context⟩) })

def interruptUnregisterHandler (interrupts : Bool) (s : HandlerTable) (vector : Nat) :
    InterruptStatus × HandlerTable :=
  if !s.initialized then (.notInitialized, s)
  else if interrupts then (.interruptsEnabled, s)
  else if vectorReserved vector then (.reservedVector, s)
  else if (s.handlers vector).isNone then (.handlerMissing, s)
  else (.ok, { s with handlers := Function.update s.handlers vector none })

section
variable {s t : InterruptVectors} {allocation : InterruptVectorAllocation}

structure Takes (s t : InterruptVectors) (allocation : InterruptVectorAllocation) : Prop where
  active : t.active
  dynamic : vectorIsDynamic allocation.vector
  free : s.allocated (vectorIndex allocation.vector) = false
  taken : t.allocated = Function.update s.allocated (vectorIndex allocation.vector) true
  generation : t.generations (vectorIndex allocation.vector) = allocation.generation

theorem interruptVectorAllocate_cases (s : InterruptVectors) :
    let result := interruptVectorAllocate false s
    (result.1 ≠ .ok ∧ result.2.1 = s ∧ result.2.2.active = false) ∨
      result.1 = .ok ∧ result.2.2.active ∧ Takes s result.2.1 result.2.2 := by
  intro result
  unfold result interruptVectorAllocate
  split
  · exact .inl ⟨nofun, rfl, rfl⟩
  next running =>
  rw [if_neg (by decide)]
  split
  · exact .inl ⟨nofun, rfl, rfl⟩
  next vector found =>
  have free := List.find?_some found
  have range := List.mem_of_find?_eq_some found
  rw [List.mem_range'_1] at range
  have dynamic : vectorIsDynamic vector := by
    unfold vectorIsDynamic interruptDynamicBase interruptDynamicLimit
    unfold dynamicVectorCount interruptDynamicLimit interruptDynamicBase at range
    exact decide_eq_true ⟨range.1, by omega⟩
  have unused : s.allocated (vectorIndex vector) = false := by simpa using free
  rw [interruptVectorAllocateSpecific, if_neg running, if_neg (by decide), dynamic,
    if_neg (by decide), unused, if_neg (by decide)]
  refine .inr ⟨rfl, rfl, ?_, dynamic, unused, ?_, ?_⟩
  · simpa using running
  · dsimp only
  · dsimp only
    rw [update_self]

/-- Releasing what was taken gives the set of allocated vectors back. -/
theorem Takes.released (takes : Takes s t allocation) (held : allocation.active) :
    let result := interruptVectorRelease false t allocation
    result.1 = .ok ∧ result.2.1.allocated = s.allocated ∧ result.2.2.active = false := by
  have here : t.allocated (vectorIndex allocation.vector) := by
    rw [takes.taken, update_self]
  unfold interruptVectorRelease
  rw [takes.active, if_neg (by decide), if_neg (by decide), takes.dynamic, if_neg (by decide),
    held, here, if_neg (by decide), if_neg (not_not.mpr takes.generation)]
  refine ⟨rfl, ?_, rfl⟩
  dsimp only
  rw [takes.taken, update_idem]
  exact update_eq_self_iff.mpr takes.free.symm

end

section
variable {s t : HandlerTable} {vector : Nat}

structure Installs (s t : HandlerTable) (vector : Nat) : Prop where
  initialized : t.initialized
  free : vectorReserved vector = false
  missing : s.handlers vector = none
  installed : ∃ entry, t = { s with handlers := Function.update s.handlers vector (some entry) }

theorem interruptRegisterHandler_cases (s : HandlerTable) (vector : Nat) (handler : Option Nat)
    (context : Nat) :
    let result := interruptRegisterHandler false s vector handler context
    (result.1 ≠ .ok ∧ result.2 = s) ∨ result.1 = .ok ∧ Installs s result.2 vector := by
  intro result
  unfold result interruptRegisterHandler
  split
  · exact .inl ⟨nofun, rfl⟩
  next running =>
  split
  · exact .inl ⟨nofun, rfl⟩
  rw [if_neg (by decide)]
  split
  · exact .inl ⟨nofun, rfl⟩
  next free =>
  split
  · exact .inl ⟨nofun, rfl⟩
  next missing =>
  exact .inr ⟨rfl, by simpa using running, eq_false_of_ne_true free,
    Option.not_isSome_iff_eq_none.mp missing, _, rfl⟩

/-- Unregistering what was installed gives the handler table back. -/
theorem Installs.removed (installs : Installs s t vector) :
    interruptUnregisterHandler false t vector = (.ok, s) := by
  have running := installs.initialized
  obtain ⟨entry, rfl⟩ := installs.installed
  unfold interruptUnregisterHandler
  have kept : update (update s.handlers vector (some entry)) vector none =
      s.handlers := by
    rw [update_idem]
    exact update_eq_self_iff.mpr installs.missing.symm
  have present : ((update s.handlers vector (some entry)) vector).isNone = false := by
    rw [update_self]
    rfl
  rw [running, if_neg (by decide), if_neg (by decide), installs.free, if_neg (by decide),
    if_neg (by rw [present]; decide), kept, ← running]

end

end Sapote.Interrupts
