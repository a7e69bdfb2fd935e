import Sapote.Library.Bytes
import Sapote.Library.Checks

/-!
Functions that read memory of which only a part is there. A read of the rest is a fault, so a
function that does not fault in a memory with nothing but a window reads inside that window.
-/

namespace Sapote.Library
open List

/-- Why a function gives no result: it says so, it reads what is not there, or its loop does not
come to an end within the turns it was given. -/
inductive Stop (ε : Type) where
  | refused (status : ε)
  | fault | unfinished
  deriving DecidableEq

def Stop.IsRefusal {ε : Type} : Stop ε → Prop
  | .refused _ => True
  | _ => False

section
variable {ε α O : Type}

def lift : Except ε α → Except (Stop ε) α
  | .ok a => .ok a
  | .error status => .error (.refused status)

/-- What a refusal leaves in an output goes with its status. -/
def leaving (output : O) : Except (Stop ε) α → Except (Stop (ε × O)) α
  | .ok a => .ok a
  | .error (.refused status) => .error (.refused (status, output))
  | .error .fault => .error .fault
  | .error .unfinished => .error .unfinished

theorem lift_injective : Function.Injective (lift : Except ε α → Except (Stop ε) α) := by
  rintro (e | a) (e' | a') same <;> cases same <;> rfl

@[simp]
theorem leaving_lift_eq_ok {output : O} {x : Except ε α} {a : α} :
    leaving output (lift x) = .ok a ↔ x = .ok a := by
  cases x with
  | ok b => rw [lift, leaving, Except.ok.injEq, Except.ok.injEq]
  | error status => exact iff_of_false nofun nofun

theorem leaving_lift_refuses {output : O} {x : Except ε α} :
    Refuses (leaving output (lift x)) fun stop => ∃ status, stop = .refused (status, output) := by
  cases x with
  | ok b => exact .ok
  | error status =>
    rintro _ ⟨⟩
    exact ⟨status, rfl⟩

end

abbrev Memory (B : Type) := Nat → Option B

variable {ε B : Type} {memory : Memory B} {start : Nat} {bytes : List B}

def readByte (memory : Memory B) (address : Nat) : Except (Stop ε) B :=
  okOr (memory address) .fault

def readBytes (memory : Memory B) (address : Nat) : Nat → Except (Stop ε) (List B)
  | 0 => .ok []
  | width + 1 => do
      let first ← readByte memory address
      let rest ← readBytes memory (address + 1) width
      .ok (first :: rest)

def readField (memory : Memory UInt8) (address width : Nat) : Except (Stop ε) Nat := do
  let bytes ← readBytes memory address width
  .ok (littleEndian bytes)

def Holds (memory : Memory B) (start : Nat) (bytes : List B) : Prop :=
  ∀ i b, bytes[i]? = some b → memory (start + i) = some b

def memoryOf (start : Nat) (bytes : List B) : Memory B := fun address =>
  if start ≤ address then bytes[address - start]? else none

theorem holds_memoryOf (start : Nat) (bytes : List B) : Holds (memoryOf start bytes) start bytes := by
  intro i b found
  rw [memoryOf, if_pos (Nat.le_add_right start i), Nat.add_sub_cancel_left]
  exact found

namespace Holds
open List

theorem drop (holds : Holds memory start bytes) (offset : Nat) :
    Holds memory (start + offset) (bytes.drop offset) := by
  intro i b found
  rw [getElem?_drop] at found
  rw [add_assoc]
  exact holds _ b found

theorem take (holds : Holds memory start bytes) (count : Nat) : Holds memory start (bytes.take count) := by
  intro i b found
  rw [getElem?_take] at found
  split at found
  · exact holds i b found
  · cases found

theorem left {more : List B} (holds : Holds memory start (bytes ++ more)) : Holds memory start bytes := by
  have first := holds.take bytes.length
  rwa [take_left] at first

theorem right {more : List B} (holds : Holds memory start (bytes ++ more)) :
    Holds memory (start + bytes.length) more := by
  have second := holds.drop bytes.length
  rwa [drop_left] at second

theorem readByte (holds : Holds memory start bytes) {offset : Nat} (inside : offset < bytes.length) :
    readByte memory (start + offset) = (.ok (bytes.get ⟨offset, inside⟩) : Except (Stop ε) B) := by
  rw [Library.readByte, holds offset _ (getElem?_eq_getElem inside)]
  rfl

theorem readByte_getD (holds : Holds memory start bytes) {offset : Nat} {default : B}
    (inside : offset < bytes.length) :
    Library.readByte memory (start + offset) = (.ok (bytes.getD offset default) : Except (Stop ε) B) := by
  rw [holds.readByte inside, getD_eq_getElem _ _ inside]
  rfl

theorem readBytes (holds : Holds memory start bytes) {offset width : Nat}
    (inside : offset + width ≤ bytes.length) :
    readBytes memory (start + offset) width =
      (.ok ((bytes.drop offset).take width) : Except (Stop ε) (List B)) := by
  induction width generalizing offset with
  | zero => rw [take_zero]; rfl
  | succ width ih =>
    have next := @ih (offset + 1) (by omega)
    rw [← add_assoc] at next
    rw [Library.readBytes, holds.readByte (by omega), ok_bind, next, ok_bind,
      drop_eq_getElem_cons (show offset < bytes.length by omega), take_succ_cons]
    rfl

theorem readField {memory : Memory UInt8} {bytes : List UInt8} (holds : Holds memory start bytes)
    {offset width : Nat} (inside : offset + width ≤ bytes.length) :
    readField memory (start + offset) width = (.ok (fieldAt bytes offset width) : Except (Stop ε) Nat) := by
  rw [Library.readField, holds.readBytes inside]
  rfl

end Holds

end Sapote.Library
