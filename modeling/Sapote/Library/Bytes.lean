import Mathlib.Data.Nat.Digits.Lemmas
import Mathlib.Data.List.GetD

/-!
Numbers in little-endian bytes, and records of such numbers laid out one after the other.
A string of bytes is a record exactly if every field of it, read at its place, has the
value of the record.
-/

namespace Sapote.Library
open List

def littleEndian (bytes : List UInt8) : Nat := Nat.ofDigits 256 (bytes.map UInt8.toNat)

def bytesOf : Nat → Nat → List UInt8
  | 0, _ => []
  | width + 1, value => UInt8.ofNat value :: bytesOf width (value / 256)

@[simp]
theorem littleEndian_nil : littleEndian [] = 0 := rfl

@[simp]
theorem littleEndian_cons (b : UInt8) (bytes : List UInt8) :
    littleEndian (b :: bytes) = b.toNat + 256 * littleEndian bytes := by
  rfl

theorem littleEndian_lt (bytes : List UInt8) : littleEndian bytes < 256 ^ bytes.length := by
  induction bytes with
  | nil => exact one_pos
  | cons b bytes ih =>
    have low := b.toNat_lt
    rw [littleEndian_cons, length_cons, pow_succ]
    omega

@[simp]
theorem bytesOf_length (width value : Nat) : (bytesOf width value).length = width := by
  induction width generalizing value with
  | zero => rfl
  | succ width ih => rw [bytesOf, length_cons, ih]

theorem littleEndian_bytesOf {width value : Nat} (fits : value < 256 ^ width) :
    littleEndian (bytesOf width value) = value := by
  induction width generalizing value with
  | zero => exact (Nat.lt_one_iff.mp fits).symm
  | succ width ih =>
    have rest : value / 256 < 256 ^ width := by omega
    rw [bytesOf, littleEndian_cons, ih rest, UInt8.toNat_ofNat']
    omega

theorem bytesOf_littleEndian (bytes : List UInt8) :
    bytesOf bytes.length (littleEndian bytes) = bytes := by
  induction bytes with
  | nil => rfl
  | cons b bytes ih =>
    have low := b.toNat_lt
    have same : UInt8.ofNat (b.toNat + 256 * littleEndian bytes) = b := by
      rw [← UInt8.toNat_inj, UInt8.toNat_ofNat']
      omega
    have rest : (b.toNat + 256 * littleEndian bytes) / 256 = littleEndian bytes := by omega
    rw [length_cons, bytesOf, littleEndian_cons, same, rest, ih]

section
variable {input : List UInt8}

def fieldAt (input : List UInt8) (offset width : Nat) : Nat :=
  littleEndian ((input.drop offset).take width)

theorem fieldAt_lt (input : List UInt8) (offset width : Nat) :
    fieldAt input offset width < 256 ^ width :=
  (littleEndian_lt _).trans_le (Nat.pow_le_pow_right (by omega) (length_take_le _ _))

theorem fieldAt_drop (input : List UInt8) (skip offset width : Nat) :
    fieldAt (input.drop skip) offset width = fieldAt input (skip + offset) width := by
  simp only [fieldAt, drop_drop]

theorem fieldAt_take {count offset width : Nat} (inside : offset + width ≤ count) :
    fieldAt (input.take count) offset width = fieldAt input offset width := by
  rw [fieldAt, drop_take, take_take, min_eq_left (by omega), fieldAt]

theorem fieldAt_append {more : List UInt8} {offset width : Nat} (inside : offset + width ≤ input.length) :
    fieldAt (input ++ more) offset width = fieldAt input offset width := by
  have first := @fieldAt_take (input ++ more) _ _ _ inside
  rw [take_left] at first
  exact first.symm

abbrev Field := Nat × Nat

def encodeFields (fields : List Field) : List UInt8 :=
  fields.flatMap fun f => bytesOf f.1 f.2

def HasFields (input : List UInt8) : Nat → List Field → Prop
  | _, [] => True
  | offset, f :: rest => fieldAt input offset f.1 = f.2 ∧ HasFields input (offset + f.1) rest

theorem encodeFields_length (fields : List Field) :
    (encodeFields fields).length = (fields.map Prod.fst).sum := by
  induction fields with
  | nil => rfl
  | cons f rest ih =>
    have split : encodeFields (f :: rest) = bytesOf f.1 f.2 ++ encodeFields rest := rfl
    rw [split, length_append, bytesOf_length, ih, map_cons, sum_cons]

theorem drop_eq_encodeFields_iff {fields : List Field} {offset : Nat}
    (fits : ∀ f ∈ fields, f.2 < 256 ^ f.1)
    (length : input.length = offset + (fields.map Prod.fst).sum) :
    input.drop offset = encodeFields fields ↔ HasFields input offset fields := by
  induction fields generalizing offset with
  | nil =>
    rw [map_nil, sum_nil, add_zero] at length
    rw [← length, drop_length]
    exact iff_of_true rfl trivial
  | cons f rest ih =>
    rw [map_cons, sum_cons, ← add_assoc] at length
    have later := ih (fun g member => fits g (.tail f member)) length
    have split : input.drop offset = (input.drop offset).take f.1 ++ input.drop (offset + f.1) := by
      rw [← drop_drop, take_append_drop]
    have width : ((input.drop offset).take f.1).length = f.1 := by
      rw [length_take, length_drop]
      omega
    have head : (input.drop offset).take f.1 = bytesOf f.1 f.2 ↔
        fieldAt input offset f.1 = f.2 := by
      rw [fieldAt]
      generalize (input.drop offset).take f.1 = bytes at width
      constructor
      · rintro rfl
        exact littleEndian_bytesOf (fits f mem_cons_self)
      · intro same
        rw [← same, ← width, bytesOf_littleEndian]
    rw [HasFields, ← later, ← head]
    constructor
    · intro same
      exact append_inj (split.symm.trans same) (width.trans (bytesOf_length _ _).symm)
    · rintro ⟨first, second⟩
      rw [split, first, second]
      rfl

/-- Bytes are those of a record if they have its length and its fields. -/
theorem eq_encodeFields_iff {fields : List Field} (fits : ∀ f ∈ fields, f.2 < 256 ^ f.1)
    (length : input.length = (fields.map Prod.fst).sum) :
    input = encodeFields fields ↔ HasFields input 0 fields := by
  rw [← zero_add (List.sum _)] at length
  exact drop_eq_encodeFields_iff fits length

theorem hasFields_append {first second : List Field} {offset : Nat} :
    HasFields input offset (first ++ second) ↔
      HasFields input offset first ∧ HasFields input (offset + (first.map Prod.fst).sum) second := by
  induction first generalizing offset with
  | nil => exact ⟨fun h => ⟨trivial, h⟩, fun h => h.2⟩
  | cons f rest ih =>
    simp only [cons_append, HasFields, ih, and_assoc, map_cons, sum_cons,
      add_assoc]

end

end Sapote.Library
