import Sapote.Acpi.Topology
import Sapote.Library.Reading

/-!
The walk over the interrupt controllers with every load from the table in it, and with what it
leaves in the caller's description. In a memory that has the table it is the walk over the bytes
of the table, and it does not look at anything else.
-/

namespace Sapote.Acpi.Loads
open List

open Library
variable {offset : Nat}

section
variable (memory : Memory Byte)

def acpiReadU16 (address : Nat) : Except (Stop AcpiStatus) Nat := do
  let low ← readByte memory address
  let high ← readByte memory (address + 1)
  .ok (low.toNat + 2 ^ 8 * high.toNat)

def acpiReadU32 (address : Nat) : Except (Stop AcpiStatus) Nat := do
  let low ← acpiReadU16 memory address
  let high ← acpiReadU16 memory (address + 2)
  .ok (low + 2 ^ 16 * high)

def acpiReadU64 (address : Nat) : Except (Stop AcpiStatus) Nat := do
  let low ← acpiReadU32 memory address
  let high ← acpiReadU32 memory (address + 4)
  .ok (low + 2 ^ 32 * high)

def acpiByteSum (address size : Nat) : Except (Stop AcpiStatus) Byte := do
  let bytes ← readBytes memory address size
  .ok (Acpi.acpiByteSum bytes)

def revalidateMadt (madt : AcpiMadt) : Except (Stop AcpiStatus) Unit := do
  accept (madt.physicalAddress ≠ 0) (.refused .nullTable)
  accept (acpiMadtFixedSize ≤ madt.length ∧ madt.length ≤ acpiMaxTableSize) (.refused .badMadtLength)
  accept (acpiSpanIsEarlyMapped madt.physicalAddress madt.length) (.refused .tableOutsideEarlyMap)
  let sum ← acpiByteSum memory madt.physicalAddress madt.length
  accept (sum = 0) (.refused .badTableChecksum)

def consumeEntry (topology : AcpiTopology) (entry length : Nat) : Except (Stop AcpiStatus) AcpiTopology := do
  let byte ← readByte memory entry
  let type := madtType byte.toNat
  match type.size with
  | none => .ok { topology with ignoredEntryCount := topology.ignoredEntryCount + 1 }
  | some expected => do
      accept (length = expected) (.refused .badMadtEntryLength)
      match type with
      | .localApic => do
          let processorUid ← readByte memory (entry + 2)
          let apicId ← readByte memory (entry + 3)
          let flags ← acpiReadU32 memory (entry + 4)
          lift (recordLocalApic topology processorUid.toNat apicId.toNat flags)
      | .ioApic => do
          let identifier ← readByte memory (entry + 2)
          let address ← acpiReadU32 memory (entry + 4)
          let interruptBase ← acpiReadU32 memory (entry + 8)
          lift (recordIoApic topology identifier.toNat address interruptBase)
      | .interruptOverride => do
          let bus ← readByte memory (entry + 2)
          let source ← readByte memory (entry + 3)
          let globalSystemInterrupt ← acpiReadU32 memory (entry + 4)
          let flags ← acpiReadU16 memory (entry + 8)
          lift (recordInterruptOverride topology bus.toNat source.toNat globalSystemInterrupt flags)
      | .localApicOverride => do
          let address ← acpiReadU64 memory (entry + 4)
          lift (recordLocalApicOverride topology address)
      | .localX2apic => do
          let processorUid ← acpiReadU32 memory (entry + 12)
          let apicId ← acpiReadU32 memory (entry + 4)
          let flags ← acpiReadU32 memory (entry + 8)
          lift (recordLocalApic topology processorUid apicId flags)
      | _ => .ok { topology with nmiEntryCount := topology.nmiEntryCount + 1 }

def zeroTopology : AcpiTopology := ⟨0, false, false, 0, 0, 0, [], [], []⟩

/-- The loop of `acpi_topology_discover`, which zeroes the description before every return
with a refusal. -/
def consumeEntries (table length : Nat) :
    Nat → Nat → AcpiTopology → Except (Stop (AcpiStatus × AcpiTopology)) AcpiTopology
  | 0, _, _ => .error .unfinished
  | turns + 1, offset, topology =>
    if offset < length then do
      accept (2 ≤ length - offset) (.refused (.truncatedMadtEntry, zeroTopology))
      let entryLength ← readByte memory (table + (offset + 1))
      accept (2 ≤ entryLength.toNat) (.refused (.badMadtEntryLength, zeroTopology))
      accept (entryLength.toNat ≤ length - offset) (.refused (.truncatedMadtEntry, zeroTopology))
      let topology ← leaving zeroTopology
        (consumeEntry memory topology (table + offset) entryLength.toNat)
      consumeEntries table length turns (offset + entryLength.toNat) topology
    else .ok topology

def acpiTopologyDiscover (madt : AcpiMadt) (_topology : AcpiTopology) :
    Except (Stop (AcpiStatus × AcpiTopology)) AcpiTopology := do
  let topology := zeroTopology
  leaving topology (revalidateMadt memory madt)
  let topology := { topology with
    localApicAddress := madt.localApicAddress
    legacyPicPresent := madt.flags &&& 1 ≠ 0 }
  let topology ← consumeEntries memory madt.physicalAddress madt.length madt.length acpiMadtFixedSize topology
  accept (topology.enabledProcessorCount ≠ 0) (.refused (.missingBootProcessor, zeroTopology))
  accept (topology.ioApics.length ≠ 0) (.refused (.missingIoApic, zeroTopology))
  .ok topology

end

section
variable {memory : Memory Byte} {start : Nat} {bytes : List Byte} {topology : AcpiTopology}

section
variable (holds : Holds memory start bytes)
include holds

theorem readByte_eq {offset : Nat} (inside : offset < bytes.length) :
    readByte memory (start + offset) =
      (.ok (bytes.getD offset 0) : Except (Stop AcpiStatus) Byte) := holds.readByte_getD inside

theorem acpiReadU16_eq (inside : offset + 2 ≤ bytes.length) :
    acpiReadU16 memory (start + offset) = .ok (Acpi.acpiReadU16 bytes offset) := by
  rw [acpiReadU16, readByte_eq holds (by omega), ok_bind, add_assoc, readByte_eq holds (by omega)]
  rfl

theorem acpiReadU32_eq (inside : offset + 4 ≤ bytes.length) :
    acpiReadU32 memory (start + offset) = .ok (Acpi.acpiReadU32 bytes offset) := by
  rw [acpiReadU32, acpiReadU16_eq holds (by omega), ok_bind, add_assoc, acpiReadU16_eq holds (by omega)]
  rfl

theorem acpiReadU64_eq (inside : offset + 8 ≤ bytes.length) :
    acpiReadU64 memory (start + offset) = .ok (Acpi.acpiReadU64 bytes offset) := by
  rw [acpiReadU64, acpiReadU32_eq holds (by omega), ok_bind, add_assoc, acpiReadU32_eq holds (by omega)]
  rfl

end

theorem sized_eq {length expected : Nat} {status : AcpiStatus}
    {read : Unit → Except (Stop AcpiStatus) AcpiTopology} {recorded : Except AcpiStatus AcpiTopology}
    (same : length = expected → read () = lift recorded) :
    (accept (decide (length = expected)) (.refused status) >>= read) =
      lift (if length ≠ expected then .error status else recorded) := by
  by_cases size : length = expected
  · rw [decide_eq_true size, accept_true, ok_bind, if_neg (not_not.mpr size), same size]
  · rw [decide_eq_false size, if_pos size]
    rfl

/-- One structure, as it is read from memory and from its bytes. -/
theorem consumeEntry_eq (holds : Holds memory start bytes) {length : Nat} (least : 2 ≤ length)
    (fits : length ≤ bytes.length) :
    consumeEntry memory topology start length = lift (Acpi.consumeEntry topology bytes length) := by
  have first := @readByte_eq _ _ _ holds 0 (by omega)
  rw [add_zero] at first
  rw [consumeEntry, first, ok_bind, Acpi.consumeEntry]
  rw [← byteAt]
  cases madtType (byteAt bytes 0) with
  | localApic | ioApic | interruptOverride =>
    refine sized_eq fun size => ?_
    simp (disch := omega) only [readByte_eq holds, acpiReadU16_eq holds, acpiReadU32_eq holds, ok_bind]
    rfl
  | localApicOverride | localX2apic =>
    refine sized_eq fun size => ?_
    simp (disch := omega) only [acpiReadU64_eq holds, acpiReadU32_eq holds, ok_bind]
  | nmiSource | localApicNmi => exact sized_eq fun _ => rfl
  | other => rfl

theorem consumeEntries_skip (topology : AcpiTopology) (skip : Nat) (bytes : List Byte) :
    Acpi.consumeEntries topology skip bytes = Acpi.consumeEntries topology 0 (bytes.drop skip) := by
  induction bytes generalizing skip with
  | nil =>
    cases skip <;> rfl
  | cons first rest ih =>
    cases skip with
    | zero => rfl
    | succ skip => exact ih skip

/-- The walk over the table, as the source does it and over the bytes that are left. -/
theorem consumeEntries_eq (holds : Holds memory start bytes) {turns offset : Nat}
    (enough : bytes.length < offset + turns) (inside : offset ≤ bytes.length) :
    consumeEntries memory start bytes.length turns offset topology =
      leaving zeroTopology (lift (Acpi.consumeEntries topology 0 (bytes.drop offset))) := by
  induction turns generalizing offset topology with
  | zero => omega
  | succ turns ih =>
    rw [consumeEntries]
    split
    · next more =>
        have cut := drop_eq_getElem_cons more
        have left : (bytes.drop (offset + 1)).length + 1 = bytes.length - offset := by
          rw [length_drop]
          omega
        have second : byteAt (bytes.drop (offset + 1)) 0 = byteAt bytes (offset + 1) := by
          simp only [byteAt, getD_eq_getElem?_getD, getElem?_drop, add_zero]
        rw [cut, Acpi.consumeEntries, ← cut, left, second]
        split
        · rw [decide_eq_false (by omega)]
          rfl
        rw [decide_eq_true (by omega), accept_true, ok_bind, holds.readByte_getD (by omega), ok_bind, ← byteAt]
        generalize byteAt bytes (offset + 1) = size
        split
        · rw [decide_eq_false (by omega)]
          rfl
        rw [decide_eq_true (by omega), accept_true, ok_bind]
        split
        · rw [decide_eq_false (by omega)]
          rfl
        have entry := @consumeEntry_eq _ _ _ topology (holds.drop offset) size (by omega)
          (by rw [length_drop]; omega)
        rw [decide_eq_true (by omega), accept_true, ok_bind, entry]
        cases Acpi.consumeEntry topology (bytes.drop offset) size with
        | error status => rfl
        | ok next =>
          have rest : bytes.drop (offset + size) = (bytes.drop (offset + 1)).drop (size - 1) := by
            rw [drop_drop]
            congr 1
            omega
          rw [lift, leaving, ok_bind, ih (by omega) (by omega), rest, ← consumeEntries_skip]
    · rw [drop_eq_nil_of_le (by omega)]
      rfl

theorem acpiByteSum_eq (holds : Holds memory start bytes) :
    acpiByteSum memory start bytes.length = .ok (Acpi.acpiByteSum bytes) := by
  have all := @Holds.readBytes AcpiStatus _ _ _ _ holds 0 bytes.length (by omega)
  rw [add_zero, drop_zero, take_length] at all
  rw [acpiByteSum, all]
  rfl

variable {madt : AcpiMadt} {table : List Byte}

/-- A table that the description of it fits, mapped, of a valid length and with a sum of zero. -/
structure Valid (madt : AcpiMadt) (table : List Byte) : Prop where
  present : madt.physicalAddress ≠ 0
  length : table.length = madt.length
  least : acpiMadtFixedSize ≤ madt.length
  most : madt.length ≤ acpiMaxTableSize
  mapped : acpiSpanIsEarlyMapped madt.physicalAddress madt.length
  sum : Acpi.acpiByteSum table = 0

theorem revalidateMadt_eq (holds : Holds memory madt.physicalAddress table) (valid : Valid madt table) :
    revalidateMadt memory madt = .ok () := by
  have sum := acpiByteSum_eq holds
  rw [valid.length, valid.sum] at sum
  rw [revalidateMadt, decide_eq_true valid.present, decide_eq_true ⟨valid.least, valid.most⟩, valid.mapped, sum]
  rfl

theorem madtBytes_eq (holds : Holds memory madt.physicalAddress table) (length : table.length = madt.length) :
    madtBytes (fun address => (memory address).getD 0) madt = table := by
  rw [madtBytes, ← length]
  refine ext_getElem (by rw [length_map, length_range]) fun index _ low => ?_
  rw [getElem_map, getElem_range, holds index _ (getElem?_eq_getElem low), Option.getD_some]

theorem Valid.revalidated (valid : Valid madt table) (holds : Holds memory madt.physicalAddress table) :
    Acpi.revalidateMadt (fun address => (memory address).getD 0) madt = .ok table := by
  have least := valid.least
  have most := valid.most
  rw [Acpi.revalidateMadt, if_neg valid.present, if_neg (by omega), valid.mapped,
    madtBytes_eq holds valid.length, valid.sum]
  rfl

/-- In a memory with the table, the discovery is that of the table's bytes. -/
theorem acpiTopologyDiscover_eq (holds : Holds memory madt.physicalAddress table) (valid : Valid madt table)
    (topology : AcpiTopology) :
    acpiTopologyDiscover memory madt topology =
      leaving zeroTopology (lift (Acpi.acpiTopologyDiscover (fun address => (memory address).getD 0) madt)) := by
  have least := valid.least
  have walked := @consumeEntries_eq _ _ _ (emptyTopology madt) holds madt.length acpiMadtFixedSize
    (by rw [valid.length, acpiMadtFixedSize]; omega) (by rw [valid.length]; exact least)
  rw [valid.length] at walked
  rw [acpiTopologyDiscover, revalidateMadt_eq holds valid, Acpi.acpiTopologyDiscover, valid.revalidated holds]
  change (consumeEntries memory madt.physicalAddress madt.length madt.length acpiMadtFixedSize
    (emptyTopology madt) >>= _) = _
  rw [walked]
  dsimp only
  cases Acpi.consumeEntries (emptyTopology madt) 0 (table.drop acpiMadtFixedSize) with
  | error status => rfl
  | ok next =>
    rw [lift, leaving, ok_bind]
    dsimp only
    by_cases processors : next.enabledProcessorCount = 0
    · rw [decide_eq_false (not_not.mpr processors), if_pos processors]
      rfl
    rw [decide_eq_true processors, if_neg processors, accept_true, ok_bind]
    by_cases controllers : next.ioApics.length = 0
    · rw [decide_eq_false (not_not.mpr controllers), if_pos controllers]
      rfl
    rw [decide_eq_true controllers, if_neg controllers]
    rfl

end

end Sapote.Acpi.Loads
