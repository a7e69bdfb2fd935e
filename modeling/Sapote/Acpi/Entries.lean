import Sapote.Acpi.Loads

/-!
What an accepted table declares: its bytes are structures one after the other, each admitted by
a rule on those before it, and the description is told by the list of them.
-/

namespace Sapote.Acpi
open List

open Library
variable {bytes : List Byte}

inductive Entry where
  | processor (uid apicId : Nat) (flags : BitVec 32)
  | ioApic (identifier address interruptBase : Nat)
  | interruptOverride (bus source globalSystemInterrupt : Nat) (flags : BitVec 16)
  | localApicOverride (address : Nat)
  | nmi | ignored
  deriving DecidableEq

/-- The structure that bytes are; a modelled type has exactly one length. -/
def decodeEntry (bytes : List Byte) : Option Entry :=
  match madtType (byteAt bytes 0) with
  | .localApic =>
    if bytes.length = 8 then
      some (.processor (byteAt bytes 2) (byteAt bytes 3) (acpiReadU32 bytes 4))
    else none
  | .ioApic =>
    if bytes.length = 12 then
      some (.ioApic (byteAt bytes 2) (acpiReadU32 bytes 4) (acpiReadU32 bytes 8))
    else none
  | .interruptOverride =>
    if bytes.length = 10 then
      some (.interruptOverride (byteAt bytes 2) (byteAt bytes 3) (acpiReadU32 bytes 4)
        (acpiReadU16 bytes 8))
    else none
  | .nmiSource => if bytes.length = 8 then some .nmi else none
  | .localApicNmi => if bytes.length = 6 then some .nmi else none
  | .localApicOverride =>
    if bytes.length = 12 then some (.localApicOverride (acpiReadU64 bytes 4)) else none
  | .localX2apic =>
    if bytes.length = 16 then
      some (.processor (acpiReadU32 bytes 12) (acpiReadU32 bytes 4) (acpiReadU32 bytes 8))
    else none
  | .other => some .ignored

/-- Bytes that are structures one after the other, each of the length it declares. -/
def Tiled (bytes : List Byte) (entries : List Entry) : Prop :=
  ∃ chunks : List (List Byte), bytes = chunks.flatten ∧
    (∀ chunk ∈ chunks, 2 ≤ chunk.length ∧ byteAt chunk 1 = chunk.length) ∧
    chunks.map decodeEntry = entries.map some

@[simp]
def Entry.localApic? : Entry → Option AcpiLocalApic
  | .processor uid apicId flags => some ⟨uid, apicId, flags &&& 1 ≠ 0, flags &&& 2 ≠ 0⟩
  | _ => none

@[simp]
def Entry.ioApic? : Entry → Option AcpiIoApic
  | .ioApic identifier address interruptBase => some ⟨identifier, address, interruptBase⟩
  | _ => none

@[simp]
def Entry.interruptOverride? : Entry → Option AcpiInterruptOverride
  | .interruptOverride bus source globalSystemInterrupt flags =>
    some ⟨globalSystemInterrupt, flags, bus, source⟩
  | _ => none

@[simp]
def Entry.localApicOverride? : Entry → Option Nat
  | .localApicOverride address => some address
  | _ => none

def describe (madt : AcpiMadt) (entries : List Entry) : AcpiTopology where
  localApicAddress := (entries.filterMap Entry.localApicOverride?).getLast?.getD madt.localApicAddress
  localApicAddressOverridden := !(entries.filterMap Entry.localApicOverride?).isEmpty
  legacyPicPresent := madt.flags &&& 1 ≠ 0
  enabledProcessorCount := (entries.filterMap Entry.localApic?).countP AcpiLocalApic.enabled
  nmiEntryCount := entries.count .nmi
  ignoredEntryCount := entries.count .ignored
  localApics := entries.filterMap Entry.localApic?
  ioApics := entries.filterMap Entry.ioApic?
  interruptOverrides := entries.filterMap Entry.interruptOverride?

def Admits (before : List Entry) : Entry → Prop
  | .processor uid _ flags =>
    flags &&& ~~~3 = 0 ∧
    (∀ other ∈ before.filterMap Entry.localApic?, other.processorUid ≠ uid) ∧
    (before.filterMap Entry.localApic?).length < acpiMaxLocalApics
  | .ioApic identifier address _ =>
    (address ≠ 0 ∧ acpiSpanIsEarlyMapped address ioApicWindowSize) ∧
    (∀ other ∈ before.filterMap Entry.ioApic?, other.identifier ≠ identifier) ∧
    (before.filterMap Entry.ioApic?).length < acpiMaxIoApics
  | .interruptOverride bus source _ flags =>
    bus = 0 ∧ source < madtIsaIrqCount ∧ flags &&& ~~~0xF = 0 ∧
    ∀ other ∈ before.filterMap Entry.interruptOverride?, other.source ≠ source
  | .localApicOverride address =>
    before.filterMap Entry.localApicOverride? = [] ∧
    address ≠ 0 ∧ acpiSpanIsEarlyMapped address localApicWindowSize
  | .nmi | .ignored => True

def recordEntry (topology : AcpiTopology) : Entry → Except AcpiStatus AcpiTopology
  | .processor uid apicId flags => recordLocalApic topology uid apicId flags
  | .ioApic identifier address interruptBase => recordIoApic topology identifier address interruptBase
  | .interruptOverride bus source globalSystemInterrupt flags =>
    recordInterruptOverride topology bus source globalSystemInterrupt flags
  | .localApicOverride address => recordLocalApicOverride topology address
  | .nmi => .ok { topology with nmiEntryCount := topology.nmiEntryCount + 1 }
  | .ignored => .ok { topology with ignoredEntryCount := topology.ignoredEntryCount + 1 }

section
variable {topology next : AcpiTopology} {madt : AcpiMadt} {before : List Entry} {entry : Entry}

/-- A structure is decoded and recorded, or has the wrong length. -/
theorem consumeEntry_decoded (topology : AcpiTopology) (chunk : List Byte) :
    consumeEntry topology chunk chunk.length =
      match decodeEntry chunk with
      | some entry => recordEntry topology entry
      | none => .error .badMadtEntryLength := by
  rw [consumeEntry, decodeEntry]
  cases madtType (byteAt chunk 0) with
  | other => rfl
  | _ =>
    dsimp only [MadtType.size]
    rw [ite_not]
    split <;> rfl

theorem capacities (order : InOrder Admits before) :
    (before.filterMap Entry.localApic?).length ≤ acpiMaxLocalApics ∧
      (before.filterMap Entry.ioApic?).length ≤ acpiMaxIoApics := by
  induction before using List.reverseRecOn with
  | nil => exact ⟨Nat.zero_le _, Nat.zero_le _⟩
  | append_singleton before entry ih =>
    obtain ⟨order, admitted⟩ := inOrder_concat.mp order
    obtain ⟨processors, controllers⟩ := ih order
    simp only [filterMap_append, length_append]
    cases entry with
    | processor uid apicId flags => exact ⟨admitted.2.2, controllers⟩
    | ioApic identifier address interruptBase => exact ⟨processors, admitted.2.2⟩
    | interruptOverride | localApicOverride | nmi | ignored => exact ⟨processors, controllers⟩

/-- Two I/O APICs never share an identifier, and the window of each is in the early map. -/
theorem ioApics_admitted (order : InOrder Admits before) :
    ((before.filterMap Entry.ioApic?).map AcpiIoApic.identifier).Nodup ∧
      ∀ unit ∈ before.filterMap Entry.ioApic?,
        acpiSpanIsEarlyMapped unit.address ioApicWindowSize := by
  induction before using List.reverseRecOn with
  | nil => exact ⟨nodup_nil, nofun⟩
  | append_singleton before entry ih =>
    obtain ⟨order, admitted⟩ := inOrder_concat.mp order
    obtain ⟨distinct, mapped⟩ := ih order
    rw [filterMap_append]
    cases entry with
    | ioApic identifier address interruptBase =>
      refine ⟨?_, forall_mem_append.mpr ⟨mapped, by simpa using admitted.1.2⟩⟩
      rw [map_append, nodup_append]
      refine ⟨distinct, nodup_singleton _, ?_⟩
      rintro _ inside _ last rfl
      obtain ⟨other, member, same⟩ := mem_map.mp inside
      exact admitted.2.1 other member (same.trans (mem_singleton.mp last))
    | _ =>
      rw [filterMap_cons_none rfl, filterMap_nil, append_nil]
      exact ⟨distinct, mapped⟩

theorem not_any_iff {A : Type} {key : A → Nat} {value : Nat} {entries : List A} :
    ¬(entries.any fun other => key other = value) ↔ ∀ other ∈ entries, key other ≠ value := by
  simp

theorem recordEntry_describe (order : InOrder Admits before) :
    recordEntry (describe madt before) entry = .ok next ↔
      Admits before entry ∧ next = describe madt (before ++ [entry]) := by
  obtain ⟨processors, controllers⟩ := capacities order
  have told : ∀ {topology : AcpiTopology}, topology = describe madt (before ++ [entry]) →
      ((.ok topology : Except AcpiStatus AcpiTopology) = .ok next ↔
        next = describe madt (before ++ [entry])) := by
    rintro _ rfl
    rw [Except.ok.injEq]
    exact eq_comm
  simp only [describe, filterMap_append, filterMap_cons, filterMap_nil, count_append,
    countP_append] at told ⊢
  cases entry with
  | processor uid apicId flags =>
    rw [recordEntry, recordLocalApic, Admits]
    split
    · next bad => exact iff_of_false nofun fun h => bad h.1.1
    next good =>
    split
    · next known => exact iff_of_false nofun fun h => not_any_iff.mpr h.1.2.1 known
    next fresh =>
    split
    · next full => exact iff_of_false nofun fun h => absurd full (ne_of_lt h.1.2.2)
    · next room =>
        rw [told (by simp)]
        exact ⟨fun same => ⟨⟨Decidable.not_not.mp good, not_any_iff.mp fresh,
          Nat.lt_of_le_of_ne processors room⟩, same⟩, fun h => h.2⟩
  | ioApic identifier address interruptBase =>
    rw [recordEntry, recordIoApic, Admits]
    split
    · next bad => exact iff_of_false nofun fun h => absurd bad (by simp [h.1.1])
    next good =>
    split
    · next known => exact iff_of_false nofun fun h => not_any_iff.mpr h.1.2.1 known
    next fresh =>
    split
    · next full => exact iff_of_false nofun fun h => absurd full (ne_of_lt h.1.2.2)
    · next room =>
        rw [told (by simp)]
        exact ⟨fun same => ⟨⟨by simpa using good, not_any_iff.mp fresh,
          Nat.lt_of_le_of_ne controllers room⟩, same⟩, fun h => h.2⟩
  | interruptOverride bus source globalSystemInterrupt flags =>
    rw [recordEntry, recordInterruptOverride, Admits]
    split
    · next bad => exact iff_of_false nofun fun h => bad h.1.1
    next isa =>
    split
    · next high => exact iff_of_false nofun fun h => absurd high (not_le.mpr h.1.2.1)
    next low =>
    split
    · next bad => exact iff_of_false nofun fun h => bad h.1.2.2.1
    next good =>
    split
    · next known => exact iff_of_false nofun fun h => not_any_iff.mpr h.1.2.2.2 known
    · next fresh =>
        rw [told (by simp)]
        exact ⟨fun same => ⟨⟨Decidable.not_not.mp isa, not_le.mp low, Decidable.not_not.mp good,
          not_any_iff.mp fresh⟩, same⟩, fun h => h.2⟩
  | localApicOverride address =>
    rw [recordEntry, recordLocalApicOverride, Admits]
    split
    · next known => exact iff_of_false nofun fun h => absurd known (by simp [h.1.1])
    next fresh =>
    split
    · next bad => exact iff_of_false nofun fun h => absurd bad (by simp [h.1.2])
    · next good =>
        rw [told (by simp)]
        exact ⟨fun same => ⟨⟨by simpa using fresh, by simpa using good⟩, same⟩, fun h => h.2⟩
  | nmi | ignored =>
    rw [recordEntry, told (by simp)]
    exact ⟨fun same => ⟨trivial, same⟩, fun h => h.2⟩

theorem consumeEntry_take (topology : AcpiTopology) {length : Nat} (least : 2 ≤ length)
    (fits : length ≤ bytes.length) :
    consumeEntry topology bytes length = consumeEntry topology (bytes.take length) length := by
  have holds := holds_memoryOf 0 bytes
  have short : length ≤ (bytes.take length).length := by
    rw [length_take]
    omega
  exact lift_injective ((Loads.consumeEntry_eq holds least fits).symm.trans
    (Loads.consumeEntry_eq (holds.take length) least short))

theorem byteAt_append {chunk : List Byte} (more : List Byte) {offset : Nat} (inside : offset < chunk.length) :
    byteAt (chunk ++ more) offset = byteAt chunk offset := by
  simp only [byteAt, getD_append _ _ _ _ inside]

theorem consumeEntries_turn (some : bytes ≠ []) :
    consumeEntries topology 0 bytes = .ok next ↔
      2 ≤ byteAt bytes 1 ∧ byteAt bytes 1 ≤ bytes.length ∧
        ∃ middle, consumeEntry topology (bytes.take (byteAt bytes 1)) (byteAt bytes 1) = .ok middle ∧
          consumeEntries middle 0 (bytes.drop (byteAt bytes 1)) = .ok next := by
  cases bytes with
  | nil => exact absurd rfl some
  | cons first rest => ?_
  have second : byteAt (first :: rest) 1 = byteAt rest 0 := rfl
  have length : (first :: rest).length = rest.length + 1 := rfl
  rw [consumeEntries, second, length]
  iterate 3
    split
    · exact iff_of_false (by simp) fun h => by omega
  have behind : (first :: rest).drop (byteAt rest 0) = rest.drop (byteAt rest 0 - 1) := by
    obtain ⟨k, same⟩ : ∃ k, byteAt rest 0 = k + 1 := ⟨byteAt rest 0 - 1, by omega⟩
    rw [same]
    rfl
  rw [← consumeEntry_take topology (by omega) (by rw [length]; omega), behind]
  cases consumeEntry topology (first :: rest) (byteAt rest 0) with
  | error status =>
    refine iff_of_false (by simp) ?_
    rintro ⟨-, -, middle, same, -⟩
    cases same
  | ok middle =>
    dsimp only
    rw [Loads.consumeEntries_skip]
    constructor
    · exact fun later => ⟨by omega, by omega, middle, rfl, later⟩
    · rintro ⟨-, -, _, same, later⟩
      cases same
      exact later

theorem consumeEntries_eq_ok (bytes : List Byte) :
    consumeEntries topology 0 bytes = .ok next ↔
      ∃ chunks : List (List Byte), bytes = chunks.flatten ∧
        (∀ chunk ∈ chunks, 2 ≤ chunk.length ∧ byteAt chunk 1 = chunk.length) ∧
        chunks.foldlM (fun topology chunk => consumeEntry topology chunk chunk.length) topology = .ok next := by
  constructor
  · -- Every turn takes at least two bytes, so the induction is on how many are left.
    induction size : bytes.length using Nat.strong_induction_on generalizing bytes topology with
    | _ size ih =>
      intro walked
      by_cases none : bytes = []
      · subst none
        exact ⟨[], rfl, nofun, walked⟩
      obtain ⟨least, fits, middle, consumed, later⟩ := (consumeEntries_turn none).mp walked
      obtain ⟨chunks, split, framed, folded⟩ :=
        ih _ (by rw [length_drop]; omega) (bytes.drop (byteAt bytes 1)) rfl later
      have length : (bytes.take (byteAt bytes 1)).length = byteAt bytes 1 := by
        rw [length_take]
        omega
      refine ⟨bytes.take (byteAt bytes 1) :: chunks, ?_, ?_, ?_⟩
      · rw [flatten_cons, ← split, take_append_drop]
      · intro chunk member
        obtain rfl | member := mem_cons.mp member
        · have whole := byteAt_append (bytes.drop (byteAt bytes 1)) (show 1 < _ by rw [length]; exact least)
          rw [take_append_drop] at whole
          rw [length]
          exact ⟨least, whole.symm⟩
        · exact framed chunk member
      · rw [foldlM_cons, length, consumed]
        exact folded
  · rintro ⟨chunks, rfl, framed, folded⟩
    induction chunks generalizing topology with
    | nil => exact folded
    | cons chunk chunks ih =>
      obtain ⟨least, declared⟩ := framed chunk mem_cons_self
      rw [foldlM_cons, bind_eq_ok] at folded
      obtain ⟨middle, consumed, folded⟩ := folded
      have later := ih (fun other member => framed other (.tail _ member)) folded
      have second : byteAt (chunk ++ chunks.flatten) 1 = chunk.length := by
        rw [byteAt_append _ least, declared]
      have some : chunk ++ chunks.flatten ≠ [] := by
        refine append_ne_nil_of_left_ne_nil ?_ _
        rintro rfl
        cases least
      rw [flatten_cons, consumeEntries_turn some, second, take_left, drop_left,
        length_append]
      exact ⟨least, by omega, middle, consumed, later⟩

theorem foldlM_decoded {chunks : List (List Byte)} :
    chunks.foldlM (fun topology chunk => consumeEntry topology chunk chunk.length) topology = .ok next ↔
      ∃ entries : List Entry, chunks.map decodeEntry = entries.map some ∧
        entries.foldlM recordEntry topology = .ok next := by
  induction chunks generalizing topology with
  | nil =>
    constructor
    · exact fun same => ⟨[], rfl, same⟩
    · rintro ⟨entries, none, same⟩
      cases map_eq_nil_iff.mp none.symm
      exact same
  | cons chunk chunks ih =>
    rw [foldlM_cons, consumeEntry_decoded]
    cases decoded : decodeEntry chunk with
    | none =>
      refine iff_of_false nofun fun ⟨entries, same, _⟩ => ?_
      rw [map_cons, decoded] at same
      cases entries <;> exact absurd same (by simp)
    | some entry => ?_
    simp only [bind_eq_ok, ih]
    constructor
    · rintro ⟨s, recorded, entries, same, folded⟩
      refine ⟨entry :: entries, ?_, ?_⟩
      · simp only [map_cons, decoded, same]
      · rw [foldlM_cons, recorded]
        exact folded
    · rintro ⟨entries, same, folded⟩
      cases entries with
      | nil => exact absurd same (by simp)
      | cons first entries =>
        simp only [map_cons, decoded, List.cons.injEq, Option.some.injEq] at same
        obtain ⟨rfl, same⟩ := same
        rw [foldlM_cons, bind_eq_ok] at folded
        obtain ⟨s, recorded, folded⟩ := folded
        exact ⟨s, recorded, entries, same, folded⟩

theorem recordEntries_eq_ok {entries : List Entry} :
    entries.foldlM recordEntry (emptyTopology madt) = .ok next ↔
      InOrder Admits entries ∧ next = describe madt entries := by
  have step : ∀ (before : List Entry) (entry : Entry) (s : AcpiTopology), InOrder Admits before → True →
      (recordEntry (describe madt before) entry = .ok s ↔
        Admits before entry ∧ s = describe madt (before ++ [entry])) :=
    fun before entry s order _ => recordEntry_describe order
  exact foldlM_eq_ok step fun _ _ => trivial

theorem consumeEntries_describe :
    consumeEntries (emptyTopology madt) 0 bytes = .ok next ↔
      ∃ entries, Tiled bytes entries ∧ InOrder Admits entries ∧ next = describe madt entries := by
  simp only [consumeEntries_eq_ok, foldlM_decoded, recordEntries_eq_ok, Tiled]
  constructor
  · rintro ⟨chunks, split, framed, entries, decoded, order, told⟩
    exact ⟨entries, ⟨chunks, split, framed, decoded⟩, order, told⟩
  · rintro ⟨entries, ⟨chunks, split, framed, decoded⟩, order, told⟩
    exact ⟨chunks, split, framed, entries, decoded, order, told⟩

theorem acpiTopologyDiscover_entries {memory : Nat → Byte} 
    (accepted : acpiTopologyDiscover memory madt = .ok topology) :
    ∃ bytes entries, Tiled bytes entries ∧ InOrder Admits entries ∧
      topology = describe madt entries := by
  unfold acpiTopologyDiscover at accepted
  iterate 4
    split at accepted
    · cases accepted
  next consumed _ _ =>
  cases accepted
  exact ⟨_, consumeEntries_describe.mp consumed⟩

end

section
variable {memory : Memory Byte} {madt : AcpiMadt} {table : List Byte}

/-- The discovery stays inside the table and comes to an end. It accepts exactly a table of
structures in order with an enabled processor and an I/O APIC, and describes them; a refusal
leaves a zeroed description. -/
theorem acpiTopologyDiscover_exact (holds : Holds memory madt.physicalAddress table)
    (valid : Loads.Valid madt table) (before : AcpiTopology) :
    (Refuses (Loads.acpiTopologyDiscover memory madt before) fun stop =>
      ∃ status, stop = .refused (status, Loads.zeroTopology)) ∧
    ∀ topology, Loads.acpiTopologyDiscover memory madt before = .ok topology ↔
      ∃ entries, Tiled (table.drop acpiMadtFixedSize) entries ∧ InOrder Admits entries ∧
        (describe madt entries).enabledProcessorCount ≠ 0 ∧ (describe madt entries).ioApics ≠ [] ∧
        topology = describe madt entries := by
  rw [Loads.acpiTopologyDiscover_eq holds valid before]
  refine ⟨leaving_lift_refuses, fun topology => ?_⟩
  rw [leaving_lift_eq_ok, acpiTopologyDiscover, valid.revalidated holds]
  dsimp only
  cases walk : consumeEntries (emptyTopology madt) 0 (table.drop acpiMadtFixedSize) with
  | error status =>
    refine iff_of_false (by simp) ?_
    rintro ⟨entries, tiled, order, -⟩
    cases walk.symm.trans (consumeEntries_describe.mpr ⟨entries, tiled, order, rfl⟩)
  | ok next => ?_
  dsimp only
  constructor
  · intro accepted
    split at accepted
    · cases accepted
    split at accepted
    · cases accepted
    next processors controllers =>
    cases accepted
    obtain ⟨entries, tiled, order, rfl⟩ := consumeEntries_describe.mp walk
    exact ⟨entries, tiled, order, processors, fun none => controllers (congrArg List.length none), rfl⟩
  · rintro ⟨entries, tiled, order, processors, controllers, rfl⟩
    have same := walk.symm.trans (consumeEntries_describe.mpr ⟨entries, tiled, order, rfl⟩)
    cases same
    rw [if_neg processors, if_neg fun none => controllers (eq_nil_of_length_eq_zero none)]

def smallTable : List Byte :=
  List.replicate 9 0 ++ [44] ++ List.replicate 34 0 ++ [0, 8, 0, 0, 1, 0, 0, 0] ++
    [1, 12, 0, 0, 0, 0, 0xC0, 0xFE, 0, 0, 0, 0]

def smallMadt : AcpiMadt := ⟨0x1000, 64, 0xFEE00000, 1⟩

theorem acpiTopologyDiscover_exact_small :
    (∃ topology, Loads.acpiTopologyDiscover (memoryOf 0x1000 smallTable) smallMadt Loads.zeroTopology =
      .ok topology ∧ topology.ioApics = [⟨0, 0xFEC00000, 0⟩]) ∧
    ∃ entries, Tiled (smallTable.drop acpiMadtFixedSize) entries ∧ InOrder Admits entries := by
  have valid : Loads.Valid smallMadt smallTable :=
    ⟨by decide, by decide, by decide, by decide, by decide, by decide +kernel⟩
  have found : ∃ topology, Loads.acpiTopologyDiscover (memoryOf 0x1000 smallTable) smallMadt
      Loads.zeroTopology = .ok topology ∧ topology.ioApics = [⟨0, 0xFEC00000, 0⟩] :=
    ⟨⟨0xFEE00000, false, true, 1, 0, 0, [⟨0, 0, true, false⟩], [⟨0, 0xFEC00000, 0⟩], []⟩,
      by decide +kernel, rfl⟩
  refine ⟨found, ?_⟩
  obtain ⟨topology, same, -⟩ := found
  obtain ⟨entries, tiled, order, -⟩ := ((acpiTopologyDiscover_exact (holds_memoryOf 0x1000 smallTable) valid
    Loads.zeroTopology).2 topology).mp same
  exact ⟨entries, tiled, order⟩

end

end Sapote.Acpi
