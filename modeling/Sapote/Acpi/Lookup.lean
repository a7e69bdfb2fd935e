import Sapote.Acpi.Tables

/-!
The lookup accepts exactly what the tables say, in whatever order the root table lists them.
-/

namespace Sapote.Acpi
open List

open Library
variable {signature : List Byte} {address : Nat} {duplicateStatus : AcpiStatus} {mcfg : AcpiMcfg}
  {before : List Nat} {found : Option Nat}

section
variable (memory : Nat → Byte) (root : AcpiRoot)

def rootEntrySize : Nat := ((rootFormat root.kind).map Prod.snd).getD 0

def rootEntries : List (List Byte) :=
  (List.range ((tableLength memory root.physicalAddress - acpiSdtHeaderSize) / rootEntrySize root)).map
    (entryBytes memory root (rootEntrySize root))

def rootAddresses : List Nat := (rootEntries memory root).map entryAddress

/-- The signature of its kind, a length in bounds, whole entries and not too many, all of it
mapped, and a sum of zero. -/
structure RootValid : Prop where
  present : root.physicalAddress ≠ 0
  format : rootFormat root.kind = some (span memory root.physicalAddress 4, rootEntrySize root)
  least : acpiSdtHeaderSize ≤ tableLength memory root.physicalAddress
  most : tableLength memory root.physicalAddress ≤ acpiMaxTableSize
  whole : (tableLength memory root.physicalAddress - acpiSdtHeaderSize) % rootEntrySize root = 0
  limit : (rootEntries memory root).length ≤ acpiMaxRootEntries
  mapped : acpiSpanIsEarlyMapped root.physicalAddress (tableLength memory root.physicalAddress)
  sum : acpiByteSum (tableAt memory root.physicalAddress) = 0

structure TableValid (address : Nat) : Prop where
  present : address ≠ 0
  least : acpiSdtHeaderSize ≤ tableLength memory address
  most : tableLength memory address ≤ acpiMaxTableSize
  mapped : acpiSpanIsEarlyMapped address (tableLength memory address)
  sum : acpiByteSum (tableAt memory address) = 0

def signed (signature : List Byte) (address : Nat) : Bool := span memory address 4 = signature

/-- The root table and every table it lists are valid, and exactly one entry leads to a table
with the signature. -/
structure Listed (signature : List Byte) (address : Nat) : Prop where
  valid : RootValid memory root
  tables : ∀ other ∈ rootAddresses memory root, TableValid memory other
  only : (rootAddresses memory root).filter (signed memory signature) = [address]

end

section
variable {memory : Nat → Byte} {root : AcpiRoot}

theorem early_mapped_of_le {length less : Nat}
    (mapped : acpiSpanIsEarlyMapped address length) (le : less ≤ length) :
    acpiSpanIsEarlyMapped address less := by
  rw [acpiSpanIsEarlyMapped, decide_eq_true_iff] at mapped ⊢
  omega

theorem rootEntries_length : (rootEntries memory root).length =
    (tableLength memory root.physicalAddress - acpiSdtHeaderSize) / rootEntrySize root := by
  rw [rootEntries, length_map, length_range]

theorem validateRootTable_eq_ok {entrySize entryCount : Nat} :
    validateRootTable memory root = .ok (entrySize, entryCount) ↔
      RootValid memory root ∧ entrySize = rootEntrySize root ∧
        entryCount = (rootEntries memory root).length := by
  simp only [validateRootTable, accept_bind_eq_ok, okOr_bind_eq_ok, decide_eq_true_eq, Except.ok.injEq,
    Prod.mk.injEq]
  constructor
  · rintro ⟨present, -, ⟨signature, size⟩, format, signed, ⟨least, most⟩, whole, limit, mapped, sum, rfl, rfl⟩
    have same : rootEntrySize root = size := by rw [rootEntrySize, format]; rfl
    refine ⟨⟨present, ?_, least, most, ?_, ?_, mapped, sum⟩, same.symm, ?_⟩
    · rw [format, signed, same]
    · rwa [same]
    · rwa [rootEntries_length, same]
    · rw [rootEntries_length, same]
  · rintro ⟨⟨present, format, least, most, whole, limit, mapped, sum⟩, rfl, rfl⟩
    rw [rootEntries_length] at limit ⊢
    exact ⟨present, early_mapped_of_le mapped least, _, format, rfl, ⟨least, most⟩, whole, limit, mapped, sum,
      rfl, rfl⟩

theorem validateReferencedTable_eq_ok :
    validateReferencedTable memory address = .ok () ↔ TableValid memory address := by
  simp only [validateReferencedTable, accept_bind_eq_ok, accept_eq_ok, decide_eq_true_eq]
  constructor
  · rintro ⟨present, -, ⟨least, most⟩, mapped, sum⟩
    exact ⟨present, least, most, mapped, sum⟩
  · rintro ⟨present, least, most, mapped, sum⟩
    exact ⟨present, early_mapped_of_le mapped least, ⟨least, most⟩, mapped, sum⟩

def examineAddress (memory : Nat → Byte) (signature : List Byte) (duplicateStatus : AcpiStatus)
    (found : Option Nat) (address : Nat) : Except AcpiStatus (Option Nat) := do
  validateReferencedTable memory address
  if span memory address 4 ≠ signature then .ok found
  else if found.isSome then .error duplicateStatus
  else .ok (some address)

theorem examineAddress_eq_ok :
    examineAddress memory signature duplicateStatus (lastWith (signed memory signature) before) address =
        .ok found ↔
      (TableValid memory address ∧
        (signed memory signature address → before.filter (signed memory signature) = [])) ∧
      found = lastWith (signed memory signature) (before ++ [address]) := by
  rw [examineAddress, unit_bind_eq_ok, validateReferencedTable_eq_ok, and_assoc, lastWith_concat,
    ← lastWith_eq_none]
  refine and_congr_right fun _ => ?_
  by_cases same : span memory address 4 = signature
  · have now : signed memory signature address := decide_eq_true same
    rw [if_neg (not_not.mpr same), if_pos now]
    cases lastWith (signed memory signature) before with
    | none =>
      exact ⟨fun told => ⟨fun _ => rfl, (Except.ok.inj told).symm⟩, fun told => congrArg Except.ok told.2.symm⟩
    | some other => exact iff_of_false nofun fun told => nomatch told.1 now
  · have other : signed memory signature address = false := decide_eq_false same
    rw [if_pos same, if_neg (by rw [other]; nofun), Except.ok.injEq, other]
    exact ⟨fun told => ⟨nofun, told.symm⟩, fun told => told.2.symm⟩

theorem examineAddresses_eq_ok {addresses : List Nat} :
    addresses.foldlM (examineAddress memory signature duplicateStatus) none = .ok found ↔
      ((∀ address ∈ addresses, TableValid memory address) ∧
        (addresses.filter (signed memory signature)).length ≤ 1) ∧
      found = lastWith (signed memory signature) addresses := by
  rw [← inOrder_iff_forall, ← inOrder_fresh_iff, ← inOrder_and_iff]
  exact @foldlM_eq_ok _ _ _ _ (lastWith (signed memory signature))
    (fun before address => TableValid memory address ∧
      (signed memory signature address → before.filter (signed memory signature) = []))
    (fun _ => True) (fun _ _ _ _ _ => examineAddress_eq_ok) addresses (fun _ _ => trivial) found

theorem findUniqueTable_eq_ok {missingStatus : AcpiStatus} {entryCount : Nat} :
    findUniqueTable memory root signature missingStatus duplicateStatus = .ok (address, entryCount) ↔
      Listed memory root signature address ∧ entryCount = (rootEntries memory root).length := by
  have walk : (List.range (rootEntries memory root).length).foldlM
      (examineEntry memory root signature duplicateStatus (rootEntrySize root)) none =
        (rootAddresses memory root).foldlM (examineAddress memory signature duplicateStatus) none := by
    rw [rootAddresses, rootEntries, length_map, length_range, map_map, foldlM_map]
    rfl
  rw [findUniqueTable, bind_eq_ok]
  constructor
  · rintro ⟨⟨entrySize, count⟩, validated, later⟩
    obtain ⟨valid, rfl, rfl⟩ := validateRootTable_eq_ok.mp validated
    dsimp only at later
    rw [walk, bind_eq_ok] at later
    obtain ⟨found, walked, later⟩ := later
    rw [okOr_bind_eq_ok] at later
    obtain ⟨_, rfl, same⟩ := later
    cases same
    obtain ⟨⟨tables, most⟩, last⟩ := examineAddresses_eq_ok.mp walked
    exact ⟨⟨valid, tables, lastWith_eq_some.mp ⟨most, last.symm⟩⟩, rfl⟩
  · rintro ⟨⟨valid, tables, only⟩, rfl⟩
    refine ⟨_, validateRootTable_eq_ok.mpr ⟨valid, rfl, rfl⟩, ?_⟩
    obtain ⟨most, last⟩ := lastWith_eq_some.mpr only
    dsimp only
    rw [walk, examineAddresses_eq_ok.mpr ⟨⟨tables, most⟩, last.symm⟩]
    rfl

variable {table : List Byte}

/-- A table with the fixed part of the interrupt controllers' table, and no unknown flag. -/
structure MadtValid (table : List Byte) : Prop where
  least : acpiMadtFixedSize ≤ table.length
  flags : (acpiReadU32 table 40 : BitVec 32) &&& ~~~1 = 0

def madtRecord (address entryCount : Nat) (table : List Byte) : AcpiMadtRecord where
  physicalAddress := address
  length := table.length
  localApicAddress := acpiReadU32 table 36
  flags := acpiReadU32 table 40
  rootEntryCount := entryCount
  revision := byteAt table 8
  oemId := oemId table
  oemTableId := oemTableId table

theorem acpiMadtDiscover_eq_ok {madt record : AcpiMadtRecord} :
    acpiMadtDiscover memory root madt = .ok record ↔
      ∃ address, Listed memory root madtSignature address ∧ MadtValid (tableAt memory address) ∧
        record = madtRecord address (rootEntries memory root).length (tableAt memory address) := by
  rw [acpiMadtDiscover, bind_eq_ok]
  simp only [mapError_eq_ok, Prod.exists, findUniqueTable_eq_ok, accept_bind_eq_ok, decide_eq_true_eq]
  constructor
  · rintro ⟨address, _, ⟨listed, rfl⟩, least, flags, same⟩
    cases same
    exact ⟨address, listed, ⟨least, flags⟩, rfl⟩
  · rintro ⟨address, listed, ⟨least, flags⟩, rfl⟩
    exact ⟨address, (rootEntries memory root).length, ⟨listed, rfl⟩, least, flags, rfl⟩

/-- The table has an extended address of the timer that a port read reaches. -/
def hasExtendedTimer (table : List Byte) : Bool :=
  fadtXPmTmrBlkEnd ≤ table.length ∧ acpiReadU64 table 212 ≠ 0 ∧ byteAt table 208 = 1

def timerPort (table : List Byte) : Nat :=
  if hasExtendedTimer table then acpiReadU64 table 212 else acpiReadU32 table 76

structure FadtValid (table : List Byte) : Prop where
  least : fadtMinimumSize ≤ table.length
  width : byteAt table 91 = 4
  block : hasExtendedTimer table → byteAt table 209 = 32 ∧ byteAt table 210 = 0
  present : timerPort table ≠ 0
  range : timerPort table + 4 ≤ 0x10000

def fadtRecord (address : Nat) (table : List Byte) : AcpiFadt where
  physicalAddress := address
  length := table.length
  flags := acpiReadU32 table 112
  pmTimerPort := timerPort table
  pmTimerCounterBits := counterBits (acpiReadU32 table 112)
  revision := byteAt table 8
  pmTimerExtendedAddress := hasExtendedTimer table
  oemId := oemId table
  oemTableId := oemTableId table

theorem pmTimerPort_eq_ok {port : Nat} {extended : Bool} :
    pmTimerPort table = .ok (port, extended) ↔
      (hasExtendedTimer table → byteAt table 209 = 32 ∧ byteAt table 210 = 0) ∧ timerPort table ≠ 0 ∧
        port = timerPort table ∧ extended = hasExtendedTimer table := by
  rw [pmTimerPort, timerPort]
  by_cases reach : fadtXPmTmrBlkEnd ≤ table.length ∧ acpiReadU64 table 212 ≠ 0 ∧ byteAt table 208 = 1
  · have has : hasExtendedTimer table := decide_eq_true reach
    rw [if_pos reach, has, if_pos rfl]
    split
    · next bad => exact iff_of_false nofun fun h => absurd (h.1 rfl) (by omega)
    · next good =>
        rw [Except.ok.injEq, Prod.mk.injEq]
        constructor
        · rintro ⟨rfl, rfl⟩
          exact ⟨fun _ => by omega, reach.2.1, rfl, rfl⟩
        · rintro ⟨-, -, rfl, rfl⟩
          exact ⟨rfl, rfl⟩
  have none : hasExtendedTimer table = false := decide_eq_false reach
  rw [if_neg reach, none, if_neg Bool.false_ne_true]
  split
  · next zero => exact iff_of_false nofun fun h => h.2.1 zero
  · next some =>
      rw [Except.ok.injEq, Prod.mk.injEq]
      constructor
      · rintro ⟨rfl, rfl⟩
        exact ⟨nofun, some, rfl, rfl⟩
      · rintro ⟨-, -, rfl, rfl⟩
        exact ⟨rfl, rfl⟩

theorem decodePmTimer_eq_ok {fadt decoded : AcpiFadt} :
    decodePmTimer table fadt = .ok decoded ↔
      FadtValid table ∧ decoded = { fadt with
        flags := acpiReadU32 table 112
        pmTimerPort := timerPort table
        pmTimerExtendedAddress := hasExtendedTimer table
        pmTimerCounterBits := counterBits (acpiReadU32 table 112) } := by
  rw [decodePmTimer, accept_bind_eq_ok, accept_bind_eq_ok, bind_eq_ok]
  simp only [mapError_eq_ok, Prod.exists, pmTimerPort_eq_ok, accept_bind_eq_ok, decide_eq_true_eq]
  constructor
  · rintro ⟨least, width, _, _, ⟨block, present, rfl, rfl⟩, range, same⟩
    cases same
    exact ⟨⟨least, width, block, present, by omega⟩, rfl⟩
  · rintro ⟨⟨least, width, block, present, range⟩, rfl⟩
    exact ⟨least, width, _, _, ⟨block, present, rfl, rfl⟩, by omega, rfl⟩

theorem acpiFadtDiscover_eq_ok {fadt record : AcpiFadt} :
    acpiFadtDiscover memory root fadt = .ok record ↔
      ∃ address, Listed memory root fadtSignature address ∧ FadtValid (tableAt memory address) ∧
        record = fadtRecord address (tableAt memory address) := by
  rw [acpiFadtDiscover, bind_eq_ok]
  simp only [mapError_eq_ok, Prod.exists, findUniqueTable_eq_ok, bind_eq_ok, decodePmTimer_eq_ok]
  constructor
  · rintro ⟨address, _, ⟨listed, rfl⟩, _, ⟨valid, rfl⟩, same⟩
    cases same
    exact ⟨address, listed, valid, by rw [fadtRecord]⟩
  · rintro ⟨address, listed, valid, rfl⟩
    exact ⟨address, (rootEntries memory root).length, ⟨listed, rfl⟩, _, ⟨valid, rfl⟩, by rw [fadtRecord]⟩

/-- What a window occupies: one megabyte for each of its buses. -/
def AcpiEcamAllocation.size (allocation : AcpiEcamAllocation) : Nat :=
  (allocation.endBus - allocation.startBus + 1) * acpiEcamBusSize

structure AcpiEcamAllocation.Valid (allocation : AcpiEcamAllocation) : Prop where
  buses : allocation.startBus ≤ allocation.endBus
  base : allocation.baseAddress ≠ 0 ∧ allocation.baseAddress % acpiEcamBusSize = 0
  ends : allocation.baseAddress + allocation.size < wordLimit

/-- Windows that share neither a bus of a segment nor memory. -/
def AcpiEcamAllocation.Apart (left right : AcpiEcamAllocation) : Prop :=
  (left.segment = right.segment → left.endBus < right.startBus ∨ right.endBus < left.startBus) ∧
  (left.baseAddress + left.size ≤ right.baseAddress ∨ right.baseAddress + right.size ≤ left.baseAddress)

def allocationCount (table : List Byte) : Nat := (table.length - acpiMcfgFixedSize) / acpiMcfgAllocationSize

def ecamAllocations (table : List Byte) : List AcpiEcamAllocation :=
  (List.range (allocationCount table)).map (ecamAllocationAt table)

structure McfgValid (table : List Byte) : Prop where
  least : acpiMcfgFixedSize ≤ table.length
  whole : (table.length - acpiMcfgFixedSize) % acpiMcfgAllocationSize = 0
  some : ecamAllocations table ≠ []
  limit : (ecamAllocations table).length ≤ acpiMaxEcamAllocations
  valid : ∀ allocation ∈ ecamAllocations table, allocation.Valid
  apart : (ecamAllocations table).Pairwise AcpiEcamAllocation.Apart

def mcfgRecord (address : Nat) (table : List Byte) : AcpiMcfg where
  physicalAddress := address
  length := table.length
  allocationCount := (ecamAllocations table).length
  revision := byteAt table 8
  oemId := oemId table
  oemTableId := oemTableId table
  allocations := ecamAllocations table

theorem byteAt_lt (bytes : List Byte) (offset : Nat) : byteAt bytes offset < 256 := (bytes.getD offset 0).isLt

/-- For buses in order the size is computed without a wrap. -/
theorem acpiEcamAllocationSize_eq {allocation : AcpiEcamAllocation} (high : allocation.endBus < 256)
    (buses : allocation.startBus ≤ allocation.endBus) : acpiEcamAllocationSize allocation = allocation.size := by
  have count : (allocation.endBus + wordLimit - allocation.startBus + 1) % wordLimit =
      allocation.endBus - allocation.startBus + 1 := by
    rw [wordLimit]
    omega
  rw [acpiEcamAllocationSize, count, AcpiEcamAllocation.size, acpiEcamBusSize, wordLimit]
  omega

theorem ecamAllocationsConflict_eq_false {left right : AcpiEcamAllocation} (leftHigh : left.endBus < 256)
    (rightHigh : right.endBus < 256) (leftValid : left.Valid) (rightValid : right.Valid) :
    ecamAllocationsConflict left right = false ↔ left.Apart right := by
  rw [ecamAllocationsConflict, acpiEcamAllocationSize_eq leftHigh leftValid.buses,
    acpiEcamAllocationSize_eq rightHigh rightValid.buses, Nat.mod_eq_of_lt leftValid.ends,
    Nat.mod_eq_of_lt rightValid.ends, AcpiEcamAllocation.Apart, decide_eq_false_iff_not]
  omega

theorem ecamAllocationAt_high (table : List Byte) (index : Nat) : (ecamAllocationAt table index).endBus < 256 :=
  byteAt_lt _ _

/-- One turn of the loop: the window is valid and apart from those before it. -/
theorem decodeEcamAllocation_eq_ok {next : AcpiMcfg} {index : Nat}
    (valid : ∀ earlier ∈ before, (ecamAllocationAt table earlier).Valid) :
    decodeEcamAllocation table { mcfg with allocations := before.map (ecamAllocationAt table) } index = .ok next ↔
      ((ecamAllocationAt table index).Valid ∧ ∀ earlier ∈ before,
        (ecamAllocationAt table earlier).Apart (ecamAllocationAt table index)) ∧
      next = { mcfg with allocations := (before ++ [index]).map (ecamAllocationAt table) } := by
  have high := ecamAllocationAt_high table index
  have told : (.ok { mcfg with
      allocations := before.map (ecamAllocationAt table) ++ [ecamAllocationAt table index] } :
        Except (AcpiStatus × AcpiMcfg) AcpiMcfg) = .ok next ↔
      next = { mcfg with allocations := (before ++ [index]).map (ecamAllocationAt table) } := by
    rw [map_append, map_singleton, Except.ok.injEq]
    exact eq_comm
  simp only [decodeEcamAllocation, accept_bind_eq_ok, told, decide_eq_true_iff, Bool.not_eq_true',
    any_map, any_eq_false]
  generalize ecamAllocationAt table index = allocation at high ⊢
  have fits : allocation.startBus ≤ allocation.endBus →
      (allocation.baseAddress ≤ wordLimit - 1 - acpiEcamAllocationSize allocation ↔
        allocation.baseAddress + allocation.size < wordLimit) := by
    intro buses
    rw [acpiEcamAllocationSize_eq high buses, AcpiEcamAllocation.size, acpiEcamBusSize, wordLimit]
    omega
  constructor
  · rintro ⟨buses, base, ends, clear, same⟩
    have now : allocation.Valid := ⟨buses, base, (fits buses).mp ends⟩
    refine ⟨⟨now, fun earlier member => ?_⟩, same⟩
    exact (ecamAllocationsConflict_eq_false (ecamAllocationAt_high _ _) high (valid earlier member) now).mp
      (Bool.eq_false_iff.mpr (clear earlier member))
  · rintro ⟨⟨now, apart⟩, same⟩
    refine ⟨now.buses, now.base, (fits now.buses).mpr now.ends, fun earlier member => ?_, same⟩
    exact Bool.eq_false_iff.mp ((ecamAllocationsConflict_eq_false (ecamAllocationAt_high _ _) high
      (valid earlier member) now).mpr (apart earlier member))

theorem decodeEcamAllocations_eq_ok {decoded : AcpiMcfg} (empty : mcfg.allocations = []) :
    decodeEcamAllocations table mcfg = .ok decoded ↔
      McfgValid table ∧ decoded = { mcfg with
        allocations := ecamAllocations table
        allocationCount := (ecamAllocations table).length } := by
  have length : (ecamAllocations table).length = allocationCount table := by
    rw [ecamAllocations, length_map, length_range]
  have fold : ∀ next, (List.range (allocationCount table)).foldlM (decodeEcamAllocation table) mcfg = .ok next ↔
      ((∀ allocation ∈ ecamAllocations table, allocation.Valid) ∧
        (ecamAllocations table).Pairwise AcpiEcamAllocation.Apart) ∧
      next = { mcfg with allocations := ecamAllocations table } := by
    intro next
    rw [ecamAllocations, forall_mem_map, pairwise_map, ← inOrder_iff_forall, ← inOrder_pairwise_iff,
      ← inOrder_and_iff]
    have start : mcfg = { mcfg with allocations := ([] : List Nat).map (ecamAllocationAt table) } := by
      rw [map_nil, ← empty]
    conv_lhs => rw [start]
    refine @foldlM_eq_ok _ _ _ _
      (fun before : List Nat => { mcfg with allocations := before.map (ecamAllocationAt table) })
      (fun before index => (ecamAllocationAt table index).Valid ∧ ∀ earlier ∈ before,
        (ecamAllocationAt table earlier).Apart (ecamAllocationAt table index))
      (fun _ => True) (fun before index s order _ => ?_) _ (fun _ _ => trivial) next
    exact decodeEcamAllocation_eq_ok (inOrder_iff_forall.mp (inOrder_and_iff.mp order).1)
  have some : ecamAllocations table ≠ [] ↔ allocationCount table ≠ 0 := by
    rw [← length, Ne, Ne, length_eq_zero_iff]
  rw [decodeEcamAllocations, accept_bind_eq_ok, accept_bind_eq_ok, accept_bind_eq_ok, accept_bind_eq_ok,
    bind_eq_ok]
  have count : (table.length - acpiMcfgFixedSize) / acpiMcfgAllocationSize = allocationCount table := rfl
  simp only [count, fold, decide_eq_true_eq]
  constructor
  · rintro ⟨least, whole, present, limit, _, ⟨⟨valid, apart⟩, rfl⟩, same⟩
    cases same
    exact ⟨⟨least, whole, some.mpr present, by rwa [length], valid, apart⟩, by rw [length]⟩
  · rintro ⟨⟨least, whole, present, limit, valid, apart⟩, rfl⟩
    rw [length] at limit ⊢
    exact ⟨least, whole, some.mp present, limit, _, ⟨⟨valid, apart⟩, rfl⟩, rfl⟩

theorem acpiMcfgDiscover_eq_ok {record : AcpiMcfg} :
    acpiMcfgDiscover memory root mcfg = .ok record ↔
      ∃ address, Listed memory root mcfgSignature address ∧ McfgValid (tableAt memory address) ∧
        record = mcfgRecord address (tableAt memory address) := by
  rw [acpiMcfgDiscover, bind_eq_ok]
  simp only [mapError_eq_ok, Prod.exists, findUniqueTable_eq_ok, bind_eq_ok,
    decodeEcamAllocations_eq_ok (show mcfgReset.allocations = [] from rfl)]
  constructor
  · rintro ⟨address, _, ⟨listed, rfl⟩, _, ⟨valid, rfl⟩, same⟩
    cases same
    exact ⟨address, listed, valid, by rw [mcfgRecord]⟩
  · rintro ⟨address, listed, valid, rfl⟩
    exact ⟨address, (rootEntries memory root).length, ⟨listed, rfl⟩, _, ⟨valid, rfl⟩, by rw [mcfgRecord]⟩

end

section
variable {before after : Nat → Byte} {root : AcpiRoot}

theorem span_congr {length : Nat}
    (same : ∀ index, index < length → after (address + index) = before (address + index)) :
    span after address length = span before address length :=
  map_congr_left fun index member => same index (mem_range.mp member)

theorem span_add (memory : Nat → Byte) (address first second : Nat) :
    span memory address (first + second) = span memory address first ++ span memory (address + first) second := by
  rw [span, range_add, map_append, map_map]
  simp only [span, Function.comp_def, add_assoc]

theorem span_mul (memory : Nat → Byte) (address count size : Nat) :
    span memory address (count * size) =
      ((List.range count).map fun index => span memory (address + index * size) size).flatten := by
  induction count with
  | zero => rw [Nat.zero_mul]; rfl
  | succ count ih =>
    rw [Nat.add_mul, Nat.one_mul, span_add, ih, range_succ, map_append, map_singleton,
      flatten_append, flatten_singleton]

theorem acpiByteSum_perm {left right : List Byte} (perm : left.Perm right) :
    acpiByteSum left = acpiByteSum right := by
  refine perm.foldl_eq' (fun x _ y _ z => ?_) 0
  rw [BitVec.add_assoc, BitVec.add_comm x y, ← BitVec.add_assoc]

/-- The root table after its entries have changed places: the same header, the same entries, and
the same tables behind them. -/
structure Rearranged (before after : Nat → Byte) (root : AcpiRoot) : Prop where
  header : ∀ index, index < acpiSdtHeaderSize →
    after (root.physicalAddress + index) = before (root.physicalAddress + index)
  entries : (rootEntries after root).Perm (rootEntries before root)
  tables : ∀ address ∈ rootAddresses before root, ∀ index,
    index < max acpiSdtHeaderSize (tableLength before address) → after (address + index) = before (address + index)

theorem tableLength_congr
    (same : ∀ index, index < acpiSdtHeaderSize → after (address + index) = before (address + index)) :
    tableLength after address = tableLength before address := by
  have field : span after (address + 4) 4 = span before (address + 4) 4 := by
    refine span_congr fun index low => ?_
    rw [add_assoc]
    exact same (4 + index) (by rw [acpiSdtHeaderSize]; omega)
  simp only [tableLength, field]

theorem tableAt_root {memory : Nat → Byte} (least : acpiSdtHeaderSize ≤ tableLength memory root.physicalAddress)
    (whole : (tableLength memory root.physicalAddress - acpiSdtHeaderSize) % rootEntrySize root = 0) :
    tableAt memory root.physicalAddress =
      span memory root.physicalAddress acpiSdtHeaderSize ++ (rootEntries memory root).flatten := by
  have size := Nat.div_add_mod (tableLength memory root.physicalAddress - acpiSdtHeaderSize) (rootEntrySize root)
  rw [whole, add_zero, mul_comm] at size
  have total : tableLength memory root.physicalAddress = acpiSdtHeaderSize +
      (tableLength memory root.physicalAddress - acpiSdtHeaderSize) / rootEntrySize root * rootEntrySize root := by
    omega
  rw [tableAt, rootEntries]
  conv_lhs => rw [total, span_add, span_mul]
  rfl

namespace Rearranged
open List

section
variable (moved : Rearranged before after root)
include moved

theorem length :
    tableLength after root.physicalAddress = tableLength before root.physicalAddress :=
  tableLength_congr moved.header

theorem addresses :
    (rootAddresses after root).Perm (rootAddresses before root) := moved.entries.map entryAddress

theorem sameLength (member : address ∈ rootAddresses before root) :
    tableLength after address = tableLength before address :=
  tableLength_congr fun index low =>
    moved.tables address member index (Nat.lt_of_lt_of_le low (Nat.le_max_left _ _))

theorem symm : Rearranged after before root where
  header index low := (moved.header index low).symm
  entries := moved.entries.symm
  tables address member index low := by
    have listed := moved.addresses.mem_iff.mp member
    rw [moved.sameLength listed] at low
    exact (moved.tables address listed index low).symm

theorem table (member : address ∈ rootAddresses before root) :
    tableLength after address = tableLength before address ∧ tableAt after address = tableAt before address ∧
      span after address 4 = span before address 4 := by
  have same := moved.tables address member
  have length := moved.sameLength member
  refine ⟨length, ?_, span_congr fun index low => same index ?_⟩
  · simp only [tableAt, length]
    exact span_congr fun index low => same index (Nat.lt_of_lt_of_le low (Nat.le_max_right _ _))
  · rw [acpiSdtHeaderSize]
    omega

theorem rootValid (valid : RootValid before root) : RootValid after root := by
  obtain ⟨present, format, least, most, whole, limit, mapped, sum⟩ := valid
  have signature : span after root.physicalAddress 4 = span before root.physicalAddress 4 :=
    span_congr fun index low => moved.header index (by rw [acpiSdtHeaderSize]; omega)
  rw [tableAt_root least whole, ← span_congr moved.header,
    acpiByteSum_perm (.append_left _ moved.entries.symm.flatten)] at sum
  rw [← moved.length] at least most whole mapped
  rw [← tableAt_root least whole] at sum
  rw [← signature] at format
  rw [← moved.entries.length_eq] at limit
  exact ⟨present, format, least, most, whole, limit, mapped, sum⟩

theorem listed (listed : Listed before root signature address) :
    Listed after root signature address ∧ tableAt after address = tableAt before address := by
  have inside : address ∈ rootAddresses before root := by
    have member : address ∈ (rootAddresses before root).filter (signed before signature) := by
      rw [listed.only]
      exact .head _
    exact (mem_filter.mp member).1
  refine ⟨⟨moved.rootValid listed.valid, fun other member => ?_, ?_⟩, (moved.table inside).2.1⟩
  · have earlier := moved.addresses.mem_iff.mp member
    obtain ⟨length, table, -⟩ := moved.table earlier
    obtain ⟨present, least, most, mapped, sum⟩ := listed.tables other earlier
    rw [← length] at least most mapped
    rw [← table] at sum
    exact ⟨present, least, most, mapped, sum⟩
  · have same : (rootAddresses after root).filter (signed after signature) =
        (rootAddresses after root).filter (signed before signature) := by
      refine filter_congr fun other member => ?_
      simp only [signed, (moved.table (moved.addresses.mem_iff.mp member)).2.2]
    have perm := moved.addresses.filter (signed before signature)
    rw [listed.only, ← same] at perm
    exact perm_singleton.mp perm

/-- What the one table decides does not depend on where it is listed. -/
theorem lookup {Q : Nat → Nat → List Byte → Prop} :
    (∃ address, Listed after root signature address ∧
      Q address (rootEntries after root).length (tableAt after address)) ↔
    ∃ address, Listed before root signature address ∧
      Q address (rootEntries before root).length (tableAt before address) := by
  have count := moved.entries.length_eq
  constructor
  · rintro ⟨address, listed, told⟩
    obtain ⟨listed, table⟩ := moved.symm.listed listed
    rw [count, ← table] at told
    exact ⟨address, listed, told⟩
  · rintro ⟨address, listed, told⟩
    obtain ⟨listed, table⟩ := moved.listed listed
    rw [← count, ← table] at told
    exact ⟨address, listed, told⟩

end

end Rearranged

end

/-- The one table that exactly one entry leads to decides what a discovery accepts, wherever in
the root table that entry is; a refusal leaves the caller's structure reset; and the windows of
an accepted configuration table are in range and apart. -/
theorem table_lookup_exact (memory : Nat → Byte) (root : AcpiRoot) (madt : AcpiMadtRecord) (fadt : AcpiFadt)
    (mcfg : AcpiMcfg) :
    ((∀ record, acpiMadtDiscover memory root madt = .ok record ↔
        ∃ address, Listed memory root madtSignature address ∧ MadtValid (tableAt memory address) ∧
          record = madtRecord address (rootEntries memory root).length (tableAt memory address)) ∧
      (∀ record, acpiFadtDiscover memory root fadt = .ok record ↔
        ∃ address, Listed memory root fadtSignature address ∧ FadtValid (tableAt memory address) ∧
          record = fadtRecord address (tableAt memory address)) ∧
      ∀ record, acpiMcfgDiscover memory root mcfg = .ok record ↔
        ∃ address, Listed memory root mcfgSignature address ∧ McfgValid (tableAt memory address) ∧
          record = mcfgRecord address (tableAt memory address)) ∧
    (∀ after, Rearranged memory after root →
      (∀ record, acpiMadtDiscover after root madt = .ok record ↔ acpiMadtDiscover memory root madt = .ok record) ∧
      (∀ record, acpiFadtDiscover after root fadt = .ok record ↔ acpiFadtDiscover memory root fadt = .ok record) ∧
      ∀ record, acpiMcfgDiscover after root mcfg = .ok record ↔ acpiMcfgDiscover memory root mcfg = .ok record) ∧
    ((Refuses (acpiMadtDiscover memory root madt) fun refusal => refusal.2 = madtReset) ∧
      (Refuses (acpiFadtDiscover memory root fadt) fun refusal => refusal.2 = fadtReset) ∧
      Refuses (acpiMcfgDiscover memory root mcfg) fun refusal => refusal.2 = mcfgReset) ∧
    ∀ record, acpiMcfgDiscover memory root mcfg = .ok record →
      (∀ window ∈ record.allocations, window.baseAddress + window.size < wordLimit) ∧
      record.allocations.Pairwise AcpiEcamAllocation.Apart := by
  refine ⟨⟨fun record => acpiMadtDiscover_eq_ok, fun record => acpiFadtDiscover_eq_ok,
    fun record => acpiMcfgDiscover_eq_ok⟩, fun after moved => ?_, ⟨?_, ?_, ?_⟩, fun record accepted => ?_⟩
  · simp only [acpiMadtDiscover_eq_ok, acpiFadtDiscover_eq_ok, acpiMcfgDiscover_eq_ok]
    refine ⟨fun record => ?_, fun record => ?_, fun record => ?_⟩
    · exact moved.lookup (Q := fun address count table => MadtValid table ∧ record = madtRecord address count table)
    · exact moved.lookup (Q := fun address _ table => FadtValid table ∧ record = fadtRecord address table)
    · exact moved.lookup (Q := fun address _ table => McfgValid table ∧ record = mcfgRecord address table)
  · refine .bind (.mapError fun _ => rfl) fun _ _ => ?_
    exact .accept rfl fun _ => .accept rfl fun _ => .ok
  · refine .bind (.mapError fun _ => rfl) fun _ _ => ?_
    exact .bind (.mapError fun _ => rfl) fun _ _ => .ok
  · refine .bind (.mapError fun _ => rfl) fun _ _ => ?_
    exact .bind (.mapError fun _ => rfl) fun _ _ => .ok
  · obtain ⟨address, -, valid, rfl⟩ := acpiMcfgDiscover_eq_ok.mp accepted
    exact ⟨fun window member => (valid.valid window member).ends, valid.apart⟩

def twoTables (first second : Byte) : Nat → Byte := fun address =>
  ([0x58, 0x53, 0x44, 0x54, 52, 0, 0, 0, 0, 0xA9] ++ List.replicate 26 0 ++
    [first, 0x10, 0, 0, 0, 0, 0, 0, second, 0x10, 0, 0, 0, 0, 0, 0] ++ List.replicate 12 0 ++
    [0x41, 0x50, 0x49, 0x43, 44, 0, 0, 0, 0, 0xD8] ++ List.replicate 26 0 ++
    [0, 0, 0xE0, 0xFE, 1, 0, 0, 0] ++ List.replicate 20 0 ++
    [0x54, 0x45, 0x53, 0x54, 36, 0, 0, 0, 0, 0x9C] ++ List.replicate 26 0).getD (address - 0x1000) 0

theorem table_lookup_exact_two :
    ∃ record, acpiMadtDiscover (twoTables 0x40 0x80) ⟨.xsdt, 0x1000⟩ madtReset = .ok record ∧
      acpiMadtDiscover (twoTables 0x80 0x40) ⟨.xsdt, 0x1000⟩ madtReset = .ok record := by
  have moved : Rearranged (twoTables 0x40 0x80) (twoTables 0x80 0x40) ⟨.xsdt, 0x1000⟩ :=
    ⟨by decide +kernel, by decide +kernel, by decide +kernel⟩
  have found : ∃ record, acpiMadtDiscover (twoTables 0x40 0x80) ⟨.xsdt, 0x1000⟩ madtReset = .ok record :=
    ⟨⟨⟨0x1040, 44, 0xFEE00000, 1⟩, 2, 0, .replicate 7 0, .replicate 9 0⟩, by decide +kernel⟩
  obtain ⟨record, accepted⟩ := found
  have lookup := table_lookup_exact (twoTables 0x40 0x80) ⟨.xsdt, 0x1000⟩ madtReset fadtReset mcfgReset
  exact ⟨record, accepted, ((lookup.2.1 _ moved).1 record).mpr accepted⟩

end Sapote.Acpi
