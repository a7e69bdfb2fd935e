import Sapote.Ioapic.Invariant

/-!
What the units of the I/O APIC answer for, and which of their registers are touched. The
overlap test of `ioapic_initialize` computes its limits in 32 bits, so it passes over a
range that reaches the top; the window that `acpi_topology_discover` checks is shorter
than the one `ioapic_send_eoi` writes to.
-/

namespace Sapote.Ioapic
open List

open Acpi Interrupts Library
variable {hardware : IoapicHardware} {memory : Nat → Byte} {madt : AcpiMadt}
  {topology : AcpiTopology} {interrupts : Bool} {table : RedirectionTable} {s : IoapicState}
  {unit : IoapicUnit}

theorem acpiReadU32_lt (bytes : List Byte) (offset : Nat) : acpiReadU32 bytes offset < 2 ^ 32 := by
  have small : ∀ place, byteAt bytes place < 2 ^ 8 := fun place => BitVec.isLt _
  have bytes := And.intro (small offset) (And.intro (small (offset + 1))
    (And.intro (small (offset + 2)) (small (offset + 2 + 1))))
  unfold acpiReadU32 acpiReadU16
  omega

/-- Interrupt bases are read from 32 bits. -/
theorem interruptBase_lt (accepted : acpiTopologyDiscover memory madt = .ok topology)
    {described : AcpiIoApic} (member : described ∈ topology.ioApics) :
    described.interruptBase < 2 ^ 32 := by
  obtain ⟨-, entries, ⟨chunks, -, -, decoded⟩, -, rfl⟩ := acpiTopologyDiscover_entries accepted
  obtain ⟨entry, inside, shape⟩ := mem_filterMap.mp member
  have found : some entry ∈ chunks.map decodeEntry := by
    rw [decoded]
    exact mem_map_of_mem inside
  obtain ⟨chunk, -, same⟩ := mem_map.mp found
  unfold decodeEntry at same
  repeat' split at same
  all_goals cases same
  all_goals cases shape
  exact acpiReadU32_lt chunk 8

/-- The units are apart exactly if nothing reaches into a range that touches the top of
the 32-bit interrupt numbers: that is what the overlap test does not see. -/
theorem units_answer_apart_iff (accepted : acpiTopologyDiscover memory madt = .ok topology)
    (initialized : ioapicInitialize hardware interrupts topology table = .ok s) :
    (∀ globalInterrupt < 2 ^ 32, ∀ (i j : Nat) u w, s.units[i]? = some u → s.units[j]? = some w →
        unitAnswers globalInterrupt u = true → unitAnswers globalInterrupt w = true → i = j) ↔
      ∀ (i j : Nat) u w, s.units[i]? = some u → s.units[j]? = some w → i ≠ j →
        2 ^ 32 ≤ u.interruptBase + u.entryCount →
          w.interruptBase + w.entryCount ≤ u.interruptBase := by
  obtain ⟨last, accesses, rfl, quiet⟩ := ioapicInitialize_units initialized
  have base : ∀ {i : Nat} {u}, (topology.ioApics.map (probeUnit hardware))[i]? = some u →
      u.interruptBase < 2 ^ 32 := by
    intro i u here
    obtain ⟨described, member, rfl⟩ := mem_map.mp (mem_of_getElem? here)
    exact interruptBase_lt accepted member
  constructor
  · intro single i j u w here there apart top
    by_contra meets
    -- The larger of the two bases is then a number of both.
    have some := quiet.counted w (mem_of_getElem? there)
    have numbers := And.intro (base here) (base there)
    unfold ioapicMinEntries at some
    refine apart (single (max u.interruptBase w.interruptBase) ?_ i j u w here there ?_ ?_)
    · omega
    · exact decide_eq_true (by omega)
    · exact decide_eq_true (by omega)
  · intro clear globalInterrupt small i j u w here there first second
    by_contra apart
    have answers := And.intro (of_decide_eq_true first) (of_decide_eq_true second)
    have low := clear i j u w here there apart
    have high := clear j i w u there here (.symm apart)
    have passed : unitsOverlap u w = false ∨ unitsOverlap w u = false := by
      obtain ⟨inside, rfl⟩ := List.getElem?_eq_some_iff.mp here
      obtain ⟨within, rfl⟩ := List.getElem?_eq_some_iff.mp there
      have ordered := List.pairwise_iff_getElem.mp quiet.apart
      obtain before | after := Nat.lt_or_gt_of_ne apart
      · exact .inr (ordered i j inside within before)
      · exact .inl (ordered j i within inside after)
    unfold unitsOverlap at passed
    simp only [decide_eq_false_iff_not] at passed
    omega

/-- A MADT with one processor and two units, whose interrupt bases are given by their bytes. -/
def pairTable (checksum : Byte) (first second : List Byte) : List Byte :=
  [0x41, 0x50, 0x49, 0x43, 76, 0, 0, 0, 0, checksum] ++ List.replicate 34 0 ++
    [0, 8, 0, 0, 1, 0, 0, 0] ++ [1, 12, 0, 0, 0, 0, 0xC0, 0xFE] ++ first ++
    [1, 12, 1, 0, 0, 0x10, 0xC0, 0xFE] ++ second

def pairTopology (first second : Nat) : AcpiTopology :=
  ⟨0xFEE00000, false, true, 1, 0, 0, [⟨0, 0, true, false⟩],
    [⟨0, 0xFEC00000, first⟩, ⟨1, 0xFEC01000, second⟩], []⟩

def crowdedTable : List Byte := pairTable 5 [0xF0, 0xFF, 0xFF, 0xFF] [0xF8, 0xFF, 0xFF, 0xFF]

def crowdedTopology : AcpiTopology := pairTopology 0xFFFFFFF0 0xFFFFFFF8

def crowdedHardware : IoapicHardware :=
  ⟨fun address => address / 0x1000 % 2, fun _ => 0x00170020, fun device => device <<< 24⟩

/-- Two units of 24 entries at 0xFFFFFFF0 and 0xFFFFFFF8 are both accepted, and both answer
for 0xFFFFFFF8. -/
theorem crowded_units_share_interrupt :
    acpiTopologyDiscover (fun address => crowdedTable.getD (address - 0x1000) 0)
        ⟨0x1000, 76, 0xFEE00000, 1⟩ = .ok crowdedTopology ∧
      ∃ s u w, ioapicInitialize crowdedHardware false crowdedTopology (fun _ _ => ⟨0, 0⟩) = .ok s ∧
        s.units[0]? = some u ∧ s.units[1]? = some w ∧ unitAnswers 0xFFFFFFF8 u = true ∧
        unitAnswers 0xFFFFFFF8 w = true :=
  ⟨by decide +kernel, _, _, _, rfl, rfl, rfl, by decide, by decide⟩

/-- Two units of 24 entries, the second from where the first ends. -/
theorem neighbouring_units_answer_apart :
    ∃ s, ioapicInitialize crowdedHardware false (pairTopology 0 24) (fun _ _ => ⟨0, 0⟩) = .ok s ∧
      s.units.length = 2 ∧ ∀ globalInterrupt < 2 ^ 32, ∀ (i j : Nat) u w, s.units[i]? = some u →
        s.units[j]? = some w → unitAnswers globalInterrupt u = true →
          unitAnswers globalInterrupt w = true → i = j := by
  have accepted : acpiTopologyDiscover
      (fun address => (pairTable 207 [0, 0, 0, 0] [24, 0, 0, 0]).getD (address - 0x1000) 0)
      ⟨0x1000, 76, 0xFEE00000, 1⟩ = .ok (pairTopology 0 24) := by decide +kernel
  have ok : ioapicInitialize crowdedHardware false (pairTopology 0 24) (fun _ _ => ⟨0, 0⟩) = .ok _ :=
    rfl
  refine ⟨_, ok, rfl, (units_answer_apart_iff accepted ok).mpr ?_⟩
  intro i j u w here _ _ top
  have low : ∀ unit ∈ (pairTopology 0 24).ioApics.map (probeUnit crowdedHardware),
      unit.interruptBase + unit.entryCount < 2 ^ 32 := by decide
  exact absurd top (not_le.mpr (low u (mem_of_getElem? here)))

inductive IoapicOperation where
  | call (call : IoapicCall)
  | sendEoi (interrupts : Bool) (vector : Nat)
  | readRedirection (refused : Bool) (vector : Nat)

def EoiStep.accesses : EoiStep → List RegisterAccess
  | .observe unit => indexedAccesses unit 1
  | .localEoi => []
  | .directedEoi unit => [⟨unit, unit.address + ioapicRegisterEoi⟩]

def operationStep (hardware : IoapicHardware) (s : IoapicState) : IoapicOperation → IoapicState
  | .call call => ioapicStep hardware s call
  | .sendEoi interrupts vector =>
    let steps := (ioapicSendEoi interrupts s vector).2
    { s with accesses := s.accesses ++ steps.flatMap EoiStep.accesses }
  | .readRedirection refused vector =>
    match (routeForVector vector).bind s.routes with
    | none => s
    | some route => s.touch (unitOf s route) (if refused then 0 else 2)

/-- The accesses of an initialization, refused or not. -/
def initializeAccesses :
    Except (IoapicStatus × List RegisterAccess) IoapicState → List RegisterAccess
  | .error refused => refused.2
  | .ok s => s.accesses

/-- The access lies in the window that was checked for its unit. -/
def Checked (topology : AcpiTopology) (access : RegisterAccess) : Prop :=
  ∃ described ∈ topology.ioApics, access.unit.address = described.address ∧
    acpiSpanIsEarlyMapped described.address ioApicWindowSize ∧
    described.address ≤ access.address ∧
    access.address + 4 ≤ described.address + ioApicWindowSize

def SendsDirectedEoi (s : IoapicState) : IoapicOperation → Prop
  | .sendEoi interrupts vector => interrupts = false ∧ s.directedEoiMode ∧
      ∃ route, (routeForVector vector).bind s.routes = some route ∧ route.levelTriggered
  | _ => False

theorem ioapicSendEoi_cases (interrupts : Bool) (s : IoapicState) (vector : Nat) :
    ((ioapicSendEoi interrupts s vector).2 = [] ∧
        ∀ route, interrupts = false → (routeForVector vector).bind s.routes = some route →
          route.levelTriggered = false) ∨
      ∃ route, interrupts = false ∧ (routeForVector vector).bind s.routes = some route ∧
        route.levelTriggered ∧ ioapicSendEoi interrupts s vector =
          (.ok, .observe (unitOf s route) :: .localEoi ::
            if s.directedEoiMode then [.directedEoi (unitOf s route)] else []) := by
  unfold ioapicSendEoi
  cases interrupts with
  | true => exact .inl ⟨rfl, nofun⟩
  | false => ?_
  cases routeForVector vector with
  | none => exact .inl ⟨rfl, nofun⟩
  | some slot =>
    simp only [Option.bind_some, Bool.false_eq_true, if_false]
    cases s.routes slot with
    | none => exact .inl ⟨rfl, nofun⟩
    | some route =>
      cases level : route.levelTriggered with
      | false =>
        refine .inl ⟨by simp [level], ?_⟩
        rintro _ - ⟨⟩
        exact level
      | true => exact .inr ⟨route, trivial, rfl, level, by simp [level]⟩

theorem unitOf_mem (units : s.units = topology.ioApics.map (probeUnit hardware))
    (sound : RoutesSound hardware s) {vector : Nat} {route : IoapicRoute}
    (routed : (routeForVector vector).bind s.routes = some route) :
    unitOf s route ∈ topology.ioApics.map (probeUnit hardware) := by
  obtain ⟨slot, -, routed⟩ := Option.bind_eq_some_iff.mp routed
  obtain ⟨unit, request, source, programmed⟩ := sound.programmed slot route routed
  rw [unitOf, getD_eq_getElem?_getD, programmed.unit]
  exact units ▸ mem_of_getElem? programmed.unit

section
variable (mapped : ∀ described ∈ topology.ioApics,
  acpiSpanIsEarlyMapped described.address ioApicWindowSize)
include mapped

section
variable (here : unit ∈ topology.ioApics.map (probeUnit hardware))
include here

theorem checked_of_offset {offset : Nat}
    (fits : offset + 4 ≤ ioApicWindowSize) : Checked topology ⟨unit, unit.address + offset⟩ := by
  obtain ⟨described, member, rfl⟩ := mem_map.mp here
  exact ⟨described, member, rfl, mapped described member, Nat.le_add_right _ _,
    (add_assoc _ _ _).trans_le (Nat.add_le_add_left fits _)⟩

theorem indexedAccesses_checked
    (count : Nat) : ∀ access ∈ indexedAccesses unit count, Checked topology access := by
  intro access inside
  obtain ⟨pair, copy, inside⟩ := mem_flatten.mp inside
  rw [eq_of_mem_replicate copy] at inside
  obtain rfl | rfl := mem_pair.mp inside
  · exact checked_of_offset mapped here (by decide)
  · exact checked_of_offset mapped here (by decide)

end

theorem initializeUnits_checked (hardware : IoapicHardware) (described : List AcpiIoApic)
    (units : List IoapicUnit) (table : RedirectionTable) (accesses : List RegisterAccess)
    (here : ∀ entry ∈ described, entry ∈ topology.ioApics)
    (before : ∀ access ∈ accesses, Checked topology access) :
    match initializeUnits hardware described units table accesses with
    | .error refused => ∀ access ∈ refused.2, Checked topology access
    | .ok result => ∀ access ∈ result.2.2, Checked topology access := by
  induction described generalizing units table accesses with
  | nil => exact before
  | cons first rest ih =>
    obtain ⟨head, tail⟩ := forall_mem_cons.mp here
    have own := indexedAccesses_checked mapped (mem_map_of_mem (f := probeUnit hardware) head)
    have probed := forall_mem_append.mpr ⟨before, own 2⟩
    rw [initializeUnits]
    split_ifs
    · exact probed
    · exact probed
    · exact probed
    · exact ih _ _ _ tail (forall_mem_append.mpr ⟨probed, own _⟩)

theorem ioapicInitialize_checked (hardware : IoapicHardware) (interrupts : Bool)
    (table : RedirectionTable) :
    ∀ access ∈ initializeAccesses (ioapicInitialize hardware interrupts topology table),
      Checked topology access := by
  have checked := initializeUnits_checked mapped hardware topology.ioApics [] table []
    (fun _ => id) nofun
  unfold ioapicInitialize
  iterate 2
    split
    · nofun
  split
  all_goals
    next outcome =>
    rw [outcome] at checked
    exact checked

section
variable (here : unit ∈ topology.ioApics.map (probeUnit hardware))
include here

theorem touch_checked_iff (s : IoapicState) (count : Nat) :
    (∀ access ∈ (s.touch unit count).accesses, Checked topology access) ↔
      ∀ access ∈ s.accesses, Checked topology access := by
  rw [IoapicState.touch, forall_mem_append]
  exact and_iff_left (indexedAccesses_checked mapped here count)

/-- The entry is masked, written and read back, and masked again when it does not read back. -/
theorem programRoute_checked_iff (s : IoapicState) (answers : RouteAnswers)
    (request : RouteRequest) (source : IoapicSource) (slot : Fin ioapicRoutableVectors)
    (index entry : Nat) :
    (∀ access ∈ (programRoute hardware s answers request source slot index unit entry).2.accesses,
        Checked topology access) ↔ ∀ access ∈ s.accesses, Checked topology access := by
  have cleared : (clearPin hardware s slot index unit entry).accesses = (s.touch unit 2).accesses :=
    congrArg (·.accesses) (forgetEntry_forgets _ index entry).same
  have touched := touch_checked_iff mapped here
  unfold programRoute
  dsimp only
  split
  · rw [maskPin, touched, touched, cleared, touched]
  · rw [touched, cleared, touched]

end

section
variable (units : s.units = topology.ioApics.map (probeUnit hardware))
include units

theorem routeIsaIrqAs_checked_iff (answers : RouteAnswers) (request : RouteRequest) :
    (∀ access ∈ (ioapicRouteIsaIrqAs hardware answers s request).2.accesses,
        Checked topology access) ↔ ∀ access ∈ s.accesses, Checked topology access := by
  unfold ioapicRouteIsaIrqAs
  iterate 4
    split
    · rfl
  next source _ _ index unit found =>
  split
  · rfl
  next t selected =>
  have same : t.accesses = s.accesses := by
    unfold selectEoiMode at selected
    repeat' split at selected
    all_goals cases selected <;> rfl
  rw [← same]
  dsimp only
  iterate 3
    split
    · rfl
  have here := mem_of_getElem? (unitForInterrupt_some found).1
  exact programRoute_checked_iff mapped (units ▸ here) _ _ _ _ _ _ _

theorem ioapicStep_checked_iff (call : IoapicCall) :
    (∀ access ∈ (ioapicStep hardware s call).accesses, Checked topology access) ↔
      ∀ access ∈ s.accesses, Checked topology access := by
  cases call with
  | routeIsaIrq answers irq vector destination =>
    exact routeIsaIrqAs_checked_iff mapped units answers _
  | routeIsaIrqAs answers request => exact routeIsaIrqAs_checked_iff mapped units answers request
  | maskIsaIrq interrupts irq =>
    rw [ioapicStep]
    unfold ioapicMaskIsaIrq
    iterate 4
      split
      · rfl
    next source _ _ index unit found =>
    have here := mem_of_getElem? (unitForInterrupt_some found).1
    dsimp only
    rw [(forgetEntry_forgets _ _ _).same]
    exact touch_checked_iff mapped (units ▸ here) s 2

variable (sound : RoutesSound hardware s)
include sound

/-- An operation stays inside the windows unless it ends an interrupt at the unit. -/
theorem operationStep_checked_iff (operation : IoapicOperation) :
    (∀ access ∈ (operationStep hardware s operation).accesses, Checked topology access) ↔
      (∀ access ∈ s.accesses, Checked topology access) ∧ ¬ SendsDirectedEoi s operation := by
  cases operation with
  | call call => exact (ioapicStep_checked_iff mapped units call).trans (and_iff_left id).symm
  | readRedirection refused vector =>
    refine .trans ?_ (and_iff_left id).symm
    rw [operationStep]
    cases routed : (routeForVector vector).bind s.routes with
    | none => rfl
    | some route => exact touch_checked_iff mapped (unitOf_mem units sound routed) s _
  | sendEoi interrupts vector =>
    rw [operationStep, SendsDirectedEoi]
    dsimp only
    rw [forall_mem_append]
    refine and_congr_right fun _ => ?_
    rcases ioapicSendEoi_cases interrupts s vector with
      ⟨silent, edge⟩ | ⟨route, rfl, routed, level, ended⟩
    · rw [silent]
      refine iff_of_true (forall_mem_nil _) ?_
      rintro ⟨off, -, route, routed, level⟩
      exact nomatch level.symm.trans (edge route off routed)
    rw [ended]
    have observed := indexedAccesses_checked mapped (unitOf_mem units sound routed) 1
    cases mode : s.directedEoiMode with
    | false => exact iff_of_true (by simpa [EoiStep.accesses] using observed) nofun
    | true =>
      refine iff_of_false ?_ (not_not.mpr ⟨rfl, rfl, route, routed, level⟩)
      intro all
      obtain ⟨described, -, same, -, -, high⟩ :=
        all ⟨unitOf s route, (unitOf s route).address + ioapicRegisterEoi⟩
          (by simp [EoiStep.accesses])
      dsimp only at same
      simp only [same, ioapicRegisterEoi, ioApicWindowSize] at high
      omega

end

theorem run_checked_iff (sound : RoutesSound hardware s)
    (units : s.units = topology.ioApics.map (probeUnit hardware))
    (operations : List IoapicOperation) :
    (∀ access ∈ (run (operationStep hardware) s operations).accesses, Checked topology access) ↔
      (∀ access ∈ s.accesses, Checked topology access) ∧
      Along (operationStep hardware) (fun s operation => ¬ SendsDirectedEoi s operation) s
        operations := by
  induction operations generalizing s with
  | nil => exact (and_iff_left trivial).symm
  | cons operation rest ih =>
    have next : RoutesSound hardware (operationStep hardware s operation) ∧
        (operationStep hardware s operation).units = s.units := by
      cases operation with
      | call call =>
        obtain ⟨next, same, -⟩ := routesSound_step _ _ s call ⟨sound, rfl, rfl⟩
        exact ⟨next, same⟩
      | sendEoi interrupts vector => exact ⟨sound.touched _, rfl⟩
      | readRedirection refused vector =>
        rw [operationStep]
        split
        · exact ⟨sound, rfl⟩
        · exact ⟨sound.touched _, rfl⟩
    rw [run_cons, ih next.1 (next.2.trans units), operationStep_checked_iff mapped units sound,
      Along, and_assoc]

end

/-- Every access of an initialization and a run lies in the window checked for its unit, exactly as
long as no interrupt is ended at a unit: the EOI register is past the window. -/
theorem register_accesses_checked_iff (accepted : acpiTopologyDiscover memory madt = .ok topology)
    (hardware : IoapicHardware) (interrupts : Bool) (table : RedirectionTable) :
    (∀ access ∈ initializeAccesses (ioapicInitialize hardware interrupts topology table),
        Checked topology access) ∧
      ∀ s, ioapicInitialize hardware interrupts topology table = .ok s → ∀ operations,
        (∀ access ∈ (run (operationStep hardware) s operations).accesses,
            Checked topology access) ↔
          Along (operationStep hardware) (fun s operation => ¬ SendsDirectedEoi s operation) s
            operations := by
  have mapped : ∀ described ∈ topology.ioApics,
      acpiSpanIsEarlyMapped described.address ioApicWindowSize = true := by
    obtain ⟨-, entries, -, order, rfl⟩ := acpiTopologyDiscover_entries accepted
    exact (ioApics_admitted order).2
  have checked := ioapicInitialize_checked mapped hardware interrupts table
  refine ⟨checked, ?_⟩
  intro s initialized operations
  obtain ⟨sound, units, -⟩ := ioapicInitialize_sound accepted initialized
  rw [initialized] at checked
  rw [run_checked_iff mapped sound units]
  exact and_iff_right checked

theorem timer_accesses_checked :
    ∃ s, ioapicInitialize timerHardware false timerTopology (fun _ _ => ⟨0, 0⟩) = .ok s ∧
      ∀ access ∈ (run (operationStep timerHardware) s
        [.call (.routeIsaIrqAs ⟨false, true, true, id⟩ ⟨0, 48, 0, .firmware⟩),
          .readRedirection false 48]).accesses, Checked timerTopology access := by
  have ok : ioapicInitialize timerHardware false timerTopology (fun _ _ => ⟨0, 0⟩) = .ok _ := rfl
  exact ⟨_, ok, ((register_accesses_checked_iff timerTopology_accepted timerHardware _ _).2 _ ok
    _).mpr ⟨id, id, trivial⟩⟩

/-- A level-triggered timer is routed in directed mode, and the end of its interrupt is
written 0x40 past the address of the unit. -/
theorem directed_eoi_outside_window :
    ∃ s, ioapicInitialize timerHardware false timerTopology (fun _ _ => ⟨0, 0⟩) = .ok s ∧
      ∃ access ∈ (run (operationStep timerHardware) s
        [.call (.routeIsaIrqAs ⟨false, true, true, id⟩ ⟨0, 48, 0, .forceLevel⟩),
          .sendEoi false 48]).accesses, ¬ Checked timerTopology access := by
  refine ⟨_, rfl, ⟨⟨0, 0xFEC00000, 0, 0x20, 24, true⟩, 0xFEC00040⟩, by decide +kernel, ?_⟩
  rintro ⟨described, member, -, -, -, high⟩
  rw [mem_singleton.mp member] at high
  exact absurd high (by decide)

end Sapote.Ioapic
