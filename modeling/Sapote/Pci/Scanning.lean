import Mathlib.Data.Set.Card
import Sapote.Pci.Capabilities

/-!
What is there to be found: the functions that answer, the buses their bridges lead to.
Scanning a bus enters the functions present on it, one after the other; it is refused
exactly if one of them is malformed or they do not fit the table.
-/

namespace Sapote.Pci
open List
variable {scan : Scan} {a : PciAddress} {bus device : Nat}

section
variable (config : ConfigSpace)

def answers (a : PciAddress) : Bool := vendorAt config a ≠ pciVendorAbsent

def present (a : PciAddress) : Bool :=
  answers config a && (a.function == 0 ||
    (answers config { a with function := 0 } && isMultifunction config { a with function := 0 }))

/-- A bridge present on `bus` names `bus'` as its secondary bus. -/
def LeadsTo (bus bus' : Nat) : Prop :=
  ∃ a, Addressable a ∧ a.bus = bus ∧ present config a ∧ isBridge config a ∧
    secondaryBusAt config a = bus'

/-- The least set of buses with bus zero that is closed under the bridges on it. -/
def reachableBuses : Set Nat := {bus | Relation.ReflTransGen (LeadsTo config) 0 bus}

def presentFunctions : Set PciAddress :=
  {a | Addressable a ∧ present config a ∧ a.bus ∈ reachableBuses config}

/-- A function that the enumeration has no reason to refuse. -/
def Good (a : PciAddress) : Prop :=
  CapabilitiesWellFormed config a ∧ (isBridge config a → secondaryBusAt config a ≠ a.bus)

/-- The functions of a device, and of a bus, in scanning order. -/
def presentOn (bus device : Nat) : List PciAddress :=
  ((List.range pciFunctionsPerDevice).map fun function => ⟨0, bus, device, function⟩).filter
    (present config)

def presentBus (bus : Nat) : List PciAddress :=
  (List.range pciDevicesPerBus).flatMap (presentOn config bus)

end

section
variable {config : ConfigSpace}

theorem secondaryBusAt_lt (a : PciAddress) : secondaryBusAt config a < pciMaxBuses :=
  byteOf_lt _ _

theorem reachableBuses_lt (here : bus ∈ reachableBuses config) : bus < pciMaxBuses := by
  obtain root | ⟨-, -, a, -, -, -, -, rfl⟩ := Relation.ReflTransGen.cases_tail here
  · exact root ▸ (by decide)
  · exact secondaryBusAt_lt a

theorem reachableBuses_least {buses : Set Nat} (root : 0 ∈ buses)
    (closed : ∀ bus ∈ buses, ∀ bus', LeadsTo config bus bus' → bus' ∈ buses) :
    reachableBuses config ⊆ buses := by
  intro bus here
  induction here with
  | refl => exact root
  | tail _ leads ih => exact closed _ ih _ leads

theorem mem_presentOn :
    a ∈ presentOn config bus device ↔ (a.segment = 0 ∧ a.bus = bus ∧ a.device = device ∧
      a.function < pciFunctionsPerDevice) ∧ present config a := by
  unfold presentOn
  rw [mem_filter, mem_map]
  refine and_congr_left fun _ => ⟨?_, ?_⟩
  · rintro ⟨function, small, rfl⟩
    exact ⟨rfl, rfl, rfl, mem_range.mp small⟩
  · rintro ⟨segment, rfl, rfl, small⟩
    refine ⟨a.function, mem_range.mpr small, ?_⟩
    rw [← segment]

theorem mem_presentBus (small : bus < pciMaxBuses) :
    a ∈ presentBus config bus ↔ Addressable a ∧ a.bus = bus ∧ present config a := by
  unfold presentBus
  rw [mem_flatMap]
  constructor
  · rintro ⟨device, low, here⟩
    obtain ⟨⟨segment, rfl, rfl, function⟩, there⟩ := mem_presentOn.mp here
    exact ⟨⟨segment, small, mem_range.mp low, function⟩, rfl, there⟩
  · rintro ⟨valid, rfl, there⟩
    exact ⟨a.device, mem_range.mpr valid.device,
      mem_presentOn.mpr ⟨⟨valid.segment, rfl, rfl, valid.function⟩, there⟩⟩

theorem nodup_presentBus (bus : Nat) : (presentBus config bus).Nodup := by
  refine nodup_flatMap.mpr ⟨fun device _ => ?_, ?_⟩
  · refine List.Nodup.filter _ (List.Nodup.map (fun f g same => ?_) nodup_range)
    exact (PciAddress.mk.inj same).2.2.2
  · refine nodup_range.imp fun {d e} apart a first second => apart ?_
    have one := (mem_presentOn.mp first).1.2.2.1
    have two := (mem_presentOn.mp second).1.2.2.1
    exact one.symm.trans two

def enterFunction (config : ConfigSpace) (scan : Scan) (a : PciAddress) : Except PciStatus Scan := do
  let (recorded, scan) ← recordFunction config a (config a pciRegisterVendorId) scan
  followBridge recorded scan

theorem scanFunction_eq {function limit : Nat} (valid : Addressable ⟨0, bus, device, function⟩)
    (inside : function < limit) :
    scanFunction config bus device (limit, scan) function =
      if answers config ⟨0, bus, device, function⟩ then
        (fun s => (if function = 0 ∧ isMultifunction config ⟨0, bus, device, function⟩ then
          pciFunctionsPerDevice else limit, s)) <$>
          enterFunction config scan ⟨0, bus, device, function⟩
      else .ok (limit, scan) := by
  unfold scanFunction enterFunction
  rw [if_neg (by simpa using inside)]
  simp only [readAligned_ok valid (show pciRegisterVendorId < 256 by decide), bind, Except.bind]
  have vendor : answers config ⟨0, bus, device, function⟩ ↔
      ¬ wordOf (config ⟨0, bus, device, function⟩ (pciRegisterVendorId / 4 * 4))
        pciRegisterVendorId = pciVendorAbsent := by
    exact decide_eq_true_iff
  by_cases absent : wordOf (config ⟨0, bus, device, function⟩ (pciRegisterVendorId / 4 * 4))
      pciRegisterVendorId = pciVendorAbsent
  · rw [if_pos absent, if_neg fun h => vendor.mp h absent]
    rfl
  rw [if_neg absent, if_pos (vendor.mpr absent)]
  have register : pciRegisterVendorId / 4 * 4 = pciRegisterVendorId := rfl
  rw [register]
  unfold recordFunction
  by_cases full : pciMaxFunctions ≤ scan.functions.length
  · rw [if_pos full]
    rfl
  rw [if_neg full]
  simp only [bind, Except.bind]
  cases described : describeFunction config ⟨0, bus, device, function⟩
      (config ⟨0, bus, device, function⟩ pciRegisterVendorId) with
  | error status => rfl
  | ok recorded =>
    have same := (describeFunction_describes valid described).multifunction
    simp only [pure, Except.pure, same]
    cases followBridge recorded _ with
    | error status => rfl
    | ok next => rfl

/-- Beside a multifunction function zero, all functions that answer are entered. -/
theorem scanFunction_all {functions : List Nat} (low : bus < pciMaxBuses)
    (slot : device < pciDevicesPerBus)
    (later : ∀ function ∈ functions, 1 ≤ function ∧ function < pciFunctionsPerDevice) :
    functions.foldlM (scanFunction config bus device) (pciFunctionsPerDevice, scan) =
      (fun s => (pciFunctionsPerDevice, s)) <$>
        ((functions.map fun function => ⟨0, bus, device, function⟩).filter
          (answers config)).foldlM (enterFunction config) scan := by
  induction functions generalizing scan with
  | nil => rfl
  | cons function functions ih =>
    obtain ⟨first, small⟩ := later function mem_cons_self
    have rest := fun other member => later other (.tail function member)
    have valid : Addressable ⟨0, bus, device, function⟩ := ⟨rfl, low, slot, small⟩
    rw [foldlM_cons, scanFunction_eq valid small, map_cons]
    by_cases here : answers config ⟨0, bus, device, function⟩
    · rw [if_pos here, filter_cons_of_pos here, foldlM_cons]
      cases enterFunction config scan ⟨0, bus, device, function⟩ with
      | error status => rfl
      | ok next =>
        have nonzero : ¬(function = 0 ∧ isMultifunction config ⟨0, bus, device, function⟩ =
          true) := fun h => by omega
        simp only [Functor.map, Except.map, bind, Except.bind, nonzero, if_false]
        exact ih rest
    · rw [if_neg here, filter_cons_of_neg here]
      exact ih rest

/-- A device is scanned by entering its present functions. -/
theorem scanDevice_eq (low : bus < pciMaxBuses) (slot : device < pciDevicesPerBus) :
    scanDevice config bus scan device =
      (presentOn config bus device).foldlM (enterFunction config) scan := by
  have range : List.range pciFunctionsPerDevice = 0 :: [1, 2, 3, 4, 5, 6, 7] := rfl
  have later : ∀ function ∈ [1, 2, 3, 4, 5, 6, 7], 1 ≤ function ∧
      function < pciFunctionsPerDevice := by decide
  have valid : Addressable ⟨0, bus, device, 0⟩ :=
    ⟨rfl, low, slot, show 0 < pciFunctionsPerDevice by decide⟩
  unfold scanDevice presentOn
  rw [range, foldlM_cons, scanFunction_eq valid (by decide), map_cons]
  by_cases here : answers config ⟨0, bus, device, 0⟩
  · have first : present config ⟨0, bus, device, 0⟩ := by simp [present, here]
    rw [if_pos here, filter_cons_of_pos first, foldlM_cons]
    cases enterFunction config scan ⟨0, bus, device, 0⟩ with
    | error status => rfl
    | ok next => ?_
    by_cases multi : isMultifunction config ⟨0, bus, device, 0⟩
    · have others : (List.map (fun function => (⟨0, bus, device, function⟩ : PciAddress))
          [1, 2, 3, 4, 5, 6, 7]).filter (present config) =
          (List.map (fun function => ⟨0, bus, device, function⟩) [1, 2, 3, 4, 5, 6, 7]).filter
            (answers config) := by
        refine filter_congr fun a member => ?_
        obtain ⟨function, -, rfl⟩ := mem_map.mp member
        simp [present, here, multi]
      rw [others]
      simp only [Functor.map, Except.map, bind, Except.bind, multi, and_self, if_true]
      rw [scanFunction_all low slot later]
      cases List.foldlM (enterFunction config) next _ with
      | error status => rfl
      | ok last => rfl
    · have none : (List.map (fun function => (⟨0, bus, device, function⟩ : PciAddress))
          [1, 2, 3, 4, 5, 6, 7]).filter (present config) = [] := by
        rw [filter_eq_nil_iff]
        intro a member
        obtain ⟨function, one, rfl⟩ := mem_map.mp member
        have nonzero : function ≠ 0 := ne_of_gt (later function one).1
        simp [present, multi, nonzero]
      rw [none]
      simp only [Functor.map, Except.map, bind, Except.bind, multi, Bool.false_eq_true, and_false,
        if_false]
      rfl
  · have none : (List.map (fun function => (⟨0, bus, device, function⟩ : PciAddress))
        (0 :: [1, 2, 3, 4, 5, 6, 7])).filter (present config) = [] := by
      rw [filter_eq_nil_iff]
      intro a member
      obtain ⟨function, one, rfl⟩ := mem_map.mp member
      cases one with
      | head => simp [present, here]
      | tail _ one =>
        have nonzero : function ≠ 0 := ne_of_gt (later function one).1
        simp [present, here, nonzero]
    rw [if_neg here, ← map_cons, none]
    rfl

def beginBus (bus : Nat) (scan : Scan) : Scan :=
  { scan with
    pending := Function.update scan.pending bus false
    scanned := Function.update scan.scanned bus true
    busCount := scan.busCount + 1 }

theorem scanBus_eq (low : bus < pciMaxBuses) :
    scanBus config bus scan =
      (presentBus config bus).foldlM (enterFunction config) (beginBus bus scan) := by
  have devices : ∀ (devices : List Nat) (scan : Scan), (∀ d ∈ devices, d < pciDevicesPerBus) →
      devices.foldlM (scanDevice config bus) scan =
        (devices.flatMap (presentOn config bus)).foldlM (enterFunction config) scan := by
    intro devices
    induction devices with
    | nil => exact fun _ _ => rfl
    | cons device devices ih =>
      intro scan small
      rw [foldlM_cons, flatMap_cons, foldlM_append,
        scanDevice_eq low (small device mem_cons_self)]
      exact bind_congr fun next => ih next fun d member => small d (.tail _ member)
  exact devices _ _ fun d member => mem_range.mp member

structure Entered (config : ConfigSpace) (scan : Scan) (as : List PciAddress) (next : Scan) :
    Prop where
  functions : ∃ fs, next.functions = scan.functions ++ fs ∧ fs.map (·.address) = as ∧
    ∀ f ∈ fs, describeFunction config f.address (config f.address pciRegisterVendorId) = .ok f
  busCount : next.busCount = scan.busCount
  bridgeCount : next.bridgeCount = scan.bridgeCount + as.countP (isBridge config)
  scanned : next.scanned = scan.scanned
  pending : ∀ bus, next.pending bus ↔ scan.pending bus ∨
    ∃ a ∈ as, isBridge config a ∧ secondaryBusAt config a = bus ∧
      scan.scanned bus = false

theorem enterFunction_ok (valid : Addressable a) (good : Good config a)
    (room : scan.functions.length < pciMaxFunctions) :
    ∃ next, enterFunction config scan a = .ok next ∧ Entered config scan [a] next := by
  obtain ⟨f, described⟩ := (@describeFunction_ok_iff config a valid
    (config a pciRegisterVendorId)).mpr good.1
  have describes := describeFunction_describes valid described
  have listed : ∃ fs, scan.functions ++ [f] = scan.functions ++ fs ∧
      fs.map (·.address) = [a] ∧ ∀ f ∈ fs,
        describeFunction config f.address (config f.address pciRegisterVendorId) = .ok f := by
    refine ⟨[f], rfl, by rw [map_singleton, describes.named], fun g member => ?_⟩
    obtain rfl := mem_singleton.mp member
    rw [describes.named]
    exact described
  unfold enterFunction recordFunction
  rw [if_neg (not_le.mpr room)]
  simp only [bind, Except.bind, described, pure, Except.pure]
  unfold followBridge
  by_cases bridge : isBridge config a
  · have type := describes.bridge.mpr bridge
    have secondary := describes.secondaryBus bridge
    rw [if_pos type, if_neg (by rw [secondary, describes.named]; exact good.2 bridge)]
    have counted : scan.bridgeCount + 1 = scan.bridgeCount + [a].countP (isBridge config) := by
      rw [countP_singleton, if_pos bridge]
    by_cases known : scan.scanned f.secondaryBus
    · rw [if_pos known]
      refine ⟨_, rfl, listed, rfl, by rw [if_pos type]; exact counted, rfl, fun bus => ?_⟩
      refine ⟨.inl, ?_⟩
      rintro (old | ⟨b, member, -, named, unknown⟩)
      · exact old
      · obtain rfl := mem_singleton.mp member
        rw [← named, ← secondary, known] at unknown
        cases unknown
    rw [if_neg known]
    refine ⟨_, rfl, listed, rfl, by rw [if_pos type]; exact counted, rfl, fun bus => ?_⟩
    by_cases same : bus = f.secondaryBus
    · subst same
      refine iff_of_true (Function.update_self _ _ _) (.inr ⟨a, mem_singleton_self a, bridge,
        secondary.symm, Bool.eq_false_iff.mpr known⟩)
    change Function.update scan.pending f.secondaryBus true bus ↔ _
    rw [Function.update_of_ne same]
    refine ⟨.inl, ?_⟩
    rintro (old | ⟨b, member, -, named, -⟩)
    · exact old
    · obtain rfl := mem_singleton.mp member
      exact absurd (named.symm.trans secondary.symm) same
  · have type : ¬ f.headerType = pciHeaderTypeBridge := fun h => bridge (describes.bridge.mp h)
    rw [if_neg type]
    have counted : scan.bridgeCount = scan.bridgeCount + [a].countP (isBridge config) := by
      rw [countP_singleton, if_neg bridge, add_zero]
    refine ⟨_, rfl, listed, rfl, by rw [if_neg type]; exact counted, rfl, fun bus => ?_⟩
    refine ⟨.inl, ?_⟩
    rintro (old | ⟨b, member, other, -, -⟩)
    · exact old
    · obtain rfl := mem_singleton.mp member
      exact absurd other bridge

/-- A function is entered only if it is good and fits. -/
theorem enterFunction_refused {next : Scan} (valid : Addressable a)
    (here : enterFunction config scan a = .ok next) :
    Good config a ∧ scan.functions.length < pciMaxFunctions := by
  unfold enterFunction recordFunction at here
  by_cases full : pciMaxFunctions ≤ scan.functions.length
  · rw [if_pos full] at here
    cases here
  rw [if_neg full] at here
  simp only [bind, Except.bind] at here
  cases described : describeFunction config a (config a pciRegisterVendorId) with
  | error status =>
    rw [described] at here
    cases here
  | ok f =>
    rw [described] at here
    have describes := describeFunction_describes valid described
    refine ⟨⟨(describeFunction_ok_iff valid).mp ⟨f, described⟩, fun bridge same => ?_⟩,
      not_le.mp full⟩
    simp only [pure, Except.pure] at here
    unfold followBridge at here
    rw [if_pos (describes.bridge.mpr bridge),
      if_pos (by rw [describes.secondaryBus bridge, describes.named, same])] at here
    cases here

theorem Entered.trans {s t u : Scan} {as : List PciAddress} (first : Entered config s [a] t)
    (rest : Entered config t as u) : Entered config s (a :: as) u := by
  obtain ⟨fs, listed, named, described⟩ := first.functions
  obtain ⟨gs, listed', named', described'⟩ := rest.functions
  refine ⟨⟨fs ++ gs, ?_, ?_, ?_⟩, ?_, ?_, ?_, fun bus => ?_⟩
  · rw [listed', listed, append_assoc]
  · rw [map_append, named, named']
    rfl
  · exact forall_mem_append.mpr ⟨described, described'⟩
  · exact rest.busCount.trans first.busCount
  · rw [rest.bridgeCount, first.bridgeCount, add_assoc, ← countP_append]
    rfl
  · exact rest.scanned.trans first.scanned
  · rw [rest.pending, first.pending, first.scanned, or_assoc]
    simp only [mem_cons, exists_eq_or_imp, not_mem_nil, or_false, exists_eq_left]

/-- A list of functions is entered exactly if all are good and there is room. -/
theorem enterFunctions_cases {as : List PciAddress} (valid : ∀ a ∈ as, Addressable a)
    (room : scan.functions.length ≤ pciMaxFunctions) :
    (∃ next, as.foldlM (enterFunction config) scan = .ok next ∧ Entered config scan as next ∧
      (∀ a ∈ as, Good config a) ∧ scan.functions.length + as.length ≤ pciMaxFunctions) ∨
    ((∃ status, as.foldlM (enterFunction config) scan = .error status) ∧
      ¬((∀ a ∈ as, Good config a) ∧ scan.functions.length + as.length ≤ pciMaxFunctions)) := by
  induction as generalizing scan with
  | nil =>
    refine .inl ⟨scan, rfl, ⟨⟨[], (append_nil _).symm, rfl, forall_mem_nil _⟩, rfl, rfl,
      rfl, fun bus => ⟨.inl, ?_⟩⟩, forall_mem_nil _, room⟩
    rintro (old | ⟨a, member, -⟩)
    · exact old
    · cases member
  | cons a as ih =>
    have here := valid a mem_cons_self
    rw [foldlM_cons]
    cases entered : enterFunction config scan a with
    | error status =>
      refine .inr ⟨⟨status, rfl⟩, fun ⟨good, fits⟩ => ?_⟩
      rw [length_cons] at fits
      obtain ⟨next, ok, -⟩ := enterFunction_ok here (good a mem_cons_self)
        (show scan.functions.length < pciMaxFunctions by omega)
      rw [entered] at ok
      cases ok
    | ok next => ?_
    obtain ⟨good, fits⟩ := enterFunction_refused here entered
    obtain ⟨next', same, first⟩ := enterFunction_ok here good fits
    rw [entered] at same
    obtain rfl := Except.ok.inj same
    have length : next.functions.length = scan.functions.length + 1 := by
      obtain ⟨fs, listed, named, -⟩ := first.functions
      have one := congrArg List.length named
      rw [length_map, length_singleton] at one
      rw [listed, length_append, one]
    have outcome := @ih next (fun b member => valid b (.tail _ member)) (by omega)
    simp only [forall_mem_cons, length_cons]
    obtain ⟨last, ok, rest, goods, fit⟩ | ⟨failed, bad⟩ := outcome
    · exact .inl ⟨last, ok, first.trans rest, ⟨good, goods⟩, by omega⟩
    · exact .inr ⟨failed, fun h => bad ⟨h.1.2, by omega⟩⟩

end

end Sapote.Pci
