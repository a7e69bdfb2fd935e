import Sapote.Pci.Scanning

/-!
The worklist over the buses: what has been scanned is reachable, what the bridges found
there lead to is scanned or waiting, and a turn of the outer loop that scans nothing
leaves nothing waiting. So the scanned buses are the reachable ones, whatever cycles
the bridges form.
-/

namespace Sapote.Pci
open List Function

/-- The enumeration has no reason to refuse. -/
structure Enumerable (config : ConfigSpace) : Prop where
  fits : (presentFunctions config).ncard ≤ pciMaxFunctions
  bridges : ∀ a ∈ presentFunctions config, isBridge config a →
    secondaryBusAt config a ≠ a.bus
  capabilities : ∀ a ∈ presentFunctions config, CapabilitiesWellFormed config a

structure Scanned (config : ConfigSpace) (order : List Nat) (s : Scan) : Prop where
  once : order.Nodup
  scanned : ∀ bus, s.scanned bus ↔ bus ∈ order
  reached : ∀ bus ∈ order, bus ∈ reachableBuses config
  waiting : ∀ bus, s.pending bus → bus ∈ reachableBuses config
  root : 0 ∈ order ∨ s.pending 0
  followed : ∀ bus ∈ order, ∀ bus', LeadsTo config bus bus' → bus' ∈ order ∨ s.pending bus'
  functions : s.functions.map (·.address) = order.flatMap (presentBus config)
  described : ∀ f ∈ s.functions,
    describeFunction config f.address (config f.address pciRegisterVendorId) = .ok f
  busCount : s.busCount = order.length
  bridgeCount : s.bridgeCount = (order.flatMap (presentBus config)).countP (isBridge config)
  good : ∀ bus ∈ order, ∀ a ∈ presentBus config bus, Good config a
  room : s.functions.length ≤ pciMaxFunctions

section

theorem ncard_eq_length {α : Type} {l : List α} {S : Set α} (once : l.Nodup)
    (same : ∀ a, a ∈ l ↔ a ∈ S) : S.ncard = l.length := by
  classical
  have set : S = ↑l.toFinset := by
    ext a
    rw [Finset.mem_coe, mem_toFinset, same]
  rw [set, Set.ncard_coe_finset, toFinset_card_of_nodup once]

variable {config : ConfigSpace}

theorem finite_presentFunctions : (presentFunctions config).Finite := by
  refine Set.Finite.subset (finite_toSet ((List.range pciMaxBuses).flatMap (presentBus config)))
    fun a here => ?_
  exact mem_flatMap.mpr ⟨a.bus, mem_range.mpr here.1.bus,
    (mem_presentBus here.1.bus).mpr ⟨here.1, rfl, here.2.1⟩⟩

/-- Distinct reachable buses list distinct present functions. -/
theorem nodup_flatMap_presentBus {order : List Nat} (once : order.Nodup)
    (reached : ∀ bus ∈ order, bus ∈ reachableBuses config) :
    (order.flatMap (presentBus config)).Nodup ∧
      ∀ a ∈ order.flatMap (presentBus config), a ∈ presentFunctions config ∧ a.bus ∈ order := by
  have member : ∀ bus ∈ order, ∀ a ∈ presentBus config bus,
      Addressable a ∧ a.bus = bus ∧ present config a := fun bus here a there =>
    (mem_presentBus (reachableBuses_lt (reached bus here))).mp there
  constructor
  · refine nodup_flatMap.mpr ⟨fun bus _ => nodup_presentBus bus, ?_⟩
    refine .imp_of_mem (fun {b c} first second apart a one two => apart ?_) once
    exact (member b first a one).2.1.symm.trans (member c second a two).2.1
  · intro a here
    obtain ⟨bus, there, found⟩ := mem_flatMap.mp here
    obtain ⟨valid, rfl, seen⟩ := member bus there a found
    exact ⟨⟨valid, seen, reached _ there⟩, there⟩

theorem length_le_of_enumerable {order : List Nat} (enumerable : Enumerable config)
    (once : order.Nodup) (reached : ∀ bus ∈ order, bus ∈ reachableBuses config) :
    (order.flatMap (presentBus config)).length ≤ pciMaxFunctions := by
  obtain ⟨distinct, inside⟩ := nodup_flatMap_presentBus once reached
  rw [← toFinset_card_of_nodup distinct, ← Set.ncard_coe_finset]
  refine le_trans (Set.ncard_le_ncard (fun a here => ?_) finite_presentFunctions)
    enumerable.fits
  exact (inside a (mem_toFinset.mp (Finset.mem_coe.mp here))).1

theorem Enumerable.good (enumerable : Enumerable config) {a : PciAddress}
    (here : a ∈ presentFunctions config) : Good config a :=
  ⟨enumerable.capabilities a here, enumerable.bridges a here⟩

variable {order : List Nat} {s : Scan}

section
variable (progress : Scanned config order s)
include progress

/-- Scanning one more bus, or a refusal with a reason. -/
theorem Scanned.scanBus {bus : Nat}
    (waiting : s.pending bus) (fresh : s.scanned bus = false) :
    (∃ t, scanBus config bus s = .ok t ∧ Scanned config (order ++ [bus]) t) ∨
      ((∃ status, scanBus config bus s = .error status) ∧ ¬ Enumerable config) := by
  have reachable := progress.waiting bus waiting
  have low := reachableBuses_lt reachable
  have new : bus ∉ order := by
    intro member
    rw [(progress.scanned bus).mpr member] at fresh
    cases fresh
  have once : (order ++ [bus]).Nodup := concat_eq_append ▸ progress.once.concat new
  have reached : ∀ b ∈ order ++ [bus], b ∈ reachableBuses config :=
    forall_mem_append.mpr ⟨progress.reached, forall_mem_singleton.mpr reachable⟩
  have flat : (order ++ [bus]).flatMap (presentBus config) =
      order.flatMap (presentBus config) ++ presentBus config bus := by
    rw [flatMap_append, flatMap_singleton]
  have length : s.functions.length = (order.flatMap (presentBus config)).length := by
    rw [← progress.functions, length_map]
  rw [scanBus_eq low]
  have outcome := @enterFunctions_cases (beginBus bus s) config (presentBus config bus)
    (fun a member => ((mem_presentBus low).mp member).1) progress.room
  obtain ⟨t, ok, entered, good, fits⟩ | ⟨failed, bad⟩ := outcome
  swap
  · refine .inr ⟨failed, fun enumerable => bad ⟨fun a member => ?_, ?_⟩⟩
    · obtain ⟨valid, there, seen⟩ := (mem_presentBus low).mp member
      exact enumerable.good ⟨valid, seen, there ▸ reachable⟩
    · have total := length_le_of_enumerable enumerable once reached
      rw [flat, length_append, ← length] at total
      exact total
  obtain ⟨fs, listed, named, described⟩ := entered.functions
  have scanned : ∀ b, t.scanned b ↔ b ∈ order ++ [bus] := by
    intro b
    rw [entered.scanned, mem_append, mem_singleton, ← progress.scanned]
    change update s.scanned bus true b ↔ _
    by_cases same : b = bus
    · rw [same, update_self]
      exact iff_of_true rfl (.inr rfl)
    · rw [update_of_ne same]
      exact ⟨.inl, fun h => h.resolve_right same⟩
  have kept : ∀ b, b ∈ order ∨ s.pending b → b ∈ order ++ [bus] ∨ t.pending b := by
    rintro b (old | here)
    · exact .inl (mem_append_left _ old)
    · by_cases same : b = bus
      · exact .inl (mem_append_right _ (mem_singleton.mpr same))
      · exact .inr ((entered.pending b).mpr (.inl ((update_of_ne same _ _).trans here)))
  refine .inl ⟨t, ok, ⟨once, scanned, reached, ?_, kept 0 progress.root, ?_, ?_, ?_, ?_, ?_, ?_,
    ?_⟩⟩
  · intro b here
    obtain old | ⟨a, member, bridge, rfl, -⟩ := (entered.pending b).mp here
    · by_cases same : b = bus
      · rw [same]
        exact reachable
      · exact progress.waiting b ((update_of_ne same _ _).symm.trans old)
    · obtain ⟨valid, there, seen⟩ := (mem_presentBus low).mp member
      exact .tail reachable ⟨a, valid, there, seen, bridge, rfl⟩
  · refine forall_mem_append.mpr ⟨fun b old b' leads =>
      kept b' (progress.followed b old b' leads), forall_mem_singleton.mpr ?_⟩
    rintro b' ⟨a, valid, there, seen, bridge, secondary⟩
    have member := (mem_presentBus low).mpr ⟨valid, there, seen⟩
    cases known : t.scanned b' with
    | true => exact .inl ((scanned b').mp known)
    | false =>
      rw [entered.scanned] at known
      exact .inr ((entered.pending b').mpr (.inr ⟨a, member, bridge, secondary, known⟩))
  · rw [listed, map_append, named, flat]
    exact congrArg (· ++ _) progress.functions
  · rw [listed]
    exact forall_mem_append.mpr ⟨progress.described, described⟩
  · rw [entered.busCount, length_append, length_singleton, ← progress.busCount]
    rfl
  · rw [entered.bridgeCount, flat, countP_append, ← progress.bridgeCount]
    rfl
  · exact forall_mem_append.mpr ⟨progress.good, forall_mem_singleton.mpr good⟩
  · have count := congrArg List.length named
    rw [length_map] at count
    rw [listed, length_append, count]
    exact fits

/-- A turn of the outer loop: it scans more buses, or finds nothing waiting. -/
theorem Scanned.pass (buses : List Nat) (flag : Bool) :
    (∃ flag' t new, buses.foldlM (visitBus config) (flag, s) = .ok (flag', t) ∧
      Scanned config (order ++ new) t ∧ (new ≠ [] → flag') ∧
      (new = [] → flag' = flag ∧ t = s ∧
        ∀ bus ∈ buses, s.pending bus → s.scanned bus)) ∨
    ((∃ status, buses.foldlM (visitBus config) (flag, s) = .error status) ∧
      ¬ Enumerable config) := by
  induction buses generalizing order s flag with
  | nil =>
    refine .inl ⟨flag, s, [], rfl, ?_, fun h => absurd rfl h, fun _ => ⟨rfl, rfl,
      forall_mem_nil _⟩⟩
    rw [append_nil]
    exact progress
  | cons bus buses ih =>
    rw [foldlM_cons]
    by_cases idle : (!s.pending bus || s.scanned bus) = true
    · have stay : visitBus config (flag, s) bus = .ok (flag, s) := by
        unfold visitBus
        rw [if_pos idle]
      rw [stay]
      obtain ⟨flag', t, new, ok, next, moved, still⟩ | refused := ih progress flag
      · refine .inl ⟨flag', t, new, ok, next, moved, fun none => ?_⟩
        obtain ⟨same, unchanged, nothing⟩ := still none
        refine ⟨same, unchanged, forall_mem_cons.mpr ⟨fun waiting => ?_, nothing⟩⟩
        simpa [waiting] using idle
      · exact .inr refused
    obtain ⟨waiting, fresh⟩ : s.pending bus ∧ s.scanned bus = false := by
      simpa using idle
    obtain ⟨t, ok, next⟩ | ⟨⟨status, failed⟩, bad⟩ := progress.scanBus waiting fresh
    swap
    · have stop : visitBus config (flag, s) bus = .error status := by
        unfold visitBus
        rw [if_neg idle]
        simp only [bind, Except.bind, failed]
      rw [stop]
      exact .inr ⟨⟨status, rfl⟩, bad⟩
    have move : visitBus config (flag, s) bus = .ok (true, t) := by
      unfold visitBus
      rw [if_neg idle]
      simp only [bind, Except.bind, ok, pure, Except.pure]
    rw [move]
    obtain ⟨flag', u, new, done, last, moved, still⟩ | refused := ih next true
    · rw [append_assoc] at last
      refine .inl ⟨flag', u, [bus] ++ new, done, last, fun _ => ?_, fun none => by cases none⟩
      by_cases more : new = []
      · exact (still more).1
      · exact moved more
    · exact .inr refused

theorem Scanned.length_le : order.length ≤ pciMaxBuses := by
  have subset : order ⊆ List.range pciMaxBuses := fun bus here =>
    mem_range.mpr (reachableBuses_lt (progress.reached bus here))
  simpa using (progress.once.subperm subset).length_le

/-- The outer loop ends within as many turns as there are buses, and one. -/
theorem Scanned.passes {fuel : Nat} (enough : pciMaxBuses < order.length + fuel) :
    (∃ t order', scanPasses config fuel s = some (.ok t) ∧ Scanned config order' t ∧
      ∀ bus < pciMaxBuses, t.pending bus → bus ∈ order') ∨
    ((∃ status, scanPasses config fuel s = some (.error status)) ∧ ¬ Enumerable config) := by
  induction fuel generalizing order s with
  | zero => exact absurd progress.length_le (by omega)
  | succ fuel ih =>
    unfold scanPasses
    rcases progress.pass (.range pciMaxBuses) false with
      ⟨flag, t, new, ok, next, moved, still⟩ | ⟨⟨status, failed⟩, bad⟩
    · rw [ok]
      by_cases more : new = []
      · obtain ⟨rfl, rfl, nothing⟩ := still more
        refine .inl ⟨t, order, rfl, progress, fun bus low waiting => ?_⟩
        exact (progress.scanned bus).mp (nothing bus (mem_range.mpr low) waiting)
      · have grown := length_pos_iff.mpr more
        rw [moved more]
        exact ih next (by rw [length_append]; omega)
    · rw [failed]
      exact .inr ⟨⟨status, rfl⟩, bad⟩

end

theorem scanStart_scanned (config : ConfigSpace) : Scanned config [] scanStart where
  once := nodup_nil
  scanned bus := by simp [scanStart]
  reached := forall_mem_nil _
  waiting bus here := by
    have root : bus = 0 := by simpa [scanStart] using here
    rw [root]
    exact .refl
  root := .inr rfl
  followed := forall_mem_nil _
  functions := rfl
  described := forall_mem_nil _
  busCount := rfl
  bridgeCount := rfl
  good := forall_mem_nil _
  room := Nat.zero_le _

/-- When nothing waits the scanned buses are the reachable ones. -/
theorem Scanned.order_eq (progress : Scanned config order s)
    (done : ∀ bus < pciMaxBuses, s.pending bus → bus ∈ order) (bus : Nat) :
    bus ∈ order ↔ bus ∈ reachableBuses config := by
  refine ⟨progress.reached bus, fun here => ?_⟩
  have settled : ∀ b, b ∈ order ∨ s.pending b → b ∈ order := by
    rintro b (old | waiting)
    · exact old
    · exact done b (reachableBuses_lt (progress.waiting b waiting)) waiting
  have closed : reachableBuses config ⊆ {b | b ∈ order} :=
    reachableBuses_least (settled 0 progress.root)
      fun b scanned b' leads => settled b' (progress.followed b scanned b' leads)
  exact closed here

end

/-- Enumeration ends; it accepts exactly the configurations with at most 64 functions,
no bridge onto its own bus and well-formed capability lists; and then it has recorded
every present function of every reachable bus, once. -/
theorem enumerate_exact (config : ConfigSpace) :
    ∃ result, enumerate config = some result ∧
      ((∃ s, result = .ok s) ↔
        (presentFunctions config).ncard ≤ pciMaxFunctions ∧
        (∀ a ∈ presentFunctions config, isBridge config a = true →
          secondaryBusAt config a ≠ a.bus) ∧
        ∀ a ∈ presentFunctions config, CapabilitiesWellFormed config a) ∧
      ∀ s, result = .ok s →
        (s.functions.map (·.address)).Nodup ∧
        (∀ a, a ∈ s.functions.map (·.address) ↔ a ∈ presentFunctions config) ∧
        (∀ f ∈ s.functions,
          describeFunction config f.address (config f.address pciRegisterVendorId) = .ok f) ∧
        s.busCount = (reachableBuses config).ncard ∧
        s.bridgeCount = {a | a ∈ presentFunctions config ∧ isBridge config a = true}.ncard := by
  have start := scanStart_scanned config
  rcases @Scanned.passes config _ _ start (pciMaxBuses + 1) (by simp) with
    ⟨s, order, ran, progress, done⟩ | ⟨⟨status, ran⟩, bad⟩
  swap
  · refine ⟨.error status, ran, iff_of_false (fun ⟨s, same⟩ => by cases same)
      (fun h => bad ⟨h.1, h.2.1, h.2.2⟩), fun s same => by cases same⟩
  have buses := progress.order_eq done
  obtain ⟨distinct, inside⟩ := nodup_flatMap_presentBus progress.once progress.reached
  have listed : ∀ a, a ∈ order.flatMap (presentBus config) ↔ a ∈ presentFunctions config := by
    refine fun a => ⟨fun here => (inside a here).1, fun ⟨valid, seen, reached⟩ => ?_⟩
    exact mem_flatMap.mpr ⟨a.bus, (buses _).mpr reached,
      (mem_presentBus valid.bus).mpr ⟨valid, rfl, seen⟩⟩
  have good : ∀ a ∈ presentFunctions config, Good config a := by
    intro a here
    obtain ⟨bus, scanned, member⟩ := mem_flatMap.mp ((listed a).mpr here)
    exact progress.good bus scanned a member
  have count : (presentFunctions config).ncard = s.functions.length := by
    rw [ncard_eq_length distinct listed, ← progress.functions, length_map]
  refine ⟨.ok s, ran, iff_of_true ⟨s, rfl⟩ ⟨count ▸ progress.room, fun a here => (good a here).2,
    fun a here => (good a here).1⟩, ?_⟩
  rintro s' same
  obtain rfl := Except.ok.inj same
  rw [progress.functions]
  refine ⟨distinct, listed, progress.described, ?_, ?_⟩
  · rw [ncard_eq_length progress.once buses, progress.busCount]
  · have bridges : ∀ a, a ∈ (order.flatMap (presentBus config)).filter (isBridge config) ↔
        a ∈ {a | a ∈ presentFunctions config ∧ isBridge config a = true} := fun a => by
      rw [mem_filter, listed, Set.mem_ofPred_eq]
    rw [ncard_eq_length (distinct.filter _) bridges, ← countP_eq_length_filter,
      progress.bridgeCount]

end Sapote.Pci
