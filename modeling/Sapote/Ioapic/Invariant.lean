import Sapote.Acpi.Entries
import Sapote.Ioapic.Routing
import Sapote.Library.Totals

/-!
Route records and redirection entries stay in step over every run of the routing calls.
Masking a pin and forgetting who names it is one move, `Forgets`; a route is that move
followed by at most one new record.
-/

namespace Sapote.Ioapic
open List Function

open Acpi Interrupts Library
variable {source : IoapicSource} {request : RouteRequest} {v : Fin ioapicRoutableVectors}
  {route : IoapicRoute} {entry index : Nat} {s : IoapicState} {slot : Fin ioapicRoutableVectors}
  {topology : AcpiTopology} {interrupts : Bool} {table : RedirectionTable}

def levelWeight (route : Option IoapicRoute) : Nat :=
  if route.any (·.levelTriggered) then 1 else 0

def levelCount (routes : Fin ioapicRoutableVectors → Option IoapicRoute) : Nat :=
  total levelWeight routes Finset.univ

theorem levelCount_eq_card (routes : Fin ioapicRoutableVectors → Option IoapicRoute) :
    levelCount routes =
      (Finset.univ.filter fun v => (routes v).any (·.levelTriggered)).card := by
  rw [Finset.card_filter]
  rfl

theorem writeEntry_same (table : RedirectionTable) (device entry : Nat) (words : RedirectionWords) :
    writeEntry table device entry words device entry = words := by
  simp only [writeEntry, update_self]

theorem writeEntry_other (table : RedirectionTable) {device other place : Nat}
    (words : RedirectionWords) (apart : ¬(other = device ∧ place = entry)) :
    writeEntry table device entry words other place = table other place := by
  rw [writeEntry]
  by_cases same : other = device
  · subst same
    rw [update_self, update_of_ne fun here => apart ⟨rfl, here⟩]
  · rw [update_of_ne same]

theorem writeEntry_writeEntry (table : RedirectionTable) (device entry : Nat)
    (first second : RedirectionWords) :
    writeEntry (writeEntry table device entry first) device entry second =
      writeEntry table device entry second := by
  simp only [writeEntry, update_self, update_idem]

theorem entryDecompose_masked : (entryDecompose ⟨ioapicMasked, 0⟩).masked := by
  decide

theorem namesPin_eq_false {unit : Nat} :
    namesPin unit entry route = false ↔ ¬(route.unit = unit ∧ route.entry = entry) :=
  decide_eq_false_iff_not

theorem unitForInterrupt_some {globalInterrupt : Nat} {unit : IoapicUnit}
    (found : unitForInterrupt s globalInterrupt = some (index, unit)) :
    s.units[index]? = some unit ∧ unit.interruptBase ≤ globalInterrupt ∧
      globalInterrupt - unit.interruptBase < unit.entryCount := by
  unfold unitForInterrupt at found
  split at found
  · cases found
  next place first =>
  split at found
  · cases found
  next answering here =>
  cases found
  obtain ⟨inside, answers, _⟩ := List.findIdx?_eq_some_iff_getElem.mp first
  obtain ⟨_, same⟩ := List.getElem?_eq_some_iff.mp here
  rw [same] at answers
  exact ⟨here, of_decide_eq_true answers⟩

/-- From `s` to `t` every record that names the pin is forgotten and nothing else. -/
structure Forgets (s t : IoapicState) (unit entry : Nat) : Prop where
  same : t = { s with routes := t.routes, levelRoutes := t.levelRoutes }
  fewer : ∀ v route, t.routes v = some route → s.routes v = some route
  kept : ∀ v route, s.routes v = some route → namesPin unit entry route = false →
    t.routes v = some route
  levels : s.levelRoutes = levelCount s.routes → t.levelRoutes = levelCount t.routes

section
variable {s t r : IoapicState} {unit entry : Nat}

theorem Forgets.refl (s : IoapicState) (unit entry : Nat) : Forgets s s unit entry :=
  ⟨rfl, fun _ _ here => here, fun _ _ here _ => here, id⟩

theorem Forgets.trans (first : Forgets s t unit entry) (second : Forgets t r unit entry) :
    Forgets s r unit entry where
  same := second.same.trans (by rw [first.same])
  fewer v route here := first.fewer v route (second.fewer v route here)
  kept v route here away := second.kept v route (first.kept v route here away) away
  levels counted := second.levels (first.levels counted)

theorem forgetRoute_forgets (s : IoapicState) (slot : Fin ioapicRoutableVectors)
    (named : ∀ route, s.routes slot = some route → namesPin unit entry route) :
    Forgets s (forgetRoute s slot) unit entry where
  same := rfl
  fewer v route here := by
    rw [forgetRoute] at here
    dsimp only at here
    by_cases same : v = slot
    · rw [same, update_self] at here
      cases here
    · rwa [update_of_ne same] at here
  kept v route here away := by
    have other : v ≠ slot := by
      rintro rfl
      rw [named route here] at away
      cases away
    rw [forgetRoute]
    dsimp only
    rw [update_of_ne other]
    exact here
  levels counted := by
    have moved := @total_update _ _ levelWeight s.routes Finset.univ slot _
      (Finset.mem_univ slot) none
    have nothing : levelWeight none = 0 := rfl
    have bound : levelWeight (s.routes slot) ≤ total levelWeight s.routes Finset.univ :=
      le_total (Finset.mem_univ slot)
    rw [forgetRoute]
    unfold levelCount at counted ⊢
    dsimp only
    rw [levelWeight] at moved bound
    split at moved
    next level =>
      have positive : s.levelRoutes ≠ 0 := by omega
      rw [level, if_pos (by simpa using positive)]
      omega
    next edge =>
      rw [if_neg (by simp [edge])]
      omega

theorem forgetRoute_none (s : IoapicState) (slot : Fin ioapicRoutableVectors) :
    (forgetRoute s slot).routes slot = none := by
  rw [forgetRoute]
  dsimp only
  rw [update_self]

/-- The loop over the records forgets the ones it passes and nothing else. -/
theorem forgetEntry_loop (slots : List (Fin ioapicRoutableVectors)) (s : IoapicState)
    (unit entry : Nat) :
    let t := slots.foldl (fun s slot =>
      if (s.routes slot).any (namesPin unit entry) then forgetRoute s slot else s) s
    Forgets s t unit entry ∧
      ∀ v ∈ slots, ∀ route, t.routes v = some route → namesPin unit entry route = false := by
  induction slots generalizing s with
  | nil => exact ⟨.refl s unit entry, nofun⟩
  | cons slot slots ih =>
    have first : Forgets s (if (s.routes slot).any (namesPin unit entry) then forgetRoute s slot
        else s) unit entry ∧ ∀ route, (if (s.routes slot).any (namesPin unit entry) then
          forgetRoute s slot else s).routes slot = some route →
            namesPin unit entry route = false := by
      split
      next named =>
        refine ⟨forgetRoute_forgets s slot ?_, ?_⟩
        · intro route here
          rw [here] at named
          exact named
        · intro route here
          rw [forgetRoute_none] at here
          cases here
      next unnamed =>
        refine ⟨.refl s unit entry, ?_⟩
        intro route here
        rw [here] at unnamed
        exact eq_false_of_ne_true unnamed
    obtain ⟨rest, gone⟩ := ih _
    refine ⟨first.1.trans rest, ?_⟩
    intro v member route here
    obtain rfl | later := mem_cons.mp member
    · exact first.2 route (rest.fewer v route here)
    · exact gone v later route here

theorem forgetEntry_forgets (s : IoapicState) (unit entry : Nat) :
    Forgets s (forgetEntry s unit entry) unit entry :=
  (forgetEntry_loop _ s unit entry).1

theorem forgetEntry_unnamed (s : IoapicState) (unit entry : Nat) (v : Fin ioapicRoutableVectors)
    (route : IoapicRoute) (here : (forgetEntry s unit entry).routes v = some route) :
    namesPin unit entry route = false :=
  (forgetEntry_loop _ s unit entry).2 v (mem_finRange v) route here

end

/-- The entry of a route was read back as its request intends, and the request leads to
the pin the record names. -/
structure Programmed (hardware : IoapicHardware) (s : IoapicState)
    (v : Fin ioapicRoutableVectors) (route : IoapicRoute) (unit : IoapicUnit)
    (request : RouteRequest) (source : IoapicSource) : Prop where
  requested : s.requested v = some request
  vector : routeForVector request.vector = some v
  resolved : requestedSource s request = .ok source
  found : unitForInterrupt s source.globalInterrupt = some (route.unit, unit)
  entry : route.entry = source.globalInterrupt - unit.interruptBase
  trigger : route.levelTriggered = source.levelTriggered
  readback : readbackMatches (routeIntent request source)
    (entryDecompose (s.table (hardware.device unit.address) route.entry))

structure RoutesSound (hardware : IoapicHardware) (s : IoapicState) : Prop where
  apart : ∀ (i j : Nat) (u w : IoapicUnit), s.units[i]? = some u → s.units[j]? = some w →
    hardware.device u.address = hardware.device w.address → i = j
  single : ∀ v w route other, s.routes v = some route → s.routes w = some other →
    route.unit = other.unit → route.entry = other.entry → v = w
  masked : ∀ i u entry, s.units[i]? = some u → entry < u.entryCount →
    (∀ v route, s.routes v = some route → namesPin i entry route = false) →
    (entryDecompose (s.table (hardware.device u.address) entry)).masked
  programmed : ∀ v route, s.routes v = some route →
    ∃ unit request source, Programmed hardware s v route unit request source
  levels : s.levelRoutes = levelCount s.routes
  directed : s.directedEoiMode → ∀ v route u, s.routes v = some route →
    route.levelTriggered → s.units[route.unit]? = some u → u.directedEoi
  unselected : s.levelEoiModeSelected = false → s.directedEoiMode = false ∧
    ∀ v route, s.routes v = some route → route.levelTriggered = false

section
variable {hardware : IoapicHardware} {s t : IoapicState}

/-- A programmed route survives any change that leaves its entry, its request and the
units alone. -/
theorem Programmed.carried {unit : IoapicUnit}
    (programmed : Programmed hardware s v route unit request source) (units : t.units = s.units)
    (routingTopology : t.routingTopology = s.routingTopology)
    (requested : t.requested v = s.requested v)
    (words : t.table (hardware.device unit.address) route.entry =
      s.table (hardware.device unit.address) route.entry) :
    Programmed hardware t v route unit request source where
  requested := requested.trans programmed.requested
  vector := programmed.vector
  resolved := by
    rw [requestedSource, routingTopology]
    exact programmed.resolved
  found := by
    rw [unitForInterrupt, units]
    exact programmed.found
  entry := programmed.entry
  trigger := programmed.trigger
  readback := by
    rw [words]
    exact programmed.readback

theorem RoutesSound.pin_apart (sound : RoutesSound hardware s) {i j place : Nat}
    {u w : IoapicUnit} (here : s.units[i]? = some u) (there : s.units[j]? = some w)
    (different : ¬(j = i ∧ place = entry)) :
    ¬(hardware.device w.address = hardware.device u.address ∧ place = entry) :=
  fun same => different ⟨sound.apart j i w u there here same.1, same.2⟩

theorem Programmed.unit {unit : IoapicUnit}
    (programmed : Programmed hardware s v route unit request source) :
    s.units[route.unit]? = some unit :=
  (unitForInterrupt_some programmed.found).1

theorem RoutesSound.touched (sound : RoutesSound hardware s) (accesses : List RegisterAccess) :
    RoutesSound hardware { s with accesses := accesses } where
  __ := sound
  programmed v route routed := by
    obtain ⟨unit, request, source, programmed⟩ := sound.programmed v route routed
    exact ⟨unit, request, source, programmed.carried rfl rfl rfl rfl⟩

/-- Masking a pin and forgetting who names it. -/
theorem RoutesSound.forgets (sound : RoutesSound hardware s) {unit : IoapicUnit}
    (here : s.units[index]? = some unit)
    (forgets : Forgets (maskPin hardware s unit entry) t index entry)
    (unnamed : ∀ v route, t.routes v = some route → namesPin index entry route = false) :
    RoutesSound hardware t := by
  have fewer : ∀ v route, t.routes v = some route → s.routes v = some route := forgets.fewer
  rw [forgets.same]
  refine ⟨sound.apart, ?_, ?_, ?_, forgets.levels sound.levels, ?_, ?_⟩
  · intro v w route other routed again
    exact sound.single v w route other (fewer v route routed) (fewer w other again)
  · intro i u place inside bound free
    rw [maskPin, maskEntry]
    by_cases same : i = index ∧ place = entry
    · obtain ⟨rfl, rfl⟩ := same
      cases here.symm.trans inside
      dsimp only
      rw [writeEntry_same]
      exact entryDecompose_masked
    dsimp only
    rw [writeEntry_other _ _ (sound.pin_apart here inside same)]
    refine sound.masked i u place inside bound ?_
    intro v route routed
    refine namesPin_eq_false.mpr fun named => ?_
    have away : namesPin index entry route = false := by
      rw [namesPin_eq_false, named.1, named.2]
      exact same
    exact namesPin_eq_false.mp (free v route (forgets.kept v route routed away)) named
  · intro v route routed
    obtain ⟨u, request, source, programmed⟩ := sound.programmed v route (fewer v route routed)
    have away := namesPin_eq_false.mp (unnamed v route routed)
    exact ⟨u, request, source, programmed.carried rfl rfl rfl
      (writeEntry_other _ _ (sound.pin_apart here programmed.unit away))⟩
  · intro mode v route u routed
    exact sound.directed mode v route u (fewer v route routed)
  · intro pending
    exact ⟨(sound.unselected pending).1, fun v route routed =>
      (sound.unselected pending).2 v route (fewer v route routed)⟩

theorem RoutesSound.selectEoiMode (sound : RoutesSound hardware s) {answers : RouteAnswers}
    {unit : IoapicUnit} {levelTriggered : Bool}
    (selected : selectEoiMode s answers unit levelTriggered = .ok t) :
    RoutesSound hardware t ∧ t.units = s.units ∧ t.routingTopology = s.routingTopology ∧
      (levelTriggered → t.levelEoiModeSelected) := by
  unfold Ioapic.selectEoiMode at selected
  split at selected
  next first =>
    rw [Bool.and_eq_true, Bool.not_eq_true'] at first
    obtain ⟨undirected, edges⟩ := sound.unselected first.2
    have programmed : ∀ r : IoapicState, r.units = s.units → r.routingTopology = s.routingTopology →
        r.requested = s.requested → r.table = s.table → ∀ v route, s.routes v = some route →
        ∃ unit request source, Programmed hardware r v route unit request source := by
      intro r units topology requested table v route routed
      obtain ⟨u, request, source, before⟩ := sound.programmed v route routed
      exact ⟨u, request, source, before.carried units topology (congrFun requested v)
        (by rw [table])⟩
    split at selected
    · split at selected
      · cases selected
      cases selected
      refine ⟨⟨sound.apart, sound.single, sound.masked, programmed _ rfl rfl rfl rfl, sound.levels,
        ?_, nofun⟩, rfl, rfl, fun _ => rfl⟩
      intro _ v route u routed level
      rw [edges v route routed] at level
      cases level
    · cases selected
      refine ⟨⟨sound.apart, sound.single, sound.masked, programmed _ rfl rfl rfl rfl, sound.levels,
        ?_, nofun⟩, rfl, rfl, fun _ => rfl⟩
      intro mode
      rw [undirected] at mode
      cases mode
  next settled =>
    cases selected
    refine ⟨sound, rfl, rfl, ?_⟩
    intro level
    rw [level, Bool.true_and, Bool.not_eq_true', Bool.not_eq_false] at settled
    exact settled

theorem clearPin_forgets (hardware : IoapicHardware) (s : IoapicState)
    (slot : Fin ioapicRoutableVectors) (index : Nat) (unit : IoapicUnit) (entry : Nat)
    (named : ∀ route, s.routes slot = some route → namesPin index entry route) :
    let t := clearPin hardware s slot index unit entry
    Forgets (maskPin hardware s unit entry) t index entry ∧
      (∀ v route, t.routes v = some route → namesPin index entry route = false) ∧
      t.routes slot = none := by
  have first := @forgetRoute_forgets index entry (maskPin hardware s unit entry) slot named
  have second := forgetEntry_forgets (forgetRoute (maskPin hardware s unit entry) slot) index entry
  refine ⟨first.trans second, forgetEntry_unnamed _ index entry, ?_⟩
  cases routed : (clearPin hardware s slot index unit entry).routes slot with
  | none => rfl
  | some route =>
    have before := second.fewer slot route routed
    rw [forgetRoute_none] at before
    cases before

section
variable (sound : RoutesSound hardware s)
include sound

section
variable {unit : IoapicUnit} (vector : routeForVector request.vector = some slot)
  (resolved : requestedSource s request = .ok source)
  (found : unitForInterrupt s source.globalInterrupt = some (index, unit))
  (pin : entry = source.globalInterrupt - unit.interruptBase)
  (supported : source.levelTriggered → s.levelEoiModeSelected ∧
    (s.directedEoiMode → unit.directedEoi))
include vector resolved found pin supported

/-- Recording a route for a pin that nobody names, once its entry has been read back. -/
theorem RoutesSound.recorded {words : RedirectionWords}
    (free : s.routes slot = none) (unnamed : ∀ v route, s.routes v = some route →
      namesPin index entry route = false)
    (readback : readbackMatches (routeIntent request source) (entryDecompose words)) :
    RoutesSound hardware
      { s with
        table := writeEntry s.table (hardware.device unit.address) entry words
        routes := Function.update s.routes slot (some ⟨source.levelTriggered, index, entry⟩)
        levelRoutes := s.levelRoutes + if source.levelTriggered then 1 else 0
        requested := Function.update s.requested slot (some request) } := by
  obtain ⟨here, _, bound⟩ := unitForInterrupt_some found
  -- A record after the step is the new one, or one that was there and names another pin.
  have split : ∀ v route,
      update s.routes slot (some ⟨source.levelTriggered, index, entry⟩) v = some route →
      (v = slot ∧ route = ⟨source.levelTriggered, index, entry⟩) ∨
      (v ≠ slot ∧ s.routes v = some route ∧ ¬(route.unit = index ∧ route.entry = entry)) := by
    intro v route routed
    by_cases same : v = slot
    · subst same
      rw [update_self] at routed
      exact .inl ⟨rfl, (Option.some.inj routed).symm⟩
    · rw [update_of_ne same] at routed
      exact .inr ⟨same, routed, namesPin_eq_false.mp (unnamed v route routed)⟩
  refine ⟨sound.apart, ?_, ?_, ?_, ?_, ?_, ?_⟩
  · intro v w route other routed again units entries
    obtain ⟨rfl, rfl⟩ | ⟨_, before, away⟩ := split v route routed
    · obtain ⟨rfl, rfl⟩ | ⟨_, _, away⟩ := split w other again
      · rfl
      · exact absurd ⟨units.symm, entries.symm⟩ away
    · obtain ⟨rfl, rfl⟩ | ⟨_, after, _⟩ := split w other again
      · exact absurd ⟨units, entries⟩ away
      · exact sound.single v w route other before after units entries
  · intro i u place inside within unrouted
    have elsewhere : ¬(i = index ∧ place = entry) := by
      rintro ⟨rfl, rfl⟩
      exact namesPin_eq_false.mp (unrouted slot _ (update_self slot _ s.routes)) ⟨rfl, rfl⟩
    dsimp only
    rw [writeEntry_other _ _ (sound.pin_apart here inside elsewhere)]
    refine sound.masked i u place inside within ?_
    intro v route routed
    refine unrouted v route ?_
    have other : v ≠ slot := by
      rintro rfl
      rw [free] at routed
      cases routed
    exact (update_of_ne other _ s.routes).trans routed
  · intro v route routed
    obtain ⟨rfl, rfl⟩ | ⟨other, before, away⟩ := split v route routed
    · refine ⟨unit, request, source, ?_, vector, resolved, found, pin, rfl, ?_⟩
      · exact update_self v (some request) s.requested
      · dsimp only
        rw [writeEntry_same]
        exact readback
    · obtain ⟨u, asked, origin, programmed⟩ := sound.programmed v route before
      refine ⟨u, asked, origin, programmed.carried rfl rfl (update_of_ne other _ _) ?_⟩
      exact writeEntry_other _ _ (sound.pin_apart here programmed.unit away)
  · have moved := @total_update _ _ levelWeight s.routes Finset.univ slot _ (Finset.mem_univ slot)
      (some ⟨source.levelTriggered, index, entry⟩)
    have counted := sound.levels
    have nothing : levelWeight none = 0 := rfl
    have new : ∀ entry, levelWeight (some ⟨source.levelTriggered, index, entry⟩) =
        if source.levelTriggered then 1 else 0 := fun _ => rfl
    rw [free, nothing, new, add_zero] at moved
    unfold levelCount at counted ⊢
    rw [counted, moved]
  · intro mode v route u routed level inside
    obtain ⟨rfl, rfl⟩ | ⟨_, before, _⟩ := split v route routed
    · cases here.symm.trans inside
      exact (supported level).2 mode
    · exact sound.directed mode v route u before level inside
  · intro pending
    refine ⟨(sound.unselected pending).1, ?_⟩
    intro v route routed
    obtain ⟨rfl, rfl⟩ | ⟨_, before, _⟩ := split v route routed
    · by_contra level
      rw [Bool.not_eq_false] at level
      have chosen := (supported level).1
      rw [show s.levelEoiModeSelected = false from pending] at chosen
      cases chosen
    · exact (sound.unselected pending).2 v route before

theorem RoutesSound.programRoute (answers : RouteAnswers)
    (named : ∀ route, s.routes slot = some route → namesPin index entry route) :
    let result := programRoute hardware s answers request source slot index unit
      entry
    RoutesSound hardware result.2 ∧ result.2.units = s.units ∧
      result.2.routingTopology = s.routingTopology := by
  intro result
  obtain ⟨here, -⟩ := unitForInterrupt_some found
  obtain ⟨forgets, unnamed, free⟩ := clearPin_forgets hardware s slot index unit
    entry named
  have cleared := sound.forgets here forgets unnamed
  have table : (clearPin hardware s slot index unit entry).table =
      maskEntry s.table (hardware.device unit.address) entry := congrArg (·.table) forgets.same
  unfold result Ioapic.programRoute
  generalize clearPin hardware s slot index unit entry = t at *
  have kept : t.units = s.units ∧ t.routingTopology = s.routingTopology :=
    ⟨congrArg (·.units) forgets.same, congrArg (·.routingTopology) forgets.same⟩
  dsimp only
  split
  · -- Masking again what was masked before it was written leaves the cleared state.
    have again (words : RedirectionWords) :
        maskEntry (writeEntry t.table (hardware.device unit.address) entry words)
          (hardware.device unit.address) entry = t.table := by
      rw [maskEntry, writeEntry_writeEntry, table, maskEntry, writeEntry_writeEntry]
    refine ⟨?_, kept⟩
    rw [maskPin, again]
    exact cleared.touched _
  next readback =>
  refine ⟨(cleared.touched _).recorded vector ?_ ?_ pin ?_ free unnamed (by simpa using readback),
    kept⟩
  · rw [requestedSource, kept.2]
    exact resolved
  · rw [unitForInterrupt, kept.1]
    exact found
  · rw [forgets.same]
    exact supported

end

theorem RoutesSound.routeIsaIrqAs (answers : RouteAnswers)
    (request : RouteRequest) :
    let t := (ioapicRouteIsaIrqAs hardware answers s request).2
    RoutesSound hardware t ∧ t.units = s.units ∧ t.routingTopology = s.routingTopology := by
  unfold ioapicRouteIsaIrqAs
  iterate 3
    split
    · exact ⟨sound, rfl, rfl⟩
  next source resolved =>
  split
  · exact ⟨sound, rfl, rfl⟩
  next index unit found =>
  split
  · exact ⟨sound, rfl, rfl⟩
  next t selected =>
  obtain ⟨next, units, topology, chosen⟩ := sound.selectEoiMode selected
  dsimp only
  split
  · exact ⟨next, units, topology⟩
  next supported =>
  split
  · exact ⟨next, units, topology⟩
  next slot vector =>
  split
  · exact ⟨next, units, topology⟩
  next settled =>
  have asked : requestedSource t request = .ok source := by
    rw [requestedSource, topology]
    exact resolved
  have placed : unitForInterrupt t source.globalInterrupt = some (index, unit) := by
    rw [unitForInterrupt, units]
    exact found
  have able : source.levelTriggered → t.levelEoiModeSelected ∧
      (t.directedEoiMode → unit.directedEoi) := by
    intro level
    refine ⟨chosen level, ?_⟩
    intro mode
    rw [level, mode] at supported
    simpa using supported
  obtain ⟨last, same, kept⟩ := next.programRoute vector asked placed rfl able answers
    fun route here => by simpa [here] using settled
  exact ⟨last, same.trans units, kept.trans topology⟩

theorem RoutesSound.maskIsaIrq (interrupts : Bool) (irq : Nat) :
    let t := (ioapicMaskIsaIrq hardware interrupts s irq).2
    RoutesSound hardware t ∧ t.units = s.units ∧ t.routingTopology = s.routingTopology := by
  unfold ioapicMaskIsaIrq
  iterate 3
    split
    · exact ⟨sound, rfl, rfl⟩
  next source resolved =>
  split
  · exact ⟨sound, rfl, rfl⟩
  next index unit found =>
  have forgets := forgetEntry_forgets
    (maskPin hardware s unit (source.globalInterrupt - unit.interruptBase))
    index (source.globalInterrupt - unit.interruptBase)
  exact ⟨sound.forgets (unitForInterrupt_some found).1 forgets (forgetEntry_unnamed _ _ _),
    congrArg (·.units) forgets.same, congrArg (·.routingTopology) forgets.same⟩

end

theorem routesSound_step (units : List IoapicUnit) (topology : AcpiTopology) (s : IoapicState)
    (call : IoapicCall)
    (sound : RoutesSound hardware s ∧ s.units = units ∧ s.routingTopology = topology) :
    let t := ioapicStep hardware s call
    RoutesSound hardware t ∧ t.units = units ∧ t.routingTopology = topology := by
  obtain ⟨sound, rfl, rfl⟩ := sound
  cases call with
  | routeIsaIrq answers irq vector destination => exact sound.routeIsaIrqAs answers _
  | routeIsaIrqAs answers request => exact sound.routeIsaIrqAs answers request
  | maskIsaIrq interrupts irq => exact sound.maskIsaIrq interrupts irq

def reportedIdentifier (hardware : IoapicHardware) (unit : IoapicUnit) : Nat :=
  ((hardware.identifierRegister (hardware.device unit.address) >>> 24) &&& 0xF).toNat

/-- The units initialized so far: each device reports the identifier firmware declares,
every entry is masked, and the ranges passed the test for overlaps. -/
structure Quiet (hardware : IoapicHardware) (units : List IoapicUnit) (table : RedirectionTable) :
    Prop where
  identified : ∀ unit ∈ units, reportedIdentifier hardware unit = unit.identifier
  masked : ∀ unit ∈ units, ∀ entry < unit.entryCount,
    (entryDecompose (table (hardware.device unit.address) entry)).masked
  apart : units.Pairwise fun unit other => unitsOverlap other unit = false
  counted : ∀ unit ∈ units, ioapicMinEntries ≤ unit.entryCount

theorem maskEntries_masked (device : Nat) (entries : List Nat) (table : RedirectionTable)
    (other place : Nat)
    (quiet : (other = device ∧ place ∈ entries) ∨
      (entryDecompose (table other place)).masked) :
    (entryDecompose ((entries.foldl (fun table entry => maskEntry table device entry) table)
      other place)).masked := by
  induction entries generalizing table with
  | nil =>
    obtain inside | masked := quiet
    · exact absurd inside.2 not_mem_nil
    · exact masked
  | cons entry entries ih =>
    rw [foldl_cons]
    apply ih
    by_cases here : other = device ∧ place = entry
    · obtain ⟨rfl, rfl⟩ := here
      rw [maskEntry, writeEntry_same]
      exact .inr entryDecompose_masked
    · rw [maskEntry, writeEntry_other _ _ here]
      refine quiet.imp_left fun inside => ⟨inside.1, ?_⟩
      exact (mem_cons.mp inside.2).resolve_left fun same => here ⟨inside.1, same⟩

theorem initializeUnits_quiet (described : List AcpiIoApic) (units : List IoapicUnit)
    (table : RedirectionTable) (accesses : List RegisterAccess)
    {result : List IoapicUnit × RedirectionTable × List RegisterAccess}
    (quiet : Quiet hardware units table)
    (done : initializeUnits hardware described units table accesses = .ok result) :
    result.1 = units ++ described.map (probeUnit hardware) ∧
      Quiet hardware result.1 result.2.1 := by
  induction described generalizing units table accesses with
  | nil =>
    cases done
    exact ⟨(append_nil units).symm, quiet⟩
  | cons first described ih =>
    rw [initializeUnits] at done
    split at done
    · cases done
    next agrees =>
    split at done
    · cases done
    next enough =>
    split at done
    · cases done
    next clear =>
    rw [any_eq_true] at clear
    push Not at clear
    rw [map_cons, append_cons]
    refine ih _ _ _ ⟨?_, ?_, ?_, ?_⟩ done
    · exact forall_mem_append.mpr ⟨quiet.identified,
        forall_mem_singleton.mpr (not_not.mp agrees)⟩
    · intro unit member entry inside
      refine maskEntries_masked _ _ table _ entry ?_
      obtain old | new := mem_append.mp member
      · exact .inr (quiet.masked unit old entry inside)
      · rw [mem_singleton.mp new] at inside ⊢
        exact .inl ⟨rfl, mem_range.mpr inside⟩
    · refine pairwise_append.mpr ⟨quiet.apart, pairwise_singleton _ _, ?_⟩
      intro unit member other new
      rw [mem_singleton.mp new]
      exact eq_false_of_ne_true (clear unit member)
    · exact forall_mem_append.mpr ⟨quiet.counted,
        forall_mem_singleton.mpr (not_lt.mp enough)⟩

theorem ioapicInitialize_units
    (initialized : ioapicInitialize hardware interrupts topology table = .ok s) :
    ∃ last accesses, s = ⟨topology.ioApics.map (probeUnit hardware), fun _ => none, 0, false, false,
      topology, last, fun _ => none, accesses⟩ ∧ Quiet hardware s.units last := by
  unfold ioapicInitialize at initialized
  iterate 3
    split at initialized
    · cases initialized
  next units last accesses done =>
  cases initialized
  obtain ⟨same, quiet⟩ :=
    initializeUnits_quiet topology.ioApics [] table [] ⟨nofun, nofun, .nil, nofun⟩ done
  exact ⟨last, accesses, by rw [← nil_append (topology.ioApics.map _), ← same], quiet⟩

theorem ioapicInitialize_sound {memory : Nat → Byte} {madt : AcpiMadt}
    (accepted : acpiTopologyDiscover memory madt = .ok topology)
    (initialized : ioapicInitialize hardware interrupts topology table = .ok s) :
    RoutesSound hardware s ∧ s.units = topology.ioApics.map (probeUnit hardware) ∧
      s.routingTopology = topology := by
  obtain ⟨last, accesses, rfl, quiet⟩ := ioapicInitialize_units initialized
  obtain ⟨-, entries, -, order, told⟩ := acpiTopologyDiscover_entries accepted
  refine ⟨⟨?_, nofun, ?_, nofun, ?_, nofun, fun _ => ⟨rfl, nofun⟩⟩, rfl, rfl⟩
  · intro i j u w here there same
    have identifiers : u.identifier = w.identifier := by
      simp only [← quiet.identified u (mem_of_getElem? here),
        ← quiet.identified w (mem_of_getElem? there), reportedIdentifier, same]
    have distinct : ((topology.ioApics.map (probeUnit hardware)).map
        IoapicUnit.identifier).Nodup := by
      rw [map_map, told]
      exact (ioApics_admitted order).1
    obtain ⟨inside, -⟩ := List.getElem?_eq_some_iff.mp here
    refine (List.getElem?_inj ?_ distinct).mp ?_
    · rwa [List.length_map]
    · simp only [getElem?_map, here, there, Option.map_some, identifiers]
  · intro i u entry here bound _
    exact quiet.masked u (mem_of_getElem? here) entry bound
  · rw [levelCount_eq_card]
    rfl

def redirectionAt (hardware : IoapicHardware) (s : IoapicState) (unit : IoapicUnit) (entry : Nat) :
    IoapicRedirection :=
  entryDecompose (s.table (hardware.device unit.address) entry)

/-- An unmasked entry belongs to a route that was programmed into it. -/
theorem RoutesSound.unmasked (sound : RoutesSound hardware s) {i : Nat} {unit : IoapicUnit}
    (here : s.units[i]? = some unit) (bound : entry < unit.entryCount)
    (exposed : (redirectionAt hardware s unit entry).masked = false) :
    ∃ v route request source, s.routes v = some route ∧ route.unit = i ∧ route.entry = entry ∧
      Programmed hardware s v route unit request source := by
  have named : ∃ v route, s.routes v = some route ∧ route.unit = i ∧ route.entry = entry := by
    by_contra unnamed
    push Not at unnamed
    have masked := sound.masked i unit entry here bound ?_
    · rw [redirectionAt, masked] at exposed
      cases exposed
    · intro v route routed
      exact namesPin_eq_false.mpr fun names => unnamed v route routed names.1 names.2
  obtain ⟨v, route, routed, rfl, rfl⟩ := named
  obtain ⟨other, request, source, programmed⟩ := sound.programmed v route routed
  cases here.symm.trans programmed.unit
  exact ⟨v, route, request, source, routed, rfl, rfl, programmed⟩

theorem Programmed.fields {unit : IoapicUnit}
    (programmed : Programmed hardware s v route unit request source) :
    let entry := redirectionAt hardware s unit route.entry
    routeForVector entry.vector = some v ∧ entry.destination = request.destination ∧
      entry.activeLow = source.activeLow ∧ entry.levelTriggered = source.levelTriggered := by
  obtain ⟨vector, destination, activeLow, level, -⟩ := of_decide_eq_true programmed.readback
  exact ⟨(congrArg routeForVector vector).trans programmed.vector, destination, activeLow, level⟩

theorem requestedSource_ok (resolved : requestedSource s request = .ok source) :
    ∃ declared, resolveIsaIrq s.routingTopology request.irq = .ok declared ∧
      source.activeLow = declared.activeLow ∧
      source.levelTriggered = (declared.levelTriggered || request.trigger = .forceLevel) := by
  unfold requestedSource at resolved
  split at resolved
  · cases resolved
  next declared found =>
  cases resolved
  exact ⟨declared, found, rfl, rfl⟩

/-- Records and entries describe the same routes in every state of a run. -/
theorem ioapic_routing_invariant {memory : Nat → Byte} {madt : AcpiMadt} {topology : AcpiTopology}
    (accepted : acpiTopologyDiscover memory madt = .ok topology) {interrupts : Bool}
    {table : RedirectionTable}
    (initialized : ioapicInitialize hardware interrupts topology table = .ok s)
    (calls : List IoapicCall) :
    let t := run (ioapicStep hardware) s calls
    (∀ v w route other, t.routes v = some route → t.routes w = some other →
        route.unit = other.unit → route.entry = other.entry → v = w) ∧
      (∀ (i j : Nat) u w entry place, t.units[i]? = some u → t.units[j]? = some w →
        entry < u.entryCount → place < w.entryCount →
        (redirectionAt hardware t u entry).masked = false →
        (redirectionAt hardware t w place).masked = false →
        (redirectionAt hardware t u entry).vector = (redirectionAt hardware t w place).vector →
          i = j ∧ entry = place) ∧
      (∀ (i : Nat) u entry, t.units[i]? = some u → entry < u.entryCount →
        (∀ v route, t.routes v = some route → ¬(route.unit = i ∧ route.entry = entry)) →
          (redirectionAt hardware t u entry).masked = true) ∧
      (∀ (i : Nat) u entry, t.units[i]? = some u → entry < u.entryCount →
        (redirectionAt hardware t u entry).masked = false →
          ∃ v route request declared,
            routeForVector (redirectionAt hardware t u entry).vector = some v ∧
            t.routes v = some route ∧ route.unit = i ∧ route.entry = entry ∧
            route.levelTriggered = (redirectionAt hardware t u entry).levelTriggered ∧
            t.requested v = some request ∧
            resolveIsaIrq topology request.irq = .ok declared ∧
            (redirectionAt hardware t u entry).destination = request.destination ∧
            (redirectionAt hardware t u entry).activeLow = declared.activeLow ∧
            (redirectionAt hardware t u entry).levelTriggered =
              (declared.levelTriggered || request.trigger = .forceLevel)) ∧
      t.levelRoutes =
        (Finset.univ.filter fun v => (t.routes v).any (·.levelTriggered) = true).card ∧
      (t.directedEoiMode = true → ∀ v route, t.routes v = some route →
        route.levelTriggered = true → ∃ u, t.units[route.unit]? = some u ∧ u.directedEoi = true) := by
  intro t
  obtain ⟨sound, -, same⟩ := run_invariant (ioapicStep hardware) _ (routesSound_step _ topology)
    calls s (ioapicInitialize_sound accepted initialized)
  refine ⟨sound.single, ?_, ?_, ?_, ?_, ?_⟩
  · intro i j u w entry place here there inside within first second vector
    obtain ⟨v, route, request, source, routed, rfl, rfl, programmed⟩ :=
      sound.unmasked here inside first
    obtain ⟨v', route', request', source', routed', rfl, rfl, programmed'⟩ :=
      sound.unmasked there within second
    have slots := programmed.fields.1
    rw [vector, programmed'.fields.1] at slots
    cases slots
    cases routed.symm.trans routed'
    exact ⟨rfl, rfl⟩
  · intro i u entry here inside unnamed
    refine sound.masked i u entry here inside ?_
    intro v route routed
    exact namesPin_eq_false.mpr (unnamed v route routed)
  · intro i u entry here inside first
    obtain ⟨v, route, request, source, routed, rfl, rfl, programmed⟩ :=
      sound.unmasked here inside first
    obtain ⟨vector, destination, polarity, trigger⟩ := programmed.fields
    obtain ⟨declared, resolved, activeLow, level⟩ := requestedSource_ok programmed.resolved
    rw [same] at resolved
    exact ⟨v, route, request, declared, vector, routed, rfl, rfl,
      programmed.trigger.trans trigger.symm, programmed.requested, resolved, destination,
      polarity.trans activeLow, trigger.trans level⟩
  · rw [← levelCount_eq_card]
    exact sound.levels
  · intro mode v route routed level
    obtain ⟨u, request, source, programmed⟩ := sound.programmed v route routed
    exact ⟨u, programmed.unit, sound.directed mode v route u routed level programmed.unit⟩

def timerTable : List Byte :=
  [0x41, 0x50, 0x49, 0x43, 74, 0, 0, 0, 0, 183] ++ List.replicate 34 0 ++
    [0, 8, 0, 0, 1, 0, 0, 0] ++ [1, 12, 0, 0, 0, 0, 0xC0, 0xFE, 0, 0, 0, 0] ++
    [2, 10, 0, 0, 2, 0, 0, 0, 0, 0]

def timerMadt : AcpiMadt := ⟨0x1000, 74, 0xFEE00000, 1⟩

def timerTopology : AcpiTopology :=
  ⟨0xFEE00000, false, true, 1, 0, 0, [⟨0, 0, true, false⟩], [⟨0, 0xFEC00000, 0⟩], [⟨2, 0, 0, 0⟩]⟩

def timerHardware : IoapicHardware := ⟨fun _ => 0, fun _ => 0x00170020, fun _ => 0⟩

theorem timerTopology_accepted :
    acpiTopologyDiscover (fun address => timerTable.getD (address - 0x1000) 0) timerMadt =
      .ok timerTopology := by
  decide +kernel

theorem timer_routing_invariant :
    ∃ s, ioapicInitialize timerHardware false timerTopology (fun _ _ => ⟨0, 0⟩) = .ok s ∧
      let t := run (ioapicStep timerHardware) s
        [.routeIsaIrqAs ⟨false, true, true, id⟩ ⟨0, 48, 0, .forceLevel⟩]
      t.levelRoutes = 1 ∧ t.levelRoutes =
        (Finset.univ.filter fun v => (t.routes v).any (·.levelTriggered) = true).card := by
  refine ⟨_, rfl, by decide, ?_⟩
  exact (@ioapic_routing_invariant timerHardware _ _ _ _ timerTopology_accepted false (fun _ _ => ⟨0, 0⟩) rfl
    _).2.2.2.2.1

end

end Sapote.Ioapic
