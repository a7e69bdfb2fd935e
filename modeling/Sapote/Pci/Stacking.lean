import Sapote.Pci.Arena

/-!
The mappings of a claim as a stack: what mapping a BAR pushes, unmapping the last one
pops again, and a claim that is no bus master never refuses to.
-/

namespace Sapote.Pci
open Frames Paging List Function
variable {s t u : PciResources} {live : Finset Nat} {name : Nat} {indices : List Nat}
  {mapping : PciMmioRegion} {barIndex : Nat}

theorem Accounted.validates (accounted : Accounted s live) (here : name ∈ live) :
    validateActiveClaim s (s.claims name) = .ok := by
  obtain ⟨i, record⟩ := accounted.recorded name here
  have found : (findClaimRecord s (s.claims name)).isSome := by
    rw [findClaimRecord, find?_isSome]
    refine ⟨i, mem_finRange i, ?_⟩
    rw [record]
    simp
  have present : (findClaimRecord s (s.claims name)).isNone = false := by
    rw [← Option.not_isSome, found]
    rfl
  rw [validateActiveClaim, (accounted.member name).mp here, present]
  rfl

/-- The state `t` differs from `s` by mappings pushed onto claim `name`, of the BARs
listed; decoding may have been switched on for them. -/
structure Stacked (live : Finset Nat) (s t : PciResources) (name : Nat) (indices : List Nat) :
    Prop where
  accounted : Accounted t live
  others : ∀ n, n ≠ name → t.claims n = s.claims n
  device : (t.claims name).device = (s.claims name).device
  bars : (t.claims name).bars = (s.claims name).bars
  mastering : (t.claims name).busMasterEnabled = (s.claims name).busMasterEnabled
  stack : ∃ extra, (t.claims name).mappings = (s.claims name).mappings ++ extra ∧
    extra.map PciMmioRegion.barIndex = indices

theorem Stacked.refl (accounted : Accounted s live) (name : Nat) : Stacked live s s name [] :=
  ⟨accounted, fun _ _ => rfl, rfl, rfl, rfl, [], (append_nil _).symm, rfl⟩

section
variable (stacked : Stacked live s t name indices)
include stacked

/-- The claim of a stacked state replaced by one with other mappings and registers. -/
theorem Stacked.replaced {claim : PciDeviceClaim}
    {indices' : List Nat} (accounted : Accounted u live)
    (claims : u.claims = Function.update t.claims name claim)
    (device : claim.device = (t.claims name).device) (bars : claim.bars = (t.claims name).bars)
    (mastering : claim.busMasterEnabled = (t.claims name).busMasterEnabled)
    (stack : ∃ extra, claim.mappings = (s.claims name).mappings ++ extra ∧
      extra.map PciMmioRegion.barIndex = indices') : Stacked live s u name indices' := by
  have mine : u.claims name = claim := by rw [claims, update_self]
  refine ⟨accounted, ?_, ?_, ?_, ?_, ?_⟩
  · intro n other
    rw [claims, update_of_ne other]
    exact stacked.others n other
  · rw [mine, device, stacked.device]
  · rw [mine, bars, stacked.bars]
  · rw [mine, mastering, stacked.mastering]
  · rw [mine]
    exact stack

/-- Nothing changed in the claims. -/
theorem Stacked.carried (accounted : Accounted u live)
    (claims : u.claims = t.claims) : Stacked live s u name indices := by
  refine stacked.replaced accounted ?_ rfl rfl rfl stacked.stack
  rw [claims, update_eq_self]

theorem Stacked.pushed :
    ∃ extra, (t.claims name).mappings ++ [mapping] = (s.claims name).mappings ++ extra ∧
      extra.map PciMmioRegion.barIndex = indices ++ [mapping.barIndex] := by
  obtain ⟨extra, split, listed⟩ := stacked.stack
  refine ⟨extra ++ [mapping], ?_, ?_⟩
  · rw [split, append_assoc]
  · rw [map_append, listed]
    rfl

/-- `pci_claim_map_bar` pushes the BAR, or leaves the claims alone. -/
theorem Stacked.mapBar (refused port : Bool) (barIndex : Nat) :
    let result := pciClaimMapBar false refused port t (some name) barIndex true
    (result.1 ≠ .ok ∧ Stacked live s result.2 name indices) ∨
      result.1 = .ok ∧ Stacked live s result.2 name (indices ++ [barIndex]) := by
  obtain same | mapped := pciClaimMapBar_cases false refused port t (some name) barIndex true
  · refine .inl ⟨same.1, ?_⟩
    rw [same.2]
    exact stacked
  obtain ⟨name', bar, first, named, admitted, result⟩ := mapped
  obtain rfl := Option.some.inj named
  have accounted := stacked.accounted.installed admitted refused port
  rw [result]
  cases installMapping_cases refused port t name (regionAt (t.claims name) bar barIndex first) with
  | inl failed =>
    rw [failed.2] at accounted ⊢
    exact .inl ⟨nofun, stacked.carried accounted rfl⟩
  | inr rest => ?_
  obtain undone | entered := rest
  · obtain ⟨status, refusal, -, outcome⟩ := undone
    rw [outcome] at accounted ⊢
    exact .inl ⟨refusal, stacked.carried accounted rfl⟩
  obtain outcome | outcome := entered.2
  · rw [outcome] at accounted ⊢
    exact .inr ⟨rfl, stacked.replaced accounted rfl rfl rfl rfl stacked.pushed⟩
  have mine : (enterMapping t name (regionAt (t.claims name) bar barIndex first)
      (mapRegion refused t.paging (regionAt (t.claims name) bar barIndex first)).2
      ).claims name = _ := update_self _ _ _
  rw [outcome] at accounted ⊢
  refine .inr ⟨rfl, stacked.replaced accounted (update_idem _ _ _) ?_ ?_ ?_ ?_⟩
  · rw [mine]
  · rw [mine]
  · rw [mine]
  · dsimp only
    rw [mine]
    exact stacked.pushed

end

/-- What was pushed last is the mapping on top. -/
theorem Stacked.top (stacked : Stacked live s t name (indices ++ [barIndex])) :
    ∃ extra mapping, (t.claims name).mappings = (s.claims name).mappings ++ extra ++ [mapping] ∧
      extra.map PciMmioRegion.barIndex = indices ∧ mapping.barIndex = barIndex := by
  obtain ⟨whole, split, all⟩ := stacked.stack
  obtain ⟨extra, last, rfl, listed, top⟩ := map_eq_append_iff.mp all
  obtain ⟨mapping, rest, rfl, same, none⟩ := map_eq_cons_iff.mp top
  obtain rfl := map_eq_nil_iff.mp none
  exact ⟨extra, mapping, by rw [split, append_assoc], listed, same⟩

/-- `pci_claim_unmap_last_bar` pops the BAR, or leaves the claims alone. -/
theorem Stacked.unmapLastBar (stacked : Stacked live s t name (indices ++ [barIndex])) :
    let result := pciClaimUnmapLastBar false t (some name) barIndex
    (result.1 ≠ .ok ∧ Stacked live s result.2 name (indices ++ [barIndex])) ∨
      result.1 = .ok ∧ Stacked live s result.2 name indices := by
  obtain same | unmapped := pciClaimUnmapLastBar_cases false t (some name) barIndex
  · refine .inl ⟨same.1, ?_⟩
    rw [same.2]
    exact stacked
  obtain ⟨name', mapping, named, active, last, idle, result⟩ := unmapped
  obtain rfl := Option.some.inj named
  have accounted := stacked.accounted.dropped
    ((stacked.accounted.member name).mpr active) last idle
  rw [result]
  obtain failed | left := dropMapping_cases t name mapping
  · rw [failed.2] at accounted ⊢
    exact .inl ⟨nofun, stacked.carried accounted rfl⟩
  · obtain ⟨extra, top, split, listed, -⟩ := stacked.top
    rw [left.2] at accounted ⊢
    refine .inr ⟨rfl, stacked.replaced accounted (claims_leaveMapping t name mapping _) rfl
      rfl rfl ⟨extra, ?_, listed⟩⟩
    rw [split, dropLast_concat]

/-- The pages of a mapping that has any can be unmapped. -/
theorem Accounted.unmaps (accounted : Accounted s live) (here : name ∈ live)
    (held : mapping ∈ (s.claims name).mappings) (sized : 0 < mapping.mappingLength) :
    (unmapRegion s.paging mapping).1 = .ok := by
  have sound := accounted.mappings name here mapping held
  have base := sound.base
  have length := sound.length
  have inside := sound.inside
  have canonical := fun x => sound.canonical (x := x)
  rw [unmapRegion, pagingUnmap_status accounted.paging.active]
  apply unmapRange_ok_of_view accounted.paging
  · have first := canonical mapping.mappingVirtualBase ⟨le_refl _, by omega⟩
    have last := canonical (mapping.mappingVirtualBase + mapping.mappingLength - 1)
      ⟨by omega, by omega⟩
    unfold mmioArenaPageCount pciDeviceMmioArenaSize pagingPageSize at inside
    unfold pciDeviceMmioArenaBase pagingPageSize at base
    unfold pagingPageSize at length
    unfold validateVirtualRange
    rw [if_neg (by omega), if_neg (by unfold pagingPageSize; omega), first, if_neg (by decide),
      if_neg (by unfold uint64Max; omega), last, if_neg (by decide)]
  · intro x low high
    exact ⟨canonical x ⟨low, high⟩, _, sound.view accounted.paging ⟨low, high⟩, rfl⟩

/-- The last BAR of a claim that is no bus master can be unmapped. -/
theorem Accounted.unmaps_last (accounted : Accounted s live) (here : name ∈ live)
    (last : (s.claims name).mappings.getLast? = some mapping) (sized : 0 < mapping.mappingLength)
    (idle : (s.claims name).busMasterEnabled = false) :
    (pciClaimUnmapLastBar false s (some name) mapping.barIndex).1 = .ok := by
  have held := mem_of_getLast? last
  have active := (accounted.mappings name here mapping held).active
  have unmapped := accounted.unmaps here held sized
  unfold pciClaimUnmapLastBar
  dsimp only
  rw [accounted.validates here, if_neg (not_not.mpr rfl), if_neg (by decide), last]
  dsimp only
  rw [active, idle, if_neg (by simp), if_neg (by decide), dropMapping,
    if_neg (not_not.mpr unmapped)]

/-- Popping a BAR of positive size off a claim that is no bus master succeeds. -/
theorem Stacked.unmaps (stacked : Stacked live s t name (indices ++ [barIndex]))
    (here : name ∈ live) (idle : (s.claims name).busMasterEnabled = false)
    (sized : ∀ bar, (s.claims name).bars[barIndex]? = some bar → 0 < bar.size) :
    (pciClaimUnmapLastBar false t (some name) barIndex).1 = .ok := by
  obtain ⟨extra, mapping, split, -, rfl⟩ := stacked.top
  have held : mapping ∈ (t.claims name).mappings := by
    rw [split]
    exact mem_append_right _ (mem_singleton_self mapping)
  obtain ⟨bar, listed, -, -, shape⟩ := (stacked.accounted.mappings name here mapping held).shape
  rw [stacked.bars] at listed
  have positive := sized bar listed
  have length := congrArg PciMmioRegion.mappingLength shape
  change mapping.mappingLength = roundedLengthOf bar at length
  refine stacked.accounted.unmaps_last here (by rw [split, getLast?_concat]) ?_
    (stacked.mastering.trans idle)
  rw [length, roundedLengthOf]
  unfold pagingPageSize
  omega

theorem Stacked.mapped (stacked : Stacked live s t name indices) (here : name ∈ live)
    (listed : barIndex ∈ indices) : (pciClaimMappedBar (t.claims name) barIndex).isSome := by
  obtain ⟨extra, split, rfl⟩ := stacked.stack
  obtain ⟨mapping, member, same⟩ := mem_map.mp listed
  have held : mapping ∈ (t.claims name).mappings := by
    rw [split]
    exact mem_append_right _ member
  rw [pciClaimMappedBar, find?_isSome]
  refine ⟨mapping, held, ?_⟩
  rw [(stacked.accounted.mappings name here mapping held).active, same]
  simp

/-- With nothing pushed the mappings and the arena are as before. -/
theorem Stacked.restored (stacked : Stacked live s t name []) (accounted : Accounted s live) :
    (∀ n, (t.claims n).mappings = (s.claims n).mappings) ∧
      ∀ page, arenaBit t.arenaBitmap page = arenaBit s.arenaBitmap page := by
  have mappings : ∀ n, (t.claims n).mappings = (s.claims n).mappings := by
    intro n
    by_cases mine : n = name
    · obtain ⟨extra, split, none⟩ := stacked.stack
      rw [mine, split, map_eq_nil_iff.mp none, append_nil]
    · rw [stacked.others n mine]
  refine ⟨mappings, ?_⟩
  intro page
  have recount := stacked.accounted.arena page
  have same : Library.total (PciDeviceClaim.coverage page) t.claims live =
      Library.total (PciDeviceClaim.coverage page) s.claims live := by
    apply Finset.sum_congr rfl
    intro n _
    simp only [PciDeviceClaim.coverage, mappings n]
  rw [same, ← accounted.arena page] at recount
  rw [← Bool.ofNat_toNat (arenaBit t.arenaBitmap page), recount, Bool.ofNat_toNat]

end Sapote.Pci
