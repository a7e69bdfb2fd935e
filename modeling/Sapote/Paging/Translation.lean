import Sapote.Paging.Walk

/-!
What `translate_address` reports, read off the leaves of a sound hierarchy, and
what the leaf of a validated request reports. Two canonical addresses share a
path exactly when they share a page.
-/

namespace Sapote.Paging
open Frames Library
variable {va : Nat} {s : TableState} {permissions : Permissions} {pat : Word}

def userPath (s : TableState) (va : Nat) : Nat → Bool
  | 0 => true
  | d + 1 => userPath s va d && (s.cell (pathTo va (d + 1))).any userBit

theorem userPath_congr {t : TableState} {m : Nat}
    (same : ∀ d, d < m → t.cell (pathTo va (d + 1)) = s.cell (pathTo va (d + 1))) :
    ∀ d, d ≤ m → userPath t va d = userPath s va d := by
  intro d deep
  induction d with
  | zero => rfl
  | succ d ih => rw [userPath, userPath, ih (by omega), same d deep]

theorem translateWalk_spec (sound : HierarchySound s) (va : Nat) (pat : Word) (level : Nat)
    (bound : level ≤ 4) (table : Nat) (here : s.node (pathTo va (4 - level)) = some table) :
    let result := translateWalk s.tables va pat level table true true (userPath s va (4 - level))
    (∃ d e, d < 4 ∧ s.leaf (pathTo va (d + 1)) = some e ∧ result =
        (.ok, fillTranslation e va (4 - d) (writable e) (!noExecute e) (userPath s va (d + 1)) pat)) ∨
      (∀ d, 4 - level ≤ d → d < 4 → s.leaf (pathTo va (d + 1)) = none) ∧
        result = (.notMapped, emptyTranslation) := by
  induction level generalizing table with
  | zero => exact .inr ⟨fun d low high => by omega, rfl⟩
  | succ level ih =>
    dsimp only
    rw [show 4 - (level + 1) = 3 - level by omega] at here ⊢
    have slot := cell_pathTo (by omega) here
    have user : userPath s va (4 - level) =
        (userPath s va (3 - level) && userBit (s.tables table (tableIndex va (level + 1)))) := by
      rw [show 4 - level = 3 - level + 1 by omega] at slot ⊢
      rw [userPath, slot]
      rfl
    rw [translateWalk]
    by_cases there : present (s.tables table (tableIndex va (level + 1)))
    · rw [if_neg (by simp [there])]
      by_cases ends : level = 0 ∨ huge (s.tables table (tableIndex va (level + 1)))
      · rw [if_pos ends]
        refine .inl ⟨3 - level, s.tables table (tableIndex va (level + 1)), by omega, ?_, ?_⟩
        · rw [leaf_pathTo, ← show 4 - level = 3 - level + 1 by omega]
          exact ⟨slot, pageView_leaf there (ends.imp_left fun zero => by omega)⟩
        · simp only [← show 4 - level = 3 - level + 1 by omega, user, Bool.true_and,
            show 4 - (3 - level) = level + 1 by omega]
      rw [if_neg ends]
      have inner : level ≠ 0 ∧ huge (s.tables table (tableIndex va (level + 1))) = false := by
        rw [not_or, Bool.not_eq_true] at ends
        exact ends
      have child := node_pathTo (by omega) (by omega) here there inner.2
      have seen := pageView_of_table there inner.2 (show (pathTo va (3 - level)).length < 3 by
        rw [length_pathTo]
        omega)
      obtain ⟨free, reach⟩ := sound.links _ _ _ _ here seen
      rw [free, reach, ← user]
      obtain found | none := ih (by omega) _ child
      · exact .inl found
      refine .inr ⟨?_, none.2⟩
      intro d low high
      by_cases first : d = 3 - level
      · have deep : s.node (pathTo va (d + 1)) ≠ Option.none := by
          rw [first, ← show 4 - level = 3 - level + 1 by omega, child]
          nofun
        exact leaf_none_of_node deep
      · exact none.1 d (by omega) high
    · have gone := Bool.eq_false_iff.mpr there
      rw [if_pos (by simp [gone])]
      refine .inr ⟨?_, rfl⟩
      intro d low high
      apply Option.eq_none_iff_forall_ne_some.mpr
      intro e leaf
      rw [show 4 - level = 3 - level + 1 by omega] at slot
      by_cases first : d = 3 - level
      · rw [first, leaf_pathTo, slot] at leaf
        have bit := (pageView_eq_leaf leaf.2).1
        rw [← Option.some.inj leaf.1, gone] at bit
        cases bit
      · have missing : s.node (pathTo va d) = none :=
          node_none_of_cell (by omega) slot (pageView_child_absent gone)
        have below := (leaf_pathTo.mp leaf).1
        exact parent_of_cell below missing

theorem translateAddress_leaf (sound : HierarchySound s) (pat : Word)
    (canonical : addressIsCanonical va) {d : Nat} {e : Word} (deep : d < 4)
    (leaf : s.leaf (pathTo va (d + 1)) = some e) :
    translateAddress s va pat =
      (.ok, fillTranslation e va (4 - d) (writable e) (!noExecute e) (userPath s va (d + 1)) pat) := by
  rw [translateAddress, if_neg (by simp [canonical])]
  have spec := translateWalk_spec sound va pat 4 (le_refl 4) s.hierarchy.root rfl
  obtain ⟨d', e', -, leaf', result⟩ | none := spec
  · obtain ⟨rfl, rfl⟩ := leaf_unique leaf leaf'
    exact result
  · rw [none.1 d (by omega) deep] at leaf
    cases leaf

theorem translateAddress_unmapped (sound : HierarchySound s) (pat : Word)
    (canonical : addressIsCanonical va)
    (unmapped : ∀ d, d < 4 → s.leaf (pathTo va (d + 1)) = none) :
    translateAddress s va pat = (.notMapped, emptyTranslation) := by
  rw [translateAddress, if_neg (by simp [canonical])]
  have spec := translateWalk_spec sound va pat 4 (le_refl 4) s.hierarchy.root rfl
  obtain ⟨d, e, deep, leaf, -⟩ | none := spec
  · rw [unmapped d deep] at leaf
    cases leaf
  · exact none.2

/-- A path resolves to one leaf or to none. -/
theorem leaf_cases (s : TableState) (va : Nat) :
    (∃ d e, d < 4 ∧ s.leaf (pathTo va (d + 1)) = some e) ∨
      ∀ d, d < 4 → s.leaf (pathTo va (d + 1)) = none := by
  refine or_iff_not_imp_left.mpr fun nothing d deep => ?_
  apply Option.eq_none_iff_forall_ne_some.mpr
  intro e leaf
  exact nothing ⟨d, e, deep, leaf⟩

/-- The layout of the PAT this kernel installs, as far as its leaves use it. -/
structure PatLayout (pat : Word) : Prop where
  writeBack : patEntry pat 0 = 0x06
  writeCombining : patEntry pat 1 = 0x01
  uncacheable : patEntry pat 3 = 0x00

def requestedType (permissions : Permissions) : MemoryType :=
  if wantsUncached permissions then .uncacheable
  else if wantsCombining permissions then .writeCombining
  else .writeBack

theorem validatePermissions_ok (valid : validatePermissions permissions = .ok) :
    permissions.toNat < 16 ∧ ¬(wantsWrite permissions ∧ wantsExecute permissions) ∧
      ¬(wantsUncached permissions ∧ wantsCombining permissions) := by
  unfold validatePermissions at valid
  dsimp only at valid
  split at valid
  · cases valid
  next known =>
  split at valid
  · cases valid
  next exclusive =>
  split at valid
  · cases valid
  next oneType =>
  refine ⟨?_, ?_, ?_⟩
  · rw [not_not] at known
    apply Nat.lt_pow_two_of_testBit (n := 4)
    intro i high
    by_cases small : i < 32
    · have bit := congrArg (fun word => word.getLsbD i) known
      have mask : ∀ k, 4 ≤ k → k < 32 →
          (~~~(pagingWrite ||| pagingExecute ||| pagingUncached ||| pagingWriteCombining)).getLsbD k
            := by decide
      simp only [BitVec.getLsbD_and, mask i high small, Bool.and_true] at bit
      exact bit.trans BitVec.getLsbD_zero
    · exact BitVec.getLsbD_of_ge _ _ (by omega)
  · intro both
    unfold wantsWrite wantsExecute at both
    exact exclusive (by simpa using both)
  · intro both
    unfold wantsUncached wantsCombining at both
    exact oneType (by simpa using both)

def askedFor (permissions : Permissions) : Permissions :=
  (if wantsWrite permissions then pagingWrite else 0) |||
    (if wantsExecute permissions then pagingExecute else 0) |||
    (if wantsUncached permissions then pagingUncached
      else if wantsCombining permissions then pagingWriteCombining else 0)

/-- A validated permission set is the union of the bits asked for. -/
theorem permissions_rebuilt (valid : validatePermissions permissions = .ok) :
    permissions = askedFor permissions := by
  obtain ⟨small, -, oneType⟩ := validatePermissions_ok valid
  have table : ∀ n, n < 16 →
      ¬(wantsUncached (.ofNat 32 n) ∧ wantsCombining (.ofNat 32 n)) →
      BitVec.ofNat 32 n = askedFor (.ofNat 32 n) := by decide
  have named : BitVec.ofNat 32 permissions.toNat = permissions := by simp
  have row := table permissions.toNat small
  rw [named] at row
  exact row oneType

theorem levelPageSize_one : levelPageSize 1 = 4096 := by decide
theorem levelPageSize_two : levelPageSize 2 = 0x200000 := by decide

structure LeafRequest (physicalAddress : Nat) (permissions : Permissions) (level : Nat) : Prop where
  sized : level = 1 ∨ level = 2
  aligned : physicalAddress % levelPageSize level = 0
  bound : physicalAddress < pagePhysicalLimit
  valid : validatePermissions permissions = .ok

section
variable {pa level : Nat} {permissions : Permissions}

section
variable (request : LeafRequest pa permissions level)
include request

theorem LeafRequest.page : PageAddress pa := by
  refine ⟨?_, request.bound⟩
  have aligned := request.aligned
  obtain one | two := request.sized
  · rw [one, levelPageSize_one] at aligned
    exact aligned
  · rw [two, levelPageSize_two] at aligned
    unfold pagingPageSize
    omega

theorem LeafRequest.bits :
    let entry := leafEntry pa permissions level
    present entry ∧ writable entry = wantsWrite permissions ∧ userBit entry = false ∧
      huge entry = decide (1 < level) ∧ noExecute entry = !wantsExecute permissions := by
  dsimp only
  obtain ⟨-, b0, b1, b2, -, -, b7, b63⟩ := leafFlags_bits permissions level
  rw [present_eq, writable_eq, userBit_eq, huge_eq, noExecute_eq, leafEntry_eq]
  simp (disch := omega) only [getLsbD_entry request.page]
  exact ⟨b0, b1, b2, b7, b63⟩

theorem LeafRequest.view : pageView (4 - level) (leafEntry pa permissions level) = .leaf := by
  obtain ⟨here, -, -, large, -⟩ := request.bits
  apply pageView_leaf here
  obtain one | two := request.sized
  · exact .inl (by omega)
  · exact .inr (by rw [large, two]; rfl)

/-- The bit that selects the upper half of the PAT is clear in a requested leaf. -/
theorem LeafRequest.patBit :
    leafEntry pa permissions level &&& (if level = 1 then pageHuge else pageLargePat) = 0 := by
  obtain ⟨flat, -, -, -, -, -, b7, -⟩ := leafFlags_bits permissions level
  have clear : ∀ (word : Word) (n : Nat), n < 64 → word.getLsbD n = false →
      word &&& 1#64 <<< n = 0 := by
    intro word n small bit
    have read := testMask word small
    rw [bit, decide_eq_false_iff_not, not_not] at read
    exact read
  obtain one | two := request.sized
  · rw [if_pos one]
    apply clear _ 7 (by decide)
    rw [leafEntry_eq, getLsbD_entry request.page _ (by omega), b7, one]
    rfl
  rw [if_neg (by omega)]
  apply clear _ 12 (by decide)
  have aligned := request.aligned
  rw [two, levelPageSize_two] at aligned
  have shape : pa = 2 ^ 21 * (pa / 2 ^ 21) := by omega
  have low : pa.testBit 12 = false := by
    rw [shape, Nat.testBit_two_pow_mul]
    rfl
  rw [leafEntry_eq, BitVec.getLsbD_or, BitVec.getLsbD_ofNat, low, flat.getLsbD (by omega)]
  rfl

theorem LeafRequest.memoryType (layout : PatLayout pat) :
    leafMemoryType (leafEntry pa permissions level) level pat = requestedType permissions := by
  obtain ⟨-, -, oneType⟩ := validatePermissions_ok request.valid
  obtain ⟨-, -, -, -, b3, b4, -, -⟩ := leafFlags_bits permissions level
  have through : decide (leafEntry pa permissions level &&& pageWriteThrough ≠ 0) =
      (wantsUncached permissions || wantsCombining permissions) := by
    rw [← b3, ← getLsbD_entry request.page _ (by omega), ← leafEntry_eq]
    exact testMask _ (by decide)
  have disabled : decide (leafEntry pa permissions level &&& pageCacheDisable ≠ 0) =
      wantsUncached permissions := by
    rw [← b4, ← getLsbD_entry request.page _ (by omega), ← leafEntry_eq]
    exact testMask _ (by decide)
  have index : leafPatIndex (leafEntry pa permissions level) level =
      (if (wantsUncached permissions || wantsCombining permissions) = true then 1 else 0) +
        (if wantsUncached permissions = true then 2 else 0) := by
    rw [leafPatIndex, ← through, ← disabled]
    simp only [request.patBit, ne_eq, not_true_eq_false, if_false, add_zero, decide_eq_true_eq]
  rw [leafMemoryType, index, requestedType]
  cases u : wantsUncached permissions <;> cases c : wantsCombining permissions
  · exact congrArg decodePatType layout.writeBack
  · exact congrArg decodePatType layout.writeCombining
  · exact congrArg decodePatType layout.uncacheable
  · exact absurd ⟨u, c⟩ oneType

end

/-- The frame of a page, with the offset of an address put in. -/
theorem frame_offset {k : Nat} (small : k < 64) (aligned : pa % 2 ^ k = 0)
    (bound : pa < 2 ^ 64) (word : va < 2 ^ 64) :
    ((BitVec.ofNat 64 pa &&& ~~~(BitVec.ofNat 64 (2 ^ k - 1))) |||
      (BitVec.ofNat 64 va &&& BitVec.ofNat 64 (2 ^ k - 1))).toNat = pa + va % 2 ^ k := by
  have shape : pa = 2 ^ k * (pa / 2 ^ k) := by
    have := Nat.div_add_mod pa (2 ^ k)
    omega
  have mask : BitVec.ofNat 64 pa &&& ~~~(BitVec.ofNat 64 (2 ^ k - 1)) = BitVec.ofNat 64 pa := by
    apply BitVec.eq_of_getLsbD_eq
    intro n inside
    simp only [BitVec.getLsbD_and, BitVec.getLsbD_not, BitVec.getLsbD_ofNat,
      Nat.testBit_two_pow_sub_one]
    by_cases low : n < k
    · have zero : pa.testBit n = false := by
        rw [shape, Nat.testBit_two_pow_mul]
        simp
        omega
      rw [zero]
      simp
    · simp [low, inside]
  have maskSmall : 2 ^ k - 1 < 2 ^ 64 :=
    lt_of_lt_of_le (Nat.sub_lt (Nat.two_pow_pos k) (by decide))
      (Nat.pow_le_pow_right (by decide) (by omega))
  simp only [mask, BitVec.toNat_or, BitVec.toNat_and, BitVec.toNat_ofNat, Nat.mod_eq_of_lt bound,
    Nat.mod_eq_of_lt word, Nat.mod_eq_of_lt maskSmall, Nat.and_two_pow_sub_one_eq_mod]
  have rest : va % 2 ^ k < 2 ^ k := Nat.mod_lt _ (Nat.two_pow_pos k)
  rw [shape, ← Nat.two_pow_add_eq_or_of_lt rest]

/-- The physical address a leaf yields: its frame, and the offset in the page. -/
theorem LeafRequest.physical (request : LeafRequest pa permissions level) (word : va < 2 ^ 64) :
    ((leafEntry pa permissions level &&& pageFrameMask &&&
        ~~~(BitVec.ofNat 64 (levelPageSize level - 1))) |||
      (BitVec.ofNat 64 va &&& BitVec.ofNat 64 (levelPageSize level - 1))).toNat =
      pa + va % levelPageSize level := by
  have sized := request.sized
  rw [leafEntry_eq, frameMask_entry request.page (leafFlags_bits permissions level).1]
  exact frame_offset (by omega) request.aligned (lt_trans request.bound (by decide)) word

theorem LeafRequest.translation (request : LeafRequest pa permissions level)
    (layout : PatLayout pat) (word : va < 2 ^ 64) (user : Bool) :
    let entry := leafEntry pa permissions level
    fillTranslation entry va level (writable entry) (!noExecute entry) user pat =
      ⟨pa + va % levelPageSize level, permissions, requestedType permissions, level, user⟩ := by
  obtain ⟨-, w, -, -, x⟩ := request.bits
  unfold fillTranslation
  dsimp only
  rw [request.physical word, request.memoryType layout, w, x, Bool.not_not]
  congr 1
  have rebuilt := permissions_rebuilt request.valid
  conv_rhs => rw [rebuilt]
  unfold requestedType askedFor
  cases wantsWrite permissions <;> cases wantsExecute permissions <;>
    cases wantsUncached permissions <;> cases wantsCombining permissions <;> decide

end

theorem canonical_cases (canonical : addressIsCanonical va) :
    va / 2 ^ 47 = 0 ∨ va / 2 ^ 47 = 0x1FFFF := by
  simp only [addressIsCanonical, Bool.or_eq_true, decide_eq_true_eq] at canonical
  exact canonical

theorem canonical_word (canonical : addressIsCanonical va) : va < 2 ^ 64 := by
  have := canonical_cases canonical
  omega

/-- Canonical addresses share the path of a slot exactly when they share its page. -/
theorem pathTo_eq_iff {x y level : Nat} (sized : 1 ≤ level ∧ level ≤ 4)
    (hx : addressIsCanonical x) (hy : addressIsCanonical y) :
    pathTo x (5 - level) = pathTo y (5 - level) ↔ x / levelPageSize level = y / levelPageSize level := by
  have cx := canonical_cases hx
  have cy := canonical_cases hy
  have index : ∀ va j, (vaKey va j).val = va / 2 ^ (12 + 9 * (4 - j - 1)) % 512 := fun _ _ => rfl
  constructor
  · intro same
    have key : ∀ j, j < 5 - level → (vaKey x j).val = (vaKey y j).val :=
      fun j small => congrArg Fin.val (spine_inj same j small)
    have k0 := key 0
    have k1 := key 1
    have k2 := key 2
    have k3 := key 3
    obtain rfl | rfl | rfl | rfl : level = 1 ∨ level = 2 ∨ level = 3 ∨ level = 4 := by omega
    all_goals
      simp only [index, levelPageSize, Nat.reduceSub, Nat.reduceMul, Nat.reduceAdd, Nat.reducePow,
        Nat.reduceLT, true_implies] at k0 k1 k2 k3 ⊢
      omega
  · intro same
    apply spine_congr
    intro j small
    apply Fin.ext
    rw [index, index]
    have halves : ∀ {k}, 12 + 9 * (level - 1) ≤ k → x / 2 ^ k = y / 2 ^ k := by
      intro k high
      have shape : 2 ^ k = levelPageSize level * 2 ^ (k - (12 + 9 * (level - 1))) := by
        rw [levelPageSize, ← Nat.pow_add]
        congr 1
        omega
      simp only [shape, ← Nat.div_div_eq_div_mul, same]
    rw [halves (by omega)]

/-- A range whose ends are canonical and that is short is canonical throughout. -/
theorem canonical_between {length x : Nat} (first : addressIsCanonical va)
    (last : addressIsCanonical (va + length - 1)) (short : length ≤ 2 ^ 63) (low : va ≤ x)
    (high : x < va + length) : addressIsCanonical x := by
  have cf := canonical_cases first
  have cl := canonical_cases last
  simp only [addressIsCanonical, Bool.or_eq_true, decide_eq_true_eq]
  omega

/-- Every table is a page of the identity window, so there are not that many. -/
theorem HierarchySound.paths_bounded (sound : HierarchySound s) (path : Fin (2 ^ 20 + 1) → Path)
    (apart : Function.Injective path) : ¬∀ n, s.node (path n) ≠ none := by
  intro all
  have chosen : ∀ n, ∃ a, s.node (path n) = some a := fun n => Option.ne_none_iff_exists'.mp (all n)
  choose table here using chosen
  have page : ∀ n, table n % 4096 = 0 ∧ table n < 2 ^ 32 :=
    fun n => (sound.held _ _ (here n)).page sound.supply
  have small : ∀ n, table n / 4096 < 2 ^ 20 := by
    intro n
    have := (page n).2
    omega
  have injective : Function.Injective fun n => (⟨table n / 4096, small n⟩ : Fin (2 ^ 20)) := by
    intro n k same
    have quotient := congrArg Fin.val same
    have equal : table n = table k := by
      have hn := (page n).1
      have hk := (page k).1
      dsimp only at quotient
      omega
    have hk := here k
    rw [← equal] at hk
    exact apart (sound.unshared _ _ _ (here n) hk)
  have counted := Fintype.card_le_of_injective _ injective
  simp only [Fintype.card_fin] at counted
  omega

end Sapote.Paging
