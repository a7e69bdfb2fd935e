import Sapote.Paging.Refinement

/-!
The identity alias of a frame that a process will write through another address. The
kernel's own mapping of the frame loses its write permission; a large leaf around it
is split into the pages it stands for first. Restoring undoes both edits.
-/

namespace Sapote.Paging
open Frames Library
variable {pat : Word} {permissions : Permissions} {va d : Nat} {n : Nat} {saved : Word}

def aliasAccepted (permissions : Permissions) (s : TableState) (pat : Word) (pa : Nat) : Bool :=
  let (status, translation) := translateAddress s pa pat
  status = .ok && translation.physicalAddress = pa && translation.permissions = permissions &&
    !translation.user && translation.memoryType = .writeBack

/-- The status, and what is stored through `saved_entry`, `split_table` and `split`. -/
structure AliasResult where
  status : PagingStatus
  savedEntry : Word
  splitTable : Nat
  split : Bool
  state : TableState

def splitMask : Word :=
  pagePresent ||| pageWritable ||| pageUser ||| pageWriteThrough ||| pageCacheDisable |||
    pageAccessed ||| pageDirty ||| pageGlobal ||| pageNoExecute

def splitBase (original : Word) : Nat :=
  (original &&& pageFrameMask &&& ~~~BitVec.ofNat 64 (pagingHugePageSize - 1)).toNat

def splitLeaf (original : Word) (index : TableIndex) : Word :=
  BitVec.ofNat 64 (splitBase original + index * pagingPageSize) ||| (original &&& splitMask)

def fillSplit (tables : TableMemory) (table : Nat) (original : Word) : TableMemory :=
  fun a index => if a = table then splitLeaf original index else tables a index

def splitLink (table : Nat) (original : Word) : Word :=
  BitVec.ofNat 64 table ||| pagePresent ||| pageWritable ||| (original &&& pageUser)

def splitState (t : TableState) (pa a b : Nat) (original : Word) : TableState :=
  grafted t a (tableIndex pa 2) (splitLink b original) (fillSplit t.tables b original)

def narrowedLeaf (leaf : Word) : Word := (leaf &&& ~~~pageWritable) ||| pageNoExecute

def narrowLeaf (s : TableState) (pat : Word) (pa : Nat) (savedEntry : Word) (splitTable : Nat)
    (split : Bool) : AliasResult :=
  let found := entryFor s pa 1 false
  if found.status ≠ .ok then ⟨found.status, savedEntry, splitTable, split, s⟩
  else
    let leaf := entryAt s found.table pa 1
    if !present leaf then ⟨.processAliasState, savedEntry, splitTable, split, s⟩
    else
      let savedEntry := if split then savedEntry else leaf
      let s := writeEntry s found.table (tableIndex pa 1) (narrowedLeaf leaf)
      if !aliasAccepted pagingRead s pat pa then
        ⟨.processAliasState, savedEntry, splitTable, split, s⟩
      else ⟨.ok, savedEntry, splitTable, split, s⟩

def narrowIdentityAlias (s : TableState) (pat : Word) (pa : Nat) : AliasResult :=
  if !aliasAccepted pagingWrite s pat pa then ⟨.processAliasState, 0, 0, false, s⟩
  else
    let found := entryFor s pa 2 false
    if found.status ≠ .ok then ⟨found.status, 0, 0, false, s⟩
    else
      let original := entryAt s found.table pa 2
      if present original && huge original then
        let allocated := allocateTable s
        if allocated.status ≠ .ok then ⟨allocated.status, 0, 0, false, allocated.state⟩
        else
          narrowLeaf (splitState allocated.state pa found.table allocated.table original) pat pa
            original allocated.table true
      else narrowLeaf s pat pa 0 0 false

def restoreIdentityAlias (s : TableState) (pa : Nat) (savedEntry : Word) (splitTable : Nat)
    (split : Bool) : RangeResult :=
  let level := if split then 2 else 1
  let found := entryFor s pa level false
  if found.status ≠ .ok ∨ !present (entryAt s found.table pa level) then ⟨.processAliasState, s⟩
  else if split ∧ (huge (entryAt s found.table pa level) ∨
      frameOf (entryAt s found.table pa level) ≠ splitTable) then ⟨.processAliasState, s⟩
  else if split then
    ⟨.ok, releaseTable (writeEntry s found.table (tableIndex pa level) savedEntry) splitTable⟩
  else ⟨.ok, writeEntry s found.table (tableIndex pa level) savedEntry⟩

/-- Two reports that differ in the level of the leaf at most. -/
structure SameAccess (a b : PagingStatus × PagingTranslation) : Prop where
  status : a.1 = b.1
  physicalAddress : a.2.physicalAddress = b.2.physicalAddress
  permissions : a.2.permissions = b.2.permissions
  memoryType : a.2.memoryType = b.2.memoryType
  user : a.2.user = b.2.user

section
variable {original leaf : Word} {index : TableIndex}

theorem splitBase_spec (original : Word) :
    splitBase original % 2 ^ 21 = 0 ∧ splitBase original < pagePhysicalLimit := by
  have bit : ∀ n, (splitBase original).testBit n =
      (original &&& pageFrameMask &&& ~~~BitVec.ofNat 64 (2 ^ 21 - 1)).getLsbD n := fun n => rfl
  constructor
  · apply Nat.eq_of_testBit_eq
    intro n
    rw [Nat.testBit_mod_two_pow, bit, BitVec.getLsbD_and, BitVec.getLsbD_not, BitVec.getLsbD_ofNat,
      Nat.testBit_two_pow_sub_one, Nat.zero_testBit]
    by_cases low : n < 21
    · simp [low]
    · simp [low]
  · apply Nat.lt_pow_two_of_testBit
    intro n high
    rw [bit, BitVec.getLsbD_and, BitVec.getLsbD_and, getLsbD_pageFrameMask,
      decide_eq_false (by omega), Bool.and_false, Bool.false_and]

theorem splitLeaf_page (original : Word) (index : TableIndex) :
    PageAddress (splitBase original + index * pagingPageSize) := by
  obtain ⟨aligned, bound⟩ := splitBase_spec original
  unfold PageAddress pagePhysicalLimit pagingPageSize at *
  omega

/-- A small leaf keeps the flags that have the same place in both. -/
theorem splitLeaf_bit (outside : n < 12 ∨ 52 ≤ n) :
    (splitLeaf original index).getLsbD n = (original.getLsbD n && splitMask.getLsbD n) := by
  rw [splitLeaf, getLsbD_entry (splitLeaf_page original index) _ outside, BitVec.getLsbD_and]

theorem splitLeaf_rights : present (splitLeaf original index) = present original ∧
    writable (splitLeaf original index) = writable original ∧
    userBit (splitLeaf original index) = userBit original ∧
    noExecute (splitLeaf original index) = noExecute original := by
  simp only [present_eq, writable_eq, userBit_eq, noExecute_eq]
  refine ⟨?_, ?_, ?_, ?_⟩
  all_goals
    rw [splitLeaf_bit (by omega)]
    exact Bool.and_true _

theorem splitLink_eq (table : Nat) (original : Word) :
    splitLink table original = linkEntry (userBit original) table := by
  have one : original &&& pageUser = if userBit original then pageUser else 0#64 := by
    rw [userBit_eq, pageUser, ← BitVec.twoPow_eq, BitVec.and_twoPow]
  rw [splitLink, linkEntry, one]
  cases userBit original with
  | false => simp [BitVec.or_assoc]
  | true => simp [BitVec.or_assoc]

theorem narrowedLeaf_bit (small : n < 63) (other : n ≠ 1) :
    (narrowedLeaf leaf).getLsbD n = leaf.getLsbD n := by
  have masks : ∀ k < 63, k ≠ 1 →
      (~~~pageWritable).getLsbD k ∧ pageNoExecute.getLsbD k = false := by decide
  obtain ⟨kept, clear⟩ := masks n small other
  rw [narrowedLeaf, BitVec.getLsbD_or, BitVec.getLsbD_and, kept, clear, Bool.and_true, Bool.or_false]

theorem present_narrowedLeaf : present (narrowedLeaf leaf) = present leaf := by
  rw [present_eq, present_eq, narrowedLeaf_bit (by omega) (by omega)]

/-- The memory type of a small leaf depends on three bits. -/
theorem leafMemoryType_congr {e e' : Word}
    (same : ∀ n, n = 3 ∨ n = 4 ∨ n = 7 → e.getLsbD n = e'.getLsbD n) :
    leafMemoryType e 1 pat = leafMemoryType e' 1 pat := by
  have test : ∀ n, n = 3 ∨ n = 4 ∨ n = 7 →
      (e &&& 1#64 <<< n ≠ 0 ↔ e' &&& 1#64 <<< n ≠ 0) := by
    intro n one
    exact decide_eq_decide.mp ((testMask e (by omega)).trans
      ((same n one).trans (testMask e' (by omega)).symm))
  rw [leafMemoryType, leafMemoryType, leafPatIndex, leafPatIndex, if_pos rfl, pageWriteThrough,
    pageCacheDisable, pageHuge, if_congr (test 3 (by omega)) rfl rfl,
    if_congr (test 4 (by omega)) rfl rfl, if_congr (test 7 (by omega)) rfl rfl]

theorem splitLeaf_memoryType {other : TableIndex} :
    leafMemoryType (narrowedLeaf (splitLeaf original index)) 1 pat =
      leafMemoryType (splitLeaf original other) 1 pat := by
  apply leafMemoryType_congr
  intro n one
  rw [narrowedLeaf_bit (by omega) (by omega), splitLeaf_bit (by omega), splitLeaf_bit (by omega)]

/-- What a small leaf reports is what the large one reported. -/
theorem fillTranslation_split (word : va < 2 ^ 64)
    (type : leafMemoryType (splitLeaf original (tableIndex va 1)) 1 pat =
      leafMemoryType original 2 pat) (w x u : Bool) :
    SameAccess (.ok, fillTranslation (splitLeaf original (tableIndex va 1)) va 1 w x u pat)
      (.ok, fillTranslation original va 2 w x u pat) := by
  obtain ⟨aligned, bound⟩ := splitBase_spec original
  have page := splitLeaf_page original (tableIndex va 1)
  have flags : IsFlags (original &&& splitMask) := by
    rw [IsFlags, BitVec.and_assoc, show splitMask &&& pageFrameMask = 0#64 by decide]
    exact BitVec.and_zero
  have large : original &&& pageFrameMask &&& ~~~BitVec.ofNat 64 (2 ^ 21 - 1) =
      BitVec.ofNat 64 (splitBase original) &&& ~~~BitVec.ofNat 64 (2 ^ 21 - 1) := by
    rw [splitBase, BitVec.ofNat_toNat, BitVec.setWidth_eq]
    exact (by rw [BitVec.and_assoc (original &&& pageFrameMask), BitVec.and_self] :
      original &&& pageFrameMask &&& ~~~BitVec.ofNat 64 (2 ^ 21 - 1) &&&
        ~~~BitVec.ofNat 64 (2 ^ 21 - 1) = _).symm
  refine ⟨rfl, ?_, by simp only [fillTranslation, type], type, rfl⟩
  have small := frame_offset (k := 12) (by decide) page.1 (lt_trans page.2 (by decide)) word
  have whole := frame_offset (k := 21) (by decide) aligned (lt_trans bound (by decide)) word
  rw [← large] at whole
  rw [← frameMask_entry page flags] at small
  refine small.trans (.trans ?_ whole.symm)
  unfold tableIndex pagingPageSize
  dsimp only
  omega

end

section
variable {s n : TableState} {pat : Word} {pa : Nat}

/-- The translation of an address is decided by the slots on its path. -/
theorem translate_of_cells (hs : HierarchySound s) (hn : HierarchySound n) {x : Nat}
    (canonical : addressIsCanonical x)
    (same : ∀ d, d < 4 → n.cell (pathTo x (d + 1)) = s.cell (pathTo x (d + 1))) :
    translateAddress n x pat = translateAddress s x pat := by
  have users := userPath_congr same
  obtain ⟨d, e, deep, leaf⟩ | none := leaf_cases s x
  · rw [translateAddress_leaf hs pat canonical deep leaf, translateAddress_leaf hn pat canonical deep
      ((leaf_congr (same d deep)).trans leaf), users (d + 1) deep]
  · rw [translateAddress_unmapped hs pat canonical none, translateAddress_unmapped hn pat canonical
      fun d deep => (leaf_congr (same d deep)).trans (none d deep)]

theorem aliasAccepted_iff : aliasAccepted permissions s pat pa ↔
    let found := translateAddress s pa pat
    found.1 = .ok ∧ found.2.physicalAddress = pa ∧ found.2.permissions = permissions ∧
      found.2.user = false ∧ found.2.memoryType = .writeBack := by
  simp [aliasAccepted, and_assoc]

theorem aliasAccepted_canonical (accepted : aliasAccepted permissions s pat pa) :
    addressIsCanonical pa := by
  by_contra other
  have status := (aliasAccepted_iff.mp accepted).1
  rw [translateAddress, if_pos (by simpa using other)] at status
  cases status

theorem aliasAccepted_type (sound : HierarchySound s)
    (accepted : aliasAccepted permissions s pat pa) {e : Word} (deep : d < 4)
    (leaf : s.leaf (pathTo pa (d + 1)) = some e) : leafMemoryType e (4 - d) pat = .writeBack := by
  have type := (aliasAccepted_iff.mp accepted).2.2.2.2
  rw [translateAddress_leaf sound pat (aliasAccepted_canonical accepted) deep leaf] at type
  exact type

/-- A successful second half rewrites the page's leaf. -/
theorem narrowLeaf_ok (sound : HierarchySound s) {table : Nat} {split : Bool}
    (ok : (narrowLeaf s pat pa saved table split).status = .ok) :
    ∃ leaf n, s.cell (pathTo pa 4) = some leaf ∧ present leaf ∧
      Rewritten s n (pathTo pa 4) (narrowedLeaf leaf) ∧ aliasAccepted pagingRead n pat pa ∧
      narrowLeaf s pat pa saved table split =
        ⟨.ok, if split then saved else leaf, table, split, n⟩ := by
  rw [narrowLeaf] at ok ⊢
  by_cases walked : (entryFor s pa 1 false).status = .ok
  swap
  · rw [if_pos walked] at ok
    exact absurd ok walked
  obtain ⟨a, here, result⟩ := entryFor_ok (le_refl 1) (by omega) walked
  rw [result, if_neg (by simp), entryAt] at ok ⊢
  by_cases there : present (s.tables a (tableIndex pa 1))
  · rw [if_neg (by simp [there])] at ok ⊢
    by_cases accepted : aliasAccepted pagingRead (writeEntry s a (tableIndex pa 1)
        (narrowedLeaf (s.tables a (tableIndex pa 1)))) pat pa
    · rw [if_neg (by simp [accepted])]
      refine ⟨_, _, cell_cons_of here, there, ?_, accepted, rfl⟩
      refine rewritten_of sound (.inl rfl) here (node_four pa) (pageView_bottom _) fun absent => ?_
      rw [present_narrowedLeaf, there] at absent
      cases absent
    · rw [if_pos (by simpa using accepted)] at ok
      cases ok
  · rw [if_pos (by simpa using there)] at ok
    cases ok

/-- Without a split, restoring writes the leaf back. -/
theorem restore_leaf (sound : HierarchySound n) {entry saved : Word} {table : Nat}
    (slot : n.cell (pathTo pa 4) = some entry) (there : present entry)
    (stored : present saved) :
    ∃ r, restoreIdentityAlias n pa saved table false = ⟨.ok, r⟩ ∧
      Rewritten n r (pathTo pa 4) saved := by
  change n.cell (tableIndex pa 1 :: pathTo pa 3) = some entry at slot
  obtain ⟨a, here, rfl⟩ := cell_cons_eq_some.mp slot
  refine ⟨_, ?_, rewritten_of sound (.inl rfl) here (node_four pa) (pageView_bottom _)
    fun absent => ?_⟩
  · rw [restoreIdentityAlias]
    simp only [Bool.false_eq_true, if_false, entryFor_node (le_refl 1) (by omega) here, entryAt]
    rw [if_neg (by simpa using there), if_neg (by simp)]
  · rw [stored] at absent
    cases absent

/-- After a split, restoring takes the table off its slot and gives it back. -/
theorem restore_table (sound : HierarchySound n) {b : Nat} (child : n.node (pathTo pa 3) = some b)
    (leaf : pageView 2 saved = .leaf) :
    ∃ r, restoreIdentityAlias n pa saved b true = ⟨.ok, r⟩ ∧ Edits n r ∧
      (∀ q, r.node q = if q = pathTo pa 3 then none else n.node q) ∧
      ∀ j q, r.cell (j :: q) = if j :: q = pathTo pa 3 then some saved
        else if q = pathTo pa 3 then none else n.cell (j :: q) := by
  change n.node (tableIndex pa 2 :: pathTo pa 2) = some b at child
  obtain ⟨a, here, link⟩ := node_cons_eq_some.mp child
  obtain ⟨there, inner, -, frame⟩ := pageView_table link
  have prunes : Prunes n (pathTo pa 2) a (tableIndex pa 2) b saved := by
    refine ⟨sound, here, link, ?_, fun absent => ?_, fun j => pageView_bottom _⟩
    · rw [length_pathTo, leaf]
      rfl
    · rw [(pageView_eq_leaf leaf).1] at absent
      cases absent
  refine ⟨_, ?_, prunes.edits, prunes.node, prunes.cell⟩
  rw [restoreIdentityAlias]
  simp only [if_true, entryFor_node (show 1 ≤ 2 by omega) (by omega) here, entryAt]
  rw [if_neg (by simpa using there), if_neg (by simp [inner, frame])]
  rfl

abbrev Splits (s t : TableState) (pa a b : Nat) (original : Word) : Prop :=
  Grafts s t (pathTo pa 2) a (tableIndex pa 2) b (splitLink b original)
    (fillSplit t.tables b original)

theorem split_grafts (sound : HierarchySound s) {a b : Nat} {t : TableState}
    (here : s.node (pathTo pa 2) = some a) {original : Word}
    (slot : s.tables a (tableIndex pa 2) = original) (there : present original)
    (large : huge original) (adopts : Adopts s b t) : Splits s t pa a b original := by
  have page := adopts.held.pageAddress adopts.supply
  obtain ⟨-, -, free, run, -⟩ := linkEntry_bits (userBit original) page
  refine ⟨sound, adopts, here, ?_, ?_, ?_, ?_, fun j => pageView_bottom _, ?_⟩
  · rw [slot, pageView_leaf there (.inr large)]
    rfl
  · rw [splitLink_eq]
    exact pageView_linkEntry _ page (by simp)
  · rw [splitLink_eq]
    exact ⟨free, run⟩
  · intro c other
    funext j
    simp only [fillSplit, if_neg other, adopts.tables, zeroTable]
  · intro j absent
    rw [fillSplit, if_pos rfl, splitLeaf_rights.1, there] at absent
    cases absent

theorem narrowIdentityAlias_ok (sound : HierarchySound s)
    (ok : (narrowIdentityAlias s pat pa).status = .ok) :
    aliasAccepted pagingWrite s pat pa ∧
      (narrowIdentityAlias s pat pa = narrowLeaf s pat pa 0 0 false ∨
        ∃ a b t original, Splits s t pa a b original ∧ s.leaf (pathTo pa 3) = some original ∧
          narrowIdentityAlias s pat pa =
            narrowLeaf (splitState t pa a b original) pat pa original b true) := by
  rw [narrowIdentityAlias] at ok ⊢
  by_cases accepted : aliasAccepted pagingWrite s pat pa
  swap
  · rw [if_pos (by simpa using accepted)] at ok
    cases ok
  rw [if_neg (by simp [accepted])] at ok ⊢
  refine ⟨accepted, ?_⟩
  by_cases walked : (entryFor s pa 2 false).status = .ok
  swap
  · rw [if_pos walked] at ok
    exact absurd ok walked
  obtain ⟨a, here, result⟩ := entryFor_ok (by omega) (by omega) walked
  rw [result, if_neg (by simp), entryAt] at ok ⊢
  by_cases large : (present (s.tables a (tableIndex pa 2)) &&
      huge (s.tables a (tableIndex pa 2)))
  · rw [if_pos large] at ok ⊢
    rw [Bool.and_eq_true] at large
    obtain ⟨-, starved⟩ | ⟨b, t, drawn, adopts⟩ := allocateTable_cases sound.supply
    · rw [starved, if_pos (by simp)] at ok
      cases ok
    · rw [drawn, if_neg (by simp)]
      exact .inr ⟨a, b, t, _, split_grafts sound here rfl large.1 large.2 adopts,
        leaf_pathTo.mpr ⟨cell_cons_of here, pageView_leaf large.1 (.inr large.2)⟩, rfl⟩
  · rw [if_neg large]
    exact .inl rfl

theorem pathTo_ne {x y e : Nat} (apart : d ≠ e) : pathTo x d ≠ pathTo y e := by
  intro same
  have length := congrArg List.length same
  simp only [length_pathTo] at length
  exact apart length

/-- Paths that part stay apart. -/
theorem pathTo_apart {e : Nat} (apart : pathTo va d ≠ pathTo pa d) (deeper : d ≤ e) (f : Nat) :
    pathTo va f ≠ pathTo pa e := by
  intro same
  by_cases length : f = e
  · subst length
    exact apart (spine_congr fun j small => spine_inj same j (by omega))
  · exact pathTo_ne length same

section
variable {t r : TableState} {a b : Nat} {original entry : Word} (g : Splits s t pa a b original)
  (large : s.leaf (pathTo pa 3) = some original)
  (w : Rewritten (splitState t pa a b original) n (pathTo pa 4) entry)

include g

theorem split_cell (va d : Nat) : (splitState t pa a b original).cell (pathTo va (d + 1)) =
    if pathTo va (d + 1) = pathTo pa 3 then some (splitLink b original)
    else if pathTo va d = pathTo pa 3 then some (splitLeaf original (tableIndex va (4 - d)))
    else s.cell (pathTo va (d + 1)) := by
  refine (g.cell (tableIndex va (4 - d)) (pathTo va d)).trans ?_
  simp only [fillSplit, if_true]
  rfl

include w

/-- Outside the region that was split nothing changed. -/
theorem split_far (far : pathTo va 3 ≠ pathTo pa 3) (d : Nat) :
    n.cell (pathTo va (d + 1)) = s.cell (pathTo va (d + 1)) := by
  rw [w.cell, if_neg (pathTo_apart far (by omega) _), split_cell g,
    if_neg (pathTo_apart far (by omega) _), if_neg (pathTo_apart far (by omega) _)]

include large

/-- Inside it the small leaves report what the large one did. -/
theorem split_near (sound : HierarchySound s) (before : aliasAccepted pagingWrite s pat pa)
    (after : aliasAccepted pagingRead n pat pa)
    (narrowed : entry = narrowedLeaf (splitLeaf original (tableIndex pa 1)))
    (canonical : addressIsCanonical va) (near : pathTo va 3 = pathTo pa 3)
    (other : pathTo va 4 ≠ pathTo pa 4) :
    SameAccess (translateAddress n va pat) (translateAddress s va pat) := by
  obtain ⟨there, writes, user, runs⟩ := @splitLeaf_rights original (tableIndex va 1)
  have there' := leaf_present large
  have slot : n.cell (pathTo va 4) = some (splitLeaf original (tableIndex va 1)) := by
    rw [w.cell, if_neg other, split_cell g, if_neg (pathTo_ne (by decide)), if_pos near]
  have link : n.cell (pathTo va 3) = some (splitLink b original) := by
    rw [w.cell, if_neg (pathTo_ne (by decide)), split_cell g, if_pos near]
  have above : userPath n va 2 = userPath s va 2 := by
    refine userPath_congr (m := 2) (fun d high => ?_) 2 (le_refl 2)
    rw [w.cell, if_neg (pathTo_ne (by omega)), split_cell g, if_neg (pathTo_ne (by omega)),
      if_neg (pathTo_ne (by omega))]
  have leaf : n.leaf (pathTo va 4) = some (splitLeaf original (tableIndex va 1)) :=
    leaf_pathTo.mpr ⟨slot, pageView_leaf (there.trans there') (.inl (le_refl 3))⟩
  have type : leafMemoryType (splitLeaf original (tableIndex va 1)) 1 pat =
      leafMemoryType original 2 pat := by
    have here : n.cell (pathTo pa 4) = some entry := by rw [w.cell, if_pos rfl]
    have bit : present entry := by
      rw [narrowed, present_narrowedLeaf, splitLeaf_rights.1, there']
    have small := aliasAccepted_type w.edits.sound after (d := 3) (by omega)
      (leaf_pathTo.mpr ⟨here, pageView_leaf bit (.inl (le_refl 3))⟩)
    rw [narrowed, splitLeaf_memoryType] at small
    exact small.trans (aliasAccepted_type sound before (d := 2) (by omega) large).symm
  rw [translateAddress_leaf w.edits.sound pat canonical (d := 3) (by omega) leaf,
    translateAddress_leaf sound pat canonical (d := 2) (by omega) (near ▸ large), writes, runs]
  have users : userPath n va 4 = userPath s va 3 := by
    have page := g.adopts.held.pageAddress g.adopts.supply
    change (userPath n va 2 && (n.cell (pathTo va 3)).any userBit &&
      (n.cell (pathTo va 4)).any userBit) = (userPath s va 2 && (s.cell (pathTo va 3)).any userBit)
    rw [above, slot, link, near, (leaf_pathTo.mp large).1,
      Option.any_some, Option.any_some, Option.any_some, user, splitLink_eq,
      (linkEntry_bits _ page).2.2.2.2, Bool.and_assoc, Bool.and_self]
  rw [users]
  exact fillTranslation_split (canonical_word canonical) type _ _ _

/-- Taking the table off again leaves the tree as it was. -/
theorem split_undone : ∃ r, restoreIdentityAlias n pa original b true = ⟨.ok, r⟩ ∧
    Edits s r ∧ (∀ p, r.node p = s.node p) ∧ ∀ p, r.cell p = s.cell p := by
  have gone : s.node (pathTo pa 3) = none :=
    node_none_of_cell (by omega) (leaf_pathTo.mp large).1 (leaf_child large)
  have child : n.node (pathTo pa 3) = some b := by
    rw [w.node, splitState, g.node]
    exact if_pos rfl
  obtain ⟨r, result, edits, node, cell⟩ :=
    restore_table w.edits.sound child (leaf_pathTo.mp large).2
  refine ⟨r, result, (g.edits.trans w.edits).trans edits, fun p => ?_, fun p => ?_⟩
  · rw [node, w.node, splitState, g.node]
    change (if p = pathTo pa 3 then none else if p = pathTo pa 3 then some b else s.node p) = _
    split
    · next here => rw [here, gone]
    · rfl
  · cases p with
    | nil => rfl
    | cons j q =>
      rw [cell, w.cell, splitState, g.cell]
      change (if j :: q = pathTo pa 3 then _ else if q = pathTo pa 3 then _ else
        if _ then _ else if j :: q = pathTo pa 3 then _ else if q = pathTo pa 3 then _ else _) = _
      split
      · next here =>
            rw [here, (leaf_pathTo.mp large).1]
      by_cases below : q = pathTo pa 3
      · rw [if_pos below, below]
        exact (cell_cons_eq_none.mpr gone).symm
      · rw [if_neg below, if_neg below, if_neg]
        exact fun same => below (List.cons.inj same).2

end

end

/-- What restoring finds and leaves, and what the narrowed hierarchy reports. -/
theorem narrow_restore_cases {s : TableState} (sound : HierarchySound s) {pa : Nat}
    (ok : (narrowIdentityAlias s pat pa).status = .ok) :
    let n := narrowIdentityAlias s pat pa
    aliasAccepted pagingRead n.state pat pa ∧
      (∀ va, addressIsCanonical va → pathTo va 4 ≠ pathTo pa 4 →
        SameAccess (translateAddress n.state va pat) (translateAddress s va pat)) ∧
      ∃ r, restoreIdentityAlias n.state pa n.savedEntry n.splitTable n.split = ⟨.ok, r⟩ ∧
        Edits s r ∧ (∀ p, r.node p = s.node p) ∧ ∀ p, r.cell p = s.cell p := by
  obtain ⟨before, plain | ⟨a, b, t, original, g, large, split⟩⟩ := narrowIdentityAlias_ok sound ok
  · rw [plain] at ok ⊢
    obtain ⟨leaf, n, slot, there, w, after, result⟩ := narrowLeaf_ok sound ok
    obtain ⟨r, undone, back⟩ := @restore_leaf n pa w.edits.sound (narrowedLeaf leaf) leaf 0
      (by rw [w.cell, if_pos rfl]) (present_narrowedLeaf.trans there) there
    rw [result]
    refine ⟨after, fun va canonical apart => ?_, r, undone, w.edits.trans back.edits,
      fun p => (back.node p).trans (w.node p), fun p => ?_⟩
    · rw [translate_of_cells sound w.edits.sound canonical fun d _ => by
        rw [w.cell, if_neg (pathTo_apart apart (le_refl 4) _)]]
      exact ⟨rfl, rfl, rfl, rfl, rfl⟩
    · rw [back.cell, w.cell]
      split
      · next here => rw [here, slot]
      · rfl
  · rw [split] at ok ⊢
    obtain ⟨leaf, n, slot, there, w, after, result⟩ := narrowLeaf_ok (s := splitState t pa a b original) g.sound_grafted ok
    have filled : leaf = splitLeaf original (tableIndex pa 1) := by
      rw [split_cell g, if_neg (pathTo_ne (by decide)), if_pos rfl] at slot
      exact (Option.some.inj slot).symm
    rw [result]
    refine ⟨after, fun va canonical apart => ?_, split_undone g large w⟩
    by_cases near : pathTo va 3 = pathTo pa 3
    · exact split_near g large w sound before after (by rw [filled]) canonical near apart
    · rw [translate_of_cells sound w.edits.sound canonical fun d _ => split_far g w near d]
      exact ⟨rfl, rfl, rfl, rfl, rfl⟩

/-- Narrowing makes one page read-only and touches no other; restoring brings back
every slot of the tree, its table count and the allocated frames. -/
theorem narrow_restore_identity_alias {s : TableState} (sound : HierarchySound s) {pa : Nat}
    (ok : (narrowIdentityAlias s pat pa).status = .ok) :
    let n := narrowIdentityAlias s pat pa
    let r := restoreIdentityAlias n.state pa n.savedEntry n.splitTable n.split
    ((translateAddress n.state pa pat).1 = .ok ∧
      (translateAddress n.state pa pat).2.physicalAddress = pa ∧
      (translateAddress n.state pa pat).2.permissions = pagingRead ∧
      (translateAddress n.state pa pat).2.memoryType = .writeBack) ∧
    (∀ va, addressIsCanonical va = true → va / pagingPageSize ≠ pa / pagingPageSize →
      SameAccess (translateAddress n.state va pat) (translateAddress s va pat)) ∧
    r.status = .ok ∧ (∀ p, r.state.node p = s.node p) ∧ (∀ p, r.state.cell p = s.cell p) ∧
    r.state.hierarchy.tableFrames = s.hierarchy.tableFrames ∧
    ∀ f, r.state.frames.used f = s.frames.used f := by
  obtain ⟨after, others, r, undone, edits, node, cell⟩ := narrow_restore_cases sound ok
  obtain ⟨status, physical, permissions, -, type⟩ := aliasAccepted_iff.mp after
  have canonical := aliasAccepted_canonical after
  dsimp only
  rw [undone]
  refine ⟨⟨status, physical, permissions, type⟩, fun va other apart => others va other ?_, rfl,
    node, cell, edits.tableFrames_eq sound node, edits.used_eq sound node⟩
  exact fun same => apart ((pathTo_eq_iff (show 1 ≤ 1 ∧ 1 ≤ 4 by decide) other canonical).mp same)

def aliasState : TableState :=
  (rangeStep pagingTestPat (arenaState smallStart.2)
    (.map 0x200000 0x200000 0x200000 pagingWrite true)).state

theorem aliasState_narrowed :
    (narrowIdentityAlias aliasState pagingTestPat 0x201000).status = .ok := by
  decide +kernel

theorem narrow_restore_large_leaf :
    (narrowIdentityAlias aliasState pagingTestPat 0x201000).split = true ∧
      SameAccess (translateAddress (narrowIdentityAlias aliasState pagingTestPat 0x201000).state
        0x202000 pagingTestPat) (translateAddress aliasState 0x202000 pagingTestPat) := by
  have sound : HierarchySound aliasState := (rangeStep_edits pagingTestPat
    (arenaState_empty smallStart_sound).sound _).sound
  exact ⟨by decide +kernel, (narrow_restore_identity_alias sound aliasState_narrowed).2.1 0x202000
    (by decide) (by decide)⟩

/-- The rest of the page is narrowed with its first address. -/
theorem narrowing_reaches_the_page :
    (narrowIdentityAlias aliasState pagingTestPat 0x201000).status = .ok ∧
      addressIsCanonical 0x201001 = true ∧
      (translateAddress aliasState 0x201001 pagingTestPat).2.permissions = pagingWrite ∧
      (translateAddress (narrowIdentityAlias aliasState pagingTestPat 0x201000).state 0x201001
        pagingTestPat).2.permissions = pagingRead :=
  ⟨aliasState_narrowed, by decide, by decide +kernel, by decide +kernel⟩

end Sapote.Paging
