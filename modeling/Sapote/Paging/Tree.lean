import Sapote.Paging.Hierarchy
import Sapote.Frames.Ownership

/-!
A hierarchy as a radix tree. The tables come from a supply, the frame allocator
or a private arena, that never hands out a frame twice; that is what keeps the
tree unshared. Every operation on tables is a sequence of three edits: change a
leaf, hang a fresh table on a slot, take a table off its slot and release it.
-/

namespace Sapote.Paging
open Frames Library
variable {s t : TableState} {e : Word} {d a f : Nat} {p : List TableIndex}

/-- What an entry is at a depth: the root is at depth 0, page tables at depth 3,
where every present entry is a leaf. -/
def pageView (depth : Nat) (entry : Word) : EntryView Nat :=
  if !present entry then .absent
  else if 3 ≤ depth ∨ huge entry then .leaf
  else .table (frameOf entry)

def TableState.node (s : TableState) (p : List TableIndex) : Option Nat :=
  Library.node pageView s.tables s.hierarchy.root p

def TableState.cell (s : TableState) (p : List TableIndex) : Option Word :=
  Library.cell pageView s.tables s.hierarchy.root p

def TableState.tableSet (s : TableState) : Set Nat :=
  Library.tables pageView s.tables s.hierarchy.root

/-- The frame at `a` is one this kind of hierarchy has drawn: an allocated single
frame, or a used page of its arena. -/
def Held (frames : FrameAllocator) (h : PageHierarchy) (a : Nat) : Prop :=
  if h.arenaCapacity = 0 then
    ∃ f, a = f * sapotePageSize ∧ frames.eligible f ∧ frames.used f ∧
      ∀ i, (frames.contiguousRecords i).holds f = false
  else ∃ n < h.arenaUsed, a = h.arenaBase + n * pagingPageSize

/-- A supply in order: the frame allocator's invariant, and an arena that lies in
the identity window. -/
structure SupplySound (s : TableState) : Prop where
  frames : FrameSound s.frames
  arena : s.hierarchy.arenaCapacity ≠ 0 → s.hierarchy.arenaBase % pagingPageSize = 0 ∧
    s.hierarchy.arenaUsed ≤ s.hierarchy.arenaCapacity ∧
    s.hierarchy.arenaBase + s.hierarchy.arenaCapacity * pagingPageSize ≤ earlyPhysicalLimit

def supply (s : TableState) : Nat :=
  if s.hierarchy.arenaCapacity = 0 then s.frames.stats.freeFrames
  else s.hierarchy.arenaCapacity - s.hierarchy.arenaUsed

theorem Held.page (sound : SupplySound s) (held : Held s.frames s.hierarchy a) :
    a % pagingPageSize = 0 ∧ a < earlyPhysicalLimit := by
  unfold Held at held
  by_cases arena : s.hierarchy.arenaCapacity = 0
  · rw [if_pos arena] at held
    obtain ⟨f, same, eligible, -⟩ := held
    have window := sound.frames.eligible_bound f eligible
    have limit := frameCount_page
    unfold pagingPageSize
    unfold sapotePageSize at *
    omega
  · rw [if_neg arena] at held
    obtain ⟨aligned, used, inside⟩ := sound.arena arena
    unfold pagingPageSize at *
    omega

theorem Held.pageAddress (sound : SupplySound s) (held : Held s.frames s.hierarchy a) :
    PageAddress a := by
  obtain ⟨aligned, low⟩ := held.page sound
  exact ⟨aligned, lt_trans low (by decide)⟩

theorem held_frame_iff {frames : FrameAllocator} {h : PageHierarchy} (drawn : h.arenaCapacity = 0) :
    Held frames h (f * sapotePageSize) ↔ frames.eligible f ∧
      frames.used f ∧ ∀ i, (frames.contiguousRecords i).holds f = false := by
  rw [Held, if_pos drawn]
  constructor
  · rintro ⟨g, same, held⟩
    rwa [Nat.eq_of_mul_eq_mul_right (by decide) same]
  · exact fun held => ⟨f, rfl, held⟩

structure Adopts (s : TableState) (a : Nat) (t : TableState) : Prop where
  supply : SupplySound t
  tables : t.tables = zeroTable s.tables a
  held : Held t.frames t.hierarchy a
  fresh : ¬Held s.frames s.hierarchy a
  kept : ∀ b, Held s.frames s.hierarchy b → Held t.frames t.hierarchy b
  hierarchy : t.hierarchy = { s.hierarchy with
    arenaUsed := t.hierarchy.arenaUsed
    tableFrames := s.hierarchy.tableFrames + 1 }
  eligible : t.frames.eligible = s.frames.eligible
  records : t.frames.contiguousRecords = s.frames.contiguousRecords
  used : ∀ f, t.frames.used f ↔ s.frames.used f ∨
    s.hierarchy.arenaCapacity = 0 ∧ f * sapotePageSize = a
  drawn : Paging.supply s = Paging.supply t + 1

theorem adoptTable_ok (low : a < earlyPhysicalLimit) :
    adoptTable s a = ⟨.ok, a, { s with
      tables := zeroTable s.tables a
      hierarchy.tableFrames := s.hierarchy.tableFrames + 1 }⟩ := by
  unfold adoptTable
  rw [if_neg (by omega)]

/-- `allocate_table` fails only when the supply is empty, and then changes nothing. -/
abbrev Allocates (s : TableState) : Prop :=
  (supply s = 0 ∧ allocateTable s = ⟨.outOfFrames, 0, s⟩) ∨
    ∃ a t, allocateTable s = ⟨.ok, a, t⟩ ∧ Adopts s a t

theorem allocateTable_arena (sound : SupplySound s) (arena : s.hierarchy.arenaCapacity ≠ 0) :
    Allocates s := by
  obtain ⟨aligned, bounded, inside⟩ := sound.arena arena
  simp only [Allocates, allocateTable]
  rw [if_pos arena]
  split
  · refine .inl ⟨?_, rfl⟩
    rw [supply, if_neg arena]
    omega
  have low : s.hierarchy.arenaBase + s.hierarchy.arenaUsed * pagingPageSize <
      earlyPhysicalLimit := by
    unfold pagingPageSize at *
    omega
  rw [adoptTable_ok low]
  refine .inr ⟨_, _, rfl, ⟨⟨sound.frames, fun _ => ⟨aligned, ?_, inside⟩⟩, rfl, ?_, ?_, ?_,
    rfl, rfl, rfl, ?_, ?_⟩⟩
  · dsimp only
    omega
  · rw [Held, if_neg arena]
    exact ⟨s.hierarchy.arenaUsed, Nat.lt_succ_self _, rfl⟩
  · rw [Held, if_neg arena]
    rintro ⟨n, small, same⟩
    unfold pagingPageSize at same
    omega
  · intro b before
    rw [Held, if_neg arena] at before ⊢
    obtain ⟨n, small, same⟩ := before
    exact ⟨n, Nat.lt_succ_of_lt small, same⟩
  · intro f
    simp only [arena, false_and, or_false]
  · rw [supply, supply, if_neg arena, if_neg arena]
    dsimp only
    omega

theorem allocateTable_frames (sound : SupplySound s) (drawn : s.hierarchy.arenaCapacity = 0) :
    Allocates s := by
  simp only [Allocates, allocateTable]
  rw [if_neg (not_not.mpr drawn)]
  obtain refused | ⟨f, -, address, takes, -, records⟩ := frameAllocate_cases sound.frames true
  · obtain ⟨status, address, same⟩ := refused
    rw [address, same]
    refine .inl ⟨?_, rfl⟩
    rw [supply, if_pos drawn, sound.frames.counted, recountedStats_eq]
    exact population_eq_zero.mpr (frameAllocate_refused sound.frames status)
  rw [address]
  have self : inRun f 1 f := inRun_iff.mpr ⟨le_refl f, Nat.lt_succ_self f⟩
  have free := takes.free f self
  have window : f < frameCount := takes.bound
  have low : f * sapotePageSize < earlyPhysicalLimit := by
    have limit := frameCount_page
    unfold sapotePageSize at *
    omega
  dsimp only
  rw [adoptTable_ok low]
  have next := frameSound_step sound.frames (.allocate true)
  have parts := free_iff.mp free
  refine .inr ⟨_, _, rfl, ⟨⟨next, fun arena => absurd drawn arena⟩, rfl, ?_, ?_, ?_, rfl,
    takes.eligible, records, ?_, ?_⟩⟩
  · rw [Held, if_pos drawn]
    refine ⟨f, rfl, ?_, ?_, ?_⟩
    · rw [takes.eligible]
      exact parts.1
    · rw [takes.used, self, Bool.or_true]
    · intro i
      rw [records]
      apply Bool.eq_false_iff.mpr
      intro held
      rw [sound.frames.held_not_free held] at free
      cases free
  · rw [Held, if_pos drawn]
    rintro ⟨g, same, -, used, -⟩
    rw [← page_injective same, parts.2] at used
    cases used
  · intro b before
    rw [Held, if_pos drawn] at before ⊢
    obtain ⟨g, same, eligible, used, single⟩ := before
    refine ⟨g, same, ?_, ?_, ?_⟩
    · rw [takes.eligible]
      exact eligible
    · rw [takes.used, used, Bool.true_or]
    · rw [records]
      exact single
  · intro g
    rw [takes.used, Bool.or_eq_true, inRun_one, decide_eq_true_eq]
    exact or_congr_right ⟨fun same => ⟨drawn, by rw [same]⟩, fun same => page_injective same.2⟩
  · have room := takes.count_le sound.frames.counted
    rw [supply, supply, if_pos drawn, if_pos drawn, takes.stats]
    dsimp only
    rw [sizeSub_of_le room]
    omega

theorem allocateTable_cases (sound : SupplySound s) : Allocates s := by
  by_cases drawn : s.hierarchy.arenaCapacity = 0
  · exact allocateTable_frames sound drawn
  · exact allocateTable_arena sound drawn

structure Releases (s : TableState) (b : Nat) (t : TableState) : Prop where
  supply : SupplySound t
  tables : t.tables = s.tables
  kept : ∀ c, c ≠ b → Held s.frames s.hierarchy c → Held t.frames t.hierarchy c
  hierarchy : t.hierarchy = { s.hierarchy with
    tableFrames := sizeSub s.hierarchy.tableFrames 1 }
  eligible : t.frames.eligible = s.frames.eligible
  records : t.frames.contiguousRecords = s.frames.contiguousRecords
  used : ∀ f, t.frames.used f ↔ s.frames.used f ∧
    ¬(s.hierarchy.arenaCapacity = 0 ∧ f * sapotePageSize = b)

theorem releaseTable_releases (sound : SupplySound s) {b : Nat}
    (held : Held s.frames s.hierarchy b) : Releases s b (releaseTable s b) := by
  by_cases drawn : s.hierarchy.arenaCapacity = 0
  · rw [Held, if_pos drawn] at held
    obtain ⟨f, same, eligible, used, single⟩ := held
    have window := sound.frames.eligible_bound f eligible
    have ok : (frameRelease s.frames b).1 = .ok := by
      have limit := frameCount_page
      have frame : b / sapotePageSize = f := by
        rw [same]
        exact Nat.mul_div_cancel _ (by decide)
      have low : ¬earlyPhysicalLimit ≤ b := by
        unfold sapotePageSize at *
        omega
      have free : frameInContiguousAllocation s.frames f = false := by
        apply List.any_eq_false.mpr
        intro i _
        rw [single i]
        nofun
      simp only [frameRelease, frame, sound.frames.initialized, eligible, used, free]
      rw [if_neg (by decide), if_neg (by rw [same]; simp), if_neg low]
      rfl
    obtain refused | given := frameRelease_cases sound.frames b
    · exact absurd ok refused.1
    obtain ⟨g, -, here, gives, -, initialized, records⟩ := given
    have next : FrameSound (frameRelease s.frames b).2 :=
      frameSound_step sound.frames (.release b)
    have frames : (releaseTable s b).frames = (frameRelease s.frames b).2 := if_pos drawn
    refine ⟨⟨?_, sound.arena⟩, rfl, ?_, rfl, ?_, ?_, ?_⟩
    all_goals rw [frames]
    · exact next
    · intro c other before
      change Held _ s.hierarchy c
      rw [Held, if_pos drawn] at before ⊢
      obtain ⟨k, named, eligible', used', single'⟩ := before
      refine ⟨k, named, ?_, ?_, ?_⟩
      · rw [gives.eligible]
        exact eligible'
      · have different : inRun g 1 k = false := by
          rw [inRun_one, decide_eq_false_iff_not]
          intro equal
          apply other
          rw [named, here, equal]
        rw [gives.used, used', different]
        rfl
      · rw [records]
        exact single'
    · exact gives.eligible
    · exact records
    · intro k
      rw [gives.used, Bool.and_eq_true, Bool.not_eq_true', inRun_one,
        decide_eq_false_iff_not]
      apply and_congr_right
      intro _
      constructor
      · intro different equal
        exact different (page_injective (equal.2.trans here))
      · intro different equal
        exact different ⟨drawn, by rw [equal, here]⟩
  · have frames : (releaseTable s b).frames = s.frames := if_neg drawn
    refine ⟨⟨?_, sound.arena⟩, rfl, ?_, rfl, ?_, ?_, ?_⟩
    all_goals rw [frames]
    · exact sound.frames
    · exact fun c _ before => before
    · exact fun f => ⟨fun used => ⟨used, fun equal => drawn equal.1⟩, fun used => used.1⟩

/-- The invariant of a hierarchy: an unshared tree of held tables, empty slots
zero, links that restrict nothing, and the table count. -/
structure HierarchySound (s : TableState) : Prop where
  supply : SupplySound s
  unshared : Unshared pageView s.tables s.hierarchy.root
  held : ∀ p a, s.node p = some a → Held s.frames s.hierarchy a
  vacant : ∀ p a i, s.node p = some a → present (s.tables a i) = false → s.tables a i = 0
  links : ∀ p a i b, s.node p = some a → pageView p.length (s.tables a i) = .table b →
    writable (s.tables a i) ∧ noExecute (s.tables a i) = false
  counted : s.hierarchy.tableFrames = s.tableSet.ncard

theorem HierarchySound.finite (sound : HierarchySound s) : s.tableSet.Finite := by
  apply (Set.finite_lt_nat earlyPhysicalLimit).subset
  rintro a ⟨p, hp⟩
  exact ((sound.held p a hp).page sound.supply).2

theorem pageView_absent (absent : present e = false) : pageView d e = .absent := by
  unfold pageView
  rw [absent]
  rfl

theorem pageView_zero (d : Nat) : pageView d 0 = .absent := pageView_absent (by decide)

theorem pageView_child_absent (absent : present e = false) : (pageView d e).child = none := by
  rw [pageView_absent absent]
  rfl

theorem pageView_table (h : pageView d e = .table a) :
    present e ∧ huge e = false ∧ d < 3 ∧ frameOf e = a := by
  unfold pageView at h
  split at h
  · cases h
  next here =>
  split at h
  · cases h
  next inner =>
  cases h
  refine ⟨by simpa using here, ?_, by omega, rfl⟩
  exact Bool.eq_false_iff.mpr fun large => inner (.inr large)

theorem pageView_of_table (here : present e) (inner : huge e = false) (shallow : d < 3) :
    pageView d e = .table (frameOf e) := by
  unfold pageView
  rw [here, inner, if_neg (by decide), if_neg]
  rintro (deep | large)
  · omega
  · cases large

/-- A present entry that is no table is a leaf. -/
theorem pageView_leaf (here : present e) (leaf : 3 ≤ d ∨ huge e) :
    pageView d e = .leaf := by
  unfold pageView
  rw [here, if_neg (by decide), if_pos leaf]

theorem pageView_linkEntry (user : Bool) {table : Nat} (page : PageAddress table)
    (shallow : d < 3) : pageView d (linkEntry user table) = .table table := by
  obtain ⟨here, inner, -⟩ := linkEntry_bits user page
  rw [pageView_of_table here inner shallow, frameOf_linkEntry user page]

theorem node_depth (h : s.node p = some a) : p.length ≤ 3 := by
  cases p with
  | nil => exact Nat.zero_le _
  | cons i p =>
    obtain ⟨b, -, seen⟩ := node_cons_eq_some.mp h
    have := (pageView_table seen).2.2.1
    rw [List.length_cons]
    omega

def TableState.leaf (s : TableState) (p : List TableIndex) : Option Word :=
  (s.cell p).filter fun e => pageView (p.length - 1) e = .leaf

theorem leaf_eq_some :
    s.leaf p = some e ↔ s.cell p = some e ∧ pageView (p.length - 1) e = .leaf := by
  rw [TableState.leaf, Option.filter_eq_some_iff, decide_eq_true_eq]

/-- `t` is `s` after some edits of its tree: what they may touch, and which
frames are allocated afterwards. -/
structure Edits (s t : TableState) : Prop where
  sound : HierarchySound t
  hierarchy : t.hierarchy = { s.hierarchy with
    arenaUsed := t.hierarchy.arenaUsed
    tableFrames := t.hierarchy.tableFrames }
  eligible : t.frames.eligible = s.frames.eligible
  records : t.frames.contiguousRecords = s.frames.contiguousRecords
  outside : ∀ c, Held s.frames s.hierarchy c → c ∉ s.tableSet →
    Held t.frames t.hierarchy c ∧ c ∉ t.tableSet ∧ t.tables c = s.tables c
  used : ∀ f, t.frames.used f ↔
    (s.frames.used f ∧ ¬(s.hierarchy.arenaCapacity = 0 ∧ f * sapotePageSize ∈ s.tableSet)) ∨
      (s.hierarchy.arenaCapacity = 0 ∧ f * sapotePageSize ∈ t.tableSet)

/-- In a hierarchy fed by the frame allocator every table is an allocated frame. -/
theorem HierarchySound.table_used (sound : HierarchySound s)
    (drawn : s.hierarchy.arenaCapacity = 0) (h : f * sapotePageSize ∈ s.tableSet) :
    s.frames.used f := by
  obtain ⟨p, hp⟩ := h
  exact ((held_frame_iff drawn).mp (sound.held p _ hp)).2.1

theorem Edits.refl (sound : HierarchySound s) : Edits s s := by
  refine ⟨sound, rfl, rfl, rfl, fun c held away => ⟨held, away, rfl⟩, ?_⟩
  intro f
  by_cases mine : s.hierarchy.arenaCapacity = 0 ∧ f * sapotePageSize ∈ s.tableSet
  · have used := sound.table_used mine.1 mine.2
    exact ⟨fun _ => .inr mine, fun _ => used⟩
  · exact ⟨fun used => .inl ⟨used, mine⟩, fun h => (h.resolve_right mine).1⟩

theorem Edits.arenaCapacity (edits : Edits s t) :
    t.hierarchy.arenaCapacity = s.hierarchy.arenaCapacity := by
  rw [edits.hierarchy]

theorem Edits.root (edits : Edits s t) : t.hierarchy.root = s.hierarchy.root := by
  rw [edits.hierarchy]

/-- A frame that was allocated outside the tree does not become a table. -/
theorem Edits.not_adopted (edits : Edits s t) (drawn : s.hierarchy.arenaCapacity = 0)
    (used : s.frames.used f) (away : f * sapotePageSize ∉ s.tableSet) :
    f * sapotePageSize ∉ t.tableSet := by
  rintro ⟨p, hp⟩
  have held := (held_frame_iff (edits.arenaCapacity.trans drawn)).mp (edits.sound.held p _ hp)
  rw [edits.eligible, edits.records] at held
  have before := (held_frame_iff drawn).mpr ⟨held.1, used, held.2.2⟩
  exact (edits.outside _ before away).2.1 ⟨p, hp⟩

theorem Edits.trans {u : TableState} (first : Edits s t) (second : Edits t u) : Edits s u := by
  refine ⟨second.sound, ?_, second.eligible.trans first.eligible,
    second.records.trans first.records, ?_, ?_⟩
  · rw [second.hierarchy, first.hierarchy]
  · intro c held away
    obtain ⟨held', away', same⟩ := first.outside c held away
    obtain ⟨held'', away'', same'⟩ := second.outside c held' away'
    exact ⟨held'', away'', same'.trans same⟩
  · intro f
    rw [second.used, first.used, first.arenaCapacity]
    by_cases drawn : s.hierarchy.arenaCapacity = 0
    · simp only [drawn, true_and]
      constructor
      · rintro (⟨before | middle, gone⟩ | after)
        · exact .inl before
        · exact absurd middle gone
        · exact .inr after
      · exact .imp_left fun before => ⟨.inl before, first.not_adopted drawn before.1 before.2⟩
    · simp only [drawn, false_and, not_false_eq_true, and_true, or_false]

theorem tableSet_congr (same : ∀ p, t.node p = s.node p) : t.tableSet = s.tableSet := by
  ext a
  exact exists_congr fun p => (same p).congr_left

/-- Edits that leave the same tables leave the same frames allocated. -/
theorem Edits.used_eq (edits : Edits s t) (sound : HierarchySound s)
    (same : ∀ p, t.node p = s.node p) (f : Nat) : t.frames.used f = s.frames.used f := by
  rw [Bool.eq_iff_iff, edits.used, tableSet_congr same, ← (Edits.refl sound).used]

theorem Edits.tableFrames_eq (edits : Edits s t) (sound : HierarchySound s)
    (same : ∀ p, t.node p = s.node p) : t.hierarchy.tableFrames = s.hierarchy.tableFrames := by
  rw [edits.sound.counted, sound.counted, tableSet_congr same]

end Sapote.Paging
