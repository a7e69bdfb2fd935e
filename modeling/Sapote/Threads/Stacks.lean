import Sapote.Threads.Scheduler

/-!
The stack pages of the threads: mapped to frames that are taken and are nobody
else's. Mapping a stack adds its pages or leaves everything but the page tables as it was;
unmapping a stack that is there cannot fail.
-/

namespace Sapote.Threads
open Function List Option
variable {page frame : Nat} {slot : Slot} {t : ThreadSystem} {pages : List Nat}

/-- The pages of `owned` are mapped, each to a taken frame of its own. -/
structure Backed (s : ThreadSystem) (owned : Set (Slot × Nat)) : Prop where
  mapped : ∀ place ∈ owned, ∃ frame, s.stackPages place.1 place.2 = some frame ∧
    s.taken frame
  separate : ∀ a ∈ owned, ∀ b ∈ owned, ∀ frame, s.stackPages a.1 a.2 = some frame →
    s.stackPages b.1 b.2 = some frame → a = b

def Remapped (s t : ThreadSystem) : Prop :=
  t = { s with stackPages := t.stackPages, taken := t.taken, tableFrames := t.tableFrames }

section
variable {s t u : ThreadSystem} {owned more : Set (Slot × Nat)}

theorem Remapped.refl (s : ThreadSystem) : Remapped s s := rfl

theorem Remapped.trans (first : Remapped s t) (second : Remapped t u) : Remapped s u := by
  unfold Remapped at *
  rw [second, first]

theorem Backed.mono (backed : Backed s owned) (fewer : more ⊆ owned) : Backed s more :=
  ⟨fun place here => backed.mapped place (fewer here),
    fun a here b there => backed.separate a (fewer here) b (fewer there)⟩

/-- Backing looks at pages and frames only. -/
theorem Backed.congr (backed : Backed s owned) (pages : t.stackPages = s.stackPages)
    (taken : t.taken = s.taken) : Backed t owned := by
  refine ⟨fun place here => ?_, fun a here b there => ?_⟩
  · rw [pages, taken]
    exact backed.mapped place here
  · rw [pages]
    exact backed.separate a here b there

theorem setPage_same (slot : Slot) (page : Nat) (frame : Option Nat) :
    (setPage s slot page frame).stackPages slot page = frame := by
  simp [setPage]

theorem setPage_other {slot' : Slot} {page' : Nat} {frame : Option Nat}
    (other : (slot', page') ≠ (slot, page)) :
    (setPage s slot page frame).stackPages slot' page' = s.stackPages slot' page' := by
  by_cases same : slot' = slot
  · subst same
    have elsewhere : page' ≠ page := fun h => other (by rw [h])
    simp [setPage, update_of_ne elsewhere]
  · simp [setPage, update_of_ne same]

/-- A page taken out, with its frame given back. -/
theorem Backed.unmap (backed : Backed s owned) (here : (slot, page) ∈ owned)
    (mapped : s.stackPages slot page = some frame) :
    Backed { setPage s slot page none with taken := Function.update s.taken frame false }
      (owned \ {(slot, page)}) := by
  have pages : ∀ place ∈ owned \ {(slot, page)},
      (setPage s slot page none).stackPages place.1 place.2 = s.stackPages place.1 place.2 :=
    fun place there => setPage_other there.2
  refine ⟨fun place there => ?_, fun a first b second other => ?_⟩
  · obtain ⟨frame', found, taken⟩ := backed.mapped place there.1
    have apart : frame' ≠ frame := by
      intro same
      exact there.2 (backed.separate place there.1 _ here frame (same ▸ found) mapped)
    exact ⟨frame', (pages place there).trans found, (update_of_ne apart _ _).trans taken⟩
  · dsimp only
    rw [pages a first, pages b second]
    exact backed.separate a first.1 b second.1 other

/-- A page put in, over a frame that was free. -/
theorem Backed.map (backed : Backed s owned) (free : s.taken frame = false)
    (absent : s.stackPages slot page = none) :
    Backed (setPage { s with taken := Function.update s.taken frame true } slot page (some frame))
      (insert (slot, page) owned) := by
  have outside : (slot, page) ∉ owned := by
    intro here
    obtain ⟨frame', found, -⟩ := backed.mapped _ here
    rw [absent] at found
    cases found
  have old : ∀ place ∈ owned, place ≠ (slot, page) := fun place here same => outside (same ▸ here)
  have pages : ∀ place ∈ owned, (setPage { s with taken := update s.taken frame true }
      slot page (some frame)).stackPages place.1 place.2 = s.stackPages place.1 place.2 :=
    fun place here => setPage_other (old place here)
  have new : ∀ place ∈ owned, s.stackPages place.1 place.2 ≠ some frame := by
    intro place here found
    obtain ⟨frame', found', taken⟩ := backed.mapped place here
    rw [found] at found'
    obtain rfl := Option.some.inj found'
    rw [free] at taken
    cases taken
  refine ⟨?_, ?_⟩
  · rintro place (rfl | here)
    · exact ⟨frame, setPage_same slot page _, update_self _ _ _⟩
    · obtain ⟨frame', found, taken⟩ := backed.mapped place here
      have apart : frame' ≠ frame := fun same => new place here (same ▸ found)
      exact ⟨frame', (pages place here).trans found, (update_of_ne apart _ _).trans taken⟩
  · rintro a (rfl | first) b (rfl | second) other fa fb
    · rfl
    · rw [pages b second] at fb
      rw [setPage_same] at fa
      exact absurd (fb.trans fa.symm) (new b second)
    · rw [pages a first] at fa
      rw [setPage_same] at fb
      exact absurd (fa.trans fb.symm) (new a first)
    · rw [pages a first] at fa
      rw [pages b second] at fb
      exact backed.separate a first b second other fa fb

end

section
variable {s : ThreadSystem} {owned : Set (Slot × Nat)} {slot : Slot}

def stackOf (slot : Slot) (pages : Set Nat) : Set (Slot × Nat) :=
  {place | place.1 = slot ∧ place.2 ∈ pages}

theorem frameRelease_taken (taken : s.taken frame) :
    frameRelease s frame = some { s with taken := Function.update s.taken frame false } := by
  simp [frameRelease, taken]

theorem frameAllocate_some {choice : Option Nat} (here : frameAllocate s choice = some (frame, t)) :
    s.taken frame = false ∧ t = { s with taken := Function.update s.taken frame true } := by
  cases choice with
  | none => cases here
  | some wanted =>
    rw [frameAllocate] at here
    split at here
    · cases here
    · cases here
      simp_all

/-- One turn of the mapping loop: it ends with tables drawn at most, or goes on with the page
mapped to a frame that was free. -/
theorem mapPages_cons (slot : Slot) (supply : Nat → Option Nat) (answers : PagingAnswers)
    (page : Nat) (pages : List Nat) (s : ThreadSystem) :
    ∃ tables, (∃ status, status ≠ .ok ∧ mapPages slot supply answers (page :: pages) s =
        (status, 0, { s with tableFrames := tables })) ∨
      ∃ frame, s.taken frame = false ∧ s.stackPages slot page = none ∧
        let rest := mapPages slot supply answers pages (setPage { s with
          taken := update s.taken frame true, tableFrames := tables } slot page (some frame))
        mapPages slot supply answers (page :: pages) s = (rest.1, rest.2.1 + 1, rest.2.2) := by
  rw [mapPages]
  cases allocation : frameAllocate s (supply page) with
  | none => exact ⟨s.tableFrames, .inl ⟨.outOfFrames, nofun, rfl⟩⟩
  | some allocated => ?_
  obtain ⟨frame, next⟩ := allocated
  obtain ⟨free, rfl⟩ := frameAllocate_some allocation
  have returned : update (update s.taken frame true) frame false = s.taken := by
    rw [update_idem, ← free, update_eq_self]
  dsimp only [pagingMap]
  by_cases present : (s.stackPages slot page).isSome
  · refine ⟨s.tableFrames, .inl ⟨.mappingFailure, nofun, ?_⟩⟩
    simp [present, frameRelease, returned]
  rw [if_neg present]
  by_cases mappable : answers.mappable page
  · rw [if_pos mappable]
    exact ⟨_, .inr ⟨frame, free, by simpa using present, rfl⟩⟩
  · refine ⟨fun frame => s.tableFrames frame || (answers.drawn page).contains frame,
      .inl ⟨.mappingFailure, nofun, ?_⟩⟩
    rw [if_neg mappable]
    simp only [frameRelease, update_self, if_true, getD_some, returned]

/-- The mapping loop adds the pages it reports, in order. -/
theorem mapPages_backed {supply : Nat → Option Nat} {answers : PagingAnswers} {pages : List Nat}
    (backed : Backed s owned) :
    let result := mapPages slot supply answers pages s
    Remapped s result.2.2 ∧ result.2.1 ≤ pages.length ∧
      (result.2.1 ≠ pages.length → result.1 ≠ .ok) ∧
      Backed result.2.2 (owned ∪ stackOf slot {page | page ∈ pages.take result.2.1}) := by
  induction pages generalizing s owned with
  | nil =>
    refine ⟨Remapped.refl s, le_refl _, fun h => absurd rfl h, backed.mono ?_⟩
    rintro place (here | ⟨-, none⟩)
    · exact here
    · cases none
  | cons page pages ih =>
    obtain ⟨tables, ⟨status, failed, result⟩ | ⟨frame, free, absent, result⟩⟩ :=
      mapPages_cons slot supply answers page pages s
    · rw [result]
      refine ⟨rfl, Nat.zero_le _, fun _ => failed, (backed.mono ?_).congr rfl rfl⟩
      rintro place (here | ⟨-, none⟩)
      · exact here
      · cases none
    · rw [result]
      have mapped : Backed (setPage { s with
          taken := update s.taken frame true, tableFrames := tables } slot page (some frame))
          (insert (slot, page) owned) := (backed.map free absent).congr rfl rfl
      obtain ⟨remapped, count, failed, rest⟩ := ih mapped
      have first : Remapped s (setPage { s with
        taken := update s.taken frame true, tableFrames := tables } slot page (some frame)) := rfl
      refine ⟨first.trans remapped, Nat.succ_le_succ count,
        fun short => failed fun full => short (congrArg (· + 1) full), rest.mono ?_⟩
      rintro place (here | ⟨own, member⟩)
      · exact .inl (.inr here)
      · cases member with
        | head => exact .inl (.inl (Prod.ext own rfl))
        | tail _ later => exact .inr ⟨own, later⟩

theorem diff_stackOf_cons (page : Nat) (pages : List Nat) :
    (owned \ {(slot, page)}) \ stackOf slot {p | p ∈ pages} =
      owned \ stackOf slot {p | p ∈ page :: pages} := by
  ext ⟨slot', page'⟩
  simp only [stackOf, Set.mem_sdiff, Set.mem_singleton_iff, Set.mem_ofPred_eq, Prod.mk.injEq,
    mem_cons]
  tauto

theorem mem_diff_of_nodup (distinct : (page :: pages).Nodup)
    (here : ∀ p ∈ page :: pages, (slot, p) ∈ owned) :
    ∀ p ∈ pages, (slot, p) ∈ owned \ {(slot, page)} := by
  intro p member
  refine ⟨here p (.tail _ member), fun same => ?_⟩
  obtain ⟨-, rfl⟩ := Prod.mk.inj same
  exact (nodup_cons.mp distinct).1 member

/-- A frame that is not taken need not be given back. -/
theorem unwindPage_eq (answers : PagingAnswers) (s : ThreadSystem) (page : Nat) :
    unwindPage slot answers s page = (s.stackPages slot page).elim s fun frame =>
      { setPage s slot page none with
        taken := Function.update s.taken frame false
        tableFrames := fun f => s.tableFrames f && !(answers.returned page).contains f } := by
  unfold unwindPage
  cases s.stackPages slot page with
  | none => rfl
  | some frame =>
    cases taken : s.taken frame with
    | true => simp [frameRelease, pagingUnmap, setPage, taken]
    | false =>
      simp only [frameRelease, pagingUnmap, setPage, taken, Bool.false_eq_true, if_false, getD_none,
        elim_some]
      rw [← taken, update_eq_self]

/-- Pages can be unwound in any order. -/
instance (answers : PagingAnswers) : RightCommutative (unwindPage slot answers) where
  right_comm s a b := by
    by_cases same : a = b
    · rw [same]
    simp only [unwindPage_eq]
    cases first : s.stackPages slot a with
    | none => cases second : s.stackPages slot b with
      | none => simp [first, second]
      | some g => simp [setPage, first, second, same]
    | some f => cases second : s.stackPages slot b with
      | none => simp [setPage, first, second, Ne.symm same]
      | some g =>
        simp only [setPage, first, second, Option.elim_some, Function.update_self, ne_eq, same,
          Ne.symm same, not_false_eq_true, Function.update_of_ne, Function.update_idem,
          Function.update_comm same, Bool.and_right_comm]
        by_cases frames : f = g
        · rw [frames]
        · rw [Function.update_comm frames]

/-- The page tables that are left of a `map_stack` which gives up: those that are linked by then,
without those that the unwinding gives back. -/
def tablesLeft (s : ThreadSystem) (slot : Slot) (supply : Nat → Option Nat)
    (answers : PagingAnswers) (pages : List Nat) (frame : Nat) : Bool :=
  let mapped := mapPages slot supply answers pages s
  mapped.2.2.tableFrames frame &&
    !(pages.take mapped.2.1).any fun page => (answers.returned page).contains frame

/-- The unwinding undoes the loop exactly, but for the page tables. -/
theorem mapPages_unwinds {supply : Nat → Option Nat} {answers : PagingAnswers} (pages : List Nat)
    (s : ThreadSystem) :
    let result := mapPages slot supply answers pages s
    (pages.take result.2.1).foldl (unwindPage slot answers) result.2.2 =
      { s with tableFrames := tablesLeft s slot supply answers pages } := by
  unfold tablesLeft
  induction pages generalizing s with
  | nil => simp [mapPages]
  | cons page pages ih =>
    obtain ⟨tables, ⟨status, -, result⟩ | ⟨frame, free, absent, result⟩⟩ :=
      mapPages_cons slot supply answers page pages s
    · simp [result]
    · simp only [result, take_succ_cons, any_cons]
      rw [(perm_append_singleton page _).symm.foldl_eq, foldl_append, ih]
      simp only [foldl_cons, foldl_nil, unwindPage_eq, setPage_same, elim_some]
      simp only [setPage, update_idem, update_self, ← absent, update_eq_self, ← free, Bool.not_or,
        Bool.and_assoc, Bool.and_comm (!(answers.returned page).contains _)]

/-- Mapping a stack adds all its pages, or changes page tables at most. -/
theorem mapStack_backed {supply : Nat → Option Nat} {answers : PagingAnswers}
    (backed : Backed s owned) :
    let result := mapStack s slot supply answers
    (result.1 ≠ .ok ∧ result.2 = { s with
        tableFrames := tablesLeft s slot supply answers (.range threadStackPages) }) ∨
      (result.1 = .ok ∧ result.2 = { s with
          stackPages := result.2.stackPages, taken := result.2.taken
          tableFrames := result.2.tableFrames
          stackFrames := (s.stackFrames + threadStackPages) % 2 ^ 64 } ∧
        Backed result.2 (owned ∪ stackOf slot {page | page < threadStackPages})) := by
  obtain ⟨remapped, count, failed, pages⟩ := @mapPages_backed s owned slot supply answers
    (.range threadStackPages) backed
  have unwound := @mapPages_unwinds slot supply answers (.range threadStackPages) s
  unfold mapStack
  generalize mapPages slot supply answers (.range threadStackPages) s = mapped
    at remapped count failed pages unwound ⊢
  rw [length_range] at count failed
  dsimp only at unwound
  rw [take_range, Nat.min_eq_left count] at pages unwound
  by_cases short : mapped.2.1 ≠ threadStackPages
  · rw [if_pos short]
    exact .inl ⟨failed short, unwound⟩
  rw [if_neg short]
  rw [not_not.mp short] at pages
  refine .inr ⟨rfl, ?_, .congr (pages.mono ?_) rfl rfl⟩
  · rw [remapped]
  · rintro place (here | ⟨own, small⟩)
    · exact .inl here
    · exact .inr ⟨own, mem_range.mpr small⟩

/-- A stack that is there is unmapped without a failure. -/
theorem unmapStack_backed (backed : Backed s owned) (distinct : pages.Nodup)
    (here : ∀ p ∈ pages, (slot, p) ∈ owned) (enough : pages.length ≤ s.stackFrames)
    (small : s.stackFrames < 2 ^ 64) (returned : Nat → List Nat) :
    let result := unmapStack slot returned pages s
    result.1 = .ok ∧ result.2 = { s with
        stackPages := result.2.stackPages, taken := result.2.taken
        tableFrames := result.2.tableFrames
        stackFrames := s.stackFrames - pages.length } ∧
      Backed result.2 (owned \ stackOf slot {p | p ∈ pages}) := by
  induction pages generalizing s owned with
  | nil => exact ⟨rfl, rfl, backed.mono Set.sdiff_subset⟩
  | cons page pages ih =>
    obtain ⟨frame, found, taken⟩ := backed.mapped _ (here page mem_cons_self)
    have still : (pagingUnmap s slot page (returned page)).taken frame := taken
    have out := backed.unmap (here page mem_cons_self) found
    have fewer : (s.stackFrames + (2 ^ 64 - 1)) % 2 ^ 64 = s.stackFrames - 1 := by
      rw [length_cons] at enough
      omega
    simp only [unmapStack, found, frameRelease_taken still]
    rw [length_cons] at enough
    obtain ⟨ok, after, rest⟩ := ih (s := { pagingUnmap s slot page (returned page) with
        taken := update s.taken frame false
        stackFrames := (s.stackFrames + (2 ^ 64 - 1)) % 2 ^ 64 }) (out.congr rfl rfl)
      (nodup_cons.mp distinct).2 (mem_diff_of_nodup distinct here)
      (show _ ≤ (s.stackFrames + (2 ^ 64 - 1)) % 2 ^ 64 by omega)
      (Nat.mod_lt _ (by decide))
    rw [diff_stackOf_cons] at rest
    refine ⟨ok, after.trans ?_, rest⟩
    dsimp only [pagingUnmap, setPage]
    rw [fewer, length_cons, Nat.sub_sub, add_comm 1]

end

end Sapote.Threads
