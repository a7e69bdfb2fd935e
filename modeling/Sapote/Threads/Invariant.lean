import Mathlib.Data.Fintype.Card
import Sapote.Library.Run
import Sapote.Threads.Stacks

/-!
The scheduler's table under every interleaving of its calls with the timer callback
and the interrupt return. The boot thread is never taken out of the rotation, so an
exiting thread always finds a successor; an exited thread is never ready again, so
none is resumed.
-/

namespace Sapote.Threads
open Library List

def Used (s : ThreadSystem) (slot : Slot) : Prop := (s.threads slot).state ≠ .unused

instance (s : ThreadSystem) : DecidablePred (Used s) :=
  fun slot => inferInstanceAs (Decidable ((s.threads slot).state ≠ .unused))

def usedSlots (s : ThreadSystem) : Finset Slot := Finset.univ.filter (Used s)

def ownedPages (s : ThreadSystem) : Set (Slot × Nat) :=
  {place | place.1 ≠ bootSlot ∧ Used s place.1 ∧ place.2 < threadStackPages}

/-- The table describes one running thread, and the counters describe the table. -/
structure TableConsistent (s : ThreadSystem) : Prop where
  active : s.active
  running : ∀ slot, (s.threads slot).state = .running ↔ slot = s.currentSlot
  current : s.current = (s.threads s.currentSlot).identifier
  boot : ∀ slot, (s.threads slot).bootThread ↔ slot = bootSlot
  bootRunnable : (s.threads bootSlot).state = .ready ∨ (s.threads bootSlot).state = .running
  live : s.live = (recount s).live
  ready : s.ready = (recount s).ready
  exited : s.exited = (recount s).exited
  distinct : ∀ a b, Used s a → Used s b →
    (s.threads a).identifier = (s.threads b).identifier → a = b
  nonzero : ∀ slot, Used s slot → (s.threads slot).identifier ≠ threadIdNone
  stackFrames : s.stackFrames = threadStackPages * ((usedSlots s).erase bootSlot).card

/-- The panics that no run reaches. -/
def Avoided (panic : Option Panic) : Prop :=
  panic ≠ some .lastRunnableExited ∧ panic ≠ some .exitedThreadScheduled

structure Sound (s : ThreadSystem) : Prop extends TableConsistent s where
  next : s.nextIdentifier = (usedSlots s).card + 1
  below : ∀ slot, Used s slot → (s.threads slot).identifier < s.nextIdentifier
  backed : Backed s (ownedPages s)
  held : s.tableHeld
  exits : ∀ slot, (s.threads slot).resumption = .threadExit → (s.threads slot).state = .exited
  panics : Avoided s.panic

section
variable {s t : ThreadSystem}

theorem countSlots_congr (wanted : ThreadState → Bool)
    (same : ∀ slot, (t.threads slot).state = (s.threads slot).state) :
    countSlots t wanted = countSlots s wanted := by
  exact countP_congr fun slot _ => by rw [same slot]

/-- Everything the invariant looks at, panics apart, is the same. -/
structure SameTable (s t : ThreadSystem) : Prop where
  active : t.active = s.active := by rfl
  live : t.live = s.live := by rfl
  ready : t.ready = s.ready := by rfl
  exited : t.exited = s.exited := by rfl
  current : t.current = s.current := by rfl
  stackFrames : t.stackFrames = s.stackFrames := by rfl
  threads : t.threads = s.threads := by rfl
  currentSlot : t.currentSlot = s.currentSlot := by rfl
  nextIdentifier : t.nextIdentifier = s.nextIdentifier := by rfl
  tableHeld : t.tableHeld = s.tableHeld := by rfl
  stackPages : t.stackPages = s.stackPages := by rfl
  taken : t.taken = s.taken := by rfl

theorem Sound.sameTable (sound : Sound s) (same : SameTable s t) (panics : Avoided t.panic) :
    Sound t := by
  obtain ⟨active, live, ready, exited, current, stackFrames, threads, currentSlot, nextIdentifier,
    tableHeld, stackPages, taken⟩ := same
  cases t
  subst active live ready exited current stackFrames threads currentSlot nextIdentifier tableHeld
    stackPages taken
  exact { sound with backed := sound.backed.congr rfl rfl, panics }

/-- The interrupt flag is not part of the table. -/
theorem sameTable_interrupts (s : ThreadSystem) (enabled : Bool) :
    SameTable s { s with interruptsEnabled := enabled } := {}

/-- The thread that runs now had not exited, so it resumes in its own code. -/
theorem Sound.resume (sound : Sound s) :
    ∃ enabled, resume s = { s with interruptsEnabled := enabled } := by
  unfold Threads.resume
  cases place : (s.threads s.currentSlot).resumption with
  | nowhere => exact ⟨s.interruptsEnabled, rfl⟩
  | trampoline => exact ⟨true, rfl⟩
  | switchToNext interrupted => exact ⟨interrupted, rfl⟩
  | threadExit =>
    have exited := sound.exits _ place
    rw [(sound.running _).mpr rfl] at exited
    cases exited

theorem setState_same (slot : Slot) (state : ThreadState) :
    ((setState s slot state).threads slot).state = state := by
  simp [setState, setThread]

theorem setState_other {slot other : Slot} (apart : other ≠ slot) (state : ThreadState) :
    (setState s slot state).threads other = s.threads other := by
  simp [setState, setThread, apart]

/-- How many slots the scan from `origin` passes before it comes to `slot`. -/
def scanDistance (origin slot : Slot) : Nat := (slot + (threadMax - 1) - origin) % threadMax

theorem scanDistance_lt (origin slot : Slot) : scanDistance origin slot < threadMax :=
  Nat.mod_lt _ (by decide)

theorem slotAfter_scanDistance (origin slot : Slot) :
    slotAfter origin (scanDistance origin slot + 1) = slot := by
  apply Fin.ext
  simp only [slotAfter, scanDistance]
  unfold threadMax at *
  omega

theorem scanDistance_slotAfter (origin : Slot) {step : Nat} (small : step < threadMax) :
    scanDistance origin (slotAfter origin (step + 1)) = step := by
  simp only [slotAfter, scanDistance]
  unfold threadMax at *
  omega

/-- A scan that went on to `next` comes to a slot behind it sooner. -/
theorem scanDistance_after {origin next slot : Slot} (apart : slot ≠ next)
    (first : scanDistance origin next ≤ scanDistance origin slot) :
    scanDistance next slot < scanDistance origin slot := by
  have other := Fin.val_ne_of_ne apart
  simp only [scanDistance] at *
  unfold threadMax at *
  omega

/-- The next slot is the first that is ready, or nothing is and it is the same one. -/
theorem nextReadySlot_cases (s : ThreadSystem) (origin : Slot) :
    ((s.threads (nextReadySlot s origin)).state = .ready ∧
      ∀ slot, (s.threads slot).state = .ready →
        scanDistance origin (nextReadySlot s origin) ≤ scanDistance origin slot) ∨
      (nextReadySlot s origin = origin ∧ ∀ slot, (s.threads slot).state ≠ .ready) := by
  have reaches := fun slot => mem_range.mpr (scanDistance_lt origin slot)
  unfold nextReadySlot
  cases found : (List.range threadMax).findSome? fun step =>
      if (s.threads (slotAfter origin (step + 1))).state = .ready then
        some (slotAfter origin (step + 1))
      else none with
  | none =>
    refine .inr ⟨rfl, fun slot ready => ?_⟩
    have skipped := findSome?_eq_none_iff.mp found _ (reaches slot)
    rw [slotAfter_scanDistance, if_pos ready] at skipped
    cases skipped
  | some next =>
    obtain ⟨before, step, after, order, here, skipped⟩ := findSome?_eq_some_iff.mp found
    have sorted := order ▸ @pairwise_lt_range threadMax
    have small := mem_range.mp (order ▸ mem_append_right before mem_cons_self)
    rw [order] at reaches
    split at here
    · rename_i ready
      obtain rfl := Option.some.inj here
      refine .inl ⟨ready, fun slot other => ?_⟩
      rw [Option.getD_some, scanDistance_slotAfter origin small]
      obtain early | late := mem_append.mp (reaches slot)
      · have none := skipped _ early
        rw [slotAfter_scanDistance, if_pos other] at none
        cases none
      · obtain same | later := mem_cons.mp late
        · exact le_of_eq same.symm
        · exact le_of_lt ((pairwise_cons.mp (pairwise_append.mp sorted).2.1).1 _ later)
    · cases here

variable {previous next : Slot} {left : ThreadState} {resumption : Resumption}

/-- The table after a switch from `previous`, left in state `left`, to `next`. -/
def switched (s : ThreadSystem) (previous next : Slot) (left : ThreadState)
    (resumption : Resumption) : ThreadSystem :=
  suspend (recount (accountSwitch (setState (setState s previous left) next .running) next))
    previous resumption

theorem switched_previous (apart : next ≠ previous) :
    (switched s previous next left resumption).threads previous =
      { s.threads previous with state := left, resumption := resumption } := by
  simp [switched, suspend, recount, accountSwitch, setState, setThread,
    Function.update_of_ne apart.symm]

theorem switched_next (apart : next ≠ previous) :
    (switched s previous next left resumption).threads next =
      { s.threads next with
        state := .running, switches := ((s.threads next).switches + 1) % 2 ^ 64 } := by
  simp [switched, suspend, recount, accountSwitch, setState, setThread, Function.update_of_ne apart]

theorem switched_other {slot : Slot} (first : slot ≠ previous) (second : slot ≠ next) :
    (switched s previous next left resumption).threads slot = s.threads slot := by
  simp [switched, suspend, recount, accountSwitch, setState, setThread,
    Function.update_of_ne first, Function.update_of_ne second]

/-- A switch looks at two slots. -/
theorem forall_switched (p : Slot → Thread → Prop) (apart : next ≠ previous)
    (leaves : p previous { s.threads previous with state := left, resumption := resumption })
    (comes : p next { s.threads next with
      state := .running, switches := ((s.threads next).switches + 1) % 2 ^ 64 })
    (others : ∀ slot, slot ≠ previous → slot ≠ next → p slot (s.threads slot)) (slot : Slot) :
    p slot ((switched s previous next left resumption).threads slot) := by
  by_cases first : slot = previous
  · rw [first, switched_previous apart]
    exact leaves
  · by_cases second : slot = next
    · rw [second, switched_next apart]
      exact comes
    · rw [switched_other first second]
      exact others slot first second

theorem switched_who (apart : next ≠ previous) (slot : Slot) :
    let thread := (switched s previous next left resumption).threads slot
    thread.identifier = (s.threads slot).identifier ∧
      thread.bootThread = (s.threads slot).bootThread :=
  forall_switched (fun slot thread => thread.identifier = (s.threads slot).identifier ∧
    thread.bootThread = (s.threads slot).bootThread) apart (by exact ⟨rfl, rfl⟩)
    (by exact ⟨rfl, rfl⟩) (fun _ _ _ => ⟨rfl, rfl⟩) slot

theorem switched_used (apart : next ≠ previous) (used : Used s previous) (ready : Used s next)
    (kept : left ≠ .unused) (slot : Slot) :
    Used (switched s previous next left resumption) slot ↔ Used s slot :=
  forall_switched (fun slot thread => thread.state ≠ .unused ↔ Used s slot) apart
    (iff_of_true kept used) (iff_of_true nofun ready) (fun _ _ _ => .rfl) slot

theorem switched_counts (wanted : ThreadState → Bool) :
    countSlots (switched s previous next left resumption) wanted = countSlots
      (accountSwitch (setState (setState s previous left) next .running) next) wanted := by
  refine countSlots_congr wanted fun slot => ?_
  by_cases first : slot = previous
  · subst first
    simp [switched, suspend, recount, setThread]
  · simp [switched, suspend, recount, setThread, Function.update_of_ne first]

theorem switched_recount :
    let t := switched s previous next left resumption
    t.live = (recount t).live ∧ t.ready = (recount t).ready ∧ t.exited = (recount t).exited := by
  simp only [recount, switched_counts]
  simp only [switched, suspend, setThread, recount, and_self]

theorem switched_current (apart : next ≠ previous) :
    (switched s previous next left resumption).current = (s.threads next).identifier := by
  simp [switched, suspend, recount, accountSwitch, setState, setThread, Function.update_of_ne apart]

theorem switched_currentSlot : (switched s previous next left resumption).currentSlot = next := by
  simp only [switched, suspend, setThread, recount, accountSwitch]

/-- What a switch has no business with. -/
theorem switched_frame :
    let t := switched s previous next left resumption
    t.active = s.active ∧ t.tableHeld = s.tableHeld ∧ t.panic = s.panic ∧
      t.stackFrames = s.stackFrames ∧ t.nextIdentifier = s.nextIdentifier ∧
      t.stackPages = s.stackPages ∧ t.taken = s.taken ∧ t.preemptive = s.preemptive ∧
      t.quantumIdentifier = s.quantumIdentifier := by
  simp only [switched, suspend, setThread, recount, accountSwitch, setState, and_self]

-- The running thread makes way, as ready or as exited; the boot thread only as ready.
variable (sound : Sound s) (apart : next ≠ s.currentSlot) (ready : (s.threads next).state = .ready)
  (leaves : left = .ready ∧ resumption ≠ .threadExit ∨ left = .exited ∧ s.currentSlot ≠ bootSlot)
include sound apart ready leaves

theorem Sound.switched :
    Sound (switched s s.currentSlot next left resumption) := by
  have inUse : Used s next := by rw [Used, ready]; nofun
  have was : (s.threads s.currentSlot).state = .running := (sound.running _).mpr rfl
  have wasUsed : Used s s.currentSlot := by rw [Used, was]; nofun
  have kept : left ≠ .unused ∧ left ≠ .running := by
    obtain ⟨rfl, -⟩ | ⟨rfl, -⟩ := leaves
    · exact ⟨nofun, nofun⟩
    · exact ⟨nofun, nofun⟩
  have used := @switched_used s _ _ left resumption apart wasUsed inUse kept.1
  have who := @switched_who s _ _ left resumption apart
  have slots : usedSlots (Threads.switched s s.currentSlot next left resumption) = usedSlots s :=
    Finset.filter_congr fun slot _ => used slot
  have pages : ownedPages (Threads.switched s s.currentSlot next left resumption) =
      ownedPages s := by
    ext place
    simp only [ownedPages, Set.mem_ofPred_eq, used]
  obtain ⟨live, readied, exited⟩ :=
    @switched_recount s s.currentSlot next left resumption
  obtain ⟨active, held, panic, frames, identifiers, places, taken, -, -⟩ :=
    @switched_frame s s.currentSlot next left resumption
  refine ⟨⟨active.trans sound.active, ?_, ?_, ?_, ?_, live, readied, exited, ?_, ?_, ?_⟩, ?_, ?_,
    ?_, held.trans sound.held, ?_, panic.symm ▸ sound.panics⟩
  · rw [switched_currentSlot]
    exact forall_switched (fun slot thread => thread.state = .running ↔ slot = next) apart
      (iff_of_false kept.2 apart.symm) (iff_of_true rfl rfl)
      fun slot first second => (sound.running slot).trans (iff_of_false first second)
  · rw [switched_currentSlot, (who next).1]
    exact switched_current apart
  · intro slot
    rw [(who slot).2]
    exact sound.boot slot
  · refine forall_switched (fun slot thread => slot = bootSlot →
      thread.state = .ready ∨ thread.state = .running) apart ?_ (fun _ => .inr rfl) ?_ bootSlot rfl
    · exact fun same => .inl (leaves.resolve_right fun h => h.2 same).1
    · exact fun slot _ _ same => same ▸ sound.bootRunnable
  · intro a b
    rw [used, used, (who a).1, (who b).1]
    exact sound.distinct a b
  · intro slot
    rw [used, (who slot).1]
    exact sound.nonzero slot
  · rw [slots, frames]
    exact sound.stackFrames
  · rw [slots, identifiers]
    exact sound.next
  · intro slot
    rw [used, (who slot).1, identifiers]
    exact sound.below slot
  · rw [pages]
    exact sound.backed.congr places taken
  · refine forall_switched (fun _ thread => thread.resumption = .threadExit →
      thread.state = .exited) apart ?_ ?_ fun slot _ _ => sound.exits slot
    · intro exits
      obtain ⟨-, other⟩ | ⟨exited, -⟩ := leaves
      · exact absurd exits other
      · exact exited
    · intro exits
      have exited := sound.exits next exits
      rw [ready] at exited
      cases exited

def KeepsExited (s t : ThreadSystem) : Prop :=
  ∀ slot, (s.threads slot).state = .exited → (t.threads slot).state = .exited

/-- A ready thread runs, or it is still ready and no further from its turn. -/
def Nears (s t : ThreadSystem) (slot : Slot) : Prop :=
  (t.threads slot).state = .running ∨ (t.threads slot).state = .ready ∧
    (t.currentSlot = s.currentSlot ∨
      scanDistance t.currentSlot slot < scanDistance s.currentSlot slot)

/-- No quantum runs while preemption is off. -/
def Rested (s : ThreadSystem) : Prop := s.preemptive = false → s.quantumIdentifier = threadIdNone

structure Proceeds (s t : ThreadSystem) : Prop where
  sound : Sound t
  keeps : KeepsExited s t
  nears : ∀ slot, (s.threads slot).state = .ready → Nears s t slot
  rested : Rested s → Rested t

variable (first : ∀ slot, (s.threads slot).state = .ready →
  scanDistance s.currentSlot next ≤ scanDistance s.currentSlot slot)
include first

theorem Sound.switched_proceeds :
    Proceeds s (Threads.switched s s.currentSlot next left resumption) := by
  have running := (sound.running _).mpr rfl
  obtain ⟨-, -, -, -, -, -, -, preemptive, quantum⟩ :=
    @switched_frame s s.currentSlot next left resumption
  refine ⟨sound.switched apart ready leaves, ?_, ?_, ?_⟩
  · refine forall_switched (fun slot thread => (s.threads slot).state = .exited →
      thread.state = .exited) apart ?_ ?_ fun _ _ _ => id
    · rw [running]
      nofun
    · rw [ready]
      nofun
  · unfold Nears
    rw [switched_currentSlot]
    refine forall_switched (fun slot thread => (s.threads slot).state = .ready →
      thread.state = .running ∨ thread.state = .ready ∧ (next = s.currentSlot ∨
        scanDistance next slot < scanDistance s.currentSlot slot)) apart ?_ ?_ ?_
    · rw [running]
      nofun
    · exact fun _ => .inl rfl
    · exact fun slot _ other waiting =>
        .inr ⟨waiting, .inr (scanDistance_after other (first slot waiting))⟩
  · simp only [Rested, preemptive, quantum]
    exact id

theorem Sound.switch :
    Proceeds s (Threads.resume (Threads.switched s s.currentSlot next left resumption)) := by
  have moved := sound.switched_proceeds apart ready leaves first
  obtain ⟨enabled, resumed⟩ := moved.sound.resume
  rw [resumed]
  exact ⟨moved.sound.sameTable (sameTable_interrupts _ enabled) moved.sound.panics, moved.keeps,
    moved.nears, moved.rested⟩

end

section
variable {s t : ThreadSystem}

theorem Proceeds.refl (sound : Sound s) : Proceeds s s :=
  ⟨sound, fun _ => id, fun _ ready => .inr ⟨ready, .inl rfl⟩, id⟩

theorem Sound.proceeds (sound : Sound s) (same : SameTable s t) (panics : Avoided t.panic)
    (rested : Rested s → Rested t := by exact id) : Proceeds s t := by
  refine ⟨sound.sameTable same panics, fun slot exited => ?_, fun slot ready => .inr ⟨?_, ?_⟩, rested⟩
  · rw [same.threads]
    exact exited
  · rw [same.threads]
    exact ready
  · exact .inl same.currentSlot

theorem switchToNext_proceeds (sound : Sound s) : Proceeds s (switchToNext s) := by
  have quiet := sound.sameTable (sameTable_interrupts s false) sound.panics
  unfold switchToNext
  dsimp only
  split
  · exact sound.proceeds (sameTable_interrupts s s.interruptsEnabled) sound.panics
  rename_i apart
  have running : (s.threads s.currentSlot).state = .running := (sound.running _).mpr rfl
  rw [if_pos running]
  obtain ⟨ready, first⟩ := (nextReadySlot_cases { s with interruptsEnabled := false }
    s.currentSlot).resolve_right fun h => apart h.1
  have moved := @Sound.switch _ _ .ready (.switchToNext s.interruptsEnabled) quiet apart ready
    (.inl ⟨rfl, nofun⟩) first
  exact { moved with }

theorem threadExit_proceeds (sound : Sound s) : Proceeds s (threadExit s) := by
  have quiet := sound.sameTable (sameTable_interrupts s false) sound.panics
  unfold threadExit
  rw [if_neg (by simp [sound.active])]
  dsimp only
  split
  · exact sound.proceeds {} ⟨nofun, nofun⟩
  rename_i created
  have other : s.currentSlot ≠ bootSlot := fun same => created ((sound.boot _).mpr same)
  -- The boot thread does not run and never exits, so it is there to switch to.
  have waiting : (s.threads bootSlot).state = .ready :=
    sound.bootRunnable.resolve_right fun running =>
      other ((sound.running bootSlot).mp running).symm
  have still : ∀ slot, (s.threads slot).state = .ready →
      ((setState { s with interruptsEnabled := false } s.currentSlot .exited).threads slot).state =
        .ready := by
    intro slot ready
    rw [setState_other fun same => ?_]
    · exact ready
    · rw [(sound.running slot).mpr same] at ready
      cases ready
  obtain ⟨ready, first⟩ := (nextReadySlot_cases
    (setState { s with interruptsEnabled := false } s.currentSlot .exited)
      s.currentSlot).resolve_right fun none => none.2 bootSlot (still _ waiting)
  have apart : nextReadySlot (setState { s with interruptsEnabled := false } s.currentSlot
      .exited) s.currentSlot ≠ s.currentSlot := by
    intro same
    rw [same, setState_same] at ready
    cases ready
  rw [if_neg apart]
  rw [setState_other apart] at ready
  have moved := @Sound.switch _ _ .exited .threadExit quiet apart ready (.inr ⟨rfl, other⟩)
    fun slot other => first slot (still slot other)
  exact { moved with }

theorem armQuantum_sameTable (s : ThreadSystem) (armed : Option Nat) :
    SameTable s (armQuantum s armed).2 ∧ (armQuantum s armed).2.panic = s.panic ∧
      (armQuantum s armed).2.preemptive = s.preemptive := by
  cases armed with
  | none | some => exact ⟨{}, rfl, rfl⟩

theorem quantumExpired_proceeds (sound : Sound s) (armed : Option Nat) :
    Proceeds s (quantumExpired s armed) := by
  have cleared : SameTable s { s with quantumIdentifier := threadIdNone } := {}
  obtain ⟨same, panic, preemptive⟩ :=
    armQuantum_sameTable { s with quantumIdentifier := threadIdNone } armed
  have table : SameTable s _ := { same with }
  unfold quantumExpired
  dsimp only
  generalize armQuantum { s with quantumIdentifier := threadIdNone } armed = quantum
    at table panic preemptive ⊢
  have panics : Avoided quantum.2.panic := panic ▸ sound.panics
  split
  · exact sound.proceeds cleared sound.panics fun _ _ => rfl
  rename_i on
  have rested : quantum.2.preemptive := by simp_all
  have never : ∀ identifier, Rested s → Rested { quantum.2 with quantumIdentifier := identifier } :=
    fun _ _ off => nomatch rested.symm.trans off
  split
  · exact sound.proceeds { table with } ⟨nofun, nofun⟩ (never _)
  · split
    · exact sound.proceeds { table with } panics (never _)
    · exact sound.proceeds table panics (never _)

theorem threadOnInterruptReturn_proceeds (sound : Sound s) :
    Proceeds s (threadOnInterruptReturn s) := by
  have cleared : SameTable s { s with reschedulePending := false } := {}
  unfold threadOnInterruptReturn
  split
  · exact .refl sound
  · dsimp only
    rw [if_neg (by simp [sound.active])]
    have moved := switchToNext_proceeds (sound.sameTable cleared sound.panics)
    exact { moved with }

theorem threadEnablePreemption_proceeds (sound : Sound s) (timer : Bool) (armed : Option Nat) :
    Proceeds s (threadEnablePreemption s timer armed).2 := by
  unfold threadEnablePreemption
  split
  · exact .refl sound
  split
  · exact .refl sound
  · split
    · exact .refl sound
    · cases armed with
      | none => exact sound.proceeds {} sound.panics fun _ _ => rfl
      | some identifier => exact sound.proceeds {} sound.panics fun _ => nofun

theorem threadDisablePreemption_proceeds (sound : Sound s) :
    Proceeds s (threadDisablePreemption s).2 := by
  unfold threadDisablePreemption
  split
  · exact .refl sound
  · split
    · exact .refl sound
    · exact sound.proceeds {} sound.panics fun _ _ => rfl

end

end Sapote.Threads
