import Sapote.Threads.Invariant

/-!
Threads come and go: `thread_create` takes an unused slot and an identifier no thread
has, a `thread_stop` that is refused changes nothing in the table, and one that gets
to dismantling it cannot fail. With that every run after `thread_start` keeps the
table consistent, no ready thread waits for more switches than there are other slots,
and a refused call changes nothing but, in one case, preemption.
-/

namespace Sapote.Threads
open Library List Function
variable {chosen slot : Slot}

section
variable {s t : ThreadSystem}

theorem unusedSlot_some (here : unusedSlot s = some chosen) :
    chosen ≠ bootSlot ∧ (s.threads chosen).state = .unused := by
  have later : ∀ slot ∈ (List.finRange threadMax).tail, slot ≠ bootSlot := by decide
  refine ⟨later chosen (mem_of_find?_eq_some here), ?_⟩
  have found := find?_some here
  simpa using found

theorem usedSlots_card_le (s : ThreadSystem) : ((usedSlots s).erase bootSlot).card ≤ 8 :=
  Finset.card_erase_le.trans ((Finset.card_le_univ _).trans_eq (Fintype.card_fin _))

/-- A new thread in an unused slot, over a stack just mapped. -/
theorem Sound.created {thread : Thread} {pages : Slot → Nat → Option Nat} {taken tables : Nat → Bool}
    (sound : Sound s) (free : (s.threads chosen).state = .unused) (created : chosen ≠ bootSlot)
    (backed : Backed { s with stackPages := pages, taken := taken }
      (ownedPages s ∪ stackOf chosen {page | page < threadStackPages}))
    (ready : thread.state = .ready) (named : thread.identifier = s.nextIdentifier)
    (ordinary : thread.bootThread = false) (starts : thread.resumption = .trampoline) :
    Proceeds s (recount { setThread { s with
        stackPages := pages, taken := taken, tableFrames := tables
        stackFrames := (s.stackFrames + threadStackPages) % 2 ^ 64 } chosen thread with
      nextIdentifier := (s.nextIdentifier + 1) % 2 ^ 64 }) := by
  have every (p : Slot → Thread → Prop) (here : p chosen thread)
      (rest : ∀ slot, slot ≠ chosen → p slot (s.threads slot)) :
      ∀ slot, p slot (update s.threads chosen thread slot) :=
    (forall_update_iff s.threads p).mpr ⟨here, rest⟩
  have used := every (fun slot thread => thread.state ≠ .unused ↔ slot = chosen ∨ Used s slot)
    (iff_of_true (by simp [ready]) (.inl rfl))
    fun slot apart => ⟨.inr, fun here => here.resolve_left apart⟩
  have slots : ∀ u : ThreadSystem, u.threads = update s.threads chosen thread →
      usedSlots u = insert chosen (usedSlots s) := by
    intro u threads
    ext slot
    simp only [usedSlots, Finset.mem_filter, Finset.mem_univ, true_and, Finset.mem_insert, Used,
      threads, used]
  have running : s.currentSlot ≠ chosen := by
    intro same
    rw [← same, (sound.running _).mpr rfl] at free
    cases free
  have new : chosen ∉ usedSlots s := by simp [usedSlots, Used, free]
  have few : (usedSlots s).card ≤ 8 := (Finset.card_le_univ _).trans_eq (Fintype.card_fin _)
  have fewer := usedSlots_card_le s
  have next := sound.next
  have identifiers : (s.nextIdentifier + 1) % 2 ^ 64 = s.nextIdentifier + 1 := by omega
  rw [identifiers]
  refine ⟨⟨⟨sound.active, ?_, ?_, ?_, ?_, rfl, rfl, rfl, ?_, ?_, ?_⟩, ?_, ?_, ?_, sound.held, ?_,
    sound.panics⟩, ?_, ?_, id⟩
  · exact every (fun slot thread => thread.state = .running ↔ slot = s.currentSlot)
      (iff_of_false (by simp [ready]) running.symm) fun slot _ => sound.running slot
  · exact sound.current.trans (congrArg _ (update_of_ne running _ _).symm)
  · exact every (fun slot thread => thread.bootThread ↔ slot = bootSlot)
      (iff_of_false (by simp [ordinary]) created) fun slot _ => sound.boot slot
  · exact every (fun slot thread => slot = bootSlot → thread.state = .ready ∨ thread.state = .running)
      (fun same => absurd same created) (fun _ _ same => same ▸ sound.bootRunnable) bootSlot rfl
  · have fresh := every (fun slot thread => thread.state ≠ .unused →
        thread.identifier = s.nextIdentifier → slot = chosen) (fun _ _ => rfl)
      fun slot _ here same => absurd same (ne_of_lt (sound.below slot here))
    intro a b here there (same : (update s.threads chosen thread a).identifier =
      (update s.threads chosen thread b).identifier)
    by_cases first : a = chosen
    · rw [first, update_self, named] at same
      rw [first, fresh b there same.symm]
    by_cases second : b = chosen
    · rw [second, update_self, named] at same
      exact absurd (fresh a here same) first
    · rw [update_of_ne first, update_of_ne second] at same
      exact sound.distinct a b (((used a).mp here).resolve_left first)
        (((used b).mp there).resolve_left second) same
  · exact every (fun _ thread => thread.state ≠ .unused → thread.identifier ≠ threadIdNone)
      (fun _ => by rw [named, next]; exact Nat.succ_ne_zero _) fun slot _ => sound.nonzero slot
  · rw [slots _ rfl, Finset.erase_insert_of_ne created,
      Finset.card_insert_of_notMem fun here => new (Finset.mem_of_mem_erase here)]
    change (s.stackFrames + threadStackPages) % 2 ^ 64 = _
    rw [sound.stackFrames]
    unfold threadStackPages
    omega
  · rw [slots _ rfl, Finset.card_insert_of_notMem new, ← next]
    rfl
  · exact every (fun _ thread => thread.state ≠ .unused → thread.identifier < s.nextIdentifier + 1)
      (fun _ => by rw [named]; exact Nat.lt_succ_self _)
      fun slot _ here => Nat.lt_succ_of_lt (sound.below slot here)
  · refine (backed.mono ?_).congr rfl rfl
    rintro place ⟨later, here, small⟩
    obtain own | old := (used place.1).mp here
    · exact .inr ⟨own, small⟩
    · exact .inl ⟨later, old, small⟩
  · exact every (fun _ thread => thread.resumption = .threadExit → thread.state = .exited)
      (fun exits => by rw [starts] at exits; cases exits) fun slot _ => sound.exits slot
  · exact every (fun slot thread => (s.threads slot).state = .exited → thread.state = .exited)
      (fun exited => by rw [free] at exited; cases exited) fun _ _ => id
  · exact every (fun slot thread => (s.threads slot).state = .ready → thread.state = .running ∨
        thread.state = .ready ∧ (s.currentSlot = s.currentSlot ∨ _ < _))
      (fun waits => by rw [free] at waits; cases waits) fun _ _ waits => .inr ⟨waits, .inl rfl⟩

/-- A `thread_create` that gets as far as `map_stack` and finds too few frames or an unwilling
paging layer there leaves other page tables than it found: some that a refused `paging_map` has
drawn and keeps, or without some that stood empty before and went with an unwound page. -/
def TablesMoved (s : ThreadSystem) : ThreadEvent → Prop
  | .create entry _ writable supply answers => s.panic = none ∧ ¬(entry = 0 ∨ !writable) ∧
    s.active ∧ s.interruptsEnabled = false ∧ ∃ chosen, unusedSlot s = some chosen ∧
      tablesLeft s chosen supply answers (.range threadStackPages) ≠ s.tableFrames
  | _ => False

/-- `thread_create` is refused without a trace but in the page tables, or makes a thread. -/
theorem threadCreate_cases {entry context : Nat} {writable : Bool} {supply : Nat → Option Nat}
    {answers : PagingAnswers} (sound : Sound s) (alive : s.panic = none) :
    let result := threadCreate s entry context writable supply answers
    (∃ tables, result.2.2 = { s with tableFrames := tables } ∧
      (tables = s.tableFrames ↔ ¬TablesMoved s (.create entry context writable supply answers))) ∨
    result.1 = .ok ∧ Proceeds s result.2.2 := by
  unfold threadCreate
  split
  · rename_i bad
    exact .inl ⟨_, rfl, iff_of_true rfl fun moved => moved.2.1 bad⟩
  rename_i good
  split
  · exact absurd sound.active (by simp_all)
  split
  · rename_i enabled
    exact .inl ⟨_, rfl, iff_of_true rfl fun moved => by simp [moved.2.2.2.1] at enabled⟩
  rename_i off
  cases found : unusedSlot s with
  | none =>
    refine .inl ⟨_, rfl, iff_of_true rfl fun moved => ?_⟩
    obtain ⟨-, -, -, -, chosen, here, -⟩ := moved
    cases found.symm.trans here
  | some chosen =>
    obtain ⟨created, free⟩ := unusedSlot_some found
    have outcome := @mapStack_backed s (ownedPages s) chosen supply answers sound.backed
    dsimp only at outcome ⊢
    generalize mapStack s chosen supply answers = mapped at outcome ⊢
    obtain ⟨failed, left⟩ | ⟨ok, mapped_eq, backed⟩ := outcome
    · rw [if_pos failed]
      refine .inl ⟨_, left, fun same moved => ?_, fun still => ?_⟩
      · obtain ⟨-, -, -, -, other, here, differ⟩ := moved
        cases found.symm.trans here
        exact differ same
      · by_contra differ
        exact still ⟨alive, good, sound.active, by simpa using off, chosen, found, differ⟩
    · rw [if_neg (not_not_intro ok), mapped_eq]
      exact .inr ⟨rfl, sound.created free created (backed.congr rfl rfl) rfl rfl rfl rfl⟩

structure Stocked (s : ThreadSystem) : Prop where
  backed : Backed s (ownedPages s)
  frames : s.stackFrames = threadStackPages * ((usedSlots s).erase bootSlot).card
  held : s.tableHeld

theorem Sound.stocked (sound : Sound s) : Stocked s :=
  ⟨sound.backed, sound.stackFrames, sound.held⟩

/-- One exited thread dismantled. -/
theorem Stocked.release (stocked : Stocked s) (created : slot ≠ bootSlot)
    (exited : (s.threads slot).state = .exited) (returned : Nat → List Nat) :
    let unmapped := unmapStack slot returned (List.range threadStackPages) s
    unmapped.1 = .ok ∧
      (∀ other, ((setThread unmapped.2 slot unusedThread).threads other).state =
        if other = slot then .unused else (s.threads other).state) ∧
      Stocked (setThread unmapped.2 slot unusedThread) := by
  have used : Used s slot := by rw [Used, exited]; simp
  have member : slot ∈ (usedSlots s).erase bootSlot :=
    Finset.mem_erase.mpr ⟨created, Finset.mem_filter.mpr ⟨Finset.mem_univ _, used⟩⟩
  have some_slot := Finset.card_pos.mpr ⟨slot, member⟩
  have bounded := usedSlots_card_le s
  have frames := stocked.frames
  have pages : ∀ page ∈ List.range threadStackPages, (slot, page) ∈ ownedPages s :=
    fun page small => ⟨created, used, mem_range.mp small⟩
  have enough : (List.range threadStackPages).length ≤ s.stackFrames := by
    rw [frames, length_range]
    exact Nat.le_mul_of_pos_right _ some_slot
  have small : s.stackFrames < 2 ^ 64 := by
    rw [frames]
    unfold threadStackPages
    omega
  obtain ⟨ok, result, backed⟩ :=
    unmapStack_backed stocked.backed nodup_range pages enough small returned
  generalize (unmapStack slot returned (.range threadStackPages) s) = unmapped at ok result backed ⊢
  have threads : unmapped.2.threads = s.threads := by rw [result]
  have states : ∀ other, ((setThread unmapped.2 slot unusedThread).threads other).state =
      if other = slot then .unused else (s.threads other).state := by
    intro other
    by_cases same : other = slot
    · rw [if_pos same, same]
      simp [setThread, unusedThread]
    · rw [if_neg same]
      simp [setThread, same, threads]
  have left : (usedSlots (setThread unmapped.2 slot unusedThread)).erase bootSlot =
      ((usedSlots s).erase bootSlot).erase slot := by
    ext other
    simp only [usedSlots, Finset.mem_erase, Finset.mem_filter, Finset.mem_univ, true_and, Used,
      states]
    by_cases same : other = slot
    · simp [same]
    · simp [same]
  refine ⟨ok, states, ⟨?_, ?_, ?_⟩⟩
  · refine (backed.mono ?_).congr rfl rfl
    rintro place ⟨later, here, low⟩
    rw [Used, states] at here
    by_cases same : place.1 = slot
    · rw [if_pos same] at here
      exact absurd rfl here
    · rw [if_neg same] at here
      exact ⟨⟨later, here, low⟩, fun own => same own.1⟩
  · rw [left, Finset.card_erase_of_mem member]
    change unmapped.2.stackFrames = _
    rw [result, length_range, frames, Nat.mul_sub, Nat.mul_one]
  · rw [result]
    exact stocked.held

/-- The loop over the exited threads ends with their slots unused. -/
theorem releaseExited_stocked {slots : List Slot} {returned : Slot → Nat → List Nat}
    (stocked : Stocked s)
    (created : ∀ slot ∈ slots, slot ≠ bootSlot)
    (gone : ∀ slot ∈ slots, (s.threads slot).state = .exited ∨ (s.threads slot).state = .unused) :
    (releaseExited returned slots s).1 = .ok ∧ Stocked (releaseExited returned slots s).2 ∧
      (∀ slot ∈ slots, ¬ Used (releaseExited returned slots s).2 slot) ∧
      ∀ slot, Used (releaseExited returned slots s).2 slot → Used s slot := by
  induction slots generalizing s with
  | nil => exact ⟨rfl, stocked, forall_mem_nil _, fun _ => id⟩
  | cons slot slots ih =>
    have others := fun other (member : other ∈ slots) =>
      created other (.tail _ member)
    unfold releaseExited
    by_cases exited : (s.threads slot).state = .exited
    · rw [if_pos exited]
      obtain ⟨ok, states, rest⟩ := stocked.release (created slot mem_cons_self) exited
        (returned slot)
      rw [if_neg (not_not_intro ok)]
      generalize setThread (unmapStack slot (returned slot) (.range threadStackPages) s).2 slot
        unusedThread = t at states rest ⊢
      obtain ⟨done, stocked', cleared, fewer⟩ := ih rest others (by
        intro other member
        rw [states]
        split
        · exact .inr rfl
        · exact gone other (.tail _ member))
      have unused : ¬ Used t slot := by simp [Used, states]
      refine ⟨done, stocked', ?_, fun other used => ?_⟩
      · intro other member
        cases member with
        | head => exact fun used => unused (fewer _ used)
        | tail _ later => exact cleared other later
      · have here := fewer other used
        rw [Used, states] at here
        split at here
        · exact absurd rfl here
        · exact here
    · rw [if_neg exited]
      have unused : ¬ Used s slot :=
        not_not_intro ((gone slot mem_cons_self).resolve_left exited)
      obtain ⟨done, stocked', cleared, fewer⟩ := ih stocked others
        fun other member => gone other (.tail _ member)
      refine ⟨done, stocked', ?_, fewer⟩
      intro other member
      cases member with
      | head => exact fun used => unused (fewer _ used)
      | tail _ later => exact cleared other later

/-- Once nothing but the boot thread is runnable the table comes down completely. -/
theorem Stocked.releaseExited_frames (stocked : Stocked s)
    (gone : ∀ slot ∈ (List.finRange threadMax).tail,
      (s.threads slot).state = .exited ∨ (s.threads slot).state = .unused)
    (returned : Slot → Nat → List Nat) :
    let result := releaseExited returned (List.finRange threadMax).tail s
    result.1 = .ok ∧ result.2.stackFrames = 0 ∧ result.2.tableHeld := by
  have later : ∀ slot ∈ (List.finRange threadMax).tail, slot ≠ bootSlot := by decide
  have every : ∀ slot : Slot, slot ≠ bootSlot → slot ∈ (List.finRange threadMax).tail := by decide
  obtain ⟨ok, rest, cleared, -⟩ := releaseExited_stocked stocked later gone
  refine ⟨ok, ?_, rest.held⟩
  rw [rest.frames, Nat.mul_eq_zero]
  refine .inr (Finset.card_eq_zero.mpr (Finset.eq_empty_of_forall_notMem fun slot here => ?_))
  obtain ⟨created, used⟩ := Finset.mem_erase.mp here
  exact cleared slot (every slot created) (Finset.mem_filter.mp used).2

/-- A refused `thread_stop` at most turns preemption off. -/
theorem threadStop_refused {returned : Slot → Nat → List Nat} (sound : Sound s)
    (refused : (threadStop s returned).1 ≠ .ok) :
    (threadStop s returned).2 = if s.preemptive ∧ s.interruptsEnabled = false ∧
      s.currentSlot = bootSlot then (threadDisablePreemption s).2 else s := by
  revert refused
  unfold threadStop
  split
  · exact absurd sound.active (by simp_all)
  split
  · exact fun _ => (if_neg (by simp_all)).symm
  rename_i quiet
  split
  · rename_i created
    exact fun _ => (if_neg fun h => by simp [(sound.boot _).mpr h.2.2] at created).symm
  rename_i boot
  have here := (sound.boot _).mp (by simpa using boot)
  have disabled : (if s.preemptive ∧ s.interruptsEnabled = false ∧
      s.currentSlot = bootSlot then (threadDisablePreemption s).2 else s) =
      if s.preemptive then (threadDisablePreemption s).2 else s := by simp [quiet, here]
  have stocked : Stocked (if s.preemptive then (threadDisablePreemption s).2 else s) := by
    split
    · exact (threadDisablePreemption_proceeds sound).sound.stocked
    · exact sound.stocked
  rw [disabled]
  dsimp only
  generalize (if s.preemptive then (threadDisablePreemption s).2 else s) = t at stocked ⊢
  split
  · exact fun _ => rfl
  rename_i idle
  obtain ⟨ok, frames, held⟩ := stocked.releaseExited_frames (by
    intro slot member
    simp only [any_eq_true, Bool.or_eq_true, decide_eq_true_eq, not_exists,
      not_and, not_or] at idle
    have still := idle slot member
    cases state : (t.threads slot).state with
    | unused => exact .inr rfl
    | ready => exact absurd state still.1
    | running => exact absurd state still.2
    | exited => exact .inl rfl) returned
  rw [if_neg (not_not_intro ok), if_neg (not_not_intro frames), if_neg (by simp [held])]
  exact fun refused => absurd rfl refused

def adoptedThreads : Slot → Thread := Function.update (fun _ => unusedThread) bootSlot
  { unusedThread with identifier := 1, state := .running, bootThread := true }

/-- `thread_start` adopts the boot thread as the only one. -/
theorem threadStart_sound {heap paging memory : Bool} (alive : s.panic = none)
    (started : (threadStart s heap paging memory).1 = .ok) :
    Sound (threadStart s heap paging memory).2 ∧ Rested (threadStart s heap paging memory).2 := by
  have every (p : Slot → Thread → Prop) here rest : ∀ slot, p slot (adoptedThreads slot) :=
    (forall_update_iff _ p).mpr ⟨here, rest⟩
  have used := every (fun slot thread => thread.state ≠ .unused ↔ slot = bootSlot)
    (iff_of_true nofun rfl) fun slot apart => iff_of_false (not_not_intro rfl) apart
  have slots : ∀ u : ThreadSystem, u.threads = adoptedThreads → usedSlots u = {bootSlot} := by
    intro u threads
    ext slot
    rw [usedSlots, Finset.mem_filter, and_iff_right (Finset.mem_univ _), Finset.mem_singleton,
      ← used, ← threads]
    rfl
  revert started
  unfold threadStart
  iterate 4
    split
    · simp
  intro _
  refine ⟨⟨⟨rfl, ?_, rfl, ?_, .inr rfl, rfl, rfl, rfl, ?_, ?_, ?_⟩, ?_, ?_, ?_, rfl, ?_, ?_⟩,
    fun _ => rfl⟩
  · exact every (fun slot thread => thread.state = .running ↔ slot = bootSlot)
      (iff_of_true rfl rfl) fun _ apart => iff_of_false nofun apart
  · exact every (fun slot thread => thread.bootThread ↔ slot = bootSlot)
      (iff_of_true rfl rfl) fun _ apart => iff_of_false nofun apart
  · exact fun a b first second _ => ((used a).mp first).trans ((used b).mp second).symm
  · exact every (fun _ thread => thread.state ≠ .unused → thread.identifier ≠ threadIdNone)
      (fun _ => Nat.one_ne_zero) fun _ _ here => absurd rfl here
  · rw [slots _ rfl]
    rfl
  · rw [slots _ rfl]
    rfl
  · exact every (fun _ thread => thread.state ≠ .unused → thread.identifier < 2)
      (fun _ => Nat.lt_succ_self 1) fun _ _ here => absurd rfl here
  · exact ⟨fun place here => absurd ((used place.1).mp here.2.1) here.1,
      fun place here => absurd ((used place.1).mp here.2.1) here.1⟩
  · exact every (fun _ thread => thread.resumption = .threadExit → thread.state = .exited)
      nofun fun _ _ => nofun
  · exact alive.symm ▸ ⟨nofun, nofun⟩

/-- The event is not a `thread_stop` that goes through. -/
def Refused (s : ThreadSystem) (event : ThreadEvent) : Prop :=
  ∀ returned, event = .stop returned → (threadStep s event).1 ≠ some .ok

theorem threadStep_proceeds (event : ThreadEvent) (sound : Sound s) (refused : Refused s event) :
    Proceeds s (threadStep s event).2 := by
  unfold Refused at refused
  unfold threadStep at refused ⊢
  split
  · exact .refl sound
  rename_i running
  rw [if_neg running] at refused
  cases event with
  | create entry context writable supply answers =>
    obtain ⟨_, same, -⟩ | ⟨-, made⟩ := threadCreate_cases sound (by simpa using running)
    · rw [same]
      exact sound.proceeds {} sound.panics
    · exact made
  | yield =>
    unfold threadYield
    rw [if_neg (by simp [sound.active])]
    exact switchToNext_proceeds sound
  | quantumExpired armed => exact quantumExpired_proceeds sound armed
  | interruptReturn => exact threadOnInterruptReturn_proceeds sound
  | exit => exact threadExit_proceeds sound
  | enablePreemption timer armed => exact threadEnablePreemption_proceeds sound timer armed
  | disablePreemption => exact threadDisablePreemption_proceeds sound
  | stop returned =>
    rw [threadStop_refused sound fun ok => refused returned rfl (congrArg some ok)]
    split
    · exact threadDisablePreemption_proceeds sound
    · exact .refl sound
  | setInterrupts enabled => exact sound.proceeds (sameTable_interrupts s enabled) sound.panics

/-- In every run after `thread_start` the table stays consistent, a thread that exited
stays so, and neither deadlock nor a resumed exited thread is ever reached. -/
theorem scheduler_table_consistent (s : ThreadSystem) (heap paging memory : Bool)
    (alive : s.panic = none) (started : (threadStart s heap paging memory).1 = .ok)
    (events : List ThreadEvent)
    (refused : Along (fun s event => (threadStep s event).2) Refused
      (threadStart s heap paging memory).2 events) :
    let step := fun s event => (threadStep s event).2
    let start := (threadStart s heap paging memory).2
    Throughout step (fun t => TableConsistent t ∧ t.panic ≠ some .lastRunnableExited ∧
        t.panic ≠ some .exitedThreadScheduled) start events ∧
      ∀ earlier later, earlier <+: later → later <+: events → ∀ slot,
        ((run step start earlier).threads slot).state = .exited →
          ((run step start later).threads slot).state = .exited := by
  intro step start
  have moves : ∀ s event, Sound s → Refused s event →
      Sound (step s event) ∧ KeepsExited s (step s event) := fun s event sound refused =>
    have proceeds := threadStep_proceeds event sound refused
    ⟨proceeds.sound, proceeds.keeps⟩
  have reach := fun s sound ops along => run_relates step Sound Refused KeepsExited
    (fun _ _ => id) (fun _ _ _ first second slot exited => second slot (first slot exited))
    moves ops s sound along
  have sound := (threadStart_sound alive started).1
  refine ⟨?_, ?_⟩
  · rintro done ⟨rest, rfl⟩
    have last := (reach _ sound done ((along_append _ _ _ _ _).mp refused).1).1
    exact ⟨last.toTableConsistent, last.panics⟩
  · rintro earlier later ⟨between, rfl⟩ ⟨rest, rfl⟩ slot exited
    obtain ⟨first, second⟩ := (along_append _ _ _ _ _).mp ((along_append _ _ _ _ _).mp refused).1
    rw [run_append]
    exact (reach _ (reach _ sound _ first).1 _ second).2 slot exited

def idleSystem : ThreadSystem where
  active := false
  live := 0
  ready := 0
  exited := 0
  current := threadIdNone
  switches := 0
  stackFrames := 0
  preemptions := 0
  preemptive := false
  threads := fun _ => unusedThread
  currentSlot := bootSlot
  nextIdentifier := 0
  reschedulePending := false
  quantumIdentifier := threadIdNone
  tableHeld := false
  stackPages := fun _ _ => none
  taken := fun _ => false
  tableFrames := fun _ => false
  interruptsEnabled := false
  panic := none

/-- Frames 0 to 3 for the pages, and 8 and 9 for the tables that the first page needs. -/
def createOne : ThreadEvent :=
  .create 1 0 true (fun page => some page) ⟨fun _ => true, fun page => if page = 0 then [8, 9] else [],
    fun _ => []⟩

def stopAll : ThreadEvent := .stop fun _ _ => []

def shortLife : List ThreadEvent := [createOne, .yield, .setInterrupts false, stopAll, .exit]

theorem scheduler_table_consistent_short_life :
    let step := fun s event => (threadStep s event).2
    let start := (threadStart idleSystem true true true).2
    (threadStart idleSystem true true true).1 = .ok ∧
      ((run step start shortLife).threads (slotAfter bootSlot 1)).state = .exited ∧
      TableConsistent (run step start shortLife) := by
  intro step start
  refine ⟨by decide +kernel, by decide +kernel, ?_⟩
  refine ((scheduler_table_consistent idleSystem true true true rfl (by decide +kernel) shortLife
    ⟨nofun, nofun, nofun, ?_, nofun, trivial⟩).1 shortLife (prefix_refl _)).1
  intro _ _
  decide +kernel

/-- Events after `thread_start`, none of them a `thread_stop` that goes through. -/
def Reachable (s : ThreadSystem) : Prop :=
  ∃ before heap paging memory events, before.panic = none ∧
    (threadStart before heap paging memory).1 = .ok ∧
    Along (fun s event => (threadStep s event).2) Refused
      (threadStart before heap paging memory).2 events ∧
    run (fun s event => (threadStep s event).2) (threadStart before heap paging memory).2 events = s

theorem Reachable.sound (reachable : Reachable s) : Sound s ∧ Rested s := by
  obtain ⟨before, heap, paging, memory, events, alive, started, along, rfl⟩ := reachable
  refine throughout_of_along _ (fun s => Sound s ∧ Rested s) Refused ?_ events _
    (threadStart_sound alive started) along events (prefix_refl _)
  intro s event ⟨sound, rested⟩ refused
  have proceeds := threadStep_proceeds event sound refused
  exact ⟨proceeds.sound, proceeds.rested rested⟩

/-- The current slot changes with every switch, and only then. -/
def contextSwitches : ThreadSystem → List ThreadEvent → Nat
  | _, [] => 0
  | s, event :: events =>
    (if (threadStep s event).2.currentSlot = s.currentSlot then 0 else 1) +
      contextSwitches (threadStep s event).2 events

/-- Every switch brings a thread that stays ready nearer to its turn. -/
theorem Sound.awaits {events : List ThreadEvent} (sound : Sound s)
    (ready : (s.threads slot).state = .ready)
    (along : Along (fun s event => (threadStep s event).2) Refused s events) :
    (∃ done, done <+: events ∧ contextSwitches s done ≤ scanDistance s.currentSlot slot + 1 ∧
      ((run (fun s event => (threadStep s event).2) s done).threads slot).state = .running) ∨
    contextSwitches s events ≤ scanDistance s.currentSlot slot := by
  induction events generalizing s with
  | nil => exact .inr (Nat.zero_le _)
  | cons event events ih =>
    have proceeds := threadStep_proceeds event sound along.1
    obtain running | ⟨still, nearer⟩ := proceeds.nears slot ready
    · refine .inl ⟨[event], (prefix_cons_inj event).mpr nil_prefix, ?_, running⟩
      unfold contextSwitches contextSwitches
      split <;> omega
    have fewer : (if (threadStep s event).2.currentSlot = s.currentSlot then 0 else 1) +
        scanDistance (threadStep s event).2.currentSlot slot ≤ scanDistance s.currentSlot slot := by
      obtain same | closer := nearer
      · rw [if_pos same, same, zero_add]
      · split <;> omega
    obtain ⟨done, pre, count, running⟩ | count := ih proceeds.sound still along.2
    · refine .inl ⟨event :: done, (prefix_cons_inj event).mpr pre, ?_, running⟩
      unfold contextSwitches
      omega
    · refine .inr ?_
      unfold contextSwitches
      omega

/-- A ready thread runs before there have been more switches than other slots. -/
theorem ready_thread_runs_within_capacity {slot : Slot} {events : List ThreadEvent}
    (reachable : Reachable s) (ready : (s.threads slot).state = .ready)
    (along : Along (fun s event => (threadStep s event).2) Refused s events)
    (enough : threadMax - 1 ≤ contextSwitches s events) :
    ∃ done, done <+: events ∧ contextSwitches s done ≤ threadMax - 1 ∧
      ((run (fun s event => (threadStep s event).2) s done).threads slot).state = .running := by
  have sound := reachable.sound.1
  have near : scanDistance s.currentSlot slot + 1 ≤ threadMax - 1 := by
    have apart : slot ≠ s.currentSlot := by
      intro same
      rw [(sound.running slot).mpr same] at ready
      cases ready
    have other := Fin.val_ne_of_ne apart
    simp only [scanDistance]
    unfold threadMax at *
    omega
  obtain ⟨done, pre, count, running⟩ | count := sound.awaits ready along
  · exact ⟨done, pre, count.trans near, running⟩
  · omega

def pairSystem : ThreadSystem := (threadStep (threadStart idleSystem true true true).2 createOne).2

theorem reachable_pairSystem : Reachable pairSystem :=
  ⟨idleSystem, true, true, true, [createOne], rfl, rfl, ⟨nofun, trivial⟩, rfl⟩

theorem ready_thread_runs_within_seven_yields :
    ∃ done, done <+: List.replicate 7 .yield ∧ contextSwitches pairSystem done ≤ threadMax - 1 ∧
      ((run (fun s event => (threadStep s event).2) pairSystem done).threads
        (slotAfter bootSlot 1)).state = .running :=
  ready_thread_runs_within_capacity reachable_pairSystem (by decide +kernel)
    ⟨nofun, nofun, nofun, nofun, nofun, nofun, nofun, trivial⟩ (by decide +kernel)

end

end Sapote.Threads
