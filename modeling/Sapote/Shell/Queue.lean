import Mathlib.Data.List.Chain
import Sapote.Library.Run
import Sapote.Shell.Input

/-!
The event queue of the user interface over whole runs. `ui_event_publish` and `pop_event` mask
interrupts while they work, so however handlers and the loop interleave, whole calls follow
each other.
-/

namespace Sapote.Shell
open Library List

inductive UiCall where
  | publish (event : Option (Except Int UiEvent))
  | pop

/-- The queue with its past: the events published, each with the answer, and those drained. -/
structure UiHistory where
  events : UiEvents
  published : List (UiEvent × UiStatus)
  popped : List UiEvent

def historyStep (h : UiHistory) : UiCall → UiHistory
  | .publish event =>
    let result := uiEventPublish h.events event
    { h with
      events := result.2
      published := match event with
        | some (.ok event) => h.published ++ [(event, result.1)]
        | _ => h.published }
  | .pop =>
    let result := popEvent h.events
    { h with events := result.2, popped := h.popped ++ result.1.toList }

def emptyHistory : UiHistory := ⟨noEvents, [], []⟩

/-- Of the events published, those that were not lost: only a movement is lost once taken, to
a later movement in its place or to an event of another kind. -/
inductive Survives : List (UiEvent × UiStatus) → List UiEvent → Prop
  | nil : Survives [] []
  | taken {published kept} (event : UiEvent) :
      Survives published kept → Survives (published ++ [(event, .ok)]) (kept ++ [event])
  | refused {published kept} (event : UiEvent) :
      Survives published kept → Survives (published ++ [(event, .eventQueueFull)]) kept
  | replaced {published kept movement event} :
      movement.moves → event.moves → Survives published (kept ++ [movement]) →
        Survives (published ++ [(event, .ok)]) (kept ++ [event])
  | evicted {published kept movement later event} :
      movement.moves → event.moves = false →
        Survives published (kept ++ movement :: later) →
          Survives (published ++ [(event, .ok)]) (kept ++ later ++ [event])

section
variable {published : List (UiEvent × UiStatus)} {kept : List UiEvent}

theorem Survives.sublist (survives : Survives published kept) :
    kept.Sublist (published.map Prod.fst) := by
  induction survives with
  | nil => exact .refl _
  | taken event _ ih => simpa using ih
  | refused event _ ih => simpa using ih.trans (sublist_append_left _ _)
  | replaced _ _ _ ih => simpa using (sublist_append_left _ _).trans ih
  | evicted _ _ _ ih =>
    rw [map_append]
    refine (List.Sublist.trans ?_ ih).append (List.Sublist.refl _)
    exact (List.Sublist.refl _).append (sublist_cons_self _ _)

/-- No event of another kind is lost once it was taken. -/
theorem Survives.others (survives : Survives published kept) :
    kept.filter (!·.moves) = (published.filter fun p => p.2 = .ok && !p.1.moves).map Prod.fst := by
  induction survives with
  | nil => rfl
  | taken event _ ih => cases moves : event.moves <;> simp [ih, moves]
  | refused event _ ih => simp [ih]
  | replaced gone moves _ ih => simpa [gone, moves] using ih
  | evicted gone stays _ ih =>
    rw [filter_append, filter_cons_of_neg (by simp [gone])] at ih
    simp [stays, ← ih]

/-- No two movements stand next to each other. -/
def Apart (a b : UiEvent) : Prop := ¬(a.moves ∧ b.moves)

/-- What holds of the queue between two calls. -/
structure Disciplined (h : UiHistory) : Prop where
  few : h.events.queue.length ≤ uiEventQueueCapacity
  counted : h.events.accepted = h.events.drained + h.events.coalesced + h.events.dropped +
    .ofNat h.events.queue.length
  apart : h.events.queue.IsChain Apart
  survives : Survives h.published (h.popped ++ h.events.queue)

variable {h : UiHistory}

theorem Disciplined.publish (sound : Disciplined h) (event : UiEvent) :
    Disciplined (historyStep h (.publish (some (.ok event)))) := by
  obtain ⟨few, counted, apart, survives⟩ := sound
  unfold historyStep uiEventPublish
  dsimp only
  split
  next merged =>
    obtain ⟨last, found, moved⟩ := (Option.any_eq_true _ _).mp merged.2
    rw [← dropLast_append_getLast? last found] at few counted apart survives
    obtain ⟨chain, -, beside⟩ := isChain_append.mp apart
    rw [← append_assoc] at survives
    rw [length_append, length_singleton] at few counted
    refine ⟨?_, ?_, ?_, ?_⟩
    · rw [length_append]
      exact few
    · rw [length_append, length_singleton]
      grind
    · refine isChain_append.mpr ⟨chain, isChain_singleton _, fun x here y _ both => ?_⟩
      exact beside x here last rfl ⟨both.1, moved⟩
    · rw [← append_assoc]
      exact .replaced moved merged.1 survives
  next new =>
  split
  next full =>
    split
    next => exact ⟨few, by grind, apart, .refused event survives⟩
    next stays =>
    split
    next found =>
      obtain ⟨_, member, moving⟩ := any_eq_true.mp found
      obtain ⟨gone, front, later, still, moved, split, erased⟩ :=
        exists_of_eraseP member moving
      rw [split] at few counted apart survives
      rw [erased]
      obtain ⟨chain, tail, -⟩ := isChain_append.mp apart
      rw [← append_assoc] at survives
      simp only [length_append, length_cons] at few counted
      refine ⟨?_, ?_, ?_, ?_⟩
      · simp only [length_append, length_singleton]
        omega
      · simp only [length_append, length_singleton]
        grind
      · refine isChain_append.mpr ⟨isChain_append.mpr ⟨chain, tail.tail, ?_⟩,
          isChain_singleton _, ?_⟩
        · exact fun x here y _ both => still x (mem_of_getLast? here) both.1
        · rintro x here y ⟨⟩ both
          exact stays both.2
      · simp only [← append_assoc]
        exact .evicted moved (eq_false_of_ne_true stays) survives
    next => exact ⟨few, by grind, apart, .refused event survives⟩
  next room =>
    refine ⟨?_, ?_, ?_, ?_⟩
    · rw [length_append, length_singleton]
      omega
    · rw [length_append, length_singleton]
      grind [UInt64.ofNat_add h.events.queue.length 1]
    · refine isChain_append.mpr ⟨apart, isChain_singleton _, ?_⟩
      rintro x here y ⟨⟩ both
      exact new ⟨both.2, (Option.any_eq_true _ _).mpr ⟨x, here, both.1⟩⟩
    · rw [← append_assoc]
      exact .taken event survives

theorem Disciplined.step (sound : Disciplined h) (call : UiCall) :
    Disciplined (historyStep h call) := by
  cases call with
  | publish event =>
    match event with
    | none | some (.error _) => exact { sound with }
    | some (.ok event) => exact sound.publish event
  | pop =>
    obtain ⟨few, counted, apart, survives⟩ := sound
    unfold historyStep popEvent
    dsimp only
    split
    next => exact ⟨few, counted, apart, by simpa using survives⟩
    next event rest split =>
    rw [split] at few counted apart survives
    refine ⟨Nat.le_of_succ_le few, ?_, apart.tail, by simpa using survives⟩
    rw [length_cons] at counted
    grind [UInt64.ofNat_add rest.length 1]

end

/-- However publishing and draining interleave: the queue is bounded and its counters balance, no
two movements are adjacent, every other event that was taken is drained in order or still
queued, and refused only for want of a movement to evict, and the events drained are those
published but for the refused ones and movements that were replaced or evicted. -/
theorem ui_event_queue_discipline (calls : List UiCall) :
    let h := Library.run historyStep emptyHistory calls
    let s := h.events
    s.queue.length ≤ uiEventQueueCapacity ∧
      s.accepted = s.drained + s.coalesced + s.dropped + .ofNat s.queue.length ∧
      s.queue.IsChain Apart ∧
      (h.popped ++ s.queue).filter (!·.moves) =
        (h.published.filter fun p => p.2 = .ok && !p.1.moves).map Prod.fst ∧
      (∀ event : UiEvent, event.moves = false → (uiEventPublish s (some (.ok event))).1 ≠ .ok →
        s.queue.length = uiEventQueueCapacity ∧ ∀ e ∈ s.queue, e.moves = false) ∧
      h.popped.Sublist (h.published.map Prod.fst) ∧ Survives h.published (h.popped ++ s.queue) := by
  intro h s
  have start : Disciplined emptyHistory := ⟨Nat.zero_le _, rfl, .nil, .nil⟩
  have sound : Disciplined h :=
    run_invariant historyStep Disciplined (fun _ call sound => sound.step call) calls _ start
  refine ⟨sound.few, sound.counted, sound.apart, sound.survives.others, ?_,
    (sublist_append_left _ _).trans sound.survives.sublist, sound.survives⟩
  intro event stays refused
  by_contra other
  refine refused ?_
  simp only [not_and, not_forall, Bool.not_eq_false] at other
  simp only [uiEventPublish, stays, Bool.false_eq_true, false_and, if_false]
  split
  next full =>
    obtain ⟨e, member, moves⟩ := other full
    rw [if_pos (any_eq_true.mpr ⟨e, member, moves⟩)]
  next => rfl

end Sapote.Shell
