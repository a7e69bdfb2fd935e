import Sapote.Msix.Held

/-!
A bind is a transaction. What `Held` says was acquired, the rollback gives back: the
entry, the vector and the handler always, the mappings and the control word unless it
reports a failure, which takes a bus master or a port that refuses.
-/

namespace Sapote.Msix
open Frames Paging Pci Interrupts Library
variable {b : MsixBinding} {m : MsixMachine} {reads : Bool} {entryIndex : Nat}
  {s : MsixMachine × Option MsixBinding}

/-- What a caller of a bind can see of the machine is as it was. -/
structure Restored (before after : MsixMachine) : Prop where
  allocated : after.vectors.allocated = before.vectors.allocated
  handlers : after.handlers = before.handlers
  words : after.words = before.words
  control : after.control = before.control
  mappings : ∀ name, (after.resources.claims name).mappings =
    (before.resources.claims name).mappings
  arena : ∀ page, arenaBit after.resources.arenaBitmap page =
    arenaBit before.resources.arenaBitmap page
  activeBindings : after.activeBindings = before.activeBindings

theorem Restored.refl (m : MsixMachine) : Restored m m :=
  ⟨rfl, rfl, rfl, rfl, fun _ => rfl, fun _ => rfl, rfl⟩

section
variable {hw : MsixHardware} {live : Finset Nat} {before : MsixMachine} {name : Nat} {u : Undo}

structure Unwound (hw : MsixHardware) (live : Finset Nat) (before : MsixMachine) (name : Nat)
    (u : Undo) : Prop extends Grounded hw before name u.machine u.binding where
  words : u.machine.words = before.words
  allocated : u.machine.vectors.allocated = before.vectors.allocated
  handlers : u.machine.handlers = before.handlers
  stacked : Stacked live before.resources u.machine.resources name u.binding.pushed
  apart : u.binding.pbaMappedHere → u.binding.pbaBar ≠ u.binding.tableBar

section
variable (held : Held hw live before name u.machine u.binding)
include held

theorem Held.undoDelivery (port : Bool) :
    Held hw live before name (undoDelivery hw port u).machine (undoDelivery hw port u).binding := by
  rw [Msix.undoDelivery, held.place]
  exact held.writeControl port _

theorem Held.undoVectorMask :
    Held hw live before name (undoVectorMask hw u).machine (undoVectorMask hw u).binding := by
  rw [Msix.undoVectorMask]
  split
  · exact held
  next entry located => exact held.maskVector located

/-- A handler that was installed can be unregistered. -/
theorem Held.undoHandler :
    Held hw live before name (undoHandler u).machine (undoHandler u).binding ∧
      (undoHandler u).binding.handlerInstalled = false ∧ (undoHandler u).failed = u.failed := by
  rw [Msix.undoHandler]
  split
  next installed =>
    rw [(held.handler installed).removed, if_neg (not_not.mpr rfl)]
    exact ⟨{ held with noHandler := fun _ => rfl, handler := nofun }, rfl, rfl⟩
  next missing => exact ⟨held, eq_false_of_ne_true missing, rfl⟩

theorem Held.undoEntry :
    Held hw live before name (undoEntry hw u).machine (undoEntry hw u).binding ∧
      (undoEntry hw u).machine.words = before.words ∧ (undoEntry hw u).binding = u.binding ∧
      (undoEntry hw u).failed = u.failed := by
  rw [Msix.undoEntry]
  split
  next unlocated => exact ⟨held, held.noEntry unlocated, rfl, rfl⟩
  next entry located =>
  have kept := held.entry entry located
  obtain ⟨words, shows⟩ := kept.restored
  dsimp only
  rw [shows, restoreEntry_eq, words, Bool.not_true, Bool.or_false]
  refine ⟨{ held with noEntry := fun _ => rfl, entry := ?_ }, rfl, rfl, rfl⟩
  intro other same
  rw [located] at same
  obtain rfl := Option.some.inj same
  exact ⟨kept.apart, kept.saved, fun _ _ => rfl, fun _ => rfl⟩

/-- A vector that was taken can be released once its handler is gone. -/
theorem Held.undoVector (uninstalled : u.binding.handlerInstalled = false)
    (words : u.machine.words = before.words) :
    Unwound hw live before name (undoVector u) ∧ (undoVector u).failed = u.failed := by
  have handlers := held.noHandler uninstalled
  rw [Msix.undoVector]
  split
  next active =>
    obtain ⟨ok, allocated, -⟩ := (held.vector active).released active
    rw [uninstalled, if_neg (by decide)]
    rw [if_neg (not_not.mpr ok)]
    exact ⟨{ held.toGrounded, held with
      words := words
      allocated := allocated
      handlers := handlers }, rfl⟩
  next inactive =>
    exact ⟨{ held.toGrounded, held with
      words := words
      allocated := held.noVector (eq_false_of_ne_true inactive)
      handlers := handlers }, rfl⟩

end

def unwind (hw : MsixHardware) (port : Bool) (m : MsixMachine) (b : MsixBinding) : Undo :=
  undoVector (undoEntry hw (undoHandler (undoVectorMask hw (undoDelivery hw port ⟨m, b, false⟩))))

/-- Of these steps only the write that masks the function can fail. -/
theorem Held.unwound (held : Held hw live before name m b) (port : Bool) :
    Unwound hw live before name (unwind hw port m b) ∧
      (port → (unwind hw port m b).failed = false) := by
  have start : Held hw live before name (Undo.mk m b false).machine (Undo.mk m b false).binding :=
    held
  obtain ⟨handler, uninstalled, sameHandler⟩ :=
    (start.undoDelivery port).undoVectorMask.undoHandler
  obtain ⟨entry, words, binding, sameEntry⟩ := handler.undoEntry
  rw [← binding] at uninstalled
  obtain ⟨unwound, sameVector⟩ := entry.undoVector uninstalled words
  refine ⟨unwound, ?_⟩
  intro taken
  rw [unwind, sameVector, sameEntry, sameHandler, taken]
  have written : (Msix.undoDelivery hw true ⟨m, b, false⟩).failed = false := by
    rw [Msix.undoDelivery, start.place]
    rfl
  rw [Msix.undoVectorMask]
  split <;> exact written

/-- The BARs a binding pushed below that of the pending bits. -/
theorem pushed_pba (mapped : b.pbaMappedHere) :
    b.pushed = { b with pbaMappedHere := false }.pushed ++ [b.pbaBar] := by
  simp only [MsixBinding.pushed, mapped]
  cases b.tableMappedHere <;> rfl

theorem pushed_table (mapped : b.tableMappedHere) (noPba : b.pbaMappedHere = false) :
    b.pushed = [] ++ [b.tableBar] := by
  rw [MsixBinding.pushed, mapped, noPba]
  rfl

theorem pushed_nothing (noTable : b.tableMappedHere = false) (noPba : b.pbaMappedHere = false) :
    b.pushed = [] := by
  rw [MsixBinding.pushed, noTable, noPba]
  rfl

section
variable (unwound : Unwound hw live before name u)
include unwound

/-- The pending bits unmapped, unless the step fails; it does not for an idle device. -/
theorem Unwound.undoPba (here : name ∈ live) :
    ((undoPba u).failed ∧ (before.resources.claims name).busMasterEnabled) ∨
      Unwound hw live before name (undoPba u) ∧ (undoPba u).binding.pbaMappedHere = false ∧
        (undoPba u).failed = u.failed := by
  rw [Msix.undoPba]
  by_cases mapped : u.binding.pbaMappedHere
  swap
  · rw [eq_false_of_ne_true mapped, if_neg (by simp)]
    exact .inr ⟨unwound, eq_false_of_ne_true mapped, rfl⟩
  have stacked := unwound.stacked
  rw [pushed_pba mapped] at stacked
  rw [mapped, if_pos (by simp [unwound.apart mapped]), unwound.claim]
  obtain refused | popped := stacked.unmapLastBar
  · rw [if_pos refused.1]
    refine .inl ⟨rfl, ?_⟩
    by_contra idle
    exact refused.1 (stacked.unmaps here (eq_false_of_ne_true idle)
      (unwound.sized _ (.inr rfl)))
  · rw [if_neg (not_not.mpr popped.1)]
    exact .inr ⟨{ unwound.toGrounded, unwound with stacked := popped.2, apart := nofun },
      rfl, rfl⟩

theorem Unwound.undoTable (here : name ∈ live) (noPba : u.binding.pbaMappedHere = false) :
    ((undoTable u).failed ∧ (before.resources.claims name).busMasterEnabled) ∨
      Unwound hw live before name (undoTable u) ∧ (undoTable u).binding.pushed = [] ∧
        (undoTable u).failed = u.failed := by
  rw [Msix.undoTable]
  split
  swap
  · next mapped =>
        exact .inr ⟨unwound, pushed_nothing (eq_false_of_ne_true mapped) noPba, rfl⟩
  next mapped =>
  have stacked := unwound.stacked
  rw [pushed_table mapped noPba] at stacked
  rw [unwound.claim]
  obtain refused | popped := stacked.unmapLastBar
  · rw [if_pos refused.1]
    refine .inl ⟨rfl, ?_⟩
    by_contra idle
    exact refused.1 (stacked.unmaps here (eq_false_of_ne_true idle)
      (unwound.sized _ (.inl rfl)))
  have nothing : { u.binding with tableMappedHere := false }.pushed = [] :=
    pushed_nothing rfl noPba
  rw [if_neg (not_not.mpr popped.1)]
  refine .inr ⟨{ unwound.toGrounded, unwound with stacked := ?_ }, nothing, rfl⟩
  rw [nothing]
  exact popped.2

/-- The control word restored, unless the ports refuse the write or the read. -/
theorem Unwound.undoControl
    (accounted : Accounted before.resources live) (nothing : u.binding.pushed = [])
    (write read : Bool) :
    (undoControl hw write read u).failed = (u.failed || !write || !read) ∧
      ((undoControl hw write read u).failed = false →
        Restored before (undoControl hw write read u).machine) := by
  have stacked := unwound.stacked
  rw [nothing] at stacked
  obtain ⟨mappings, arena⟩ := stacked.restored accounted
  rw [Msix.undoControl, unwound.toGrounded.place unwound.stacked.device]
  dsimp only
  cases write with
  | false => exact ⟨by simp [Msix.writeControl], fun fine => by simp [Msix.writeControl] at fine⟩
  | true => ?_
  have written : (Msix.writeControl hw true u.machine (controlHome before name u.binding)
      u.binding.originalControl).2.control = before.control := by
    funext place
    by_cases mine : place = controlHome before name u.binding
    · subst mine
      refine (Function.update_self _ _ _).trans ?_
      rw [unwound.originalControl]
      exact unwound.control.restored
    · rw [← unwound.otherControls place mine]
      exact Function.update_of_ne mine _ _
  refine ⟨?_, fun _ => ⟨unwound.allocated, unwound.handlers, unwound.words, written, mappings,
    arena, unwound.activeBindings⟩⟩
  rw [written, ← unwound.originalControl]
  simp [Msix.writeControl]

end

theorem undoTable_failed (u : Undo) (failed : u.failed) : (undoTable u).failed := by
  rw [undoTable]
  split
  · dsimp only
    split
    · rfl
    · exact failed
  · exact failed

theorem undoControl_failed (hw : MsixHardware) (write read : Bool) (u : Undo)
    (failed : u.failed) : (undoControl hw write read u).failed := by
  rw [undoControl]
  split
  · exact failed
  · dsimp only
    rw [failed]
    rfl

/-- A rollback restores what was held, or fails; with ports that take every access and a
device that is no bus master it does not fail. -/
theorem Held.undone (held : Held hw live before name m b)
    (accounted : Accounted before.resources live) (here : name ∈ live) (answers : RollbackAnswers) :
    ((undoAll hw answers m b).failed = false → Restored before (undoAll hw answers m b).machine) ∧
      (answers = ⟨true, true, true⟩ → (before.resources.claims name).busMasterEnabled = false →
        (undoAll hw answers m b).failed = false) := by
  obtain ⟨unwound, quiet⟩ := held.unwound answers.maskWrite
  have steps : undoAll hw answers m b = undoControl hw answers.restoreWrite answers.restoreRead
      (undoTable (undoPba (unwind hw answers.maskWrite m b))) := rfl
  rw [steps]
  obtain failed | ⟨unwoundPba, noPba, samePba⟩ := unwound.undoPba here
  · have stays := undoControl_failed hw answers.restoreWrite answers.restoreRead _
      (undoTable_failed _ failed.1)
    refine ⟨fun fine => ?_, fun _ idle => ?_⟩
    · rw [stays] at fine
      cases fine
    · rw [failed.2] at idle
      cases idle
  obtain failed | ⟨unwoundTable, nothing, sameTable⟩ := unwoundPba.undoTable here noPba
  · have stays := undoControl_failed hw answers.restoreWrite answers.restoreRead _ failed.1
    refine ⟨fun fine => ?_, fun _ idle => ?_⟩
    · rw [stays] at fine
      cases fine
    · rw [failed.2] at idle
      cases idle
  obtain ⟨failed, restored⟩ := unwoundTable.undoControl accounted nothing
    answers.restoreWrite answers.restoreRead
  refine ⟨restored, ?_⟩
  intro all _
  subst all
  rw [failed, sameTable, samePba, quiet rfl]
  rfl

/-- A rollback of what was held, as its callers see it. -/
theorem Held.rolledBack (held : Held hw live before name m b)
    (accounted : Accounted before.resources live) (here : name ∈ live) (answers : RollbackAnswers) :
    ((rollbackBinding hw answers m b).1 = .ok →
        Restored before (rollbackBinding hw answers m b).2.1) ∧
      (answers = ⟨true, true, true⟩ → (before.resources.claims name).busMasterEnabled = false →
        (rollbackBinding hw answers m b).1 = .ok) := by
  obtain ⟨restored, succeeds⟩ := held.undone accounted here answers
  rw [rollbackBinding]
  constructor
  · intro ok
    split at ok
    · cases ok
    next fine => exact { restored (eq_false_of_ne_true fine) with }
  · intro all idle
    rw [succeeds all idle]
    rfl

end

section
variable {hw : MsixHardware} {live : Finset Nat} {m : MsixMachine} {name : Nat} {b : MsixBinding}

/-- A span that is accepted lies in a BAR that is not empty. -/
theorem validateSpan_sized {s : PciResources} {barIndex offset length : Nat} {outside : MsixStatus}
    (failure : outside ≠ .ok)
    (ok : validateSpan (pciClaimBar s name barIndex) offset length outside = .ok)
    (bar : PciBarDescription) (listed : (s.claims name).bars[barIndex]? = some bar) :
    0 < bar.size := by
  rw [pciClaimBar, listed] at ok
  split at ok
  · cases ok
  rw [validateSpan] at ok
  split at ok
  · cases ok
  split at ok
  · exact absurd ok failure
  · omega

/-- An admitted binding holds nothing yet. -/
theorem admitBinding_ok (ok : admitBinding hw reads m name entryIndex = .ok b) :
    Unfilled b ∧ Grounded hw m name m b := by
  unfold admitBinding at ok
  dsimp only at ok
  split at ok
  · cases ok
  split at ok
  · cases ok
  next capability =>
  iterate 6
    split at ok
    · cases ok
  next table =>
  split at ok
  · cases ok
  next pba =>
  obtain rfl := Except.ok.inj ok
  refine ⟨⟨rfl, rfl, rfl, rfl, rfl⟩, rfl, fun zero => capability (.inl zero), ?_, rfl,
    fun _ _ => rfl, rfl, rfl⟩
  intro barIndex which bar
  obtain rfl | rfl := which
  · exact validateSpan_sized (by decide) (not_not.mp table) bar
  · exact validateSpan_sized (by decide) (not_not.mp pba) bar

theorem admitBinding_error {status : MsixStatus}
    (refused : admitBinding hw reads m name entryIndex = .error status) : status ≠ .ok := by
  unfold admitBinding at refused
  dsimp only at refused
  split at refused
  · cases refused
    decide
  repeat' split at refused
  -- The spans are refused under their own status, the rest under fixed ones.
  all_goals
    cases refused
  all_goals first
    | assumption
    | decide

theorem writeBindingControl_refused {port : Bool} {control : BitVec 16}
    (refused : (writeBindingControl hw port m b control).1 ≠ .ok) :
    (writeBindingControl hw port m b control).2 = m := by
  rw [writeBindingControl] at refused ⊢
  split
  · rfl
  next place found =>
  rw [found] at refused
  cases port with
  | false => rfl
  | true => exact absurd rfl refused

theorem Grounded.held (grounded : Grounded hw m name m b) (unfilled : Unfilled b)
    (accounted : Accounted m.resources live) : Held hw live m name m b := by
  refine { grounded with
    noEntry := fun _ => rfl
    noVector := fun _ => rfl
    noHandler := fun _ => rfl
    entry := ?_
    vector := ?_
    handler := ?_
    apart := ?_
    stacked := ?_ }
  · intro entry located
    rw [unfilled.entry] at located
    cases located
  · intro active
    rw [unfilled.vector] at active
    cases active
  · intro installed
    rw [unfilled.handler] at installed
    cases installed
  · rw [pushed_nothing unfilled.table unfilled.pba]
    exact .refl accounted name
  · intro mapped
    rw [unfilled.pba] at mapped
    cases mapped

theorem bindClaim_cases (accounted : Accounted m.resources live) (here : name ∈ live)
    (answers : BindAnswers) (entryIndex handler context : Nat) (inject masked : Bool) :
    let result := bindClaim hw answers m name entryIndex handler context inject masked
    (result.1 ≠ .ok ∧ (result.1 ≠ .rollbackFailure → Restored m result.2.1)) ∨
      result.1 = .ok ∧
        Held hw live { m with activeBindings := m.activeBindings + 1 } name result.2.1 result.2.2 ∧
        result.2.2.active := by
  rw [bindClaim]
  cases admitted : admitBinding hw answers.reads m name entryIndex with
  | error status =>
    exact .inl ⟨admitBinding_error admitted, fun _ => .refl m⟩
  | ok b => ?_
  obtain ⟨unfilled, grounded⟩ := admitBinding_ok admitted
  have held := grounded.held unfilled accounted
  dsimp only
  split
  next refused =>
    refine .inl ⟨refused, fun _ => ?_⟩
    rw [writeBindingControl_refused refused]
    exact .refl m
  have acquired := (held.writeBindingControl answers.maskWrite
    (b.originalControl ||| msixControlFunctionMask)).acquire here unfilled answers handler
      context inject masked
  generalize acquire hw answers name handler context inject masked _ b = stage at acquired ⊢
  rw [settle]
  split
  next failed =>
    obtain ⟨restored, -⟩ := acquired.rolledBack accounted here answers.rollback
    dsimp only
    split
    · exact .inl ⟨nofun, fun other => absurd rfl other⟩
    next ok => exact .inl ⟨failed, fun _ => restored (not_not.mp ok)⟩
  next done =>
    refine .inr ⟨rfl, ?_, rfl⟩
    have kept := acquired.relabelled stage.binding.deliveryMasked true
    have count : stage.machine.activeBindings = m.activeBindings := acquired.activeBindings
    rw [count]
    exact { kept with activeBindings := rfl }

structure Bound (hw : MsixHardware) (live : Finset Nat) (before : MsixMachine) (name : Nat)
    (s : MsixMachine × Option MsixBinding) : Prop where
  binding : ∃ b, s.2 = some b ∧ b.active ∧ Held hw live before name s.1 b

/-- Masking and unmasking keep what an active binding holds. -/
theorem Bound.masked {before : MsixMachine} (bound : Bound hw live before name s)
    (call : MaskCall) : Bound hw live before name (maskStep hw s call) := by
  obtain ⟨b, some, active, held⟩ := bound.binding
  rw [maskStep, some, msixSetMasked]
  iterate 3
    split
    · exact ⟨b, rfl, active, held⟩
  refine ⟨_, rfl, ?_, held.enableBinding call.masked call.enableWrite call.deliverWrite⟩
  rw [← active, enableBinding, enableMasked, enableDelivery]
  dsimp only
  repeat' split
  all_goals rfl

/-- With the ports taking every access, unbinding an idle device restores the machine. -/
theorem Bound.unbound
    (bound : Bound hw live { m with activeBindings := m.activeBindings + 1 } name s)
    (accounted : Accounted m.resources live) (here : name ∈ live)
    (idle : (m.resources.claims name).busMasterEnabled = false) :
    (msixUnbind hw false ⟨true, true, true⟩ s.1 s.2).1 = .ok ∧
      Restored m (msixUnbind hw false ⟨true, true, true⟩ s.1 s.2).2.1 := by
  obtain ⟨b, some, active, held⟩ := bound.binding
  have count : s.1.activeBindings = m.activeBindings + 1 := held.activeBindings
  have kept : Held hw live m name { s.1 with activeBindings := sizeSub s.1.activeBindings 1 }
      { b with active := false } := by
    refine { held.relabelled b.deliveryMasked false with activeBindings := ?_ }
    dsimp only
    rw [count, sizeSub, if_pos (by omega)]
    omega
  obtain ⟨restored, succeeds⟩ := kept.rolledBack accounted here ⟨true, true, true⟩
  rw [some, msixUnbind, if_neg (by decide), active, if_neg (by decide)]
  exact ⟨succeeds rfl idle, restored (succeeds rfl idle)⟩

/-- How a bind ends: refused with nothing held, or with an active binding. -/
theorem bindInternal_cases (accounted : Accounted m.resources live) (interrupts : Bool)
    (answers : BindAnswers) (claim : Option Nat) (entryIndex : Nat) (handler : Option Nat)
    (context : Nat) (binding : Option MsixBinding) (masked : Bool) :
    let bound := bindInternal hw interrupts answers m claim entryIndex handler context binding masked
    (bound.1 ≠ .ok ∧ (bound.1 ≠ .rollbackFailure → Restored m bound.2.1)) ∨
      bound.1 = .ok ∧ ∃ name, claim = some name ∧ name ∈ live ∧
        Bound hw live { m with activeBindings := m.activeBindings + 1 } name bound.2 := by
  have disarmed : Restored m { m with failureInjectionArmed := false } := { Restored.refl m with }
  unfold bindInternal
  split
  next name handler b =>
    iterate 2
      split
      · exact .inl ⟨nofun, fun _ => disarmed⟩
    next active =>
    split
    · exact .inl ⟨nofun, fun _ => disarmed⟩
    have here : name ∈ live := (accounted.member name).mpr (by simpa using active)
    have ends := @bindClaim_cases hw live { m with failureInjectionArmed := false } name accounted
      here answers entryIndex handler context m.failureInjectionArmed masked
    obtain refused | ⟨ok, held, bindingActive⟩ := ends
    · exact .inl ⟨refused.1, fun other => { refused.2 other with }⟩
    · exact .inr ⟨ok, name, rfl, here, _, rfl, bindingActive, { held with }⟩
  · exact .inl ⟨nofun, fun _ => disarmed⟩

end

/-- A bind is a transaction: refused without a rollback failure it leaves the machine as
it was, and a successful one is undone by `msix_unbind` after any masking, as long as the
device is no bus master and the ports take the accesses of the unbind. -/
theorem msix_bind_transaction (hw : MsixHardware) {m : MsixMachine} {live : Finset Nat}
    (accounted : Accounted m.resources live)
    {bind : Bool → BindAnswers → MsixMachine → Option Nat → Nat → Option Nat → Nat →
      Option MsixBinding → MsixStatus × MsixMachine × Option MsixBinding}
    (either : bind = msixBind hw ∨ bind = msixBindMasked hw) (interrupts : Bool)
    (answers : BindAnswers) (claim : Option Nat) (entryIndex : Nat) (handler : Option Nat)
    (context : Nat) (binding : Option MsixBinding) :
    ((bind interrupts answers m claim entryIndex handler context binding).1 ≠ .ok →
      (bind interrupts answers m claim entryIndex handler context binding).1 ≠ .rollbackFailure →
        Restored m (bind interrupts answers m claim entryIndex handler context binding).2.1) ∧
      ((bind interrupts answers m claim entryIndex handler context binding).1 = .ok →
        (∀ name, claim = some name → (m.resources.claims name).busMasterEnabled = false) →
        ∀ calls : List MaskCall,
          let used := run (maskStep hw)
            (bind interrupts answers m claim entryIndex handler context binding).2 calls
          (msixUnbind hw false ⟨true, true, true⟩ used.1 used.2).1 = .ok ∧
            Restored m (msixUnbind hw false ⟨true, true, true⟩ used.1 used.2).2.1) := by
  have general : ∃ masked, bind interrupts answers m claim entryIndex handler context binding =
      bindInternal hw interrupts answers m claim entryIndex handler context binding masked := by
    obtain same | same := either
    · exact ⟨false, by rw [same]; rfl⟩
    · exact ⟨true, by rw [same]; rfl⟩
  obtain ⟨masked, general⟩ := general
  rw [general]
  cases @bindInternal_cases hw live m accounted interrupts answers claim entryIndex handler context
      binding masked with
  | inl refused => exact ⟨fun _ => refused.2, fun ok => absurd ok refused.1⟩
  | inr bound =>
    obtain ⟨ok, name, named, here, held⟩ := bound
    refine ⟨fun refused => absurd ok refused, ?_⟩
    intro _ idle calls
    exact (run_invariant (maskStep hw) _ (fun _ call bound => bound.masked call) calls _ held).unbound
      accounted here (idle name named)

def messageResources : PciResources :=
  { resourceStep pairResources (claimPage 1 1 0x00000004) with
    functions := [{ endpointAt 1 with msiXOffset := 0x40 }] }

theorem messageResources_accounted : ∃ live, Accounted messageResources live := by
  obtain ⟨live, accounted⟩ := (accounted_of_initialized pairResources_initialized
    arenaPaging_sound fun _ => rfl).step (claimPage 1 1 0x00000004) rfl
  have kept : Accounted messageResources live := { accounted with
    mappings := fun n here mapping held => { accounted.mappings n here mapping held with } }
  exact ⟨live, kept⟩

def messageHardware : MsixHardware where
  identifier := fun _ _ => pciCapabilityMsiX
  placement := fun _ offset => if offset = 0x48 then 0x800 else 0
  controlBits := fun _ => 0xC000
  wordBits := fun _ => 0xFFFFFFFF
  apicId := 0

def messageMachine : MsixMachine where
  resources := messageResources
  vectors := ⟨fun _ => false, fun _ => 0, 0, dynamicVectorCount, true⟩
  handlers := ⟨fun _ => none, true⟩
  words := fun _ => 1
  control := fun _ => 0
  activeBindings := 0
  rollbackCount := 0
  failureInjectionArmed := false

def takenAnswers : BindAnswers := ⟨true, true, (false, true), (false, true), true, true, ⟨true, true, true⟩⟩

theorem msix_bind_transaction_page :
    (msixBind messageHardware false takenAnswers messageMachine (some 1) 0 (some 7) 0
        (some clearedBinding)).1 = .ok ∧
      let used := run (maskStep messageHardware) (msixBind messageHardware false takenAnswers
        messageMachine (some 1) 0 (some 7) 0 (some clearedBinding)).2
        [⟨false, true, true, true⟩, ⟨false, false, true, false⟩]
      (msixUnbind messageHardware false ⟨true, true, true⟩ used.1 used.2).1 = .ok ∧
        Restored messageMachine
          (msixUnbind messageHardware false ⟨true, true, true⟩ used.1 used.2).2.1 := by
  obtain ⟨live, accounted⟩ := messageResources_accounted
  have bound : (msixBind messageHardware false takenAnswers messageMachine (some 1) 0 (some 7) 0
      (some clearedBinding)).1 = .ok := by
    decide +kernel
  refine ⟨bound, (@msix_bind_transaction messageHardware messageMachine live accounted _
    (.inl rfl) false takenAnswers (some 1) 0 (some 7) 0 (some clearedBinding)).2 bound ?_ _⟩
  intro name named
  obtain rfl := Option.some.inj named
  decide +kernel

end Sapote.Msix
