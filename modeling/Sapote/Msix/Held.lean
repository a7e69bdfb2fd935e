import Sapote.Msix.Binding
import Sapote.Pci.Stacking

/-!
What a binding holds. `Held` compares the machine with the one before the bind: the
fields of the binding say by what they differ. Every acquisition keeps it, whether it
succeeds or fails, and so does masking and unmasking an active binding.
-/

namespace Sapote.Msix
open Frames Paging Pci Interrupts List Function BitVec
variable {entry offset : Nat} {s : PciResources} {claim : PciDeviceClaim} {region : PciMmioRegion}

section
variable {w : Nat} {writable original value : BitVec w}

def Latched (writable original value : BitVec w) : Prop :=
  value &&& ~~~writable = original &&& ~~~writable

theorem Latched.latch (latched : Latched writable original value) (written : BitVec w) :
    Latched writable original (latch writable value written) := by
  rw [Latched, ← latched, Msix.latch]
  ext i small
  simp only [getElem_and, getElem_or, getElem_not]
  cases value[i] <;> cases written[i] <;> cases writable[i] <;> rfl

/-- Whatever was written in between, writing the original value restores it. -/
theorem Latched.restored (latched : Latched writable original value) :
    Msix.latch writable value original = original := by
  rw [Msix.latch, latched]
  ext i small
  simp only [getElem_and, getElem_or, getElem_not]
  cases original[i] <;> cases writable[i] <;> rfl

end

section
variable {hw : MsixHardware} {before : Nat → BitVec 32} {m : MsixMachine} {entry : Nat}
  {original : Fin 4 → BitVec 32}

/-- Device memory `after` differs from `before` in the four words of an entry only, and
there in writable bits; `original` keeps what the entry showed. -/
structure EntryHeld (hw : MsixHardware) (before after : Nat → BitVec 32) (paging : PagingState)
    (entry : Nat) (original : Fin 4 → BitVec 32) : Prop where
  apart : ∀ i j : Fin 4, wordAddress paging entry i = wordAddress paging entry j → i = j
  saved : ∀ i : Fin 4, original i = before (wordAddress paging entry i)
  others : ∀ address, (∀ i : Fin 4, address ≠ wordAddress paging entry i) →
    after address = before address
  latched : ∀ i : Fin 4, Latched (hw.wordBits (wordAddress paging entry i))
    (before (wordAddress paging entry i)) (after (wordAddress paging entry i))

theorem EntryHeld.writeWord (held : EntryHeld hw before m.words m.resources.paging entry original)
    (i : Fin 4) (value : BitVec 32) :
    EntryHeld hw before (writeWord hw m entry i value).words m.resources.paging entry original := by
  refine ⟨held.apart, held.saved, ?_, ?_⟩
  · intro address other
    rw [← held.others address other]
    exact update_of_ne (other i) _ _
  · intro j
    by_cases same : j = i
    · subst same
      rw [show (Msix.writeWord hw m entry j value).words (wordAddress m.resources.paging entry j) = _
        from update_self _ _ _]
      exact (held.latched j).latch value
    · rw [show (Msix.writeWord hw m entry i value).words (wordAddress m.resources.paging entry j) = _
        from update_of_ne (fun clash => same (held.apart j i clash)) _ _]
      exact held.latched j

/-- A loop that writes original words back: those it has passed show them again. -/
theorem EntryHeld.restoring (todo done : List (Fin 4)) (m : MsixMachine)
    (held : EntryHeld hw before m.words m.resources.paging entry original)
    (so : ∀ i ∈ done, m.words (wordAddress m.resources.paging entry i) = original i)
    (all : ∀ i, i ∈ done ∨ i ∈ todo) :
    (todo.foldl (fun m (i : Fin 4) => Msix.writeWord hw m entry i (original i)) m).words =
      before := by
  induction todo generalizing m done with
  | nil =>
    funext address
    by_cases here : ∃ i : Fin 4, address = wordAddress m.resources.paging entry i
    · obtain ⟨i, rfl⟩ := here
      rw [foldl_nil, ← held.saved i]
      exact so i ((all i).resolve_right not_mem_nil)
    · exact held.others address fun i same => here ⟨i, same⟩
  | cons i todo ih =>
    refine ih (i :: done) (Msix.writeWord hw m entry i (original i))
      (held.writeWord i (original i)) ?_ ?_
    · intro j member
      by_cases same : j = i
      · subst same
        have latched := (held.latched j).restored
        rw [← held.saved j] at latched
        exact (update_self _ _ _).trans latched
      · rw [← so j ((mem_cons.mp member).resolve_left same)]
        exact update_of_ne (fun clash => same (held.apart j i clash)) _ _
    · intro j
      rw [mem_cons]
      have cases := all j
      rw [mem_cons] at cases
      tauto

theorem restoreEntry_eq (hw : MsixHardware) (m : MsixMachine) (entry : Nat)
    (words : Fin 4 → BitVec 32) : restoreEntry hw m entry words =
      { m with words := (restoreEntry hw m entry words).words } :=
  rfl

theorem EntryHeld.restored (held : EntryHeld hw before m.words m.resources.paging entry original) :
    (restoreEntry hw m entry original).words = before ∧
      entryShows (restoreEntry hw m entry original) entry original := by
  have words : (restoreEntry hw m entry original).words = before :=
    held.restoring (.finRange 4) [] m (fun i none => absurd none not_mem_nil)
      fun i => .inr (mem_finRange i)
  refine ⟨words, all_eq_true.mpr ?_⟩
  intro i _
  rw [decide_eq_true_eq, readWord, words, held.saved i, restoreEntry_eq]

end

def MsixBinding.pushed (b : MsixBinding) : List Nat :=
  (if b.tableMappedHere then [b.tableBar] else []) ++ (if b.pbaMappedHere then [b.pbaBar] else [])

def controlHome (m : MsixMachine) (name : Nat) (b : MsixBinding) : PciAddress × Nat :=
  ((m.resources.claims name).device, b.capabilityOffset)

/-- What a binding was admitted with, and the control word as it may have changed since. -/
structure Grounded (hw : MsixHardware) (before : MsixMachine) (name : Nat) (m : MsixMachine)
    (b : MsixBinding) : Prop where
  claim : b.claim = some name
  capability : b.capabilityOffset ≠ 0
  sized : ∀ barIndex, barIndex = b.tableBar ∨ barIndex = b.pbaBar →
    ∀ bar, (before.resources.claims name).bars[barIndex]? = some bar → 0 < bar.size
  originalControl : b.originalControl = before.control (controlHome before name b)
  otherControls : ∀ place, place ≠ controlHome before name b →
    m.control place = before.control place
  control : Latched (hw.controlBits (controlHome before name b))
    (before.control (controlHome before name b)) (m.control (controlHome before name b))
  activeBindings : m.activeBindings = before.activeBindings

/-- The machine `m` is `before` with what the fields of the binding say was acquired. -/
structure Held (hw : MsixHardware) (live : Finset Nat) (before : MsixMachine) (name : Nat)
    (m : MsixMachine) (b : MsixBinding) : Prop extends Grounded hw before name m b where
  noEntry : b.entry = none → m.words = before.words
  entry : ∀ entry, b.entry = some entry →
    EntryHeld hw before.words m.words m.resources.paging entry b.originalEntry
  noVector : b.vector.active = false → m.vectors.allocated = before.vectors.allocated
  vector : b.vector.active → Takes before.vectors m.vectors b.vector
  noHandler : b.handlerInstalled = false → m.handlers = before.handlers
  handler : b.handlerInstalled → Installs before.handlers m.handlers b.vector.vector
  stacked : Stacked live before.resources m.resources name b.pushed
  apart : b.pbaMappedHere → b.pbaBar ≠ b.tableBar

section
variable {hw : MsixHardware} {live : Finset Nat} {before m : MsixMachine} {name : Nat}
  {b : MsixBinding}

theorem Grounded.place (grounded : Grounded hw before name m b)
    (device : (m.resources.claims name).device = (before.resources.claims name).device) :
    b.place m = some (controlHome before name b) := by
  rw [MsixBinding.place, grounded.claim]
  dsimp only
  rw [if_neg grounded.capability, device]
  rfl

theorem Grounded.writeControl (grounded : Grounded hw before name m b) (port : Bool)
    (control : BitVec 16) :
    Grounded hw before name (writeControl hw port m (controlHome before name b) control).2 b := by
  cases port with
  | false => exact grounded
  | true =>
    refine { grounded with otherControls := ?_, control := ?_ }
    · intro place other
      rw [← grounded.otherControls place other]
      exact update_of_ne other _ _
    · rw [show (Msix.writeControl hw true m (controlHome before name b) control).2.control
        (controlHome before name b) = _ from update_self _ _ _]
      exact grounded.control.latch control

section
variable (held : Held hw live before name m b)
include held

theorem Held.place : b.place m = some (controlHome before name b) :=
  held.toGrounded.place held.stacked.device

theorem Held.writeControl (port : Bool) (control : BitVec 16) :
    Held hw live before name (writeControl hw port m (controlHome before name b) control).2 b := by
  have grounded := held.toGrounded.writeControl port control
  cases port with
  | false => exact held
  | true => exact { held with toGrounded := grounded }

theorem Held.writeBindingControl (port : Bool) (control : BitVec 16) :
    Held hw live before name (writeBindingControl hw port m b control).2 b := by
  rw [Msix.writeBindingControl, held.place]
  exact held.writeControl port control

section
variable (located : b.entry = some entry)
include located

theorem Held.writeWord (i : Fin 4) (value : BitVec 32) :
    Held hw live before name (writeWord hw m entry i value) b := by
  refine { held with noEntry := ?_, entry := ?_ }
  · intro none
    rw [located] at none
    cases none
  · intro other same
    rw [located] at same
    obtain rfl := Option.some.inj same
    exact (held.entry entry located).writeWord i value

theorem Held.maskVector :
    Held hw live before name (maskVector hw m entry) b :=
  held.writeWord located 3 _

theorem Held.unmaskVector :
    Held hw live before name (unmaskVector hw m entry) b :=
  held.writeWord located 3 _

end

/-- The fields that say what is masked and what is active are not part of what is held. -/
theorem Held.relabelled (masked active : Bool) :
    Held hw live before name m { b with deliveryMasked := masked, active := active } :=
  { held with }

end

abbrev Stage.Keeps (hw : MsixHardware) (live : Finset Nat) (before : MsixMachine) (name : Nat)
    (stage : Stage) : Prop := Held hw live before name stage.machine stage.binding

variable {hw : MsixHardware} {live : Finset Nat} {before m : MsixMachine} {name : Nat}
  {b : MsixBinding}

theorem claimedMapping_eq (accounted : Accounted s live) (here : name ∈ live) (barIndex : Nat) :
    claimedMapping s name barIndex = pciClaimMappedBar (s.claims name) barIndex := by
  rw [claimedMapping, accounted.validates here, if_neg (not_not.mpr rfl)]

section
variable (held : Held hw live before name m b)
include held

/-- BARs pushed before the entry is located. -/
theorem Held.restacked (unlocated : b.entry = none) {r : PciResources} {table pba : Bool}
    (stacked : Stacked live before.resources r name
      { b with tableMappedHere := table, pbaMappedHere := pba }.pushed)
    (apart : pba → b.pbaBar ≠ b.tableBar) :
    Held hw live before name { m with resources := r }
      { b with tableMappedHere := table, pbaMappedHere := pba } := by
  refine { held with stacked := stacked, apart := apart, noEntry := held.noEntry, entry := ?_ }
  intro entry located
  rw [show b.entry = some entry from located] at unlocated
  cases unlocated

theorem Held.mapTable (here : name ∈ live)
    (unlocated : b.entry = none) (noTable : b.tableMappedHere = false)
    (noPba : b.pbaMappedHere = false) (answers : Bool × Bool) :
    let result := mapTable answers name m b
    result.Keeps hw live before name ∧ (∃ flag, result.binding = { b with tableMappedHere := flag }) ∧
      (result.status = .ok →
        (pciClaimMappedBar (result.machine.resources.claims name) b.tableBar).isSome) := by
  have nothing : b.pushed = [] := by rw [MsixBinding.pushed, noTable, noPba]; rfl
  have same : b = { b with tableMappedHere := b.tableMappedHere } := rfl
  rw [Msix.mapTable, claimedMapping_eq held.stacked.accounted here]
  split
  next mapped => exact ⟨held, ⟨_, same⟩, fun _ => mapped⟩
  have pushed := held.stacked.mapBar answers.1 answers.2 b.tableBar
  rw [nothing, nil_append] at pushed
  obtain failed | done := pushed
  · rw [if_pos (show (mapBar answers m name b.tableBar).1 ≠ .ok from failed.1)]
    refine ⟨held.restacked unlocated ?_ held.apart, ⟨_, same⟩, fun ok => by cases ok⟩
    rw [nothing]
    exact failed.2
  · rw [if_neg (not_not.mpr (show (mapBar answers m name b.tableBar).1 = .ok from done.1))]
    refine ⟨held.restacked unlocated ?_ held.apart, ⟨true, rfl⟩, fun _ => ?_⟩
    · rw [MsixBinding.pushed, noPba]
      exact done.2
    · exact done.2.mapped here (mem_singleton_self _)

theorem Held.mapPba (here : name ∈ live)
    (unlocated : b.entry = none) (noPba : b.pbaMappedHere = false)
    (table : (pciClaimMappedBar (m.resources.claims name) b.tableBar).isSome)
    (answers : Bool × Bool) :
    (mapPba answers name m b).Keeps hw live before name ∧
      ∃ flag, (mapPba answers name m b).binding = { b with pbaMappedHere := flag } := by
  have same : b = { b with pbaMappedHere := b.pbaMappedHere } := rfl
  have alone : b.pushed = if b.tableMappedHere then [b.tableBar] else [] := by
    rw [MsixBinding.pushed, noPba]
    exact append_nil _
  rw [Msix.mapPba, claimedMapping_eq held.stacked.accounted here]
  split
  next mapped => exact ⟨held, _, same⟩
  next unmapped =>
  have pushed := held.stacked.mapBar answers.1 answers.2 b.pbaBar
  obtain failed | done := pushed
  · rw [if_pos (show (mapBar answers m name b.pbaBar).1 ≠ .ok from failed.1)]
    exact ⟨held.restacked unlocated failed.2 held.apart, _, same⟩
  rw [if_neg (not_not.mpr (show (mapBar answers m name b.pbaBar).1 = .ok from done.1))]
  refine ⟨held.restacked unlocated ?_ fun _ clash => ?_, true, rfl⟩
  · rw [alone] at done
    exact done.2
  · rw [clash] at unmapped
    exact unmapped table

end

/-- An offset below the size of a region stays in its pages. -/
theorem spans_of_offset (sound : MappingSound s claim region) (inside : offset < region.size) :
    region.Spans (region.virtualBase + offset) := by
  obtain ⟨bar, -, -, -, shape⟩ := sound.shape
  have base : region.virtualBase = region.mappingVirtualBase + pageOffsetOf bar.base := by
    rw [shape]
    rfl
  have size : region.size = bar.size := congrArg PciMmioRegion.size shape
  have length : region.mappingLength = roundedLengthOf bar :=
    congrArg PciMmioRegion.mappingLength shape
  rw [PciMmioRegion.Spans, base, length]
  unfold roundedLengthOf pagingPageSize
  omega

/-- The words of an entry lie apart in device memory. -/
theorem entryWords_apart (sound : MappingSound s claim region)
    (found : pciMmioSubregion region offset msixTableEntrySize = some entry) (i j : Fin 4)
    (same : wordAddress s.paging entry i = wordAddress s.paging entry j) : i = j := by
  rw [pciMmioSubregion] at found
  split at found
  · cases found
  next checks =>
  have fits : offset + 16 ≤ region.size := by
    unfold msixTableEntrySize at checks
    omega
  have address : ∀ k : Fin 4, wordAddress s.paging entry k =
      region.mappingPhysicalBase + (region.virtualBase + (offset + 4 * k) -
        region.mappingVirtualBase) ∧
      region.mappingVirtualBase ≤ region.virtualBase + (offset + 4 * k) := by
    intro k
    have inside : offset + 4 * (k : Nat) < region.size := by
      omega
    have spans := spans_of_offset sound inside
    rw [wordAddress, ← Option.some.inj found, add_assoc, sound.translated _ spans]
    exact ⟨rfl, spans.1⟩
  have first := address i
  have second := address j
  apply Fin.ext
  omega

section
variable (held : Held hw live before name m b)
include held

theorem Held.locateEntry (here : name ∈ live) (unlocated : b.entry = none) :
    (locateEntry hw name m b).Keeps hw live before name ∧
      ∃ entry original, (locateEntry hw name m b).binding =
        { b with entry := entry, originalEntry := original } := by
  rw [Msix.locateEntry, claimedMapping_eq held.stacked.accounted here]
  split
  next => exact ⟨held, _, _, rfl⟩
  next entry found =>
  obtain ⟨region, mapped, inside⟩ := Option.bind_eq_some_iff.mp found
  have sound := held.stacked.accounted.mappings name here region (mem_of_find?_eq_some mapped)
  refine ⟨{ held with noEntry := nofun, entry := ?_ }, _, _, rfl⟩
  intro other same
  obtain rfl := Option.some.inj same
  have unchanged := held.noEntry unlocated
  refine ⟨entryWords_apart sound inside, ?_, ?_, ?_⟩
  · intro i
    rw [← unchanged]
    rfl
  · intro address _
    rw [unchanged]
  · intro i
    rw [unchanged]
    rfl

theorem Held.takeVector (unused : b.vector.active = false)
    (uninstalled : b.handlerInstalled = false) :
    (takeVector m b).Keeps hw live before name ∧
      ∃ vector, (takeVector m b).binding = { b with vector := vector } := by
  have free := held.noVector unused
  refine ⟨?_, _, rfl⟩
  refine { held with noVector := ?_, vector := ?_, handler := ?_ }
  · intro inactive
    obtain failed | taken := interruptVectorAllocate_cases m.vectors
    · rw [← free, ← failed.2.1]; rfl
    · rw [show (interruptVectorAllocate false m.vectors).2.2.active = false from inactive] at taken
      cases taken.2.1
  · intro active
    obtain failed | taken := interruptVectorAllocate_cases m.vectors
    · rw [show (interruptVectorAllocate false m.vectors).2.2.active = true from active] at failed
      cases failed.2.2
    · obtain ⟨running, dynamic, unallocated, allocated, generation⟩ := taken.2.2
      exact ⟨running, dynamic, free ▸ unallocated, free ▸ allocated, generation⟩
  · intro installed
    rw [show b.handlerInstalled = true from installed] at uninstalled
    cases uninstalled

theorem Held.programEntry :
    (programEntry hw m b).Keeps hw live before name ∧ (programEntry hw m b).binding = b := by
  rw [Msix.programEntry]
  split
  · exact ⟨held, rfl⟩
  next entry located =>
  refine ⟨?_, rfl⟩
  exact (((held.writeWord located 3 _).writeWord located 0 _).writeWord located 1 _).writeWord
    located 2 _

theorem Held.installHandler (uninstalled : b.handlerInstalled = false) (handler context : Nat) :
    (installHandler handler context m b).Keeps hw live before name := by
  have table := held.noHandler uninstalled
  rw [Msix.installHandler]
  cases interruptRegisterHandler_cases m.handlers b.vector.vector (some handler) context with
  | inl failed =>
    rw [if_pos failed.1, failed.2]
    exact held
  | inr done =>
    rw [if_neg (not_not.mpr done.1)]
    rw [table] at done ⊢
    exact { held with noHandler := nofun, handler := fun _ => done.2 }

theorem Held.enableMasked (enableWrite : Bool) :
    (enableMasked hw enableWrite m b).Keeps hw live before name := by
  have written := held.writeBindingControl enableWrite (enabledControl b)
  rw [Msix.enableMasked]
  split
  · exact held
  dsimp only
  split
  · exact written
  split
  · exact written
  next entry located => exact (written.maskVector located).relabelled true b.active

theorem Held.enableDelivery (enableWrite deliverWrite : Bool) :
    (enableDelivery hw enableWrite deliverWrite m b).Keeps hw live before name := by
  have written := held.writeBindingControl enableWrite (enabledControl b)
  rw [Msix.enableDelivery]
  split
  · exact held
  dsimp only
  split
  · exact written
  split
  · exact written
  next entry located =>
  have delivered := (written.unmaskVector located).writeBindingControl deliverWrite
    (enabledControl b &&& ~~~msixControlFunctionMask)
  split
  · exact delivered.maskVector located
  · exact delivered.relabelled false b.active

theorem Held.enableBinding (masked enableWrite deliverWrite : Bool) :
    (enableBinding hw masked enableWrite deliverWrite m b).Keeps hw live before name := by
  cases masked with
  | true => exact held.enableMasked enableWrite
  | false => exact held.enableDelivery enableWrite deliverWrite

end

/-- What a stage and the statements after it keep. -/
theorem Stage.Keeps.next {stage : Stage} {rest : MsixMachine → MsixBinding → Stage}
    (here : stage.Keeps hw live before name)
    (after : stage.status = .ok → (rest stage.machine stage.binding).Keeps hw live before name) :
    (stage.next rest).Keeps hw live before name := by
  rw [Stage.next]
  split
  · exact here
  next ok => exact after (not_not.mp ok)

structure Unfilled (b : MsixBinding) : Prop where
  entry : b.entry = none
  vector : b.vector.active = false
  handler : b.handlerInstalled = false
  table : b.tableMappedHere = false
  pba : b.pbaMappedHere = false

/-- At whichever acquisition a bind stops, its binding says what is held. -/
theorem Held.acquire (held : Held hw live before name m b) (here : name ∈ live)
    (unfilled : Unfilled b) (answers : BindAnswers) (handler context : Nat) (inject masked : Bool) :
    (acquire hw answers name handler context inject masked m b).Keeps hw live before name := by
  obtain ⟨table, ⟨tableFlag, tableBinding⟩, tableMapped⟩ :=
    held.mapTable here unfilled.entry unfilled.table unfilled.pba answers.tableMap
  refine .next table fun ok => ?_
  generalize Msix.mapTable answers.tableMap name m b = first at table tableBinding tableMapped ok ⊢
  have mapped := tableMapped ok
  obtain ⟨pba, pbaFlag, pbaBinding⟩ := table.mapPba here (by rw [tableBinding]; exact unfilled.entry)
    (by rw [tableBinding]; exact unfilled.pba) (by rw [tableBinding]; exact mapped) answers.pbaMap
  refine .next pba fun _ => ?_
  generalize Msix.mapPba answers.pbaMap name first.machine first.binding = second
    at pba pbaBinding ⊢
  rw [tableBinding] at pbaBinding
  obtain ⟨located, entry, original, entryBinding⟩ := pba.locateEntry here (by
    rw [pbaBinding]; exact unfilled.entry)
  refine .next located fun _ => ?_
  generalize Msix.locateEntry hw name second.machine second.binding = third
    at located entryBinding ⊢
  rw [pbaBinding] at entryBinding
  obtain ⟨taken, vector, vectorBinding⟩ := located.takeVector
    (by rw [entryBinding]; exact unfilled.vector) (by rw [entryBinding]; exact unfilled.handler)
  refine .next taken fun _ => ?_
  generalize Msix.takeVector third.machine third.binding = fourth at taken vectorBinding ⊢
  rw [entryBinding] at vectorBinding
  obtain ⟨programmed, programBinding⟩ := taken.programEntry
  refine .next programmed fun _ => ?_
  generalize Msix.programEntry hw fourth.machine fourth.binding = fifth
    at programmed programBinding ⊢
  rw [vectorBinding] at programBinding
  have installed := programmed.installHandler (by rw [programBinding]; exact unfilled.handler)
    handler context
  refine .next installed fun _ => ?_
  split
  · exact installed
  · exact installed.enableBinding masked answers.enableWrite answers.deliverWrite

end

end Sapote.Msix
