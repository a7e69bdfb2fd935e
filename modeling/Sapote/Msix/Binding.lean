import Sapote.Interrupts.Vectors
import Sapote.Pci.Accounting

/-!
MSI-X bindings, `msix.c`. A device keeps its table entry and its control word in
registers whose bits are writable or not: a write latches the writable ones. Whether
the configuration ports take an access is an argument of each call, and so is the
interrupt flag. The store fences order the writes and are left out.
-/

namespace Sapote.Msix
open Frames Paging Pci Interrupts

def msixCapabilityLength : Nat := 12
def msixTableOffset : Nat := 4
def msixPbaOffset : Nat := 8
def msixControlTableSize : BitVec 16 := 0x07FF
def msixControlFunctionMask : BitVec 16 := 0x4000
def msixControlEnable : BitVec 16 := 0x8000
def msixBirMask : BitVec 32 := 0x00000007
def msixBarOffsetMask : BitVec 32 := 0xFFFFFFF8
def msixTableEntrySize : Nat := 16
def msixVectorMask : BitVec 32 := 0x00000001
def msixMessageAddressBase : BitVec 32 := 0xFEE00000
def msixMessageDestinationShift : Nat := 12

inductive MsixStatus where
  | ok | nullArgument | interruptsEnabled | badClaim | capabilityMissing | capabilityMalformed
  | alreadyEnabled | badTableSize | badEntryIndex | badBir | tableOutsideBar | pbaOutsideBar
  | mappingFailure | vectorFailure | handlerFailure | handlerNotInstalled | programmingFailure
  | alreadyBound | notBound | rollbackFailure | injectedFailure
  deriving DecidableEq

/-- `struct msix_binding`; the claim goes by its name and the entry by its address. -/
structure MsixBinding where
  claim : Option Nat
  vector : InterruptVectorAllocation
  entry : Option Nat
  originalEntry : Fin 4 → BitVec 32
  originalControl : BitVec 16
  (tableSize entryIndex capabilityOffset tableBar pbaBar : Nat)
  (handlerInstalled tableMappedHere pbaMappedHere deliveryMasked active : Bool)

def clearedBinding : MsixBinding :=
  ⟨none, noAllocation, none, fun _ => 0, 0, 0, 0, 0, 0, 0, false, false, false, false, false⟩

/-- What the devices and the local APIC are, apart from what can be written. -/
structure MsixHardware where
  /-- The capability a function shows at an offset: its identifier, and the dwords that
  place the table and the pending bits. -/
  identifier : PciAddress → Nat → Nat
  placement : PciAddress → Nat → BitVec 32
  /-- The writable bits of a control word and of a word of device memory. -/
  controlBits : PciAddress × Nat → BitVec 16
  wordBits : Nat → BitVec 32
  apicId : BitVec 32

structure MsixMachine where
  resources : PciResources
  vectors : InterruptVectors
  handlers : HandlerTable
  /-- Device memory, by the physical address of a word. -/
  words : Nat → BitVec 32
  /-- The control words, by function and capability offset. -/
  control : PciAddress × Nat → BitVec 16
  activeBindings : Nat
  rollbackCount : UInt64
  failureInjectionArmed : Bool

def latch {w : Nat} (writable old value : BitVec w) : BitVec w :=
  (old &&& ~~~writable) ||| (value &&& writable)

/-- `write_control`; `port` says whether the configuration ports take the write. -/
def writeControl (hw : MsixHardware) (port : Bool) (m : MsixMachine) (place : PciAddress × Nat)
    (control : BitVec 16) : MsixStatus × MsixMachine :=
  if !port then (.programmingFailure, m)
  else (.ok, { m with
    control := Function.update m.control place
      (latch (hw.controlBits place) (m.control place) control) })

def wordAddress (paging : PagingState) (entry index : Nat) : Nat :=
  (pagingTranslate paging (entry + 4 * index)).2.physicalAddress

def readWord (m : MsixMachine) (entry index : Nat) : BitVec 32 :=
  m.words (wordAddress m.resources.paging entry index)

def writeWord (hw : MsixHardware) (m : MsixMachine) (entry index : Nat) (value : BitVec 32) :
    MsixMachine :=
  let address := wordAddress m.resources.paging entry index
  { m with
    words := Function.update m.words address (latch (hw.wordBits address) (m.words address) value) }

def maskVector (hw : MsixHardware) (m : MsixMachine) (entry : Nat) : MsixMachine :=
  writeWord hw m entry 3 (readWord m entry 3 ||| msixVectorMask)

def unmaskVector (hw : MsixHardware) (m : MsixMachine) (entry : Nat) : MsixMachine :=
  writeWord hw m entry 3 (readWord m entry 3 &&& ~~~msixVectorMask)

def MsixBinding.place (b : MsixBinding) (m : MsixMachine) : Option (PciAddress × Nat) :=
  match b.claim with
  | none => none
  | some name =>
    if b.capabilityOffset = 0 then none
    else some ((m.resources.claims name).device, b.capabilityOffset)

/-- What the ports answer while a binding is rolled back. -/
structure RollbackAnswers where
  (maskWrite restoreWrite restoreRead : Bool)

structure Undo where
  machine : MsixMachine
  binding : MsixBinding
  failed : Bool

def undoDelivery (hw : MsixHardware) (port : Bool) (u : Undo) : Undo :=
  match u.binding.place u.machine with
  | none => u
  | some place =>
    let written := writeControl hw port u.machine place
      (u.binding.originalControl ||| msixControlFunctionMask)
    { u with machine := written.2, failed := u.failed || written.1 ≠ .ok }

def undoVectorMask (hw : MsixHardware) (u : Undo) : Undo :=
  match u.binding.entry with
  | none => u
  | some entry => { u with machine := maskVector hw u.machine entry }

def undoHandler (u : Undo) : Undo :=
  if u.binding.handlerInstalled then
    let unregistered := interruptUnregisterHandler false u.machine.handlers u.binding.vector.vector
    if unregistered.1 ≠ .ok then { u with failed := true }
    else
      { u with
        machine := { u.machine with handlers := unregistered.2 }
        binding := { u.binding with handlerInstalled := false } }
  else u

/-- The four words of an entry written, and then compared with what was written. -/
def restoreEntry (hw : MsixHardware) (m : MsixMachine) (entry : Nat) (words : Fin 4 → BitVec 32) :
    MsixMachine :=
  (List.finRange 4).foldl (fun m (index : Fin 4) => writeWord hw m entry index (words index)) m

def entryShows (m : MsixMachine) (entry : Nat) (words : Fin 4 → BitVec 32) : Bool :=
  (List.finRange 4).all fun index => readWord m entry index = words index

def undoEntry (hw : MsixHardware) (u : Undo) : Undo :=
  match u.binding.entry with
  | none => u
  | some entry =>
    let restored := restoreEntry hw u.machine entry u.binding.originalEntry
    { u with
      machine := restored
      failed := u.failed || !entryShows restored entry u.binding.originalEntry }

/-- A vector is not recycled while its handler may still be reached. -/
def undoVector (u : Undo) : Undo :=
  if u.binding.vector.active then
    if u.binding.handlerInstalled then { u with failed := true }
    else
      let released := interruptVectorRelease false u.machine.vectors u.binding.vector
      if released.1 ≠ .ok then { u with failed := true }
      else
        { u with
          machine := { u.machine with vectors := released.2.1 }
          binding := { u.binding with vector := released.2.2 } }
  else u

def undoPba (u : Undo) : Undo :=
  if u.binding.pbaMappedHere && u.binding.pbaBar ≠ u.binding.tableBar then
    let unmapped := pciClaimUnmapLastBar false u.machine.resources u.binding.claim u.binding.pbaBar
    let machine := { u.machine with resources := unmapped.2 }
    if unmapped.1 ≠ .ok then { u with machine := machine, failed := true }
    else { u with machine := machine, binding := { u.binding with pbaMappedHere := false } }
  else u

def undoTable (u : Undo) : Undo :=
  if u.binding.tableMappedHere then
    let unmapped := pciClaimUnmapLastBar false u.machine.resources u.binding.claim u.binding.tableBar
    let machine := { u.machine with resources := unmapped.2 }
    if unmapped.1 ≠ .ok then { u with machine := machine, failed := true }
    else { u with machine := machine, binding := { u.binding with tableMappedHere := false } }
  else u

def undoControl (hw : MsixHardware) (write read : Bool) (u : Undo) : Undo :=
  match u.binding.place u.machine with
  | none => u
  | some place =>
    let written := writeControl hw write u.machine place u.binding.originalControl
    let differs := !read || written.2.control place ≠ u.binding.originalControl
    { u with machine := written.2, failed := u.failed || written.1 ≠ .ok || differs }

def undoAll (hw : MsixHardware) (answers : RollbackAnswers) (m : MsixMachine) (b : MsixBinding) :
    Undo :=
  undoControl hw answers.restoreWrite answers.restoreRead (undoTable (undoPba (undoVector
    (undoEntry hw (undoHandler (undoVectorMask hw (undoDelivery hw answers.maskWrite
      ⟨m, b, false⟩)))))))

def rollbackBinding (hw : MsixHardware) (answers : RollbackAnswers) (m : MsixMachine)
    (b : MsixBinding) : MsixStatus × MsixMachine × MsixBinding :=
  let u := undoAll hw answers m b
  (if u.failed then .rollbackFailure else .ok,
    { u.machine with rollbackCount := u.machine.rollbackCount + 1 },
    { u.binding with active := false, deliveryMasked := true, entry := none })

section

structure Stage where
  status : MsixStatus
  machine : MsixMachine
  binding : MsixBinding

def Stage.next (stage : Stage) (rest : MsixMachine → MsixBinding → Stage) : Stage :=
  if stage.status ≠ .ok then stage else rest stage.machine stage.binding

def functionForClaim (s : PciResources) (name : Nat) : Option PciFunction :=
  s.functions.find? fun function => function.address = (s.claims name).device

def pciClaimBar (s : PciResources) (name barIndex : Nat) : Option PciBarDescription :=
  if validateActiveClaim s (s.claims name) ≠ .ok then none else (s.claims name).bars[barIndex]?

/-- `pci_claim_mapped_bar` with its check of the claim. -/
def claimedMapping (s : PciResources) (name barIndex : Nat) : Option PciMmioRegion :=
  if validateActiveClaim s (s.claims name) ≠ .ok then none
  else pciClaimMappedBar (s.claims name) barIndex

def validateSpan (bar : Option PciBarDescription) (offset length : Nat) (outside : MsixStatus) :
    MsixStatus :=
  match bar with
  | none => .badBir
  | some bar =>
    if !bar.implemented || (bar.kind ≠ .memory32 && bar.kind ≠ .memory64) then .badBir
    else if length = 0 ∨ bar.size < offset ∨ bar.size - offset < length then outside
    else .ok

/-- What the ports answer during a bind; the pairs are the page tables refusing a BAR and
the command register taking the write that switches decoding on. -/
structure BindAnswers where
  (reads maskWrite : Bool)
  (tableMap pbaMap : Bool × Bool)
  (enableWrite deliverWrite : Bool)
  rollback : RollbackAnswers

variable (hw : MsixHardware)

def placementOffset (device : PciAddress) (offset : Nat) : Nat :=
  (hw.placement device offset &&& msixBarOffsetMask).toNat

def placementBar (device : PciAddress) (offset : Nat) : Nat :=
  (hw.placement device offset &&& msixBirMask).toNat

/-- The checks before anything is acquired, and the fields they fill in. -/
def admitBinding (reads : Bool) (m : MsixMachine) (name entryIndex : Nat) :
    Except MsixStatus MsixBinding :=
  let device := (m.resources.claims name).device
  match functionForClaim m.resources name with
  | none => .error .badClaim
  | some function =>
    let capability := function.msiXOffset
    let control := m.control (device, capability)
    let tableSize := (control &&& msixControlTableSize).toNat + 1
    let tableBar := placementBar hw device (capability + msixTableOffset)
    let pbaBar := placementBar hw device (capability + msixPbaOffset)
    let tableSpan := validateSpan (pciClaimBar m.resources name tableBar)
      (placementOffset hw device (capability + msixTableOffset))
      (tableSize * msixTableEntrySize) .tableOutsideBar
    let pbaSpan := validateSpan (pciClaimBar m.resources name pbaBar)
      (placementOffset hw device (capability + msixPbaOffset))
      ((tableSize + 63) / 64 * 8) .pbaOutsideBar
    if capability = 0 ∨ pciConfigSpaceSize - msixCapabilityLength < capability then
      .error .capabilityMissing
    else if !reads || hw.identifier device capability ≠ pciCapabilityMsiX then
      .error .capabilityMalformed
    else if control &&& msixControlEnable ≠ 0 then .error .alreadyEnabled
    else if tableSize = 0 then .error .badTableSize
    else if tableSize ≤ entryIndex then .error .badEntryIndex
    else if pciBarCount ≤ tableBar ∨ pciBarCount ≤ pbaBar then .error .badBir
    else if tableSpan ≠ .ok then .error tableSpan
    else if pbaSpan ≠ .ok then .error pbaSpan
    else
      .ok { clearedBinding with
        claim := some name
        originalControl := control
        tableSize := tableSize
        entryIndex := entryIndex
        capabilityOffset := capability
        tableBar := tableBar
        pbaBar := pbaBar }

def mapBar (answers : Bool × Bool) (m : MsixMachine) (name barIndex : Nat) :
    PciResourceStatus × MsixMachine :=
  let mapped := pciClaimMapBar false answers.1 answers.2 m.resources (some name) barIndex true
  (mapped.1, { m with resources := mapped.2 })

def mapTable (answers : Bool × Bool) (name : Nat) (m : MsixMachine) (b : MsixBinding) : Stage :=
  if (claimedMapping m.resources name b.tableBar).isSome then ⟨.ok, m, b⟩
  else
    let mapped := mapBar answers m name b.tableBar
    if mapped.1 ≠ .ok then ⟨.mappingFailure, mapped.2, b⟩
    else ⟨.ok, mapped.2, { b with tableMappedHere := true }⟩

def mapPba (answers : Bool × Bool) (name : Nat) (m : MsixMachine) (b : MsixBinding) : Stage :=
  if (claimedMapping m.resources name b.pbaBar).isSome then ⟨.ok, m, b⟩
  else
    let mapped := mapBar answers m name b.pbaBar
    if mapped.1 ≠ .ok then ⟨.mappingFailure, mapped.2, b⟩
    else ⟨.ok, mapped.2, { b with pbaMappedHere := true }⟩

/-- The entry found in the mapped table, `table_region` being the mapping of its BAR. -/
def locateEntry (name : Nat) (m : MsixMachine) (b : MsixBinding) : Stage :=
  let offset := placementOffset hw (m.resources.claims name).device
    (b.capabilityOffset + msixTableOffset) + b.entryIndex * msixTableEntrySize
  match (claimedMapping m.resources name b.tableBar).bind fun region =>
      pciMmioSubregion region offset msixTableEntrySize with
  | none => ⟨.mappingFailure, m, b⟩
  | some entry =>
    ⟨.ok, m, { b with
      entry := some entry
      originalEntry := fun index => readWord m entry index }⟩

def takeVector (m : MsixMachine) (b : MsixBinding) : Stage :=
  let allocated := interruptVectorAllocate false m.vectors
  ⟨if allocated.1 ≠ .ok then .vectorFailure else .ok, { m with vectors := allocated.2.1 },
    { b with vector := allocated.2.2 }⟩

def messageAddress : BitVec 32 :=
  msixMessageAddressBase ||| ((hw.apicId &&& 0xFF) <<< msixMessageDestinationShift)

def writeMessage (m : MsixMachine) (b : MsixBinding) (entry : Nat) : MsixMachine :=
  let m := writeWord hw m entry 3 (b.originalEntry 3 ||| msixVectorMask)
  let m := writeWord hw m entry 0 (messageAddress hw)
  let m := writeWord hw m entry 1 0
  writeWord hw m entry 2 (BitVec.ofNat 32 b.vector.vector)

def messageShown (m : MsixMachine) (b : MsixBinding) (entry : Nat) : Bool :=
  readWord m entry 0 = messageAddress hw && readWord m entry 1 = 0 &&
    (readWord m entry 2 &&& 0xFF) = BitVec.ofNat 32 b.vector.vector &&
    (readWord m entry 3 &&& msixVectorMask) ≠ 0

def programEntry (m : MsixMachine) (b : MsixBinding) : Stage :=
  match b.entry with
  | none => ⟨.programmingFailure, m, b⟩
  | some entry =>
    let written := writeMessage hw m b entry
    ⟨if messageShown hw written b entry then .ok else .programmingFailure, written, b⟩

def installHandler (handler context : Nat) (m : MsixMachine) (b : MsixBinding) : Stage :=
  let registered :=
    interruptRegisterHandler false m.handlers b.vector.vector (some handler) context
  if registered.1 ≠ .ok then ⟨.handlerFailure, { m with handlers := registered.2 }, b⟩
  else ⟨.ok, { m with handlers := registered.2 }, { b with handlerInstalled := true }⟩

/-- The words `enable_masked` and `enable_delivery` write first. -/
def enabledControl (b : MsixBinding) : BitVec 16 :=
  b.originalControl ||| msixControlEnable ||| msixControlFunctionMask

/-- The control word of a binding in use; the pointers to its claim and to its entry are
not null then. -/
def writeBindingControl (port : Bool) (m : MsixMachine) (b : MsixBinding) (control : BitVec 16) :
    MsixStatus × MsixMachine :=
  match b.place m with
  | none => (.programmingFailure, m)
  | some place => writeControl hw port m place control

def enableMasked (enableWrite : Bool) (m : MsixMachine) (b : MsixBinding) : Stage :=
  if !b.handlerInstalled then ⟨.handlerNotInstalled, m, b⟩
  else
    let written := writeBindingControl hw enableWrite m b (enabledControl b)
    if written.1 ≠ .ok then ⟨.programmingFailure, written.2, b⟩
    else
      match b.entry with
      | none => ⟨.programmingFailure, written.2, b⟩
      | some entry => ⟨.ok, maskVector hw written.2 entry, { b with deliveryMasked := true }⟩

def enableDelivery (enableWrite deliverWrite : Bool) (m : MsixMachine) (b : MsixBinding) : Stage :=
  if !b.handlerInstalled then ⟨.handlerNotInstalled, m, b⟩
  else
    let written := writeBindingControl hw enableWrite m b (enabledControl b)
    if written.1 ≠ .ok then ⟨.programmingFailure, written.2, b⟩
    else
      match b.entry with
      | none => ⟨.programmingFailure, written.2, b⟩
      | some entry =>
        let unmasked := unmaskVector hw written.2 entry
        let delivered := writeBindingControl hw deliverWrite unmasked b
          (enabledControl b &&& ~~~msixControlFunctionMask)
        if delivered.1 ≠ .ok then
          ⟨.programmingFailure, maskVector hw delivered.2 entry, b⟩
        else ⟨.ok, delivered.2, { b with deliveryMasked := false }⟩

def enableBinding (masked enableWrite deliverWrite : Bool) (m : MsixMachine) (b : MsixBinding) :
    Stage :=
  if masked then enableMasked hw enableWrite m b
  else enableDelivery hw enableWrite deliverWrite m b

/-- The acquisitions of `bind_internal`, up to the label `fail`. -/
def acquire (answers : BindAnswers) (name handler context : Nat) (inject masked : Bool)
    (m : MsixMachine) (b : MsixBinding) : Stage :=
  (mapTable answers.tableMap name m b).next fun m b =>
  (mapPba answers.pbaMap name m b).next fun m b =>
  (locateEntry hw name m b).next fun m b =>
  (takeVector m b).next fun m b =>
  (programEntry hw m b).next fun m b =>
  (installHandler handler context m b).next fun m b =>
  if inject then ⟨.injectedFailure, m, b⟩
  else enableBinding hw masked answers.enableWrite answers.deliverWrite m b

def settle (answers : RollbackAnswers) (stage : Stage) : MsixStatus × MsixMachine × MsixBinding :=
  if stage.status ≠ .ok then
    let rolledBack := rollbackBinding hw answers stage.machine stage.binding
    (if rolledBack.1 ≠ .ok then .rollbackFailure else stage.status, rolledBack.2)
  else
    (.ok, { stage.machine with activeBindings := stage.machine.activeBindings + 1 },
      { stage.binding with active := true })

/-- `bind_internal` from the admission on. A refused binding is left cleared but for the
fields its checks filled in, which nothing reads. -/
def bindClaim (answers : BindAnswers) (m : MsixMachine) (name entryIndex handler context : Nat)
    (inject masked : Bool) : MsixStatus × MsixMachine × MsixBinding :=
  match admitBinding hw answers.reads m name entryIndex with
  | .error status => (status, m, clearedBinding)
  | .ok b =>
    let quiet := writeBindingControl hw answers.maskWrite m b
      (b.originalControl ||| msixControlFunctionMask)
    if quiet.1 ≠ .ok then (quiet.1, quiet.2, b)
    else
      settle hw answers.rollback (acquire hw answers name handler context inject masked quiet.2 b)

def bindInternal (interrupts : Bool) (answers : BindAnswers) (m : MsixMachine)
    (claim : Option Nat) (entryIndex : Nat) (handler : Option Nat) (context : Nat)
    (binding : Option MsixBinding) (masked : Bool) :
    MsixStatus × MsixMachine × Option MsixBinding :=
  -- The hook belongs to the next attempt only, also when that is refused.
  let disarmed := { m with failureInjectionArmed := false }
  match claim, handler, binding with
  | some name, some handler, some b =>
    if interrupts then (.interruptsEnabled, disarmed, binding)
    else if !(m.resources.claims name).active then (.badClaim, disarmed, binding)
    else if b.active then (.alreadyBound, disarmed, binding)
    else
      let bound := bindClaim hw answers disarmed name entryIndex handler context
        m.failureInjectionArmed masked
      (bound.1, bound.2.1, some bound.2.2)
  | _, _, _ => (.nullArgument, disarmed, binding)

def msixBind (interrupts : Bool) (answers : BindAnswers) (m : MsixMachine) (claim : Option Nat)
    (entryIndex : Nat) (handler : Option Nat) (context : Nat) (binding : Option MsixBinding) :
    MsixStatus × MsixMachine × Option MsixBinding :=
  bindInternal hw interrupts answers m claim entryIndex handler context binding false

def msixBindMasked (interrupts : Bool) (answers : BindAnswers) (m : MsixMachine)
    (claim : Option Nat) (entryIndex : Nat) (handler : Option Nat) (context : Nat)
    (binding : Option MsixBinding) : MsixStatus × MsixMachine × Option MsixBinding :=
  bindInternal hw interrupts answers m claim entryIndex handler context binding true

/-- A call of `msix_set_masked`: the interrupt flag, what is asked, and the two writes. -/
structure MaskCall where
  (interrupts masked enableWrite deliverWrite : Bool)

def msixSetMasked (call : MaskCall) (m : MsixMachine) (binding : Option MsixBinding) :
    MsixStatus × MsixMachine × Option MsixBinding :=
  match binding with
  | none => (.nullArgument, m, none)
  | some b =>
    if call.interrupts then (.interruptsEnabled, m, some b)
    else if !b.active then (.notBound, m, some b)
    else if call.masked = b.deliveryMasked then (.ok, m, some b)
    else
      let changed := enableBinding hw call.masked call.enableWrite call.deliverWrite m b
      (changed.status, changed.machine, some changed.binding)

def msixUnbind (interrupts : Bool) (answers : RollbackAnswers) (m : MsixMachine)
    (binding : Option MsixBinding) : MsixStatus × MsixMachine × Option MsixBinding :=
  match binding with
  | none => (.nullArgument, m, none)
  | some b =>
    if interrupts then (.interruptsEnabled, m, some b)
    else if !b.active then (.notBound, m, some b)
    else
      let undone := rollbackBinding hw answers
        { m with activeBindings := sizeSub m.activeBindings 1 } { b with active := false }
      (undone.1, undone.2.1, some undone.2.2)

def maskStep (s : MsixMachine × Option MsixBinding) (call : MaskCall) :
    MsixMachine × Option MsixBinding :=
  (msixSetMasked hw call s.1 s.2).2

end

end Sapote.Msix
