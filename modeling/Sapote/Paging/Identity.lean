import Sapote.Paging.TableAccounting
import Sapote.Paging.Windows

/-!
The identity map. Which pages are mapped, and how, is a list of calls of `map_range`
that the kernel's sections and the device windows decide; building makes the calls
until one fails, and validation reads every page back.
-/

namespace Sapote.Paging
open Frames Library

structure KernelSection where
  (start stop : Nat)
  permissions : Permissions

structure KernelLayout where
  (kernelStart kernelEnd : Nat)
  sections : List KernelSection

def regionNeedsPageTable (windows : List DeviceWindow) (base kernelStart kernelEnd : Nat) : Bool :=
  (base < kernelEnd && kernelStart < base + pagingHugePageSize) ||
    windows.any fun w =>
      base < w.physicalBase + w.length && w.physicalBase < base + pagingHugePageSize

def deviceWindowMappingPermissions (w : DeviceWindow) : Permissions :=
  let permissions := pagingRead
  let permissions :=
    if w.permissions &&& deviceWindowWrite ≠ 0 then permissions ||| pagingWrite else permissions
  if w.memoryType = MemoryType.uncacheable.code then permissions ||| pagingUncached
  else if w.memoryType = MemoryType.writeCombining.code then permissions ||| pagingWriteCombining
  else permissions

def sectionPermissions (sections : List KernelSection) (windows : List DeviceWindow)
    (address : Nat) : Permissions :=
  match deviceWindowAt windows address with
  | some w => deviceWindowMappingPermissions w
  | none =>
    match sections.find? fun s => s.start ≤ address && address < s.stop with
    | some s => s.permissions
    | none => pagingWrite

def regionBases : List Nat :=
  (List.range (earlyPhysicalLimit / pagingHugePageSize)).map (· * pagingHugePageSize)

def regionPages (base : Nat) : List Nat :=
  (List.range (pagingHugePageSize / pagingPageSize)).map (base + · * pagingPageSize)

section
variable (layout : KernelLayout) (windows : List DeviceWindow)

/-- The calls for one region: a large leaf, or a page at a time with the null page
left out. -/
def regionCalls (base : Nat) : List RangeOp :=
  if !regionNeedsPageTable windows base layout.kernelStart layout.kernelEnd then
    [.map base base pagingHugePageSize pagingWrite true]
  else
    ((regionPages base).filter (· ≠ 0)).map fun address =>
      .map address address pagingPageSize (sectionPermissions layout.sections windows address) false

def identityCalls : List RangeOp := regionBases.flatMap (regionCalls layout windows)

def callEach (pat : Word) : List RangeOp → TableState → RangeResult
  | [], s => ⟨.ok, s⟩
  | op :: ops, s =>
    let called := rangeStep pat s op
    if called.status ≠ .ok then called else callEach pat ops called.state

def buildIdentityMap (pat : Word) (s : TableState) : RangeResult :=
  callEach pat (identityCalls layout windows) s

def translatesAs (s : TableState) (pat : Word) (address : Nat) (permissions : Permissions)
    (memoryType level : Nat) : Bool :=
  let (status, translation) := translateAddress s address pat
  status = .ok ∧ translation.physicalAddress = address ∧ translation.permissions = permissions ∧
    translation.memoryType.code = memoryType ∧ translation.level = level

def pageMemoryType (address : Nat) : Nat :=
  match deviceWindowAt windows address with
  | some w => w.memoryType
  | none => MemoryType.writeBack.code

def regionValid (s : TableState) (pat : Word) (base : Nat) : Bool :=
  if !regionNeedsPageTable windows base layout.kernelStart layout.kernelEnd then
    translatesAs s pat base pagingWrite MemoryType.writeBack.code 2
  else
    (regionPages base).all fun address =>
      if address = 0 then (translateAddress s address pat).1 = .notMapped
      else
        translatesAs s pat address (sectionPermissions layout.sections windows address)
          (pageMemoryType windows address) 1

def validateIdentityMap (s : TableState) (pat : Word) : PagingStatus :=
  if regionBases.all (regionValid layout windows s pat) then .ok else .validationFailure

end

theorem callEach_edits (pat : Word) (ops : List RangeOp) {s : TableState}
    (sound : HierarchySound s) : Edits s (callEach pat ops s).state := by
  induction ops generalizing s with
  | nil => exact .refl sound
  | cons op ops ih =>
    have first := rangeStep_edits pat sound op
    rw [callEach]
    split
    · exact first
    · exact first.trans (ih first.sound)

end Sapote.Paging
