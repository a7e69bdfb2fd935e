import Sapote.Paging.Types

/-!
The registry of device windows. Validation looks at each entry, then at every pair
of entries, and hands out the entries in the order of `compare_device_windows`. The
enumerators of an entry are the numbers the caller stored, in or out of range.
-/

namespace Sapote.Paging
open List
variable {fault : DeviceWindow → DeviceWindow → Bool}

def deviceWindowVgaText : Nat := 0
def deviceWindowLocalApic : Nat := 1
def deviceWindowIoApic : Nat := 2
def deviceWindowPciEcam : Nat := 3
def deviceWindowKindCount : Nat := 5
def acpiMaxIoApics : Nat := 8
def vgaTextBufferBase : Nat := 0xB8000
def ecamWindowSize : Nat := pagingHugePageSize
def deviceWindowCapacity : Nat := 4 + acpiMaxIoApics
def deviceWindowMaxLength : Nat := 8 * pagingHugePageSize
def deviceWindowWrite : Permissions := 1

def MemoryType.code : MemoryType → Nat
  | .writeBack => 0
  | .writeCombining => 1
  | .uncacheable => 2
  | .writeThrough => 3
  | .writeProtected => 4
  | .uncachedMinus => 5
  | .invalid => 6

structure DeviceWindow where
  (kind instanceNumber physicalBase length memoryType : Nat)
  permissions : Permissions
deriving DecidableEq

def deviceMemoryTypeSupported (memoryType : Nat) : Bool :=
  memoryType = MemoryType.writeBack.code || memoryType = MemoryType.writeCombining.code ||
    memoryType = MemoryType.uncacheable.code

def validateDeviceWindowEntry (w : DeviceWindow) : PagingStatus :=
  if deviceWindowKindCount ≤ w.kind then .badDeviceWindowKind
  else if w.kind ≠ deviceWindowIoApic ∧ w.instanceNumber ≠ 0 ∨
      w.kind = deviceWindowIoApic ∧ acpiMaxIoApics ≤ w.instanceNumber then .badDeviceWindowInstance
  else if !deviceMemoryTypeSupported w.memoryType then .unsupportedDeviceWindowMemoryType
  else if w.permissions &&& ~~~deviceWindowWrite ≠ 0 then .badDeviceWindowPermissions
  else if w.length = 0 then .zeroLengthDeviceWindow
  else if 2 ^ 64 - 1 - w.physicalBase < w.length then .deviceWindowRangeOverflow
  else if w.physicalBase % pagingPageSize ≠ 0 ∨ w.length % pagingPageSize ≠ 0 then
    .unalignedDeviceWindow
  else if w.kind = deviceWindowPciEcam ∧ w.physicalBase % pagingHugePageSize ≠ 0 then
    .unalignedDeviceWindow
  else if w.kind = deviceWindowVgaText ∧ w.physicalBase ≠ vgaTextBufferBase ∨
      (w.kind = deviceWindowVgaText ∨ w.kind = deviceWindowLocalApic ∨
        w.kind = deviceWindowIoApic) ∧ w.length ≠ pagingPageSize ∨
      w.kind = deviceWindowPciEcam ∧ w.length ≠ ecamWindowSize then .deviceWindowUnsupportedRange
  else if w.physicalBase = 0 ∨ deviceWindowMaxLength < w.length ∨
      earlyPhysicalLimit < (w.physicalBase + w.length) % 2 ^ 64 then .deviceWindowUnsupportedRange
  else .ok

def DeviceWindow.keys (w : DeviceWindow) : List Nat :=
  [w.physicalBase, w.length, w.kind, w.instanceNumber, w.memoryType, w.permissions.toNat]

def compareKeys : List Nat → List Nat → Int
  | a :: as, b :: bs => if a ≠ b then if a < b then -1 else 1 else compareKeys as bs
  | _, _ => 0

def compareDeviceWindows (left right : DeviceWindow) : Int := compareKeys left.keys right.keys

def rangesOverlap (left right : DeviceWindow) : Bool :=
  left.physicalBase < (right.physicalBase + right.length) % 2 ^ 64 &&
    right.physicalBase < (left.physicalBase + left.length) % 2 ^ 64

/-- What the two loops over `left < right` collect in a flag. -/
def anyPair (fault : DeviceWindow → DeviceWindow → Bool) : List DeviceWindow → Bool
  | [] => false
  | first :: rest => rest.any (fault first) || anyPair fault rest

def conflictingPair (first second : DeviceWindow) : Bool :=
  rangesOverlap first second && first.memoryType ≠ second.memoryType

def duplicatePair (first second : DeviceWindow) : Bool :=
  compareDeviceWindows first second = 0 ||
    first.kind = second.kind && first.instanceNumber = second.instanceNumber

def overlappingPair (first second : DeviceWindow) : Bool :=
  !duplicatePair first second && rangesOverlap first second

/-- The insertion sort. The part already in order is held last entry first, which is
how the inner loop meets it. -/
def sortDeviceWindows (windows : List DeviceWindow) : List DeviceWindow :=
  (windows.foldl (fun sorted current =>
    sorted.orderedInsert (fun a b => ¬compareDeviceWindows a b < 0) current) []).reverse

def findKind (windows : List DeviceWindow) (kind : Nat) : Bool :=
  windows.any fun w => w.kind = kind

/-- The status, and what is written through `validated`, whose presence is the flag. -/
def pagingDeviceWindowsValidate (windows : Option (List DeviceWindow)) (validated : Bool) :
    PagingStatus × Option (List DeviceWindow) :=
  match windows, validated with
  | some windows, true =>
    if deviceWindowCapacity < windows.length then (.tooManyDeviceWindows, none)
    else
      match windows.find? fun w => validateDeviceWindowEntry w ≠ .ok with
      | some w => (validateDeviceWindowEntry w, none)
      | none =>
        if anyPair conflictingPair windows then (.conflictingDeviceWindowOverlap, none)
        else if anyPair duplicatePair windows then (.duplicateDeviceWindow, none)
        else if anyPair overlappingPair windows then (.overlappingDeviceWindows, none)
        else if !findKind windows deviceWindowVgaText || !findKind windows deviceWindowLocalApic ||
            !findKind windows deviceWindowIoApic then (.requiredDeviceWindowMissing, none)
        else (.ok, some (sortDeviceWindows windows))
  | _, _ => (.nullArgument, none)

def deviceWindowAt (windows : List DeviceWindow) (address : Nat) : Option DeviceWindow :=
  windows.find? fun w => w.physicalBase ≤ address && address < w.physicalBase + w.length

def DeviceWindow.Contains (w : DeviceWindow) (address : Nat) : Prop :=
  w.physicalBase ≤ address ∧ address < w.physicalBase + w.length

def DeviceWindow.Apart (left right : DeviceWindow) : Prop :=
  ∀ address, ¬(left.Contains address ∧ right.Contains address)

theorem compareKeys_spec (as bs : List Nat) (same : as.length = bs.length) :
    (compareKeys as bs < 0 ↔ as < bs) ∧ (compareKeys as bs = 0 ↔ as = bs) := by
  induction as generalizing bs with
  | nil => simp [compareKeys, length_eq_zero_iff.mp same.symm]
  | cons a as ih =>
    cases bs with
    | nil => cases same
    | cons b bs =>
      rw [compareKeys, cons_lt_cons_iff, List.cons.injEq]
      obtain ⟨less, zero⟩ := ih bs (Nat.succ.inj same)
      split
      · split <;> omega
      · rename_i equal
        simp [less, zero, not_not.mp equal]

theorem DeviceWindow.keys_injective : Function.Injective DeviceWindow.keys := by
  rintro ⟨⟩ ⟨⟩ same
  simp_all [DeviceWindow.keys, BitVec.toNat_inj]

/-- The insertion order: later windows first. -/
theorem inserts_iff (a b : DeviceWindow) : ¬compareDeviceWindows a b < 0 ↔ b.keys ≤ a.keys := by
  rw [compareDeviceWindows, (compareKeys_spec a.keys b.keys rfl).1, not_lt]

theorem sortDeviceWindows_perm (windows : List DeviceWindow) :
    (sortDeviceWindows windows).Perm windows := by
  rw [sortDeviceWindows, ← foldr_reverse]
  exact (reverse_perm _).trans ((perm_insertionSort _ _).trans (reverse_perm _))

theorem sortDeviceWindows_sorted (windows : List DeviceWindow) :
    (sortDeviceWindows windows).Pairwise fun a b => a.keys ≤ b.keys := by
  have : Std.Total fun a b => ¬compareDeviceWindows a b < 0 :=
    ⟨fun a b => by rw [inserts_iff, inserts_iff]; exact le_total _ _⟩
  have : IsTrans DeviceWindow fun a b => ¬compareDeviceWindows a b < 0 :=
    ⟨fun a b c => by rw [inserts_iff, inserts_iff, inserts_iff]; exact fun ab bc => bc.trans ab⟩
  rw [sortDeviceWindows, ← foldr_reverse, pairwise_reverse]
  exact (pairwise_insertionSort (fun a b => ¬compareDeviceWindows a b < 0) windows.reverse).imp
    fun {a b} => (inserts_iff a b).mp

theorem sortDeviceWindows_congr {windows others : List DeviceWindow} (perm : windows.Perm others) :
    sortDeviceWindows windows = sortDeviceWindows others := by
  apply ((sortDeviceWindows_perm windows).trans (perm.trans (sortDeviceWindows_perm others).symm))
    |>.eq_of_pairwise _ (sortDeviceWindows_sorted _) (sortDeviceWindows_sorted _)
  intro a b _ _ ab ba
  exact DeviceWindow.keys_injective (le_antisymm ab ba)

section
variable {windows others : List DeviceWindow} {left right : DeviceWindow}

theorem entry_range {w : DeviceWindow} (valid : validateDeviceWindowEntry w = .ok) :
    0 < w.length ∧ w.physicalBase + w.length < 2 ^ 64 := by
  have tests : w.length ≠ 0 ∧ ¬2 ^ 64 - 1 - w.physicalBase < w.length := by
    unfold validateDeviceWindowEntry at valid
    repeat' split at valid
    all_goals first
      | exact ⟨by assumption, by assumption⟩
      | cases valid
  omega

theorem rangesOverlap_iff (validLeft : validateDeviceWindowEntry left = .ok)
    (validRight : validateDeviceWindowEntry right = .ok) :
    rangesOverlap left right = false ↔ left.Apart right := by
  obtain ⟨longLeft, endLeft⟩ := entry_range validLeft
  obtain ⟨longRight, endRight⟩ := entry_range validRight
  simp only [rangesOverlap, Nat.mod_eq_of_lt endLeft, Nat.mod_eq_of_lt endRight,
    Bool.and_eq_false_iff, decide_eq_false_iff_not]
  unfold DeviceWindow.Apart DeviceWindow.Contains
  constructor
  · intro apart address
    omega
  · intro apart
    have atLeft := apart left.physicalBase
    have atRight := apart right.physicalBase
    omega

theorem anyPair_eq_false :
    anyPair fault windows = false ↔ windows.Pairwise fun a b => fault a b = false := by
  induction windows with
  | nil => simp [anyPair]
  | cons w windows ih => simp [anyPair, ih]

theorem anyPair_perm (symmetric : ∀ a b, fault a b = fault b a) (perm : windows.Perm others) :
    anyPair fault windows = anyPair fault others := by
  apply Bool.eq_iff_iff.mpr
  simp only [← Bool.not_eq_false, anyPair_eq_false,
    perm.pairwise_iff fun {a b} same => (symmetric b a).trans same]

theorem compareDeviceWindows_eq_zero : compareDeviceWindows left right = 0 ↔ left = right := by
  rw [compareDeviceWindows, (compareKeys_spec left.keys right.keys rfl).2,
    DeviceWindow.keys_injective.eq_iff]

theorem duplicatePair_eq_false :
    duplicatePair left right = false ↔
      ¬(left.kind = right.kind ∧ left.instanceNumber = right.instanceNumber) := by
  simp only [duplicatePair, Bool.or_eq_false_iff, decide_eq_false_iff_not,
    compareDeviceWindows_eq_zero, Bool.and_eq_false_iff, ← not_and_or]
  refine ⟨And.right, fun apart => ⟨?_, apart⟩⟩
  rintro rfl
  exact apart ⟨rfl, rfl⟩

theorem faults_symmetric (a b : DeviceWindow) : conflictingPair a b = conflictingPair b a ∧
    duplicatePair a b = duplicatePair b a ∧ overlappingPair a b = overlappingPair b a := by
  have overlap : rangesOverlap a b = rangesOverlap b a := Bool.and_comm _ _
  have duplicate : duplicatePair a b = duplicatePair b a := by
    simp only [duplicatePair, compareDeviceWindows_eq_zero]
    simp only [eq_comm]
  simp only [conflictingPair, overlappingPair, overlap, duplicate, ne_comm, and_self]

/-- What the registry must satisfy. -/
structure RegistryValid (windows : List DeviceWindow) : Prop where
  fits : windows.length ≤ deviceWindowCapacity
  entries : ∀ w ∈ windows, validateDeviceWindowEntry w = .ok
  apart : windows.Pairwise DeviceWindow.Apart
  distinct : windows.Pairwise fun a b =>
    ¬(a.kind = b.kind ∧ a.instanceNumber = b.instanceNumber)
  required : ∀ kind ∈ [deviceWindowVgaText, deviceWindowLocalApic, deviceWindowIoApic],
    ∃ w ∈ windows, w.kind = kind

theorem pairs_clean_iff (entries : ∀ w ∈ windows, validateDeviceWindowEntry w = .ok) :
    anyPair conflictingPair windows = false ∧ anyPair duplicatePair windows = false ∧
        anyPair overlappingPair windows = false ↔
      windows.Pairwise DeviceWindow.Apart ∧ windows.Pairwise fun a b =>
        ¬(a.kind = b.kind ∧ a.instanceNumber = b.instanceNumber) := by
  simp only [anyPair_eq_false, ← pairwise_and_iff]
  apply List.Pairwise.iff_of_mem
  intro a b memA memB
  rw [← rangesOverlap_iff (entries a memA) (entries b memB), ← duplicatePair_eq_false,
    conflictingPair, overlappingPair]
  cases rangesOverlap a b <;> cases duplicatePair a b <;> simp

theorem find?_refused (entries : ∀ w ∈ windows, validateDeviceWindowEntry w = .ok) :
    windows.find? (fun w => validateDeviceWindowEntry w ≠ .ok) = none :=
  find?_eq_none.mpr fun w mem => by simp [entries w mem]

theorem refused_iff {c : Prop} [Decidable c] {status : PagingStatus} (refused : status ≠ .ok)
    {rest : PagingStatus × Option (List DeviceWindow)} :
    (if c then (status, none) else rest).1 = .ok ↔ ¬c ∧ rest.1 = .ok := by
  split <;> simp [*]

theorem findKind_iff {kind : Nat} : findKind windows kind ↔ ∃ w ∈ windows, w.kind = kind := by
  simp [findKind]

theorem validate_ok_iff (windows : List DeviceWindow) :
    (pagingDeviceWindowsValidate (some windows) true).1 = .ok ↔ RegistryValid windows := by
  by_cases admitted : windows.length ≤ deviceWindowCapacity ∧
      ∀ w ∈ windows, validateDeviceWindowEntry w = .ok
  · obtain ⟨fits, entries⟩ := admitted
    simp only [pagingDeviceWindowsValidate, if_neg (not_lt.mpr fits), find?_refused entries]
    simp (disch := decide) only [refused_iff, Bool.not_eq_true, Bool.or_eq_false_iff,
      Bool.not_eq_false', findKind_iff, and_true]
    have clean := pairs_clean_iff entries
    constructor
    · rintro ⟨conflict, duplicate, overlap, ⟨vga, localApic⟩, ioApic⟩
      obtain ⟨apart, distinct⟩ := clean.mp ⟨conflict, duplicate, overlap⟩
      exact ⟨fits, entries, apart, distinct, by simp [vga, localApic, ioApic]⟩
    · intro valid
      obtain ⟨conflict, duplicate, overlap⟩ := clean.mpr ⟨valid.apart, valid.distinct⟩
      have required := valid.required
      simp only [forall_mem_cons] at required
      exact ⟨conflict, duplicate, overlap, ⟨required.1, required.2.1⟩, required.2.2.1⟩
  · constructor
    · intro ok
      rw [pagingDeviceWindowsValidate, refused_iff (by decide)] at ok
      cases bad : windows.find? (fun w => validateDeviceWindowEntry w ≠ .ok) with
      | some w =>
        rw [bad] at ok
        exact absurd ok.2 (by simpa using find?_some bad)
      | none =>
        have entries := find?_eq_none.mp bad
        exact absurd ⟨not_lt.mp ok.1, fun w mem => by simpa using entries w mem⟩ admitted
    · exact fun valid => absurd ⟨valid.fits, valid.entries⟩ admitted

theorem RegistryValid.validate (valid : RegistryValid windows) :
    pagingDeviceWindowsValidate (some windows) true = (.ok, some (sortDeviceWindows windows)) := by
  have ok := (validate_ok_iff windows).mpr valid
  simp only [pagingDeviceWindowsValidate, if_neg (not_lt.mpr valid.fits),
    find?_refused valid.entries] at ok ⊢
  simp (disch := decide) only [refused_iff] at ok
  obtain ⟨conflict, duplicate, overlap, missing, -⟩ := ok
  rw [if_neg conflict, if_neg duplicate, if_neg overlap, if_neg missing]

theorem deviceWindowAt_iff (apart : windows.Pairwise DeviceWindow.Apart) (address : Nat)
    (w : DeviceWindow) : deviceWindowAt windows address = some w ↔ w ∈ windows ∧ w.Contains address := by
  induction windows with
  | nil => simp [deviceWindowAt]
  | cons first windows ih =>
    obtain ⟨away, rest⟩ := pairwise_cons.mp apart
    have inside : (decide (first.physicalBase ≤ address) &&
        decide (address < first.physicalBase + first.length)) ↔ first.Contains address := by
      simp [DeviceWindow.Contains]
    rw [deviceWindowAt, find?_cons]
    split
    · rename_i here
      have contains := inside.mp here
      constructor
      · rintro ⟨⟩
        exact ⟨.head _, contains⟩
      · rintro ⟨mem, other⟩
        obtain same | later := mem_cons.mp mem
        · rw [same]
        · exact absurd ⟨contains, other⟩ (away w later address)
    · rename_i here
      rw [← deviceWindowAt, ih rest, mem_cons]
      constructor
      · exact fun found => ⟨.inr found.1, found.2⟩
      · rintro ⟨rfl | later, contains⟩
        · rw [inside.mpr contains] at here
          cases here
        · exact ⟨later, contains⟩

theorem validate_perm (perm : windows.Perm others)
    (entries : ∀ w ∈ windows, validateDeviceWindowEntry w = .ok) :
    pagingDeviceWindowsValidate (some windows) true =
      pagingDeviceWindowsValidate (some others) true := by
  have kinds : ∀ kind, findKind windows kind = findKind others kind := by
    intro kind
    rw [Bool.eq_iff_iff, findKind_iff, findKind_iff]
    simp only [perm.mem_iff]
  simp only [pagingDeviceWindowsValidate, perm.length_eq, find?_refused entries,
    find?_refused fun w mem => entries w (perm.mem_iff.mpr mem),
    anyPair_perm (fun a b => (faults_symmetric a b).1) perm,
    anyPair_perm (fun a b => (faults_symmetric a b).2.1) perm,
    anyPair_perm (fun a b => (faults_symmetric a b).2.2) perm, kinds, sortDeviceWindows_congr perm]

theorem Apart.base_ne {a b : DeviceWindow} (validA : validateDeviceWindowEntry a = .ok)
    (validB : validateDeviceWindowEntry b = .ok) (apart : a.Apart b) :
    a.physicalBase ≠ b.physicalBase := by
  intro same
  have here := apart a.physicalBase
  unfold DeviceWindow.Contains at here
  have := entry_range validA
  have := entry_range validB
  omega

theorem RegistryValid.apart_sorted (valid : RegistryValid windows) :
    (sortDeviceWindows windows).Pairwise DeviceWindow.Apart :=
  ((sortDeviceWindows_perm windows).pairwise_iff
    fun apart address both => apart address both.symm).mpr valid.apart

/-- In sorted order the windows of a valid registry start one after the other. -/
theorem RegistryValid.sorted (valid : RegistryValid windows) :
    (sortDeviceWindows windows).Pairwise fun a b => a.physicalBase < b.physicalBase := by
  have perm := sortDeviceWindows_perm windows
  refine (pairwise_and_iff.mpr
    ⟨valid.apart_sorted, sortDeviceWindows_sorted windows⟩).imp_of_mem ?_
  rintro a b memA memB ⟨away, least⟩
  have different := Apart.base_ne (valid.entries a (perm.mem_iff.mp memA))
    (valid.entries b (perm.mem_iff.mp memB)) away
  have first : a.physicalBase ≤ b.physicalBase := by
    by_contra later
    exact absurd (cons_lt_cons_iff.mpr (.inl (Nat.lt_of_not_le later))) (not_lt.mpr least)
  omega

/-- The registry is accepted exactly when it should be, the order of its entries does
not matter, and what is handed out is sorted and can be looked up by address. -/
theorem device_windows_validated (windows : List DeviceWindow) :
    ((pagingDeviceWindowsValidate (some windows) true).1 = .ok ↔ RegistryValid windows) ∧
      (∀ others, windows.Perm others → (∀ w ∈ windows, validateDeviceWindowEntry w = .ok) →
        pagingDeviceWindowsValidate (some others) true =
          pagingDeviceWindowsValidate (some windows) true) ∧
      ∀ out, pagingDeviceWindowsValidate (some windows) true = (.ok, some out) →
        out.Perm windows ∧ out.Pairwise (fun a b => a.physicalBase < b.physicalBase) ∧
          ∀ address w, deviceWindowAt out address = some w ↔ w ∈ out ∧ w.Contains address := by
  refine ⟨validate_ok_iff windows,
    fun others perm entries => (validate_perm perm entries).symm, ?_⟩
  intro out ok
  have valid := (validate_ok_iff windows).mp (by rw [ok])
  rw [valid.validate, Prod.mk.injEq, Option.some.injEq] at ok
  obtain ⟨-, rfl⟩ := ok
  exact ⟨sortDeviceWindows_perm windows, valid.sorted, deviceWindowAt_iff valid.apart_sorted⟩

end

end Sapote.Paging
