import Mathlib.Data.List.Perm.Subperm
import Mathlib.Logic.Function.Iterate
import Sapote.Library.Checks
import Sapote.Pci.Enumeration

/-!
A function's capability list is a chain of pointers that firmware controls. The walk
accepts exactly the chains that end without entering the header; one that ends does
not repeat itself, so neither the visited map nor the table's size ever refuses it.
-/

namespace Sapote.Pci
open List

open Library
variable {f g : PciFunction} {visited : List Nat} {k offset : Nat} {i j room : Nat}
  {r : Except PciStatus PciFunction} {listed : List PciCapability}

section
variable (config : ConfigSpace) (address : PciAddress)

def nextCapability (offset : Nat) : Nat := byteOf (config address offset) (offset + 1) / 4 * 4

def firstCapability : Nat :=
  byteOf (config address pciRegisterCapabilityPointer) pciRegisterCapabilityPointer / 4 * 4

def capabilityAt (n : Nat) : Nat := (nextCapability config address)^[n] (firstCapability config address)

def hasCapabilityList : Prop :=
  wordOf (config address pciRegisterCommand) pciRegisterStatus &&& pciStatusCapabilityList ≠ 0

/-- The chain ends with a null pointer, and does not enter the header before. -/
def CapabilitiesWellFormed : Prop :=
  hasCapabilityList config address → ∃ n, capabilityAt config address n = 0 ∧
    ∀ k < n, pciCapabilityFirstOffset ≤ capabilityAt config address k

structure Addressable : Prop where
  segment : address.segment = 0
  bus : address.bus < pciMaxBuses
  device : address.device < pciDevicesPerBus
  function : address.function < pciFunctionsPerDevice

end

section
variable {config : ConfigSpace} {address : PciAddress}

theorem byteOf_lt (dword : BitVec 32) (offset : Nat) : byteOf dword offset < 256 :=
  Nat.mod_lt _ (by decide)

theorem readAligned_ok (valid : Addressable address) (small : offset < 256) :
    readAligned config address offset = .ok (config address (offset / 4 * 4)) := by
  have device := valid.device
  have function := valid.function
  unfold readAligned pciConfigReadPort
  rw [if_neg (by omega), if_neg (by unfold pciConfigSpaceSize; omega),
    if_neg (not_not_intro valid.segment)]

theorem capabilityAt_succ (n : Nat) :
    capabilityAt config address (n + 1) =
      nextCapability config address (capabilityAt config address n) :=
  Function.iterate_succ_apply' _ _ _

/-- Every pointer is aligned and fits a byte. -/
theorem capabilityAt_bounds (n : Nat) :
    capabilityAt config address n % 4 = 0 ∧ capabilityAt config address n < 256 := by
  cases n with
  | zero =>
    have small := byteOf_lt (config address pciRegisterCapabilityPointer)
      pciRegisterCapabilityPointer
    change firstCapability config address % 4 = 0 ∧ firstCapability config address < 256
    unfold firstCapability
    omega
  | succ n =>
    rw [capabilityAt_succ]
    have small := byteOf_lt (config address (capabilityAt config address n))
      (capabilityAt config address n + 1)
    unfold nextCapability
    omega

/-- Once two places of the chain agree, it goes round. -/
theorem capabilityAt_repeats (same : capabilityAt config address i =
    capabilityAt config address j) (d : Nat) :
    capabilityAt config address (i + d) = capabilityAt config address (j + d) := by
  induction d with
  | zero => exact same
  | succ d ih => rw [← add_assoc, ← add_assoc, capabilityAt_succ, capabilityAt_succ, ih]

def Outside (config : ConfigSpace) (address : PciAddress) (k : Nat) : Prop :=
  ∀ i < k, pciCapabilityFirstOffset ≤ capabilityAt config address i

theorem Outside.succ (outside : Outside config address k)
    (inside : pciCapabilityFirstOffset ≤ capabilityAt config address k) :
    Outside config address (k + 1) := by
  intro i small
  obtain earlier | last := Nat.lt_or_eq_of_le (Nat.le_of_lt_succ small)
  · exact outside i earlier
  · exact last ▸ inside

theorem Outside.ne_zero (outside : Outside config address k) (before : i < k) :
    capabilityAt config address i ≠ 0 :=
  Nat.ne_of_gt (Nat.lt_of_lt_of_le (by decide) (outside i before))

/-- A chain that ends does not repeat itself. -/
theorem capabilityAt_injective {n : Nat} (ends : capabilityAt config address n = 0)
    (outside : Outside config address n) (before : i < j) (inside : j < n) :
    capabilityAt config address i ≠ capabilityAt config address j := by
  intro same
  have turned := capabilityAt_repeats same (n - j)
  rw [Nat.add_sub_cancel' (Nat.le_of_lt inside), ends] at turned
  exact outside.ne_zero (by omega) turned

def visitedBefore (config : ConfigSpace) (address : PciAddress) : Nat → List Nat
  | 0 => []
  | k + 1 => capabilityAt config address k / 4 :: visitedBefore config address k

theorem length_visitedBefore : (visitedBefore config address k).length = k := by
  induction k with
  | zero => rfl
  | succ k ih => rw [visitedBefore, length_cons, ih]

theorem mem_visitedBefore {place : Nat} :
    place ∈ visitedBefore config address k ↔ ∃ i < k, capabilityAt config address i / 4 = place := by
  induction k with
  | zero => simp [visitedBefore]
  | succ k ih =>
    rw [visitedBefore, mem_cons, ih]
    constructor
    · rintro (rfl | ⟨i, small, rfl⟩)
      · exact ⟨k, Nat.lt_succ_self k, rfl⟩
      · exact ⟨i, Nat.lt_succ_of_lt small, rfl⟩
    · rintro ⟨i, small, rfl⟩
      obtain earlier | last := Nat.lt_or_eq_of_le (Nat.lt_succ_iff.mp small)
      · exact .inr ⟨i, earlier, rfl⟩
      · exact .inl (by rw [last])

/-- There are 48 aligned places outside the header. -/
theorem Outside.length_le (outside : Outside config address k)
    (new : (visitedBefore config address k).Nodup) : k ≤ pciMaxCapabilities := by
  have within : visitedBefore config address k ⊆ List.range' 16 pciMaxCapabilities := by
    intro place here
    obtain ⟨i, before, rfl⟩ := mem_visitedBefore.mp here
    obtain ⟨-, small⟩ := @capabilityAt_bounds config address i
    have low := outside i before
    simp only [mem_range'_1, pciMaxCapabilities, pciConfigSpaceSize, pciCapabilityFirstOffset]
      at low ⊢
    omega
  have counted := (new.subperm within).length_le
  rwa [length_visitedBefore, length_range'] at counted

structure SameHeader (f g : PciFunction) : Prop where
  address : g.address = f.address
  headerType : g.headerType = f.headerType
  multifunction : g.multifunction = f.multifunction
  secondaryBus : g.secondaryBus = f.secondaryBus

theorem SameHeader.trans {h : PciFunction} (first : SameHeader f g) (second : SameHeader g h) :
    SameHeader f h :=
  ⟨second.address.trans first.address, second.headerType.trans first.headerType,
    second.multifunction.trans first.multifunction, second.secondaryBus.trans first.secondaryBus⟩

theorem noteCapability_sameHeader (f : PciFunction) (identifier offset : Nat) :
    SameHeader f (noteCapability f identifier offset) := by
  unfold noteCapability
  repeat' split
  all_goals exact ⟨rfl, rfl, rfl, rfl⟩

theorem walkCapabilities_sameHeader (here : walkCapabilities config room offset visited f = .ok g) :
    SameHeader f g := by
  induction room generalizing offset visited f with
  | zero =>
    unfold walkCapabilities at here
    dsimp only at here
    repeat' split at here
    all_goals cases here
    exact ⟨rfl, rfl, rfl, rfl⟩
  | succ room ih =>
    unfold walkCapabilities at here
    split at here
    · cases here
      exact ⟨rfl, rfl, rfl, rfl⟩
    split at here
    · cases here
    split at here
    · cases here
    dsimp only at here
    split at here
    · cases here
    · exact (noteCapability_sameHeader f _ _).trans (ih here)

def chainCapability (config : ConfigSpace) (address : PciAddress) (i : Nat) : PciCapability :=
  ⟨byteOf (config address (capabilityAt config address i)) (capabilityAt config address i),
    capabilityAt config address i⟩

def noteAt (config : ConfigSpace) (address : PciAddress) (f : PciFunction) (i : Nat) : PciFunction :=
  noteCapability f (chainCapability config address i).identifier
    (chainCapability config address i).offset

theorem walkCapabilities_turn (valid : Addressable address) (named : f.address = address)
    (inside : pciCapabilityFirstOffset ≤ capabilityAt config address k)
    (new : capabilityAt config address k / 4 ∉ visited) :
    walkCapabilities config (room + 1) (capabilityAt config address k) visited f =
      walkCapabilities config room (capabilityAt config address (k + 1))
        (capabilityAt config address k / 4 :: visited) (noteAt config address f k) := by
  obtain ⟨aligned, small⟩ := @capabilityAt_bounds config address k
  have exact_offset : capabilityAt config address k / 4 * 4 = capabilityAt config address k := by
    omega
  conv_lhs => unfold walkCapabilities
  rw [if_neg (by unfold pciCapabilityFirstOffset at inside; omega), if_neg (by omega),
    if_neg new, named, readAligned_ok valid small, exact_offset, capabilityAt_succ]
  rfl

/-- How a walk from the `k`-th pointer on ends: at the end of the chain with everything noted,
at a pointer into the header, or at one it has met before. -/
inductive Walked (config : ConfigSpace) (address : PciAddress) (f : PciFunction) (k : Nat) :
    Except PciStatus PciFunction → Prop
  | ends {n : Nat} (reached : k ≤ n) (null : capabilityAt config address n = 0)
      (outside : Outside config address n) :
      Walked config address f k (.ok ((List.range' k (n - k)).foldl (noteAt config address) f))
  | header {n : Nat} (some : capabilityAt config address n ≠ 0)
      (low : capabilityAt config address n < pciCapabilityFirstOffset)
      (outside : Outside config address n) : Walked config address f k (.error .badCapabilityPointer)
  | loop {i n : Nat} (before : i < n)
      (same : capabilityAt config address i = capabilityAt config address n)
      (outside : Outside config address (n + 1)) : Walked config address f k (.error .capabilityLoop)

theorem Walked.noted (walked : Walked config address (noteAt config address f k) (k + 1) r) :
    Walked config address f k r := by
  cases walked with
  | @ends n reached null outside =>
    have order : List.range' k (n - k) = k :: List.range' (k + 1) (n - (k + 1)) := by
      rw [show n - k = n - (k + 1) + 1 by omega, List.range'_succ]
    have here := Walked.ends (f := f) (Nat.le_of_succ_le reached) null outside
    rwa [order, foldl_cons] at here
  | header some low outside => exact .header some low outside
  | loop before same outside => exact .loop before same outside

/-- The walk goes on past a new pointer outside the header, and ends at any other. -/
theorem walkCapabilities_stops (outside : Outside config address k) :
    Walked config address f k (walkCapabilities config room (capabilityAt config address k)
      (visitedBefore config address k) f) ∨
    pciCapabilityFirstOffset ≤ capabilityAt config address k ∧
      capabilityAt config address k / 4 ∉ visitedBefore config address k := by
  unfold walkCapabilities
  by_cases null : capabilityAt config address k = 0
  · have ended := Walked.ends (f := f) (Nat.le_refl k) null outside
    rw [Nat.sub_self] at ended
    rw [if_pos null]
    exact .inl ended
  rw [if_neg null]
  split
  · next low =>
        exact .inl (.header null low outside)
  next low =>
  by_cases seen : capabilityAt config address k / 4 ∈ visitedBefore config address k
  · rw [if_pos seen]
    obtain ⟨i, before, same⟩ := mem_visitedBefore.mp seen
    obtain ⟨alignedI, -⟩ := @capabilityAt_bounds config address i
    obtain ⟨alignedK, -⟩ := @capabilityAt_bounds config address k
    exact .inl (.loop before (by omega) (outside.succ (Nat.not_lt.mp low)))
  · exact .inr ⟨Nat.not_lt.mp low, seen⟩

theorem walkCapabilities_walked (valid : Addressable address) (named : f.address = address)
    (left : k + room = pciMaxCapabilities) (outside : Outside config address k)
    (apart : (visitedBefore config address k).Nodup) :
    Walked config address f k (walkCapabilities config room (capabilityAt config address k)
      (visitedBefore config address k) f) := by
  induction room generalizing k f with
  | zero =>
    refine (walkCapabilities_stops outside).resolve_right fun ⟨inside, new⟩ => ?_
    have length := (outside.succ inside).length_le (nodup_cons.mpr ⟨new, apart⟩)
    omega
  | succ room ih =>
    obtain stopped | ⟨inside, new⟩ := walkCapabilities_stops outside
    · exact stopped
    rw [walkCapabilities_turn valid named inside new]
    exact (ih ((noteCapability_sameHeader f _ _).address.trans named) (by omega)
      (outside.succ inside) (nodup_cons.mpr ⟨new, apart⟩)).noted

theorem collectCapabilities_sameHeader (here : collectCapabilities config f = .ok g) :
    SameHeader f g := by
  unfold collectCapabilities at here
  dsimp only at here
  split at here
  · cases here
    exact ⟨rfl, rfl, rfl, rfl⟩
  split at here
  · cases here
  · have walked := walkCapabilities_sameHeader here
    exact ⟨walked.address, walked.headerType, walked.multifunction, walked.secondaryBus⟩

/-- The chain ends with a null pointer after `n` capabilities outside the header. -/
def ChainEnds (config : ConfigSpace) (address : PciAddress) (n : Nat) : Prop :=
  capabilityAt config address n = 0 ∧ Outside config address n

/-- A walk from the first pointer succeeds exactly if the chain ends. -/
theorem Walked.ok_iff (walked : Walked config address f 0 r) :
    (∃ g, r = .ok g) ↔ ∃ n, ChainEnds config address n := by
  cases walked with
  | ends reached null outside => exact iff_of_true ⟨_, rfl⟩ ⟨_, null, outside⟩
  | @header n some low outside =>
    refine iff_of_false nofun ?_
    rintro ⟨m, null, before⟩
    obtain less | rfl | more := Nat.lt_trichotomy m n
    · exact outside.ne_zero less null
    · exact some null
    · exact absurd (before n more) (Nat.not_le.mpr low)
  | @loop i n before same outside =>
    refine iff_of_false nofun ?_
    rintro ⟨m, null, earlier⟩
    obtain more | less := Nat.lt_or_ge n m
    · exact capabilityAt_injective null earlier before more same
    · exact outside.ne_zero (Nat.lt_succ_of_le less) null

theorem collectCapabilities_walked (valid : Addressable address) (named : f.address = address)
    (listed : f.status &&& pciStatusCapabilityList ≠ 0) :
    Walked config address { f with
      capabilities := [], msiOffset := 0, msiXOffset := 0, expressOffset := 0 } 0
      (collectCapabilities config f) := by
  unfold collectCapabilities
  rw [if_neg listed, named, readAligned_ok valid (by decide)]
  exact walkCapabilities_walked valid rfl (zero_add _) nofun nodup_nil

/-- The list of a function is accepted exactly if it is well formed. -/
theorem collectCapabilities_ok_iff (valid : Addressable address) (named : f.address = address)
    (status : f.status = wordOf (config address pciRegisterCommand) pciRegisterStatus) :
    (∃ g, collectCapabilities config f = .ok g) ↔ CapabilitiesWellFormed config address := by
  unfold CapabilitiesWellFormed hasCapabilityList
  rw [← status]
  by_cases list : f.status &&& pciStatusCapabilityList = 0
  · exact iff_of_true ⟨_, if_pos list⟩ fun present => absurd list present
  · rw [(collectCapabilities_walked valid named list).ok_iff]
    exact ⟨fun ended _ => ended, fun formed => formed list⟩

def lastOffset (identifier : Nat) (listed : List PciCapability) : Nat :=
  (lastWith (fun capability => capability.identifier = identifier) listed).elim 0 (·.offset)

structure Records (g : PciFunction) (listed : List PciCapability) : Prop where
  capabilities : g.capabilities = listed
  msiOffset : g.msiOffset = lastOffset pciCapabilityMsi listed
  msiXOffset : g.msiXOffset = lastOffset pciCapabilityMsiX listed
  expressOffset : g.expressOffset = lastOffset pciCapabilityExpress listed

theorem lastOffset_concat (identifier : Nat) (listed : List PciCapability)
    (capability : PciCapability) : lastOffset identifier (listed ++ [capability]) =
      if capability.identifier = identifier then capability.offset
      else lastOffset identifier listed := by
  rw [lastOffset, lastWith_concat]
  by_cases same : capability.identifier = identifier
  · simp [same]
  · simp [same, lastOffset]

theorem Records.note (records : Records f listed) (capability : PciCapability) :
    Records (noteCapability f capability.identifier capability.offset) (listed ++ [capability]) := by
  obtain ⟨rfl, msi, msiX, express⟩ := records
  obtain ⟨identifier, offset⟩ := capability
  constructor
  all_goals grind [noteCapability, lastOffset_concat, pciCapabilityMsi, pciCapabilityMsiX,
    pciCapabilityExpress]

theorem Records.noteAll (records : Records f listed) (l : List Nat) :
    Records (l.foldl (noteAt config address) f) (listed ++ l.map (chainCapability config address)) := by
  induction l generalizing f listed with
  | nil => rwa [foldl_nil, map_nil, append_nil]
  | cons i l ih =>
    have noted := ih (records.note (chainCapability config address i))
    rwa [append_assoc] at noted

/-- The walk is total, accepts exactly the chains that end without a repetition, records them
in order, and reports a loop only where a pointer comes back. -/
theorem capability_walk_exact (valid : Addressable address) (named : f.address = address)
    (listed : f.status &&& pciStatusCapabilityList ≠ 0) :
    ((∃ g, collectCapabilities config f = .ok g) ↔ ∃ n, ChainEnds config address n ∧
      ∀ i j, i < j → j < n → capabilityAt config address i ≠ capabilityAt config address j) ∧
    (∀ g n, collectCapabilities config f = .ok g → ChainEnds config address n →
      Records g ((List.range n).map (chainCapability config address))) ∧
    (collectCapabilities config f = .error .capabilityLoop → ∃ i j, i < j ∧
      capabilityAt config address i = capabilityAt config address j ∧
      Outside config address (j + 1)) := by
  have walked := @collectCapabilities_walked f config address valid named listed
  refine ⟨walked.ok_iff.trans ⟨?_, fun ⟨n, ended, _⟩ => ⟨n, ended⟩⟩, ?_, ?_⟩
  · rintro ⟨n, ended⟩
    exact ⟨n, ended, fun i j => capabilityAt_injective ended.1 ended.2⟩
  · intro g n accepted ended
    rw [accepted] at walked
    cases walked with
    | @ends m reached null outside =>
      have same : m = n := by
        obtain less | same | more := Nat.lt_trichotomy m n
        · exact absurd null (ended.2.ne_zero less)
        · exact same
        · exact absurd ended.1 (outside.ne_zero more)
      rw [same, Nat.sub_zero, ← range_eq_range']
      exact .noteAll ⟨rfl, rfl, rfl, rfl⟩ _
  · intro refused
    rw [refused] at walked
    cases walked with
    | loop before same outside => exact ⟨_, _, before, same, outside⟩

/-- Message-signalled interrupts at 0x40, and behind them the extended ones at 0x50. -/
def twoCapabilities : ConfigSpace := fun _ offset =>
  if offset = pciRegisterCapabilityPointer then 0x40 else if offset = 0x40 then 0x5005
  else if offset = 0x50 then 0x11 else 0

def listingFunction : PciFunction :=
  ⟨⟨0, 0, 0, 0⟩, 0, 0, 0, pciStatusCapabilityList, 0, 0, 0, 0, 0, false, 0, 0, 0, 0, 0, []⟩

theorem capability_walk_two : ∃ g, collectCapabilities twoCapabilities listingFunction = .ok g ∧
    Records g [⟨5, 0x40⟩, ⟨0x11, 0x50⟩] := by
  have valid : Addressable listingFunction.address := ⟨rfl, by decide, by decide, by decide⟩
  have ended : ChainEnds twoCapabilities listingFunction.address 2 :=
    ⟨by decide, by rw [Outside]; decide⟩
  obtain ⟨accepted, recorded, -⟩ :=
    @capability_walk_exact listingFunction twoCapabilities _ valid rfl (by decide)
  obtain ⟨g, here⟩ := accepted.mpr ⟨2, ended, fun i j => capabilityAt_injective ended.1 ended.2⟩
  exact ⟨g, here, recorded g 2 here ended⟩

end

section
variable (config : ConfigSpace) (address : PciAddress)

def vendorAt : Nat := wordOf (config address pciRegisterVendorId) pciRegisterVendorId
def headerAt : Nat := byteOf (config address 0x0C) pciRegisterHeaderType
def secondaryBusAt : Nat := byteOf (config address 0x18) pciRegisterSecondaryBus

def isMultifunction : Bool := headerAt config address &&& pciHeaderTypeMultifunction ≠ 0
def isBridge : Bool := headerAt config address &&& pciHeaderTypeMask = pciHeaderTypeBridge

structure Describes (f : PciFunction) : Prop where
  named : f.address = address
  bridge : f.headerType = pciHeaderTypeBridge ↔ isBridge config address
  multifunction : f.multifunction = isMultifunction config address
  secondaryBus : isBridge config address → f.secondaryBus = secondaryBusAt config address

end

section
variable {config : ConfigSpace} {address : PciAddress}

theorem describeFunction_describes (valid : Addressable address) {identity : BitVec 32}
    (here : describeFunction config address identity = .ok f) : Describes config address f := by
  unfold describeFunction at here
  simp (disch := decide) only [readAligned_ok valid, bind, Except.bind] at here
  have header : isBridge config address ↔
      headerAt config address &&& pciHeaderTypeMask = pciHeaderTypeBridge := by
    simp [isBridge]
  split at here
  · rename_i bridge
    have same := collectCapabilities_sameHeader here
    refine ⟨same.address, ?_, same.multifunction, fun _ => same.secondaryBus⟩
    rw [same.headerType]
    exact iff_of_true bridge (header.mpr bridge)
  · rename_i other
    have same := collectCapabilities_sameHeader here
    refine ⟨same.address, ?_, same.multifunction, fun bridge => absurd (header.mp bridge) other⟩
    rw [same.headerType]
    exact iff_of_false other fun bridge => other (header.mp bridge)

theorem describeFunction_ok_iff (valid : Addressable address) {identity : BitVec 32} :
    (∃ f, describeFunction config address identity = .ok f) ↔
      CapabilitiesWellFormed config address := by
  unfold describeFunction
  simp (disch := decide) only [readAligned_ok valid, bind, Except.bind]
  split
  · exact collectCapabilities_ok_iff valid rfl rfl
  · exact collectCapabilities_ok_iff valid rfl rfl

end

end Sapote.Pci
