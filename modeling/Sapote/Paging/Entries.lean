import Sapote.Paging.Types

/-!
Page-table entries of `src/kernel/paging.c`: the bits of an entry, how a
permission set becomes entry flags, and how a leaf is read back. Above this
module an entry is met only through `present`, `huge`, `writable`, `noExecute`,
`userBit`, `frameOf` and `leafMemoryType`.
-/

namespace Sapote.Paging
open BitVec
variable {n address table : Nat} {flags : Word}

def pagePresent : Word := 1#64 <<< 0
def pageWritable : Word := 1#64 <<< 1
def pageUser : Word := 1#64 <<< 2
def pageWriteThrough : Word := 1#64 <<< 3
def pageCacheDisable : Word := 1#64 <<< 4
def pageAccessed : Word := 1#64 <<< 5
def pageDirty : Word := 1#64 <<< 6
def pageHuge : Word := 1#64 <<< 7
def pageGlobal : Word := 1#64 <<< 8
def pageLargePat : Word := 1#64 <<< 12
def pageNoExecute : Word := 1#64 <<< 63
def pageFrameMask : Word := 0x000FFFFFFFFFF000#64
def pagePhysicalLimit : Nat := 2 ^ 52

def present (entry : Word) : Bool := decide (entry &&& pagePresent ≠ 0)
def writable (entry : Word) : Bool := decide (entry &&& pageWritable ≠ 0)
def userBit (entry : Word) : Bool := decide (entry &&& pageUser ≠ 0)
def huge (entry : Word) : Bool := decide (entry &&& pageHuge ≠ 0)
def noExecute (entry : Word) : Bool := decide (entry &&& pageNoExecute ≠ 0)

def frameOf (entry : Word) : Nat := (entry &&& pageFrameMask).toNat

def patEntry (pat : Word) (index : Nat) : BitVec 8 := (pat >>> (index * 8)).setWidth 8

def decodePatType (memoryType : BitVec 8) : MemoryType :=
  if memoryType = 0x06 then .writeBack
  else if memoryType = 0x01 then .writeCombining
  else if memoryType = 0x00 then .uncacheable
  else if memoryType = 0x04 then .writeThrough
  else if memoryType = 0x05 then .writeProtected
  else if memoryType = 0x07 then .uncachedMinus
  else .invalid

def leafPatIndex (entry : Word) (level : Nat) : Nat :=
  let patBit := if level = 1 then pageHuge else pageLargePat
  (if entry &&& pageWriteThrough ≠ 0 then 1 else 0) +
    (if entry &&& pageCacheDisable ≠ 0 then 2 else 0) +
    (if entry &&& patBit ≠ 0 then 4 else 0)

def leafMemoryType (entry : Word) (level : Nat) (pat : Word) : MemoryType :=
  decodePatType (patEntry pat (leafPatIndex entry level))

def permissionsToFlags (permissions : Permissions) : Word :=
  let flags := pagePresent
  let flags := if permissions &&& pagingWrite ≠ 0 then flags ||| pageWritable else flags
  let flags := if permissions &&& pagingExecute = 0 then flags ||| pageNoExecute else flags
  let flags :=
    if permissions &&& pagingUncached ≠ 0 then flags ||| (pageCacheDisable ||| pageWriteThrough)
    else flags
  if permissions &&& pagingWriteCombining ≠ 0 then flags ||| pageWriteThrough else flags

def validatePermissions (permissions : Permissions) : PagingStatus :=
  let known := pagingWrite ||| pagingExecute ||| pagingUncached ||| pagingWriteCombining
  if permissions &&& ~~~known ≠ 0 then .badPermissions
  else if permissions &&& pagingWrite ≠ 0 ∧ permissions &&& pagingExecute ≠ 0 then
    .writableAndExecutable
  else if permissions &&& pagingUncached ≠ 0 ∧ permissions &&& pagingWriteCombining ≠ 0 then
    .conflictingMemoryTypes
  else .ok

/-- Testing a one-bit mask reads the bit. -/
theorem testMask (entry : Word) (small : n < 64) :
    decide (entry &&& 1#64 <<< n ≠ 0) = entry.getLsbD n := by
  have nonzero : BitVec.twoPow 64 n ≠ 0#64 := by
    intro zero
    have selected := congrArg (fun word => word.getLsbD n) zero
    simp [small] at selected
  rw [← twoPow_eq, and_twoPow]
  cases bit : entry.getLsbD n <;> simp [nonzero]

theorem present_eq (entry : Word) : present entry = entry.getLsbD 0 := testMask entry (by decide)
theorem ne_zero_of_present {entry : Word} (here : present entry) : entry ≠ 0 := by
  rintro rfl
  exact absurd here (by decide)

theorem writable_eq (entry : Word) : writable entry = entry.getLsbD 1 := testMask entry (by decide)
theorem userBit_eq (entry : Word) : userBit entry = entry.getLsbD 2 := testMask entry (by decide)
theorem huge_eq (entry : Word) : huge entry = entry.getLsbD 7 := testMask entry (by decide)
theorem noExecute_eq (entry : Word) : noExecute entry = entry.getLsbD 63 :=
  testMask entry (by decide)

theorem getLsbD_pageFrameMask (n : Nat) : pageFrameMask.getLsbD n = decide (12 ≤ n ∧ n < 52) := by
  by_cases small : n < 64
  · have table : ∀ k < 64, pageFrameMask.getLsbD k = decide (12 ≤ k ∧ k < 52) := by decide
    exact table n small
  · rw [getLsbD_of_ge _ _ (by omega)]
    simp
    omega

def PageAddress (address : Nat) : Prop :=
  address % pagingPageSize = 0 ∧ address < pagePhysicalLimit

theorem PageAddress.getLsbD (page : PageAddress address) (outside : n < 12 ∨ 52 ≤ n) :
    (BitVec.ofNat 64 address).getLsbD n = false := by
  obtain ⟨aligned, bound⟩ := page
  rw [getLsbD_ofNat]
  obtain low | high := outside
  · have shape : address = 2 ^ 12 * (address / 2 ^ 12) := by
      unfold pagingPageSize at aligned
      omega
    rw [shape, Nat.testBit_two_pow_mul]
    simp
    omega
  · have small : address < 2 ^ n :=
      lt_of_lt_of_le bound (Nat.pow_le_pow_right (by decide) high)
    rw [Nat.testBit_lt_two_pow small, Bool.and_false]

def IsFlags (flags : Word) : Prop := flags &&& pageFrameMask = 0

theorem IsFlags.getLsbD (isFlags : IsFlags flags) (inside : 12 ≤ n ∧ n < 52) :
    flags.getLsbD n = false := by
  have bit := congrArg (fun word => word.getLsbD n) isFlags
  simp only [getLsbD_and, getLsbD_pageFrameMask] at bit
  rw [decide_eq_true inside, Bool.and_true] at bit
  exact bit.trans (getLsbD_zero)

section
variable (page : PageAddress address)
include page

/-- An entry built from an address and flags reads back as both. -/
theorem getLsbD_entry (flags : Word) (outside : n < 12 ∨ 52 ≤ n) :
    (BitVec.ofNat 64 address ||| flags).getLsbD n = flags.getLsbD n := by
  rw [BitVec.getLsbD_or, page.getLsbD outside, Bool.false_or]

theorem frameMask_entry (isFlags : IsFlags flags) :
    (BitVec.ofNat 64 address ||| flags) &&& pageFrameMask = BitVec.ofNat 64 address := by
  apply eq_of_getLsbD_eq
  intro n _
  rw [getLsbD_and, BitVec.getLsbD_or, getLsbD_pageFrameMask]
  by_cases inside : 12 ≤ n ∧ n < 52
  · rw [isFlags.getLsbD inside, decide_eq_true inside, Bool.or_false, Bool.and_true]
  · rw [page.getLsbD (by omega), decide_eq_false inside, Bool.and_false]

theorem frameOf_entry (isFlags : IsFlags flags) :
    frameOf (BitVec.ofNat 64 address ||| flags) = address := by
  have small : address < 2 ^ 64 := lt_trans page.2 (by decide)
  rw [frameOf, frameMask_entry page isFlags, toNat_ofNat, Nat.mod_eq_of_lt small]

end

/-- What the walks put in a slot to hang a table on it: `entry_for` for the
supervisor, `entry_for_user` with the user bit. -/
def linkEntry (user : Bool) (table : Nat) : Word :=
  BitVec.ofNat 64 table |||
    (if user then pagePresent ||| pageWritable ||| pageUser else pagePresent ||| pageWritable)

theorem frameOf_linkEntry (user : Bool) (page : PageAddress table) :
    frameOf (linkEntry user table) = table := by
  have flags : IsFlags
      (if user then pagePresent ||| pageWritable ||| pageUser else pagePresent ||| pageWritable) := by
    unfold IsFlags
    cases user <;> decide
  rw [linkEntry, frameOf_entry page flags]

/-- A link is present, writable, executable and no leaf. -/
theorem linkEntry_bits (user : Bool) (page : PageAddress table) :
    let entry := linkEntry user table
    present entry ∧ huge entry = false ∧ writable entry ∧ noExecute entry = false ∧
      userBit entry = user := by
  dsimp only
  rw [present_eq, huge_eq, writable_eq, noExecute_eq, userBit_eq, linkEntry]
  simp (disch := omega) only [getLsbD_entry page]
  cases user <;> decide

def wantsWrite (permissions : Permissions) : Bool := decide (permissions &&& pagingWrite ≠ 0)
def wantsExecute (permissions : Permissions) : Bool := decide (permissions &&& pagingExecute ≠ 0)
def wantsUncached (permissions : Permissions) : Bool := decide (permissions &&& pagingUncached ≠ 0)
def wantsCombining (permissions : Permissions) : Bool :=
  decide (permissions &&& pagingWriteCombining ≠ 0)

/-- The flags of a page that grant the permissions; bit 7 makes it a large one. -/
def PermissionBits (flags : Word) (permissions : Permissions) (large : Bool) : Prop :=
  IsFlags flags ∧ flags.getLsbD 0 ∧ flags.getLsbD 1 = wantsWrite permissions ∧
    flags.getLsbD 2 = false ∧
    flags.getLsbD 3 = (wantsUncached permissions || wantsCombining permissions) ∧
    flags.getLsbD 4 = wantsUncached permissions ∧ flags.getLsbD 7 = large ∧
    flags.getLsbD 63 = !wantsExecute permissions

theorem permissionsToFlags_bits (permissions : Permissions) :
    PermissionBits (permissionsToFlags permissions) permissions false := by
  unfold PermissionBits permissionsToFlags wantsWrite wantsExecute wantsUncached wantsCombining IsFlags
  by_cases w : permissions &&& pagingWrite = 0 <;>
    by_cases x : permissions &&& pagingExecute = 0 <;>
    by_cases u : permissions &&& pagingUncached = 0 <;>
    by_cases c : permissions &&& pagingWriteCombining = 0 <;>
    simp only [w, x, u, c, ne_eq, not_true_eq_false, not_false_eq_true, if_true, if_false,
      decide_true, decide_false] <;>
    decide

def leafEntry (physicalAddress : Nat) (permissions : Permissions) (level : Nat) : Word :=
  let entry := BitVec.ofNat 64 physicalAddress ||| permissionsToFlags permissions
  if 1 < level then entry ||| pageHuge else entry

def leafFlags (permissions : Permissions) (level : Nat) : Word :=
  if 1 < level then permissionsToFlags permissions ||| pageHuge else permissionsToFlags permissions

theorem leafEntry_eq (physicalAddress : Nat) (permissions : Permissions) (level : Nat) :
    leafEntry physicalAddress permissions level =
      BitVec.ofNat 64 physicalAddress ||| leafFlags permissions level := by
  unfold leafEntry leafFlags
  split
  · exact or_assoc _ _ _
  · rfl

theorem leafFlags_bits (permissions : Permissions) (level : Nat) :
    PermissionBits (leafFlags permissions level) permissions (decide (1 < level)) := by
  obtain ⟨flat, b0, b1, b2, b3, b4, b7, b63⟩ := permissionsToFlags_bits permissions
  unfold leafFlags
  split
  · next large =>
      refine ⟨?_, ?_, ?_, ?_, ?_, ?_, ?_, ?_⟩
      · unfold IsFlags at flat ⊢
        rw [BitVec.and_comm, BitVec.and_or_distrib_left, BitVec.and_comm, flat]
        decide
      all_goals rw [BitVec.getLsbD_or]
      · rw [b0, Bool.true_or]
      · exact b1 ▸ Bool.or_false _
      · exact b2 ▸ Bool.or_false _
      · exact b3 ▸ Bool.or_false _
      · exact b4 ▸ Bool.or_false _
      · exact (Bool.or_true _).trans (decide_eq_true large).symm
      · exact b63 ▸ Bool.or_false _
  · next small => exact ⟨flat, b0, b1, b2, b3, b4, by rw [b7, decide_eq_false small], b63⟩

end Sapote.Paging
