import Mathlib.Tactic

/-!
The vocabulary of `include/sapote/paging.h`: statuses, memory types, permission
bits and the records a walk reports. Machine words are `BitVec 64`; permission
sets are the header's 32-bit masks.
-/

namespace Sapote.Paging

abbrev Word := BitVec 64

abbrev Permissions := BitVec 32

def pagingPageSize : Nat := 4096
def pagingHugePageSize : Nat := 0x200000
def pagingLevelCount : Nat := 4
def pagingEntriesPerTable : Nat := 512

def earlyPhysicalLimit : Nat := 0x100000000

inductive PagingStatus where
  | ok | nullArgument | alreadyInitialized | notInitialized | interruptsEnabled
  | noExecuteUnsupported | noExecuteInactive | writeProtectInactive | fiveLevelPaging
  | physicalExtensionDisabled | patUnsupported | patLayoutUnsafe | patReadbackMismatch
  | badKernelLayout | badDeviceWindowKind | badDeviceWindowInstance
  | unsupportedDeviceWindowMemoryType | badDeviceWindowPermissions | zeroLengthDeviceWindow
  | unalignedDeviceWindow | deviceWindowRangeOverflow | deviceWindowUnsupportedRange
  | tooManyDeviceWindows | conflictingDeviceWindowOverlap | overlappingDeviceWindows
  | duplicateDeviceWindow | requiredDeviceWindowMissing | deviceWindowKernelOverlap
  | installedDeviceWindowMismatch | zeroLength | unalignedAddress | noncanonicalAddress
  | rangeOverflow | physicalTooWide | badPermissions | conflictingMemoryTypes
  | memoryTypeChangeUnsafe | writableAndExecutable | alreadyMapped | notMapped | hugePagePresent
  | outOfFrames | validationFailure | processBusy | processBadToken | processBadState
  | processBadMapping | processAliasState | supervisorIntentFull
deriving DecidableEq

inductive MemoryType where
  | writeBack | writeCombining | uncacheable | writeThrough | writeProtected | uncachedMinus
  | invalid
deriving DecidableEq

def pagingRead : Permissions := 0
def pagingWrite : Permissions := 1
def pagingExecute : Permissions := 2
def pagingUncached : Permissions := 4
def pagingWriteCombining : Permissions := 8

structure PagingTranslation where
  physicalAddress : Nat
  permissions : Permissions
  memoryType : MemoryType
  level : Nat
  user : Bool
deriving DecidableEq

structure PagingAudit where
  (leafCount hugeLeaves writableLeaves executableLeaves writeExecuteLeaves userLeaves : Nat)
deriving DecidableEq

end Sapote.Paging
