import Sapote.Frames.Allocator
import Sapote.Paging.Entries
import Sapote.Library.RadixTree

/-!
The page hierarchies of `src/kernel/paging.c` and the range operations on them.
Addresses are natural numbers, entries are 64-bit words. Table frames lie below
the identity limit, so `table_at` is an index into `tables`. `INVLPG` and CR3
reloads act on the processor's caches only and leave no trace in this state.
-/

namespace Sapote.Paging
open Frames Library

abbrev TableIndex := Fin 512

abbrev TableMemory := Nat → TableIndex → Word

structure PageHierarchy where
  (root arenaBase arenaCapacity arenaUsed tableFrames : Nat)
  live : Bool
deriving DecidableEq

structure TableState where
  tables : TableMemory
  frames : FrameAllocator
  hierarchy : PageHierarchy

def tableIndex (virtualAddress level : Nat) : TableIndex :=
  ⟨virtualAddress / 2 ^ (12 + 9 * (level - 1)) % 512, Nat.mod_lt _ (by decide)⟩

def levelPageSize (level : Nat) : Nat := 2 ^ (12 + 9 * (level - 1))

def addressIsCanonical (virtualAddress : Nat) : Bool :=
  decide (virtualAddress / 2 ^ 47 = 0) || decide (virtualAddress / 2 ^ 47 = 0x1FFFF)

/-- Alignment tests mask with `page_size - 1`, a power of two less one. -/
def validateVirtualRange (virtualAddress length pageSize : Nat) : PagingStatus :=
  if length = 0 then .zeroLength
  else if virtualAddress % pageSize ≠ 0 ∨ length % pageSize ≠ 0 then .unalignedAddress
  else if !addressIsCanonical virtualAddress then .noncanonicalAddress
  else if uint64Max - virtualAddress < length then .rangeOverflow
  else if !addressIsCanonical (virtualAddress + length - 1) then .noncanonicalAddress
  else .ok

def validatePhysicalRange (physicalAddress length pageSize : Nat) : PagingStatus :=
  if physicalAddress % pageSize ≠ 0 then .unalignedAddress
  else if uint64Max - physicalAddress < length then .rangeOverflow
  else if pagePhysicalLimit < physicalAddress + length then .physicalTooWide
  else .ok

structure TableResult where
  status : PagingStatus
  table : Nat
  state : TableState

def zeroTable (tables : TableMemory) (table : Nat) : TableMemory :=
  fun address index => if address = table then 0 else tables address index

def writeEntry (state : TableState) (table : Nat) (index : TableIndex) (entry : Word) :
    TableState :=
  { state with tables := writeCell state.tables table index entry }

def adoptTable (state : TableState) (frame : Nat) : TableResult :=
  if earlyPhysicalLimit ≤ frame then ⟨.physicalTooWide, 0, state⟩
  else
    ⟨.ok, frame, { state with
      tables := zeroTable state.tables frame
      hierarchy.tableFrames := state.hierarchy.tableFrames + 1 }⟩

def allocateTable (state : TableState) : TableResult :=
  let hierarchy := state.hierarchy
  if hierarchy.arenaCapacity ≠ 0 then
    if hierarchy.arenaUsed = hierarchy.arenaCapacity then ⟨.outOfFrames, 0, state⟩
    else
      adoptTable { state with hierarchy.arenaUsed := hierarchy.arenaUsed + 1 }
        (hierarchy.arenaBase + hierarchy.arenaUsed * pagingPageSize)
  else
    let result := frameAllocate state.frames true
    match result.address with
    | none => ⟨.outOfFrames, 0, { state with frames := result.allocator }⟩
    | some frame => adoptTable { state with frames := result.allocator } frame

/-- How `paging_initialize` and `paging_process_space_build` start a hierarchy: its
record cleared, its root drawn from the frame allocator. -/
def createRoot (tables : TableMemory) (frames : FrameAllocator) : TableResult :=
  let allocated := allocateTable ⟨tables, frames, ⟨0, 0, 0, 0, 0, false⟩⟩
  if allocated.status ≠ .ok then allocated
  else { allocated with state.hierarchy.root := allocated.table }

/-- A present slot the walk does not go through: a larger leaf, and for
`entry_for_user` also a supervisor link. -/
def walkRefuses (user : Bool) (slot : Word) : Bool := huge slot || (user && !userBit slot)

def walkRefusal (user : Bool) : PagingStatus :=
  if user then .processBadMapping else .hugePagePresent

/-- The loop `entry_for` and `entry_for_user` share: descend from `table` at
`level` to `targetLevel`, hanging new tables on absent slots when asked to. -/
def entryWalk (user create : Bool) (virtualAddress targetLevel : Nat) :
    Nat → Nat → TableState → TableResult
  | 0, table, state => ⟨.ok, table, state⟩
  | level + 1, table, state =>
    if level + 1 ≤ targetLevel then ⟨.ok, table, state⟩
    else
      let index := tableIndex virtualAddress (level + 1)
      let slot := state.tables table index
      if !present slot then
        if !create then ⟨.notMapped, 0, state⟩
        else
          let allocated := allocateTable state
          if allocated.status ≠ .ok then ⟨allocated.status, 0, allocated.state⟩
          else
            entryWalk user create virtualAddress targetLevel level allocated.table
              (writeEntry allocated.state table index (linkEntry user allocated.table))
      else if walkRefuses user slot then ⟨walkRefusal user, 0, state⟩
      else entryWalk user create virtualAddress targetLevel level (frameOf slot) state

/-- `entry_for`: the entry it points at is the one `virtualAddress` has at
`targetLevel` in the table reported. -/
def entryFor (state : TableState) (virtualAddress targetLevel : Nat) (create : Bool) :
    TableResult :=
  entryWalk false create virtualAddress targetLevel pagingLevelCount state.hierarchy.root state

def entryForUser (state : TableState) (virtualAddress : Nat) : TableResult :=
  entryWalk true true virtualAddress 1 pagingLevelCount state.hierarchy.root state

def entryAt (state : TableState) (table virtualAddress level : Nat) : Word :=
  state.tables table (tableIndex virtualAddress level)

def tableIsEmpty (tables : TableMemory) (table : Nat) : Bool :=
  (List.finRange pagingEntriesPerTable).all fun index => !present (tables table index)

def releaseTable (state : TableState) (table : Nat) : TableState :=
  { state with
    frames :=
      if state.hierarchy.arenaCapacity = 0 then (frameRelease state.frames table).2
      else state.frames
    hierarchy.tableFrames := sizeSub state.hierarchy.tableFrames 1 }

/-- The descent of `reclaim_empty_tables`: the tables on the path, level 1 first,
unless something on the way is absent or a larger leaf. -/
def tablesOnPath (tables : TableMemory) (virtualAddress : Nat) : Nat → Nat → Option (List Nat)
  | level + 2, table =>
    let entry := tables table (tableIndex virtualAddress (level + 2))
    if !present entry ∨ huge entry then none
    else
      (tablesOnPath tables virtualAddress (level + 1) (frameOf entry)).map fun below =>
        below ++ [table]
  | _, table => some [table]

/-- The climb of `reclaim_empty_tables`, from the table at `level` upward. -/
def reclaimClimb (virtualAddress : Nat) : Nat → List Nat → TableState → TableState
  | level, table :: parent :: above, state =>
    if !tableIsEmpty state.tables table then state
    else
      reclaimClimb virtualAddress (level + 1) (parent :: above) (releaseTable
          (writeEntry state parent (tableIndex virtualAddress (level + 1)) 0) table)
  | _, _, state => state

def reclaimEmptyTables (state : TableState) (virtualAddress : Nat) : TableState :=
  match tablesOnPath state.tables virtualAddress pagingLevelCount state.hierarchy.root with
  | none => state
  | some path => reclaimClimb virtualAddress 1 path state

def rangeOffsets (length pageSize : Nat) : List Nat :=
  (List.range ((length + pageSize - 1) / pageSize)).map (· * pageSize)

def clearPage (level : Nat) (state : TableState) (virtualAddress : Nat) : TableState :=
  let found := entryFor state virtualAddress level false
  if found.status ≠ .ok then state
  else
    let cleared := writeEntry state found.table (tableIndex virtualAddress level) 0
    if level = 1 then reclaimEmptyTables cleared virtualAddress else cleared

def clearRange (state : TableState) (virtualAddress length level : Nat) : TableState :=
  (rangeOffsets length (levelPageSize level)).foldl
    (fun state offset => clearPage level state (virtualAddress + offset)) state

def requireUnmapped (state : TableState) (virtualAddress level : Nat) : List Nat → PagingStatus
  | [] => .ok
  | offset :: offsets =>
    let found := entryFor state (virtualAddress + offset) level false
    if found.status = .ok then
      if present (entryAt state found.table (virtualAddress + offset) level) then .alreadyMapped
      else requireUnmapped state virtualAddress level offsets
    else if found.status ≠ .notMapped then found.status
    else requireUnmapped state virtualAddress level offsets

structure RangeResult where
  status : PagingStatus
  state : TableState

/-- The second pass of `map_range`, rolled back when the tables run out. -/
def mapPages (virtualAddress physicalAddress : Nat) (permissions : Permissions) (level : Nat) :
    List Nat → TableState → RangeResult
  | [], state => ⟨.ok, state⟩
  | offset :: offsets, state =>
    let found := entryFor state (virtualAddress + offset) level true
    if found.status ≠ .ok then
      ⟨found.status, clearRange found.state virtualAddress offset level⟩
    else
      mapPages virtualAddress physicalAddress permissions level offsets
        (writeEntry found.state found.table (tableIndex (virtualAddress + offset) level)
          (leafEntry (physicalAddress + offset) permissions level))

/-- The checks and the first pass of `map_range`, which write nothing. -/
def mapAdmission (state : TableState) (virtualAddress physicalAddress length : Nat)
    (permissions : Permissions) (level : Nat) : PagingStatus :=
  let pageSize := levelPageSize level
  if validatePermissions permissions ≠ .ok then validatePermissions permissions
  else if validateVirtualRange virtualAddress length pageSize ≠ .ok then
    validateVirtualRange virtualAddress length pageSize
  else if validatePhysicalRange physicalAddress length pageSize ≠ .ok then
    validatePhysicalRange physicalAddress length pageSize
  else requireUnmapped state virtualAddress level (rangeOffsets length pageSize)

def mapRange (state : TableState) (virtualAddress physicalAddress length : Nat)
    (permissions : Permissions) (level : Nat) : RangeResult :=
  let status := mapAdmission state virtualAddress physicalAddress length permissions level
  if status ≠ .ok then ⟨status, state⟩
  else
    mapPages virtualAddress physicalAddress permissions level
      (rangeOffsets length (levelPageSize level)) state

def requireMappedRange (state : TableState) (virtualAddress : Nat) : List Nat → PagingStatus
  | [] => .ok
  | offset :: offsets =>
    let found := entryFor state (virtualAddress + offset) 1 false
    if found.status ≠ .ok then found.status
    else if !present (entryAt state found.table (virtualAddress + offset) 1) then .notMapped
    else requireMappedRange state virtualAddress offsets

def unmapAdmission (state : TableState) (virtualAddress length : Nat) : PagingStatus :=
  if validateVirtualRange virtualAddress length pagingPageSize ≠ .ok then
    validateVirtualRange virtualAddress length pagingPageSize
  else requireMappedRange state virtualAddress (rangeOffsets length pagingPageSize)

def unmapRange (state : TableState) (virtualAddress length : Nat) : RangeResult :=
  let status := unmapAdmission state virtualAddress length
  if status ≠ .ok then ⟨status, state⟩ else ⟨.ok, clearRange state virtualAddress length 1⟩

def applyPage (permissions : Permissions) (state : TableState) (virtualAddress : Nat) :
    TableState :=
  let found := entryFor state virtualAddress 1 false
  if found.status ≠ .ok then state
  else
    writeEntry state found.table (tableIndex virtualAddress 1)
      ((entryAt state found.table virtualAddress 1 &&& pageFrameMask) |||
        permissionsToFlags permissions)

def applyPermissions (state : TableState) (virtualAddress length : Nat)
    (permissions : Permissions) : TableState :=
  (rangeOffsets length pagingPageSize).foldl
    (fun state offset => applyPage permissions state (virtualAddress + offset)) state

/-- The loop of `protect_range` that refuses a change of memory type. -/
def requireMemoryType (state : TableState) (virtualAddress : Nat) (requested : MemoryType)
    (pat : Word) : List Nat → PagingStatus
  | [] => .ok
  | offset :: offsets =>
    let found := entryFor state (virtualAddress + offset) 1 false
    if found.status ≠ .ok then found.status
    else if leafMemoryType (entryAt state found.table (virtualAddress + offset) 1) 1 pat ≠
        requested then .memoryTypeChangeUnsafe
    else requireMemoryType state virtualAddress requested pat offsets

def protectAdmission (state : TableState) (virtualAddress length : Nat) (permissions : Permissions)
    (pat : Word) : PagingStatus :=
  let requested := leafMemoryType (permissionsToFlags permissions) 1 pat
  let offsets := rangeOffsets length pagingPageSize
  if validatePermissions permissions ≠ .ok then validatePermissions permissions
  else if validateVirtualRange virtualAddress length pagingPageSize ≠ .ok then
    validateVirtualRange virtualAddress length pagingPageSize
  else if requireMappedRange state virtualAddress offsets ≠ .ok then
    requireMappedRange state virtualAddress offsets
  else requireMemoryType state virtualAddress requested pat offsets

def protectRange (state : TableState) (virtualAddress length : Nat) (permissions : Permissions)
    (pat : Word) : RangeResult :=
  let status := protectAdmission state virtualAddress length permissions pat
  if status ≠ .ok then ⟨status, state⟩
  else ⟨.ok, applyPermissions state virtualAddress length permissions⟩

def emptyTranslation : PagingTranslation := ⟨0, pagingRead, .invalid, 0, false⟩

def fillTranslation (entry : Word) (virtualAddress level : Nat) (writable executable user : Bool)
    (pat : Word) : PagingTranslation :=
  let pageMask : Word := BitVec.ofNat 64 (levelPageSize level - 1)
  let memoryType := leafMemoryType entry level pat
  let permissions := pagingRead
  let permissions := if writable then permissions ||| pagingWrite else permissions
  let permissions := if executable then permissions ||| pagingExecute else permissions
  let permissions :=
    if memoryType = .uncacheable then permissions ||| pagingUncached
    else if memoryType = .writeCombining then permissions ||| pagingWriteCombining
    else permissions
  { physicalAddress :=
      ((entry &&& pageFrameMask &&& ~~~pageMask) ||| (BitVec.ofNat 64 virtualAddress &&& pageMask)).toNat
    permissions := permissions
    memoryType := memoryType
    level := level
    user := user }

/-- The walk of `translate_address`, carrying the conjunction of the rights met so
far. At level 1 every present entry is a leaf. -/
def translateWalk (tables : TableMemory) (virtualAddress : Nat) (pat : Word) :
    Nat → Nat → Bool → Bool → Bool → PagingStatus × PagingTranslation
  | 0, _, _, _, _ => (.notMapped, emptyTranslation)
  | level + 1, table, w, x, u =>
    let entry := tables table (tableIndex virtualAddress (level + 1))
    if !present entry then (.notMapped, emptyTranslation)
    else
      let w := w && writable entry
      let x := x && !noExecute entry
      let u := u && userBit entry
      if level = 0 ∨ huge entry then
        (.ok, fillTranslation entry virtualAddress (level + 1) w x u pat)
      else translateWalk tables virtualAddress pat level (frameOf entry) w x u

def translateAddress (state : TableState) (virtualAddress : Nat) (pat : Word) :
    PagingStatus × PagingTranslation :=
  if !addressIsCanonical virtualAddress then (.noncanonicalAddress, emptyTranslation)
  else
    translateWalk state.tables virtualAddress pat pagingLevelCount state.hierarchy.root
      true true true

def auditLeaf (audit : PagingAudit) (level : Nat) (w x u : Bool) : PagingAudit :=
  { leafCount := audit.leafCount + 1
    hugeLeaves := audit.hugeLeaves + (if 1 < level then 1 else 0)
    writableLeaves := audit.writableLeaves + (if w then 1 else 0)
    executableLeaves := audit.executableLeaves + (if x then 1 else 0)
    writeExecuteLeaves := audit.writeExecuteLeaves + (if w && x then 1 else 0)
    userLeaves := audit.userLeaves + (if u then 1 else 0) }

def auditTable (tables : TableMemory) : Nat → Nat → Bool → Bool → Bool → PagingAudit → PagingAudit
  | 0, _, _, _, _, audit => audit
  | level + 1, table, w, x, u, audit =>
    (List.finRange pagingEntriesPerTable).foldl (fun audit index =>
      let entry := tables table index
      if !present entry then audit
      else
        let w := w && writable entry
        let x := x && !noExecute entry
        let u := u && userBit entry
        if 0 < level ∧ !huge entry then
          auditTable tables level (frameOf entry) w x u audit
        else auditLeaf audit (level + 1) w x u) audit

def auditHierarchy (state : TableState) : PagingAudit :=
  auditTable state.tables pagingLevelCount state.hierarchy.root true true true ⟨0, 0, 0, 0, 0, 0⟩

/-- `release_table_tree`: children first, then the table itself. Releasing never
writes a table, so the entries are read from the state it started with. -/
def releaseTableTree : Nat → Nat → TableState → TableState
  | 0, _, state => state
  | level + 1, table, state =>
    let released :=
      if 0 < level then
        (List.finRange pagingEntriesPerTable).foldl (fun state index =>
          let entry := state.tables table index
          if present entry ∧ !huge entry then releaseTableTree level (frameOf entry) state
          else state) state
      else state
    releaseTable released table

end Sapote.Paging
