import Sapote.Heap.Table

/-!
The public operations of `src/kernel/heap.c` over its static state. The frame
allocator and the page tables underneath are an oracle: for each page offset of
one call, whether a frame was found and whether it could be mapped.
-/

namespace Sapote.Heap
open Paging

inductive HeapStatus where
  | ok | nullArgument | alreadyInitialized | notInitialized | interruptsEnabled | pagingInactive
  | guardMapped | zeroSize | tooLarge | outOfMemory | outOfBlocks | mappingFailure | badPointer
  | doubleFree | validationFailure
deriving DecidableEq

structure HeapState where
  (baseAddress size committedBytes allocatedBytes blockCount liveAllocations mappedPages : Nat)
  active : Bool
deriving DecidableEq

/-- `frames` counts the frames that the heap's calls have taken and not given back: one for each
page, and page tables that no page uses. -/
structure KernelHeap where
  blocks : List HeapBlock
  state : HeapState
  frames : Nat
deriving DecidableEq

/-- What the layers below answer during one call, by page offset. Translating
and unmapping a page this heap mapped are taken to succeed, and the page tables of a page to
come and go with it. `tablesKept` is how many page tables stay linked, without a page, when
`paging_map` runs out of frames for them half way and is refused. -/
structure PageBacking where
  (frameAllocate pagingMap pagingTranslate pagingUnmap : Nat → Bool)
  tablesKept : Nat → Nat
  translate_mapped : ∀ offset, pagingTranslate offset
  unmap_mapped : ∀ offset, pagingUnmap offset

def pageOffsets (first past : Nat) : List Nat :=
  (List.range ((past - first + pagingPageSize - 1) / pagingPageSize)).map
    fun page => first + page * pagingPageSize

def releasePages (backing : PageBacking) (first past : Nat) (heap : KernelHeap) : KernelHeap :=
  (pageOffsets first past).foldl (fun heap offset =>
    if !backing.pagingTranslate offset then heap
    else if !backing.pagingUnmap offset then heap
    else { heap with state.mappedPages := heap.state.mappedPages - 1, frames := heap.frames - 1 })
    heap

/-- A page that cannot be mapped gives its own frame back, so all that is left of its mapping is
tables. -/
def commitOffsets (backing : PageBacking) (first : Nat) :
    List Nat → KernelHeap → HeapStatus × KernelHeap
  | [], heap => (.ok, heap)
  | offset :: rest, heap =>
    if !backing.frameAllocate offset then
      (.outOfMemory, releasePages backing first offset heap)
    else if !backing.pagingMap offset then
      (.mappingFailure, releasePages backing first offset
        { heap with frames := heap.frames + backing.tablesKept offset })
    else
      commitOffsets backing first rest
        { heap with state.mappedPages := heap.state.mappedPages + 1, frames := heap.frames + 1 }

def commitPages (backing : PageBacking) (first past : Nat) (heap : KernelHeap) :
    HeapStatus × KernelHeap :=
  commitOffsets backing first (pageOffsets first past) heap

def trailingBlock (table : List HeapBlock) : Option HeapBlock :=
  table.getLast?.filter fun block => !block.used

def growthFor (table : List HeapBlock) (size : Nat) : Nat :=
  alignUp (size - ((trailingBlock table).map HeapBlock.size).getD 0) pagingPageSize

def growTable (table : List HeapBlock) (committed growth : Nat) : List HeapBlock :=
  match trailingBlock table with
  | some block => table.set (table.length - 1) { block with size := block.size + growth }
  | none => table ++ [⟨committed, growth, false⟩]

structure GrowResult where
  status : HeapStatus
  index : Nat
  heap : KernelHeap

def growFor (backing : PageBacking) (heap : KernelHeap) (size : Nat) : GrowResult :=
  let growth := growthFor heap.blocks size
  if heapSize - heap.state.committedBytes < growth then ⟨.outOfMemory, 0, heap⟩
  else if (trailingBlock heap.blocks).isNone && heap.blocks.length = heapMaxBlocks then
    ⟨.outOfBlocks, 0, heap⟩
  else
    match commitPages backing heap.state.committedBytes
        (heap.state.committedBytes + growth) heap with
    | (.ok, heap) =>
      let blocks := growTable heap.blocks heap.state.committedBytes growth
      ⟨.ok, blocks.length - 1, { heap with
        blocks := blocks
        state.committedBytes := heap.state.committedBytes + growth }⟩
    | (status, heap) => ⟨status, 0, heap⟩

def usedBytes (table : List HeapBlock) : Nat :=
  ((table.filter HeapBlock.used).map HeapBlock.size).sum

def usedCount (table : List HeapBlock) : Nat :=
  (table.filter HeapBlock.used).length

def refreshState (heap : KernelHeap) : KernelHeap :=
  { heap with state := { heap.state with
      blockCount := heap.blocks.length
      allocatedBytes := usedBytes heap.blocks
      liveAllocations := usedCount heap.blocks } }

structure BootAnswers where
  (pagingActive interruptsEnabled : Bool)
  (guardBelow guardAbove : PagingStatus)

def heapInitialize (answers : BootAnswers) (heap : KernelHeap) : HeapStatus × KernelHeap :=
  if heap.state.active then (.alreadyInitialized, heap)
  else if !answers.pagingActive then (.pagingInactive, heap)
  else if answers.interruptsEnabled then (.interruptsEnabled, heap)
  else if answers.guardBelow ≠ .notMapped ∨ answers.guardAbove ≠ .notMapped then
    (.guardMapped, heap)
  else
    (.ok, refreshState { heap with
      blocks := []
      state := { heap.state with
        baseAddress := heapBase
        size := heapSize
        committedBytes := 0
        mappedPages := 0
        active := true } })

structure AllocateResult where
  status : HeapStatus
  pointer : Nat
  heap : KernelHeap

/-- The split that ends `heap_allocate`. The refusal returns before
`refresh_state`, as in the source. -/
def allocateAt (heap : KernelHeap) (index requested : Nat) : AllocateResult :=
  match splitBlock heap.blocks index requested with
  | (false, blocks) => ⟨.outOfBlocks, 0, { heap with blocks := blocks }⟩
  | (true, blocks) =>
    ⟨.ok, heapBase + (blocks.getD index default).offset,
      refreshState { heap with blocks := blocks }⟩

/-- `heap_allocate(size, pointer)`; `output` says whether `pointer` is non-null
and the reported pointer is 0 wherever the source leaves it `NULL`. -/
def heapAllocate (backing : PageBacking) (heap : KernelHeap) (size : Nat) (output : Bool) :
    AllocateResult :=
  if !output then ⟨.nullArgument, 0, heap⟩
  else if !heap.state.active then ⟨.notInitialized, 0, heap⟩
  else if size = 0 then ⟨.zeroSize, 0, heap⟩
  else if heapSize < size then ⟨.tooLarge, 0, heap⟩
  else
    let requested := alignUp size heapAlignment
    if heapSize < requested then ⟨.tooLarge, 0, heap⟩
    else
      match findFit heap.blocks requested with
      | some index => allocateAt heap index requested
      | none =>
        let grown := growFor backing heap requested
        if grown.status ≠ .ok then ⟨grown.status, 0, grown.heap⟩
        else allocateAt grown.heap grown.index requested

def heapFree (heap : KernelHeap) (pointer : Nat) : HeapStatus × KernelHeap :=
  if !heap.state.active then (.notInitialized, heap)
  else if pointer = 0 then (.nullArgument, heap)
  else if pointer < heapBase ∨ heapBase + heap.state.committedBytes ≤ pointer then
    (.badPointer, heap)
  else
    match blockIndexForOffset heap.blocks (pointer - heapBase) with
    | none => (.badPointer, heap)
    | some index =>
      let block := heap.blocks.getD index default
      if !block.used then (.doubleFree, heap)
      else
        let blocks := heap.blocks.set index { block with used := false }
        (.ok, refreshState { heap with blocks := mergeFreeNeighbours blocks index })

/-- The checks of `heap_verify` that read only the heap's own statics. -/
def heapVerifyTable (heap : KernelHeap) : Bool :=
  heap.state.active &&
  decide (heap.state.committedBytes ≤ heapSize) &&
  decide (heap.state.committedBytes % pagingPageSize = 0) &&
  decide (heap.state.mappedPages = heap.state.committedBytes / pagingPageSize) &&
  validateTable heap.blocks heap.state.committedBytes &&
  decide (usedBytes heap.blocks = heap.state.allocatedBytes) &&
  decide (usedCount heap.blocks = heap.state.liveAllocations) &&
  decide (heap.blocks.length = heap.state.blockCount)

inductive HeapOp where
  | allocate (backing : PageBacking) (size : Nat) (output : Bool)
  | free (pointer : Nat)

def heapStep (heap : KernelHeap) : HeapOp → KernelHeap
  | .allocate backing size output => (heapAllocate backing heap size output).heap
  | .free pointer => (heapFree heap pointer).2

end Sapote.Heap
