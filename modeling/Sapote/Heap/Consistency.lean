import Sapote.Heap.Growth
import Sapote.Library.Run

/-!
What one call does to a sound heap, and when the counters the heap publishes
still describe its table. Soundness of the table survives every call; the
counters survive all but one, a growth that uses the last descriptor followed by
a split that would need another.
-/

namespace Sapote.Heap
open Library Paging List
variable {heap ready : KernelHeap} {requested size index : Nat} {output : Bool}
  {blocks before after : List HeapBlock} {backing : PageBacking} {block : HeapBlock}

structure CountersFresh (heap : KernelHeap) : Prop where
  blockCount : heap.blocks.length = heap.state.blockCount
  allocatedBytes : usedBytes heap.blocks = heap.state.allocatedBytes
  liveAllocations : usedCount heap.blocks = heap.state.liveAllocations

theorem heapVerifyTable_iff (heap : KernelHeap) :
    heapVerifyTable heap ↔ HeapSound heap ∧ CountersFresh heap := by
  simp only [heapVerifyTable, Bool.and_eq_true, decide_eq_true_eq, validateTable_iff]
  constructor
  · rintro ⟨⟨⟨⟨⟨⟨⟨active, within⟩, paged⟩, mapped⟩, table⟩, bytes⟩, live⟩, count⟩
    exact ⟨⟨active, table, within, paged, mapped⟩, ⟨count, bytes, live⟩⟩
  · rintro ⟨⟨active, table, within, paged, mapped⟩, ⟨count, bytes, live⟩⟩
    exact ⟨⟨⟨⟨⟨⟨⟨active, within⟩, paged⟩, mapped⟩, table⟩, bytes⟩, live⟩, count⟩

theorem countersFresh_refresh (heap : KernelHeap) : CountersFresh (refreshState heap) :=
  ⟨rfl, rfl, rfl⟩

theorem HeapSound.refresh (sound : HeapSound heap) : HeapSound (refreshState heap) :=
  { sound with }

theorem HeapSound.withBlocks (sound : HeapSound heap)
    (valid : TableValid blocks heap.state.committedBytes) :
    HeapSound { heap with blocks := blocks } :=
  { sound with table := valid }

structure Offers (heap : KernelHeap) (index requested : Nat) (before : List HeapBlock)
    (block : HeapBlock) (after : List HeapBlock) : Prop where
  sound : HeapSound heap
  shape : heap.blocks = before ++ block :: after
  position : before.length = index
  free : block.used = false
  fits : requested ≤ block.size

theorem alignUp_request (positive : 0 < size) :
    0 < alignUp size heapAlignment ∧ alignUp size heapAlignment % heapAlignment = 0 :=
  ⟨lt_of_lt_of_le positive (le_alignUp size heapAlignment (by decide)), alignUp_mod _ _⟩

def Prepared (backing : PageBacking) (heap : KernelHeap) (requested : Nat)
    (ready : KernelHeap) : Prop :=
  (findFit heap.blocks requested ≠ none ∧ ready = heap) ∨
  (findFit heap.blocks requested = none ∧ Grows backing heap requested ∧
    ready = grown heap (growthFor heap.blocks requested))

def Admitted (size : Nat) (output : Bool) : Prop :=
  output ∧ 0 < size ∧ size ≤ heapSize

theorem Admitted.requested_le (h : Admitted size output) : alignUp size heapAlignment ≤ heapSize :=
  alignUp_le size heapAlignment heapSize (by decide) (by decide) h.2.2

theorem heapAllocate_refused (backing : PageBacking) (heap : KernelHeap)
    (h : ¬ Admitted size output) :
    (heapAllocate backing heap size output).status ≠ .ok ∧
      (heapAllocate backing heap size output).heap = heap := by
  unfold heapAllocate
  by_cases present : output
  · by_cases active : heap.state.active
    · by_cases zero : size = 0
      · simp [present, active, zero]
      · have large : heapSize < size := by
          by_contra small
          exact h ⟨present, by omega, by omega⟩
        simp [present, active, zero, large]
    · simp [present, active]
  · simp [present]

theorem heapAllocate_admitted (backing : PageBacking) (heap : KernelHeap)
    (h : Admitted size output) (active : heap.state.active) :
    heapAllocate backing heap size output =
      match findFit heap.blocks (alignUp size heapAlignment) with
      | some index => allocateAt heap index (alignUp size heapAlignment)
      | none =>
        let grown := growFor backing heap (alignUp size heapAlignment)
        if grown.status ≠ .ok then ⟨grown.status, 0, grown.heap⟩
        else allocateAt grown.heap grown.index (alignUp size heapAlignment) := by
  have limit := h.requested_le
  obtain ⟨present, positive, bound⟩ := h
  unfold heapAllocate
  rw [if_neg (by simp [present]), if_neg (by simp [active]), if_neg (by omega), if_neg (by omega)]
  exact if_neg (by omega)

/-- The call is refused in its growth, after `paging_map` has kept tables. -/
def TablesKept (backing : PageBacking) (heap : KernelHeap) (size : Nat) (output : Bool) : Prop :=
  Admitted size output ∧ findFit heap.blocks (alignUp size heapAlignment) = none ∧
    KeepsTables backing heap (alignUp size heapAlignment)

/-- Either nothing happens but that tables are kept, or the call ends in `allocateAt` on a
prepared heap. -/
theorem heapAllocate_cases (backing : PageBacking) (heap : KernelHeap) (size : Nat)
    (output : Bool) (sound : HeapSound heap) :
    let result := heapAllocate backing heap size output
    let requested := alignUp size heapAlignment
    (result.status ≠ .ok ∧ (∃ kept, result.heap = { heap with frames := heap.frames + kept } ∧
        (kept ≠ 0 ↔ TablesKept backing heap size output)) ∧ (Admitted size output →
      findFit heap.blocks requested = none ∧ ¬ Grows backing heap requested)) ∨
    (Admitted size output ∧ ∃ ready index before block after, Prepared backing heap requested ready ∧
      Offers ready index requested before block after ∧
      result = allocateAt ready index requested) := by
  by_cases admitted : Admitted size output
  swap
  · left
    obtain ⟨status, same⟩ := heapAllocate_refused backing heap admitted
    exact ⟨status, ⟨0, same, iff_of_false (by simp) fun kept => admitted kept.1⟩,
      fun h => absurd h admitted⟩
  obtain ⟨present, positive, bound⟩ := admitted
  have requested := alignUp_request positive
  have unfolded := heapAllocate_admitted backing heap ⟨present, positive, bound⟩ sound.active
  cases fit : findFit heap.blocks (alignUp size heapAlignment) with
  | some index =>
    right
    obtain ⟨before, block, after, shape, position, free, fits⟩ := findFit_some _ _ _ fit
    refine ⟨⟨present, positive, bound⟩, heap, index, before, block, after, .inl ⟨by simp [fit], rfl⟩,
      ⟨sound, shape, position, free, fits⟩, ?_⟩
    rw [unfolded, fit]
  | none => ?_
  rcases growFor_cases backing heap (alignUp size heapAlignment) with
    ⟨grows, result⟩ | ⟨stuck, status, kept, result, keeps⟩
  swap
  · left
    rw [unfolded, fit]
    simp only [ne_eq, status, not_false_eq_true, if_true, true_and]
    refine ⟨⟨kept, result, keeps.trans ?_⟩, fun _ => stuck⟩
    exact ⟨fun keeps => ⟨⟨present, positive, bound⟩, fit, keeps⟩, fun lost => lost.2.2⟩
  right
  obtain ⟨_, _, before, block, shape, free, fits⟩ :=
    growTable_spec sound.table requested.1 grows.2.1
  refine ⟨⟨present, positive, bound⟩, _, before.length, before, block, [], .inr ⟨fit, grows, rfl⟩,
    ⟨grown_sound backing heap _ sound requested.1 grows, shape, rfl, free, fits⟩, ?_⟩
  rw [unfolded, fit]
  simp only [result, ne_eq, not_true, if_false]
  congr 1
  have : (grown heap (growthFor heap.blocks (alignUp size heapAlignment))).blocks =
    before ++ [block] := shape
  rw [this]
  simp

theorem Prepared.filter_used (prepared : Prepared backing heap requested ready)
    (sound : HeapSound heap) (positive : 0 < requested) :
    ready.blocks.filter HeapBlock.used = heap.blocks.filter HeapBlock.used := by
  obtain ⟨-, rfl⟩ | ⟨fit, grows, rfl⟩ := prepared
  · rfl
  · exact (growTable_spec sound.table positive grows.2.1).2.1

theorem Prepared.no_tables (prepared : Prepared backing heap (alignUp size heapAlignment) ready) :
    ¬TablesKept backing heap size output := by
  rintro ⟨-, unfit, keeps⟩
  obtain ⟨fit, -⟩ | ⟨-, grows, -⟩ := prepared
  · exact fit unfit
  · exact keeps.stuck grows

theorem allocateAt_of_split (split : splitBlock heap.blocks index requested = (true, blocks)) :
    allocateAt heap index requested = ⟨.ok, heapBase + (blocks.getD index default).offset,
        refreshState { heap with blocks := blocks }⟩ := by
  rw [allocateAt, split]

/-- The end of a call on a heap that offers a block: the split happens and the
counters are refreshed, or the table is full and nothing is. -/
theorem allocateAt_cases (offers : Offers ready index requested before block after)
    (positive : 0 < requested) (whole : requested % heapAlignment = 0) :
    (heapAlignment ≤ block.size - requested ∧ ready.blocks.length = heapMaxBlocks ∧
      allocateAt ready index requested = ⟨.outOfBlocks, 0, ready⟩) ∨
    (¬(heapAlignment ≤ block.size - requested ∧ ready.blocks.length = heapMaxBlocks) ∧
      ∃ blocks piece, TableValid blocks ready.state.committedBytes ∧ piece.used ∧
      piece.offset = block.offset ∧ requested ≤ piece.size ∧ Gains ready.blocks blocks piece ∧
      allocateAt ready index requested =
        ⟨.ok, heapBase + piece.offset, refreshState { ready with blocks := blocks }⟩) := by
  obtain ⟨sound, shape, position, free, fits⟩ := offers
  have valid := sound.table
  rw [shape] at valid
  by_cases starved : heapAlignment ≤ block.size - requested ∧ ready.blocks.length = heapMaxBlocks
  · left
    refine ⟨starved.1, starved.2, ?_⟩
    have full : (before ++ block :: after).length = heapMaxBlocks := shape ▸ starved.2
    simp only [allocateAt, shape, ← position, splitBlock_middle, starved.1, full, if_true]
    rw [← shape]
  · right
    obtain ⟨blocks, split⟩ : ∃ blocks,
        splitBlock (before ++ block :: after) before.length requested = (true, blocks) := by
      rw [splitBlock_middle]
      split_ifs with large full
      · exact absurd ⟨large, by rw [shape]; exact full⟩ starved
      · exact ⟨_, rfl⟩
      · exact ⟨_, rfl⟩
    obtain ⟨valid', piece, read, used, offset, size, gains⟩ :=
      splitBlock_spec valid free positive whole fits split
    refine ⟨starved, blocks, piece, valid', used, offset, size, by rw [shape]; exact gains, ?_⟩
    rw [← position, allocateAt_of_split (by rw [shape]; exact split), read]

/-- `heap_free` succeeds exactly on the base of a used block, and then removes
that block from the used ones; any other pointer changes nothing. -/
theorem heapFree_cases (heap : KernelHeap) (pointer : Nat) (sound : HeapSound heap) :
    ((heapFree heap pointer).1 ≠ .ok ∧ (heapFree heap pointer).2 = heap ∧
      ¬ ∃ block ∈ heap.blocks, block.used ∧ heapBase + block.offset = pointer) ∨
    ((heapFree heap pointer).1 = .ok ∧ ∃ block ∈ heap.blocks, ∃ blocks, block.used ∧
      heapBase + block.offset = pointer ∧ TableValid blocks heap.state.committedBytes ∧
      Gains blocks heap.blocks block ∧ (∀ b ∈ blocks, b.used → b ≠ block) ∧
      (heapFree heap pointer).2 = refreshState { heap with blocks := blocks }) := by
  unfold heapFree
  rw [if_neg (by simp [sound.active])]
  have inside : ∀ block ∈ heap.blocks, block.offset < heap.state.committedBytes := by
    intro block hb
    have := tiles_mem _ _ _ sound.table.tiles block hb
    have := (sound.table.sized block hb).1
    omega
  split
  · left
    refine ⟨by simp, rfl, ?_⟩
    rintro ⟨block, _, _, same⟩
    simp only [heapBase] at same
    omega
  split
  · left
    refine ⟨by simp, rfl, ?_⟩
    rintro ⟨block, hb, _, same⟩
    have := inside block hb
    omega
  cases found : blockIndexForOffset heap.blocks (pointer - heapBase) with
  | none =>
    left
    refine ⟨by simp, rfl, ?_⟩
    rintro ⟨block, hb, _, same⟩
    have := findIdx?_eq_none_iff.mp found block hb
    simp only [decide_eq_false_iff_not] at this
    omega
  | some index => ?_
  obtain ⟨before, block, after, shape, position, offset⟩ := findIdx?_split _ _ _ found
  simp only [decide_eq_true_eq] at offset
  have here : heap.blocks.getD index default = block := by
    rw [shape, ← position]
    exact getD_middle before after block
  simp only [here]
  cases used : block.used with
  | false =>
    left
    refine ⟨by simp, rfl, ?_⟩
    rintro ⟨other, hother, taken, same⟩
    have twin := tiles_offset_inj _ _ _ sound.table.tiles
      (fun b hb => (sound.table.sized b hb).1) other block hother (by simp [shape])
      (by omega)
    rw [twin, used] at taken
    cases taken
  | true =>
    right
    have valid := sound.table
    rw [shape] at valid
    obtain ⟨valid', gains, gone⟩ := mergeFreeNeighbours_spec valid used
    refine ⟨rfl, block, by simp [shape], _, used, by omega, valid', ?_, gone, ?_⟩
    · rw [shape]; exact gains
    · simp only [Bool.not_true, Bool.false_eq_true, if_false]
      rw [shape, ← position, set_middle]

/-- The one call that leaves the counters behind: the growth takes the last free
descriptor and the split of the new block would need one more. -/
def SplitStarved (heap : KernelHeap) : HeapOp → Prop
  | .allocate backing size output =>
    Admitted size output ∧ findFit heap.blocks (alignUp size heapAlignment) = none ∧
    trailingBlock heap.blocks = none ∧ heap.blocks.length + 1 = heapMaxBlocks ∧
    alignUp size heapAlignment % pagingPageSize ≠ 0 ∧
    Grows backing heap (alignUp size heapAlignment)
  | .free _ => False

theorem heapSound_step (heap : KernelHeap) (op : HeapOp) (sound : HeapSound heap) :
    HeapSound (heapStep heap op) := by
  cases op with
  | allocate backing size output =>
    rcases heapAllocate_cases backing heap size output sound with
      ⟨_, ⟨kept, same, _⟩, _⟩ | ⟨admitted, ready, index, before, block, after, _, offers, call⟩
    · simp only [heapStep, same]
      exact { sound with }
    · have request := alignUp_request admitted.2.1
      simp only [heapStep, call]
      rcases allocateAt_cases offers request.1 request.2 with
        ⟨_, _, result⟩ | ⟨_, blocks, piece, valid, _, _, _, _, result⟩
      · rw [result]; exact offers.sound
      · rw [result]; exact (offers.sound.withBlocks valid).refresh
  | free pointer =>
    rcases heapFree_cases heap pointer sound with
      ⟨_, same, _⟩ | ⟨_, block, _, blocks, _, _, valid, _, _, result⟩
    · simpa only [heapStep, same] using sound
    · simp only [heapStep, result]
      exact (sound.withBlocks valid).refresh

theorem countersFresh_of_filter (fresh : CountersFresh heap)
    (length : ready.blocks.length = heap.blocks.length)
    (used : ready.blocks.filter HeapBlock.used = heap.blocks.filter HeapBlock.used)
    (count : ready.state.blockCount = heap.state.blockCount)
    (bytes : ready.state.allocatedBytes = heap.state.allocatedBytes)
    (live : ready.state.liveAllocations = heap.state.liveAllocations) : CountersFresh ready := by
  refine ⟨?_, ?_, ?_⟩
  · rw [length, count]; exact fresh.blockCount
  · rw [usedBytes, used, bytes]; exact fresh.allocatedBytes
  · rw [usedCount, used, live]; exact fresh.liveAllocations

/-- What the last block offers once it has been extended or added: no other block fits. -/
theorem Offers.grown_block {growth : Nat}
    (offers : Offers (grown heap growth) index requested before block after)
    (unfit : findFit heap.blocks requested = none) :
    block.size = ((trailingBlock heap.blocks).map HeapBlock.size).getD 0 + growth ∧
      (grown heap growth).blocks.length =
        heap.blocks.length + if (trailingBlock heap.blocks).isNone then 1 else 0 := by
  have member : block ∈ (grown heap growth).blocks := by simp [offers.shape]
  have old : block ∉ heap.blocks := by
    intro old
    have short := findFit_none _ _ unfit block old offers.free
    have fits := offers.fits
    omega
  cases trailing : trailingBlock heap.blocks with
  | none =>
    simp only [grown, growTable, trailing, mem_append, old, false_or] at member
    simp [grown, growTable, trailing, mem_singleton.mp member]
  | some last =>
    obtain ⟨front, shape, -⟩ := trailingBlock_some _ _ trailing
    have table : (grown heap growth).blocks =
        front ++ [{ last with size := last.size + growth }] := by
      simp only [grown, growTable, trailing]
      simp [shape]
    rw [table, mem_append, mem_singleton] at member
    have same := member.resolve_left fun here => old (by simp [shape, here])
    simp [table, shape, same]

theorem remainder_iff {trailing : Nat} (whole : requested % heapAlignment = 0)
    (units : trailing % heapAlignment = 0) (short : trailing < requested) :
    heapAlignment ≤ trailing + alignUp (requested - trailing) pagingPageSize - requested ↔
      (requested - trailing) % pagingPageSize ≠ 0 := by
  simp only [alignUp, heapAlignment, pagingPageSize] at *
  omega

/-- The call that grows for nothing: the table is then full, and the grown block is longer
than the request. -/
def GrowthWasted (backing : PageBacking) (heap : KernelHeap) (size : Nat) (output : Bool) : Prop :=
  Admitted size output ∧ findFit heap.blocks (alignUp size heapAlignment) = none ∧
    Grows backing heap (alignUp size heapAlignment) ∧
    (heap.blocks.length + if (trailingBlock heap.blocks).isNone then 1 else 0) = heapMaxBlocks ∧
    (alignUp size heapAlignment - ((trailingBlock heap.blocks).map HeapBlock.size).getD 0) %
      pagingPageSize ≠ 0

/-- The trailing block is short of a request that nothing fits, by whole units. -/
theorem HeapSound.trailing_short (sound : HeapSound heap)
    (unfit : findFit heap.blocks requested = none) (positive : 0 < requested) :
    ((trailingBlock heap.blocks).map HeapBlock.size).getD 0 < requested ∧
      ((trailingBlock heap.blocks).map HeapBlock.size).getD 0 % heapAlignment = 0 := by
  cases trailing : trailingBlock heap.blocks with
  | none => exact ⟨positive, rfl⟩
  | some last =>
    obtain ⟨front, shape, free⟩ := trailingBlock_some _ _ trailing
    have member : last ∈ heap.blocks := by simp [shape]
    exact ⟨findFit_none _ _ unfit last member free, (sound.table.sized last member).2⟩

/-- A call wastes its growth, is refused without a trace but tables that are kept, or leaves
fresh counters. -/
theorem heapAllocate_outcome (backing : PageBacking) (heap : KernelHeap) (size : Nat)
    (output : Bool) (sound : HeapSound heap) :
    let result := heapAllocate backing heap size output
    let requested := alignUp size heapAlignment
    (GrowthWasted backing heap size output ∧
      result = ⟨.outOfBlocks, 0, grown heap (growthFor heap.blocks requested)⟩) ∨
    (¬GrowthWasted backing heap size output ∧
      ((result.status ≠ .ok ∧ ∃ kept, result.heap = { heap with frames := heap.frames + kept } ∧
          (kept ≠ 0 ↔ TablesKept backing heap size output)) ∨
        (¬TablesKept backing heap size output ∧ result.status = .ok ∧
          CountersFresh result.heap))) := by
  rcases heapAllocate_cases backing heap size output sound with
    ⟨refused, same, stuck⟩ | ⟨admitted, ready, index, before, block, after, prepared, offers, call⟩
  · exact .inr ⟨fun wasted => (stuck wasted.1).2 wasted.2.2.1, .inl ⟨refused, same⟩⟩
  have request := alignUp_request admitted.2.1
  have spared : ¬TablesKept backing heap size output := prepared.no_tables
  rw [call]
  obtain ⟨fit, rfl⟩ | ⟨unfit, grows, rfl⟩ := prepared
  · refine .inr ⟨fun wasted => fit wasted.2.1, ?_⟩
    rcases allocateAt_cases offers request.1 request.2 with
      ⟨-, -, result⟩ | ⟨-, _, _, -, -, -, -, -, result⟩
    · rw [result]
      exact .inl ⟨by simp, 0, rfl, iff_of_false (by simp) spared⟩
    · exact .inr ⟨spared, by simp [result, countersFresh_refresh]⟩
  · obtain ⟨size', length⟩ := offers.grown_block unfit
    obtain ⟨short, units⟩ := sound.trailing_short unfit request.1
    have starved : (heapAlignment ≤ block.size - alignUp size heapAlignment ∧
        (grown heap (growthFor heap.blocks (alignUp size heapAlignment))).blocks.length =
          heapMaxBlocks) ↔ GrowthWasted backing heap size output := by
      rw [size', length, growthFor, remainder_iff request.2 units short, and_comm]
      exact ⟨fun h => ⟨admitted, unfit, grows, h⟩, fun wasted => wasted.2.2.2⟩
    rcases allocateAt_cases offers request.1 request.2 with
      ⟨large, full, result⟩ | ⟨roomy, _, _, -, -, -, -, -, result⟩
    · exact .inl ⟨starved.mp ⟨large, full⟩, result⟩
    · exact .inr ⟨fun wasted => roomy (starved.mpr wasted),
        .inr ⟨spared, by simp [result, countersFresh_refresh]⟩⟩

theorem SplitStarved.wasted (starved : SplitStarved heap (.allocate backing size output)) :
    GrowthWasted backing heap size output := by
  obtain ⟨admitted, unfit, trailing, length, remainder, grows⟩ := starved
  exact ⟨admitted, unfit, grows, by simpa [trailing] using length, by simpa [trailing] using remainder⟩

theorem verified_step_iff (heap : KernelHeap) (op : HeapOp)
    (verified : heapVerifyTable heap) :
    heapVerifyTable (heapStep heap op) ↔ ¬ SplitStarved heap op := by
  obtain ⟨sound, fresh⟩ := (heapVerifyTable_iff heap).mp verified
  rw [heapVerifyTable_iff, and_iff_right (heapSound_step heap op sound)]
  cases op with
  | free pointer =>
    simp only [SplitStarved, not_false_eq_true, iff_true, heapStep]
    rcases heapFree_cases heap pointer sound with
      ⟨_, same, _⟩ | ⟨_, _, _, _, _, _, _, _, _, result⟩
    · rw [same]; exact fresh
    · rw [result]; exact countersFresh_refresh _
  | allocate backing size output => ?_
  simp only [heapStep]
  rcases heapAllocate_outcome backing heap size output sound with
    ⟨wasted, result⟩ | ⟨spared, ⟨-, kept, same, -⟩ | done⟩
  · -- The refused split: fresh exactly when growth did not add a block.
    obtain ⟨admitted, unfit, grows, length, remainder⟩ := wasted
    have used := (growTable_spec sound.table (alignUp_request admitted.2.1).1 grows.2.1).2.1
    simp only [result]
    cases trailing : trailingBlock heap.blocks with
    | some last =>
      have kept : CountersFresh (grown heap (growthFor heap.blocks (alignUp size heapAlignment))) :=
        countersFresh_of_filter fresh (by simp [grown, growTable, trailing]) used rfl rfl rfl
      refine iff_of_true kept fun starved => ?_
      cases trailing.symm.trans starved.2.2.1
    | none =>
      refine iff_of_false (fun stale => ?_) (not_not_intro ⟨admitted, unfit, trailing,
        by simpa [trailing] using length, by simpa [trailing] using remainder, grows⟩)
      have count := stale.blockCount
      have before := fresh.blockCount
      simp only [grown, growTable, trailing, length_append, length_singleton] at count
      omega
  · exact iff_of_true (by rw [same]; exact { fresh with }) fun starved => spared starved.wasted
  · exact iff_of_true done.2.2 fun starved => spared starved.wasted

theorem heapInitialize_ok (answers : BootAnswers) (statics : KernelHeap)
    (started : (heapInitialize answers statics).1 = .ok) :
    heapVerifyTable (heapInitialize answers statics).2 := by
  unfold heapInitialize at started ⊢
  split_ifs at started ⊢
  simp [heapVerifyTable, refreshState, validateTable]

/-- Starting from a successful `heap_initialize`, the table part of `heap_verify`
holds after every call precisely when no call is a starved split. -/
theorem heap_verified_throughout_iff (answers : BootAnswers) (statics : KernelHeap)
    (started : (heapInitialize answers statics).1 = .ok) (ops : List HeapOp) :
    Throughout heapStep (fun heap => heapVerifyTable heap = true)
        (heapInitialize answers statics).2 ops ↔
      Along heapStep (fun heap op => ¬ SplitStarved heap op)
        (heapInitialize answers statics).2 ops :=
  throughout_iff_along heapStep _ _ verified_step_iff ops _
    (heapInitialize_ok answers statics started)

/-- Surroundings in which `heap_initialize` succeeds, statics as the loader leaves
them, and a supply that backs every page. -/
def quietBoot : BootAnswers := ⟨true, false, .notMapped, .notMapped⟩

def zeroStatics : KernelHeap := ⟨[], ⟨0, 0, 0, 0, 0, 0, 0, false⟩, 0⟩

def amplePages : PageBacking :=
  ⟨fun _ => true, fun _ => true, fun _ => true, fun _ => true, fun _ => 0, fun _ => rfl,
    fun _ => rfl⟩

theorem heap_verified_through_split_and_merge :
    (heapInitialize quietBoot zeroStatics).1 = .ok ∧
    Throughout heapStep (fun heap => heapVerifyTable heap = true)
      (heapInitialize quietBoot zeroStatics).2
      [.allocate amplePages 100 true, .allocate amplePages 5000 true, .free heapBase] := by
  refine ⟨by decide, (heap_verified_throughout_iff quietBoot zeroStatics (by decide) _).mpr ?_⟩
  refine ⟨?_, ?_, not_false, trivial⟩
  · rintro ⟨_, _, _, length, _⟩
    revert length
    decide
  · rintro ⟨_, _, _, length, _⟩
    revert length
    decide

def packed (n : Nat) : KernelHeap :=
  ⟨(List.range n).map fun page => ⟨page * pagingPageSize, pagingPageSize, true⟩,
    ⟨heapBase, heapSize, n * pagingPageSize, n * pagingPageSize, n, n, n, true⟩, n⟩

theorem packed_used (n : Nat) : ∀ block ∈ (packed n).blocks, block.used := by
  intro block hb
  obtain ⟨page, _, rfl⟩ := mem_map.mp hb
  rfl

theorem packed_unfit (n size : Nat) : findFit (packed n).blocks size = none := by
  apply findIdx?_eq_none_iff.mpr
  intro block hb
  simp [packed_used n block hb]

theorem packed_trailing (n : Nat) : trailingBlock (packed n).blocks = none := by
  apply Option.filter_eq_none_iff.mpr
  intro block hb
  simp [packed_used n block (mem_of_getLast? hb)]

theorem packed_growth (n : Nat) (small : size ≤ pagingPageSize) (positive : 0 < size) :
    growthFor (packed n).blocks size = pagingPageSize := by
  simp only [growthFor, packed_trailing, Option.map_none, Option.getD_none, alignUp]
  simp only [pagingPageSize] at *
  omega

theorem packed_grows (n size : Nat) (room : n < heapMaxBlocks) (small : size ≤ pagingPageSize)
    (positive : 0 < size) : Grows amplePages (packed n) size := by
  refine ⟨?_, ?_, fun _ _ => ⟨rfl, rfl⟩⟩
  · rw [packed_growth n small positive]
    simp only [packed, pagingPageSize, heapSize, heapMaxBlocks] at *
    omega
  · rintro ⟨_, full⟩
    simp only [packed, length_map, length_range] at full
    omega

theorem packed_length (n : Nat) : (packed n).blocks.length = n := by
  simp [packed]

theorem packed_grown (n : Nat) :
    (grown (packed n) pagingPageSize).blocks =
      (packed n).blocks ++ [⟨n * pagingPageSize, pagingPageSize, false⟩] := by
  simp only [grown, growTable, packed_trailing]
  rfl

theorem packed_growFor (n size : Nat) (room : n < heapMaxBlocks) (small : size ≤ pagingPageSize)
    (positive : 0 < size) :
    growFor amplePages (packed n) size = ⟨.ok, n, grown (packed n) pagingPageSize⟩ := by
  obtain ⟨_, result⟩ | ⟨stuck, _⟩ := growFor_cases amplePages (packed n) size
  · rw [result, packed_growth n small positive, packed_grown, length_append, packed_length]
    rfl
  · exact absurd (packed_grows n size room small positive) stuck

theorem packed_split (n : Nat) :
    splitBlock (grown (packed n) pagingPageSize).blocks n pagingPageSize =
      (true, (packed (n + 1)).blocks) := by
  have middle := splitBlock_middle (packed n).blocks []
    ⟨n * pagingPageSize, pagingPageSize, false⟩ pagingPageSize
  rw [packed_length] at middle
  rw [packed_grown, middle, if_neg (by simp [heapAlignment])]
  simp only [packed, range_succ, map_append, map_cons, map_nil]

theorem packed_bytes (n : Nat) : usedBytes (packed n).blocks = n * pagingPageSize := by
  rw [usedBytes, filter_eq_self.mpr (packed_used n)]
  simp [packed, Function.comp_def]

theorem packed_count (n : Nat) : usedCount (packed n).blocks = n := by
  rw [usedCount, filter_eq_self.mpr (packed_used n), packed_length]

theorem packed_call (n : Nat) (room : n < heapMaxBlocks) :
    heapAllocate amplePages (packed n) pagingPageSize true =
      allocateAt (grown (packed n) pagingPageSize) n pagingPageSize := by
  have request : alignUp pagingPageSize heapAlignment = pagingPageSize := by decide
  rw [heapAllocate_admitted amplePages (packed n) ⟨rfl, by decide, by decide⟩ rfl, packed_unfit,
    request, packed_growFor n _ room le_rfl (by decide)]
  simp

theorem packed_allocate (n : Nat) (room : n < heapMaxBlocks) :
    heapStep (packed n) (.allocate amplePages pagingPageSize true) = packed (n + 1) := by
  have page : pagingPageSize / pagingPageSize = 1 := by decide
  rw [heapStep, packed_call n room, allocateAt_of_split (packed_split n)]
  simp only [refreshState, packed_length, packed_bytes, packed_count]
  simp only [grown, packed, page, add_mul, one_mul]

theorem packed_run (n : Nat) (room : n ≤ heapMaxBlocks) :
    run heapStep (heapInitialize quietBoot zeroStatics).2
      (List.replicate n (.allocate amplePages pagingPageSize true)) = packed n := by
  induction n with
  | zero => rfl
  | succ n ih =>
    rw [replicate_succ', run_append, ih (by omega)]
    exact packed_allocate n (by omega)

/-- 255 one-page allocations fill all but one descriptor; the next 16-byte
allocation grows into the last one, cannot split it, and reports the old count. -/
theorem heap_counters_stale_after_starved_split :
    ¬ Throughout heapStep (fun heap => heapVerifyTable heap = true)
      (heapInitialize quietBoot zeroStatics).2
      (List.replicate 255 (.allocate amplePages pagingPageSize true) ++
        [.allocate amplePages 16 true]) := by
  intro all
  have verified := all _ (prefix_append _ _)
  have last := all _ (prefix_refl _)
  rw [run_append, packed_run 255 (by decide)] at last
  rw [packed_run 255 (by decide)] at verified
  refine (verified_step_iff _ (.allocate amplePages 16 true) verified).mp last ?_
  refine ⟨⟨rfl, by decide, by decide⟩, packed_unfit _ _, packed_trailing _, by simp [packed, heapMaxBlocks],
    by decide, packed_grows _ _ (by decide) (by decide) (by decide)⟩

end Sapote.Heap
