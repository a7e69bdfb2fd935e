import Sapote.Heap.Consistency

/-!
The caller's view of the heap: the allocations handed out and not yet freed. The
log is ghost state beside the heap; the invariant ties it to the used blocks of
the table, so what the table guarantees about blocks becomes a guarantee about
the pointers callers hold.
-/

namespace Sapote.Heap
open Library Paging List
variable {block : HeapBlock} {t : Tracked} {a : LiveAllocation}

structure LiveAllocation where
  (pointer requested : Nat)
deriving DecidableEq

structure Tracked where
  heap : KernelHeap
  live : List LiveAllocation

def trackedStep (t : Tracked) : HeapOp → Tracked
  | .allocate backing size output =>
    let result := heapAllocate backing t.heap size output
    ⟨result.heap, if result.status = .ok then ⟨result.pointer, size⟩ :: t.live else t.live⟩
  | .free pointer =>
    let result := heapFree t.heap pointer
    ⟨result.2, if result.1 = .ok then t.live.filter fun a => a.pointer ≠ pointer else t.live⟩

def allocationSize (heap : KernelHeap) (pointer : Nat) : Option Nat :=
  (heap.blocks.find? fun block => block.used && decide (heapBase + block.offset = pointer)).map
    HeapBlock.size

theorem allocationSize_eq {heap : KernelHeap} (sound : HeapSound heap)
    (member : block ∈ heap.blocks) (used : block.used) :
    allocationSize heap (heapBase + block.offset) = some block.size := by
  unfold allocationSize
  cases found : heap.blocks.find? fun b =>
      b.used && decide (heapBase + b.offset = heapBase + block.offset) with
  | none =>
    have := find?_eq_none.mp found block member
    simp [used] at this
  | some other =>
    have hit := find?_some found
    simp only [Bool.and_eq_true, decide_eq_true_eq] at hit
    have same := tiles_offset_inj _ _ _ sound.table.tiles
      (fun b hb => (sound.table.sized b hb).1) other block (mem_of_find?_eq_some found)
      member (by omega)
    simp [same]

structure Faithful (t : Tracked) : Prop where
  sound : HeapSound t.heap
  backed : ∀ a ∈ t.live, ∃ block ∈ t.heap.blocks, block.used ∧
    heapBase + block.offset = a.pointer ∧ a.requested ≤ block.size
  covered : ∀ block ∈ t.heap.blocks, block.used →
    ∃ a ∈ t.live, a.pointer = heapBase + block.offset
  distinct : (t.live.map LiveAllocation.pointer).Nodup

/-- The new piece starts at a free block, so no used block was there before. -/
theorem fresh_offset {ready : KernelHeap} {index requested : Nat} {before after : List HeapBlock}
    (offers : Offers ready index requested before block after) (other : HeapBlock)
    (member : other ∈ ready.blocks) (used : other.used) : other.offset ≠ block.offset := by
  intro same
  have twin := tiles_offset_inj _ _ _ offers.sound.table.tiles
    (fun b hb => (offers.sound.table.sized b hb).1) other block member
    (by simp [offers.shape]) same
  rw [twin, offers.free] at used
  cases used

theorem heapAllocate_used (backing : PageBacking) (heap : KernelHeap) (size : Nat)
    (output : Bool) (sound : HeapSound heap) :
    let result := heapAllocate backing heap size output
    (result.status ≠ .ok ∧
      ∀ b, (b ∈ result.heap.blocks ∧ b.used) ↔ (b ∈ heap.blocks ∧ b.used)) ∨
    (result.status = .ok ∧ ∃ piece, piece.used ∧ size ≤ piece.size ∧
      result.pointer = heapBase + piece.offset ∧
      (∀ b ∈ heap.blocks, b.used → b.offset ≠ piece.offset) ∧
      Gains heap.blocks result.heap.blocks piece) := by
  rcases heapAllocate_cases backing heap size output sound with
    ⟨status, ⟨_, same, _⟩, _⟩ |
      ⟨admitted, ready, index, before, block, after, prepared, offers, call⟩
  · left
    exact ⟨status, fun b => by rw [same]⟩
  · have request := alignUp_request admitted.2.1
    have kept : ∀ b, (b ∈ ready.blocks ∧ b.used) ↔ (b ∈ heap.blocks ∧ b.used) := by
      intro b
      simp only [← mem_filter, prepared.filter_used sound request.1]
    rw [call]
    rcases allocateAt_cases offers request.1 request.2 with
      ⟨_, _, result⟩ | ⟨_, blocks, piece, _, used, offset, large, gains, result⟩
    · left
      rw [result]
      exact ⟨by simp, kept⟩
    · right
      rw [result]
      refine ⟨rfl, piece, used, le_trans (le_alignUp _ _ (by decide)) large, rfl, ?_, ?_⟩
      · intro b hb taken
        have old := (kept b).mpr ⟨hb, taken⟩
        rw [offset]
        exact fresh_offset offers b old.1 taken
      · intro b
        exact (gains b).trans (or_congr (kept b) Iff.rfl)

theorem trackedStep_heap (t : Tracked) (op : HeapOp) :
    (trackedStep t op).heap = heapStep t.heap op := by
  cases op <;> rfl

theorem faithful_step (t : Tracked) (op : HeapOp) (faithful : Faithful t) :
    Faithful (trackedStep t op) := by
  have sound : HeapSound (trackedStep t op).heap := by
    rw [trackedStep_heap]
    exact heapSound_step t.heap op faithful.sound
  cases op with
  | allocate backing size output =>
    rcases heapAllocate_used backing t.heap size output faithful.sound with
      ⟨status, kept⟩ | ⟨status, piece, used, large, pointer, fresh, gains⟩
    · simp only [trackedStep, status, if_false] at sound ⊢
      refine ⟨sound, ?_, ?_, faithful.distinct⟩
      · intro a ha
        obtain ⟨block, member, used, place⟩ := faithful.backed a ha
        have := (kept block).mpr ⟨member, used⟩
        exact ⟨block, this.1, used, place⟩
      · intro block member used
        have := (kept block).mp ⟨member, used⟩
        exact faithful.covered block this.1 used
    · simp only [trackedStep, status, if_true, pointer] at sound ⊢
      refine ⟨sound, ?_, ?_, ?_⟩
      · intro a ha
        obtain rfl | ha := mem_cons.mp ha
        · exact ⟨piece, ((gains piece).mpr (.inr rfl)).1, used, rfl, large⟩
        · obtain ⟨block, member, taken, place⟩ := faithful.backed a ha
          exact ⟨block, ((gains block).mpr (.inl ⟨member, taken⟩)).1, taken, place⟩
      · intro block member taken
        obtain ⟨old, _⟩ | rfl := (gains block).mp ⟨member, taken⟩
        · obtain ⟨a, ha, place⟩ := faithful.covered block old taken
          exact ⟨a, .tail _ ha, place⟩
        · exact ⟨_, .head _, rfl⟩
      · simp only [map_cons, nodup_cons]
        refine ⟨?_, faithful.distinct⟩
        intro clash
        obtain ⟨a, ha, same⟩ := mem_map.mp clash
        obtain ⟨block, member, taken, place, _⟩ := faithful.backed a ha
        exact fresh block member taken (by omega)
  | free pointer =>
    rcases heapFree_cases t.heap pointer faithful.sound with
      ⟨status, same, _⟩ | ⟨status, block, member, blocks, used, place, _, gains, gone, result⟩
    · simp only [trackedStep, status, if_false, same]
      exact { faithful with }
    · simp only [trackedStep, status, if_true, result] at sound ⊢
      refine ⟨sound, ?_, ?_, ?_⟩
      · intro a ha
        obtain ⟨ha, other⟩ := mem_filter.mp ha
        obtain ⟨b, hb, taken, at', size⟩ := faithful.backed a ha
        obtain ⟨kept, _⟩ | rfl := (gains b).mp ⟨hb, taken⟩
        · exact ⟨b, kept, taken, at', size⟩
        · simp only [ne_eq, decide_not, Bool.not_eq_true', decide_eq_false_iff_not] at other
          omega
      · intro b hb taken
        have old := (gains b).mpr (.inl ⟨hb, taken⟩)
        obtain ⟨a, ha, at'⟩ := faithful.covered b old.1 taken
        refine ⟨a, mem_filter.mpr ⟨ha, ?_⟩, at'⟩
        simp only [ne_eq, decide_not, Bool.not_eq_true', decide_eq_false_iff_not]
        intro clash
        refine gone b hb taken ?_
        exact tiles_offset_inj _ _ _ faithful.sound.table.tiles
          (fun b hb => (faithful.sound.table.sized b hb).1) b block old.1 member (by omega)
      · exact faithful.distinct.sublist (filter_sublist.map _)

/-- A used block that survives a step keeps its base and size in the table. -/
theorem allocationSize_kept (op : HeapOp) (faithful : Faithful t) (ha : a ∈ t.live)
    (other : op ≠ .free a.pointer) :
    a ∈ (trackedStep t op).live ∧
      allocationSize (trackedStep t op).heap a.pointer = allocationSize t.heap a.pointer := by
  have sound' := (faithful_step t op faithful).sound
  obtain ⟨block, member, used, place, _⟩ := faithful.backed a ha
  -- It is enough that the block itself is still in the table.
  have carry : block ∈ (trackedStep t op).heap.blocks →
      allocationSize (trackedStep t op).heap a.pointer = allocationSize t.heap a.pointer := by
    intro kept
    rw [← place, allocationSize_eq faithful.sound member used, allocationSize_eq sound' kept used]
  cases op with
  | allocate backing size output =>
    rcases heapAllocate_used backing t.heap size output faithful.sound with
      ⟨status, kept⟩ | ⟨status, piece, _, _, _, _, gains⟩
    · refine ⟨?_, carry ((kept block).mpr ⟨member, used⟩).1⟩
      simpa only [trackedStep, status, if_false] using ha
    · refine ⟨?_, carry ((gains block).mpr (.inl ⟨member, used⟩)).1⟩
      simp only [trackedStep, status, if_true]
      exact .tail _ ha
  | free pointer => ?_
  rcases heapFree_cases t.heap pointer faithful.sound with
    ⟨status, same, _⟩ | ⟨status, freed, hfreed, blocks, _, base, _, gains, _, result⟩
  · refine ⟨?_, carry ?_⟩
    · simpa only [trackedStep, status, if_false] using ha
    · simpa only [trackedStep, same] using member
  · have apart : a.pointer ≠ pointer := fun clash => other (by rw [clash])
    refine ⟨?_, carry ?_⟩
    · simp only [trackedStep, status, if_true]
      exact mem_filter.mpr ⟨ha, by simpa using apart⟩
    · obtain ⟨kept, _⟩ | rfl := (gains block).mp ⟨member, used⟩
      · simp only [trackedStep, result]
        exact kept
      · exact absurd (place.symm.trans base) apart

structure Placed (heap : KernelHeap) (a : LiveAllocation) (size : Nat) : Prop where
  reserved : allocationSize heap a.pointer = some size
  long : a.requested ≤ size
  aligned : a.pointer % heapAlignment = 0
  above : heapBase ≤ a.pointer
  below : a.pointer + size ≤ heapBase + heap.state.committedBytes

theorem Faithful.placed (faithful : Faithful t) (ha : a ∈ t.live) :
    ∃ size, Placed t.heap a size := by
  obtain ⟨block, member, used, place, long⟩ := faithful.backed a ha
  have bounds := tiles_mem _ _ _ faithful.sound.table.tiles block member
  have aligned := tiles_aligned heapAlignment _ _ _ faithful.sound.table.tiles (by decide)
    (fun b hb => (faithful.sound.table.sized b hb).2) block member
  refine ⟨block.size, ?_, long, ?_, by omega, by omega⟩
  · rw [← place]
    exact allocationSize_eq faithful.sound member used
  · rw [← place]
    simp only [heapBase, heapAlignment] at *
    omega

theorem Faithful.disjoint (faithful : Faithful t) :
    t.live.Pairwise fun a b => ∀ m n, allocationSize t.heap a.pointer = some m →
      allocationSize t.heap b.pointer = some n →
      a.pointer + m ≤ b.pointer ∨ b.pointer + n ≤ a.pointer := by
  have distinct := pairwise_map.mp faithful.distinct
  apply distinct.imp_of_mem
  intro a b ha hb apart m n reserveA reserveB
  obtain ⟨x, hx, usedX, placeX, _⟩ := faithful.backed a ha
  obtain ⟨y, hy, usedY, placeY, _⟩ := faithful.backed b hb
  rw [← placeX, allocationSize_eq faithful.sound hx usedX, Option.some.injEq] at reserveA
  rw [← placeY, allocationSize_eq faithful.sound hy usedY, Option.some.injEq] at reserveB
  obtain rfl | h | h := tiles_disjoint _ _ _ faithful.sound.table.tiles x y hx hy
  · exact absurd (placeX.symm.trans placeY) apart
  · exact .inl (by omega)
  · exact .inr (by omega)

theorem Faithful.free_iff (faithful : Faithful t) (pointer : Nat) :
    (heapFree t.heap pointer).1 = .ok ↔ ∃ a ∈ t.live, a.pointer = pointer := by
  rcases heapFree_cases t.heap pointer faithful.sound with
    ⟨status, _, nothing⟩ | ⟨status, block, member, _, used, place, _⟩
  · simp only [status, false_iff]
    rintro ⟨a, ha, rfl⟩
    obtain ⟨block, member, used, place, _⟩ := faithful.backed a ha
    exact nothing ⟨block, member, used, place⟩
  · simp only [status, true_iff]
    obtain ⟨a, ha, at'⟩ := faithful.covered block member used
    exact ⟨a, ha, by omega⟩

theorem faithful_start (answers : BootAnswers) (statics : KernelHeap)
    (started : (heapInitialize answers statics).1 = .ok) :
    Faithful ⟨(heapInitialize answers statics).2, []⟩ := by
  have sound := ((heapVerifyTable_iff _).mp (heapInitialize_ok answers statics started)).1
  refine ⟨sound, by simp, ?_, by simp⟩
  unfold heapInitialize at started ⊢
  split_ifs at started ⊢
  simp [refreshState]

/-- For every run from a successful `heap_initialize`: live allocations are
placed and pairwise disjoint, a call that does not free one leaves it where and
as large as it was, and `heap_free` succeeds exactly on their bases, changing
nothing otherwise. -/
theorem heap_live_allocations_disjoint_and_stable (answers : BootAnswers) (statics : KernelHeap)
    (started : (heapInitialize answers statics).1 = .ok) (ops : List HeapOp) :
    let t := run trackedStep ⟨(heapInitialize answers statics).2, []⟩ ops
    (∀ a ∈ t.live, ∃ size, Placed t.heap a size) ∧
    (t.live.Pairwise fun a b => ∀ m n, allocationSize t.heap a.pointer = some m →
      allocationSize t.heap b.pointer = some n →
      a.pointer + m ≤ b.pointer ∨ b.pointer + n ≤ a.pointer) ∧
    (∀ op, ∀ a ∈ t.live, op ≠ .free a.pointer → a ∈ (trackedStep t op).live ∧
      allocationSize (trackedStep t op).heap a.pointer = allocationSize t.heap a.pointer) ∧
    (∀ pointer, (heapFree t.heap pointer).1 = .ok ↔ ∃ a ∈ t.live, a.pointer = pointer) ∧
    (∀ pointer, (heapFree t.heap pointer).1 ≠ .ok → (heapFree t.heap pointer).2 = t.heap) := by
  intro t
  have faithful : Faithful t :=
    run_invariant trackedStep Faithful faithful_step ops _ (faithful_start answers statics started)
  refine ⟨fun a ha => faithful.placed ha, faithful.disjoint,
    fun op a ha other => allocationSize_kept op faithful ha other, faithful.free_iff, ?_⟩
  intro pointer refused
  obtain ⟨_, same, _⟩ | ⟨status, _⟩ := heapFree_cases t.heap pointer faithful.sound
  · exact same
  · exact absurd status refused

theorem heap_live_allocations_after_reuse :
    (heapInitialize quietBoot zeroStatics).1 = .ok ∧
    (heapFree (run trackedStep ⟨(heapInitialize quietBoot zeroStatics).2, []⟩
      [.allocate amplePages 100 true, .allocate amplePages 40 true, .free heapBase,
        .allocate amplePages 60 true]).heap (heapBase + 64)).1 ≠ .ok := by
  refine ⟨by decide, fun freed => ?_⟩
  obtain ⟨a, ha, pointer⟩ := ((heap_live_allocations_disjoint_and_stable quietBoot zeroStatics
    (by decide) [.allocate amplePages 100 true, .allocate amplePages 40 true, .free heapBase,
      .allocate amplePages 60 true]).2.2.2.1 (heapBase + 64)).mp freed
  revert pointer
  revert ha
  revert a
  decide

theorem TableValid.ext {table other : List HeapBlock} {committed : Nat}
    (valid : TableValid table committed) (valid' : TableValid other committed)
    (same : ∀ block, block.used → (block ∈ table ↔ block ∈ other)) : table = other := by
  refine tiles_ext (P := fun block => block.used) ?_ valid.tiles valid'.tiles
    (fun block member => (valid.sized block member).1)
    (fun block member => (valid'.sized block member).1) valid.coalesced valid'.coalesced same
  rintro ⟨_, _, _⟩ ⟨_, _, _⟩ ⟨free, free'⟩ rfl rfl
  simp_all

/-- The block table keeps nothing of how it came about: after any two runs it is the same table
exactly when as much is committed and the same blocks are in use. -/
theorem heap_table_history_free (heap heap' : { heap : KernelHeap // HeapSound heap })
    (ops ops' : List HeapOp) :
    let left := run heapStep heap.1 ops
    let right := run heapStep heap'.1 ops'
    left.blocks = right.blocks ↔ left.state.committedBytes = right.state.committedBytes ∧
      ∀ block, block.used → (block ∈ left.blocks ↔ block ∈ right.blocks) := by
  intro left right
  have sound := run_invariant heapStep HeapSound heapSound_step ops _ heap.2
  have sound' := run_invariant heapStep HeapSound heapSound_step ops' _ heap'.2
  refine ⟨fun same => ⟨?_, fun block _ => by rw [same]⟩, fun ⟨committed, used⟩ => ?_⟩
  · rw [tiles_stop _ _ _ sound.table.tiles, tiles_stop _ _ _ sound'.table.tiles]
    exact congrArg (fun table => 0 + (table.map HeapBlock.size).sum) same
  · exact sound.table.ext (committed ▸ sound'.table) used

/-- Freeing what was just allocated undoes the split: only pages that were committed stay. -/
theorem heap_free_undoes_allocate (heap : { heap : KernelHeap // HeapSound heap })
    (backing : PageBacking) (size : Nat) (output : Bool) :
    let result := heapAllocate backing heap.1 size output
    result.status = .ok → (heapFree result.heap result.pointer).1 = .ok ∧
      (result.heap.state.committedBytes = heap.1.state.committedBytes →
        (heapFree result.heap result.pointer).2.blocks = heap.1.blocks) := by
  intro result ok
  have sound : HeapSound result.heap := heapSound_step heap.1 (.allocate backing size output) heap.2
  obtain ⟨failed, -⟩ | ⟨-, piece, used, -, pointer, fresh, gains⟩ :=
    heapAllocate_used backing heap.1 size output heap.2
  · exact absurd ok failed
  have member : piece ∈ result.heap.blocks := ((gains piece).mpr (.inr rfl)).1
  obtain ⟨-, -, none⟩ | ⟨status, block, here, blocks, inUse, place, valid, loses, gone, state⟩ :=
    heapFree_cases result.heap result.pointer sound
  · exact absurd ⟨piece, member, used, pointer.symm⟩ none
  have same : block = piece := tiles_offset_inj _ _ _ sound.table.tiles
    (fun b hb => (sound.table.sized b hb).1) block piece here member
    (Nat.add_left_cancel (place.trans pointer))
  subst same
  refine ⟨status, fun kept => ?_⟩
  rw [state]
  change blocks = _
  refine TableValid.ext (kept ▸ valid) heap.2.table fun b busy => ?_
  grind [Gains]

end Sapote.Heap
