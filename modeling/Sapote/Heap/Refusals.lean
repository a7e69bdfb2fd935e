import Sapote.Heap.Consistency

/-!
What a refused `heap_allocate` leaves behind. A growth that fails gives every page back, but not
the page tables that `paging_map` linked before it ran out of frames; and a growth that succeeds
before the split is refused keeps its pages, with the longer table and the larger commitment.
-/

namespace Sapote.Heap

open Library Paging
variable {backing : PageBacking} {heap : KernelHeap} {size : Nat} {output : Bool}

/-- A wasted growth is refused and leaves a larger commitment. -/
theorem GrowthWasted.trace (wasted : GrowthWasted backing heap size output)
    (sound : HeapSound heap) :
    (heapAllocate backing heap size output).status ≠ .ok ∧
      (heapAllocate backing heap size output).heap ≠ heap := by
  have result := ((heapAllocate_outcome backing heap size output sound).resolve_right fun spared =>
    spared.1 wasted).2
  refine ⟨by rw [result]; simp, fun same => ?_⟩
  have committed := congrArg (·.state.committedBytes) same
  rw [result] at committed
  have short := (sound.trailing_short wasted.2.1 (alignUp_request wasted.1.2.1).1).1
  have grows := le_alignUp (alignUp size heapAlignment -
    ((trailingBlock heap.blocks).map HeapBlock.size).getD 0) pagingPageSize (by decide)
  simp only [grown, growthFor] at committed
  omega

/-- Tables that are kept are frames the call has taken and not given back. -/
theorem TablesKept.trace (lost : TablesKept backing heap size output) (sound : HeapSound heap) :
    (heapAllocate backing heap size output).status ≠ .ok ∧
      (heapAllocate backing heap size output).heap ≠ heap := by
  have outcome := (heapAllocate_outcome backing heap size output sound).resolve_left fun wasted =>
    lost.2.2.stuck wasted.1.2.2.1
  obtain ⟨refused, kept, left, keeps⟩ := outcome.2.resolve_right fun done => done.1 lost
  refine ⟨refused, fun same => keeps.mpr lost ?_⟩
  have frames := congrArg KernelHeap.frames same
  rw [left] at frames
  exact Nat.add_eq_left.mp frames

theorem heapSound_run {answers : BootAnswers} {statics : KernelHeap}
    (started : (heapInitialize answers statics).1 = .ok) (ops : List HeapOp) :
    HeapSound (run heapStep (heapInitialize answers statics).2 ops) :=
  run_invariant heapStep HeapSound heapSound_step ops _
    ((heapVerifyTable_iff _).mp (heapInitialize_ok answers statics started)).1

/-- A refused call leaves no trace, in the heap's statics or in the frames it holds, unless it
wasted its growth or its growth kept page tables. -/
theorem refused_allocate_leaves_no_trace_iff (answers : BootAnswers) (statics : KernelHeap)
    (started : (heapInitialize answers statics).1 = .ok) (ops : List HeapOp)
    (backing : PageBacking) (size : Nat) (output : Bool) :
    let heap := run heapStep (heapInitialize answers statics).2 ops
    ((heapAllocate backing heap size output).status ≠ .ok →
      (heapAllocate backing heap size output).heap = heap) ↔
    ¬GrowthWasted backing heap size output ∧ ¬TablesKept backing heap size output := by
  intro heap
  have sound : HeapSound heap := heapSound_run started ops
  constructor
  · intro traceless
    exact ⟨fun wasted => (wasted.trace sound).2 (traceless (wasted.trace sound).1),
      fun lost => (lost.trace sound).2 (traceless (lost.trace sound).1)⟩
  · rintro ⟨spared, unkept⟩ refused
    have outcome := (heapAllocate_outcome backing heap size output sound).resolve_left fun wasted =>
      spared wasted.1
    obtain ⟨-, kept, left, keeps⟩ := outcome.2.resolve_right fun done => refused done.2.1
    rw [left, not_not.mp (mt keeps.mp unkept)]
    rfl

/-- Frames for the first two pages of the window. -/
def twoPages : PageBacking := { amplePages with frameAllocate := fun offset => offset < 8192 }

theorem refused_allocate_leaves_no_trace_third_page :
    let heap := (heapInitialize quietBoot zeroStatics).2
    Backed twoPages 0 2 ∧ (heapAllocate twoPages heap 12288 true).status = .outOfMemory ∧
      (heapAllocate twoPages heap 12288 true).heap = heap := by
  refine ⟨by unfold Backed; decide, by decide, ?_⟩
  refine (refused_allocate_leaves_no_trace_iff quietBoot zeroStatics (by decide) [] twoPages 12288
    true).mpr ⟨?_, ?_⟩ (by decide)
  · rintro ⟨-, -, -, length, -⟩
    revert length
    decide
  · rintro ⟨-, -, -, -, page, kept, -, stops, some⟩
    exact some (stops.kept.trans (ite_self 0))

/-- 255 one-page allocations fill all but one descriptor; a 16-byte allocation then grows
into the last one and is refused, and keeps the page. -/
theorem refused_allocate_keeps_page :
    let heap := run heapStep (heapInitialize quietBoot zeroStatics).2
      (List.replicate 255 (.allocate amplePages pagingPageSize true))
    (heapAllocate amplePages heap 16 true).status ≠ .ok ∧
      (heapAllocate amplePages heap 16 true).heap ≠ heap := by
  intro heap
  have wasted : GrowthWasted amplePages (packed 255) 16 true := by
    refine ⟨⟨rfl, by decide, by decide⟩, packed_unfit _ _,
      packed_grows _ _ (by decide) (by decide) (by decide), ?_, ?_⟩
    · rw [packed_trailing, packed_length]
      rfl
    · rw [packed_trailing]
      decide
  rw [← packed_run 255 (by decide)] at wasted
  exact wasted.trace (heapSound_run (by decide) _)

/-- With two frames free the first page takes one, its `paging_map` links one table and is
refused for want of the next, and the table stays. -/
example : (heapAllocate { amplePages with pagingMap := fun _ => false, tablesKept := fun _ => 1 }
    (heapInitialize quietBoot zeroStatics).2 16 true).heap.frames = 1 := by
  decide

end Sapote.Heap
