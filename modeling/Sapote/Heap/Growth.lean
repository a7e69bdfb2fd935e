import Sapote.Heap.Allocator
import Sapote.Heap.TableOperations

/-!
Growth of the committed region. A call that cannot back every page unwinds what
it mapped, so only two outcomes exist: the heap is untouched, but for page tables that
`paging_map` kept when it was refused, or it is `grown`.
-/

namespace Sapote.Heap
open Library Paging List Option

/-- Everything `heap_verify` checks from the statics except the three published
counters, which one path of `heap_allocate` leaves behind. -/
structure HeapSound (heap : KernelHeap) : Prop where
  active : heap.state.active
  table : TableValid heap.blocks heap.state.committedBytes
  within : heap.state.committedBytes ≤ heapSize
  paged : heap.state.committedBytes % pagingPageSize = 0
  mapped : heap.state.mappedPages = heap.state.committedBytes / pagingPageSize

theorem le_alignUp (value alignment : Nat) (h : 0 < alignment) :
    value ≤ alignUp value alignment := by
  have := Nat.lt_div_mul_add (a := value + alignment - 1) h
  unfold alignUp
  omega

theorem alignUp_mod (value alignment : Nat) : alignUp value alignment % alignment = 0 := by
  simp [alignUp]

theorem alignUp_le (value alignment bound : Nat) (h : 0 < alignment)
    (aligned : bound % alignment = 0) (hv : value ≤ bound) : alignUp value alignment ≤ bound := by
  obtain ⟨k, rfl⟩ := Nat.dvd_of_mod_eq_zero aligned
  have : (value + alignment - 1) / alignment ≤ k := by
    rw [Nat.div_le_iff_le_mul_add_pred h]
    omega
  calc (value + alignment - 1) / alignment * alignment ≤ k * alignment := Nat.mul_le_mul_right _ this
    _ = alignment * k := mul_comm _ _

theorem pageOffsets_pages (first pages : Nat) :
    pageOffsets first (first + pages * pagingPageSize) =
      (List.range pages).map fun page => first + page * pagingPageSize := by
  unfold pageOffsets
  congr 2
  simp only [pagingPageSize]
  omega

theorem releasePages_pages (backing : PageBacking) (first pages : Nat) (heap : KernelHeap) :
    releasePages backing first (first + pages * pagingPageSize) heap =
      { heap with
        state.mappedPages := heap.state.mappedPages - pages
        frames := heap.frames - pages } := by
  rw [releasePages, pageOffsets_pages]
  induction pages with
  | zero => rfl
  | succ pages ih =>
    rw [range_succ, map_append, foldl_append, ih]
    simp only [map_cons, map_nil, foldl_cons, foldl_nil, backing.translate_mapped,
      backing.unmap_mapped, Bool.not_true, Bool.false_eq_true, if_false, Nat.sub_sub]

/-- Every page of `[first, first + pages)` gets a frame and a mapping. -/
def Backed (backing : PageBacking) (first pages : Nat) : Prop :=
  ∀ page < pages, backing.frameAllocate (first + page * pagingPageSize) ∧
    backing.pagingMap (first + page * pagingPageSize)

/-- The page that ends the loop of `commit_pages`: those before it are backed, it is not, and
`kept` page tables are left of the attempt. -/
structure Stops (backing : PageBacking) (first page kept : Nat) : Prop where
  before : Backed backing first page
  fails : ¬Backed backing first (page + 1)
  kept : kept = if backing.frameAllocate (first + page * pagingPageSize) then
    backing.tablesKept (first + page * pagingPageSize) else 0

theorem Backed.succ {backing : PageBacking} {first page : Nat} (backed : Backed backing first page)
    (frame : backing.frameAllocate (first + page * pagingPageSize))
    (map : backing.pagingMap (first + page * pagingPageSize)) : Backed backing first (page + 1) := by
  intro other low
  obtain earlier | rfl := Nat.lt_succ_iff_lt_or_eq.mp low
  · exact backed other earlier
  · exact ⟨frame, map⟩

theorem Stops.unique {backing : PageBacking} {first page other kept left : Nat}
    (stops : Stops backing first page kept) (stops' : Stops backing first other left) :
    kept = left := by
  have same : page = other := by
    by_contra apart
    obtain lower | lower := Nat.lt_or_gt_of_ne apart
    · exact stops.fails fun p low => stops'.before p (by omega)
    · exact stops'.fails fun p low => stops.before p (by omega)
  rw [stops.kept, stops'.kept, same]

/-- The loop of `commit_pages` after `done` pages: it finishes, or it unwinds to
the counts the call started from. -/
theorem commitOffsets_from (backing : PageBacking) (first : Nat) (heap : KernelHeap)
    (left done : Nat) (backed : Backed backing first done) :
    let rest := (List.range' done left).map fun page => first + page * pagingPageSize
    let result := commitOffsets backing first rest { heap with
      state.mappedPages := heap.state.mappedPages + done, frames := heap.frames + done }
    (Backed backing first (done + left) ∧ result = (.ok, { heap with
        state.mappedPages := heap.state.mappedPages + (done + left)
        frames := heap.frames + (done + left) })) ∨
    ∃ page kept, page < done + left ∧ Stops backing first page kept ∧ result.1 ≠ .ok ∧
      result.2 = { heap with frames := heap.frames + kept } := by
  induction left generalizing done with
  | zero => exact .inl ⟨backed, rfl⟩
  | succ left ih =>
    simp only [List.range'_succ, map_cons, commitOffsets]
    cases frame : backing.frameAllocate (first + done * pagingPageSize) with
    | false =>
      refine .inr ⟨done, 0, by omega, ⟨backed, fun all => ?_, by simp [frame]⟩, by simp, ?_⟩
      · simpa [frame] using (all done (by omega)).1
      · simp [releasePages_pages]
    | true => ?_
    cases map : backing.pagingMap (first + done * pagingPageSize) with
    | false =>
      refine .inr ⟨done, _, by omega, ⟨backed, fun all => ?_, by rw [frame, if_pos rfl]⟩,
        by simp, ?_⟩
      · simpa [map] using (all done (by omega)).2
      · simp only [Bool.not_true, Bool.not_false, Bool.false_eq_true, if_false, if_true,
          releasePages_pages, Nat.add_sub_cancel]
        congr 1
        omega
    | true =>
      simpa only [Bool.not_true, Bool.false_eq_true, if_false, Nat.add_assoc,
        Nat.add_comm left 1] using ih (done + 1) (backed.succ frame map)

theorem commitPages_cases (backing : PageBacking) (first pages : Nat) (heap : KernelHeap) :
    let result := commitPages backing first (first + pages * pagingPageSize) heap
    (Backed backing first pages ∧ result = (.ok, { heap with
        state.mappedPages := heap.state.mappedPages + pages, frames := heap.frames + pages })) ∨
    ∃ page kept, page < pages ∧ Stops backing first page kept ∧ result.1 ≠ .ok ∧
      result.2 = { heap with frames := heap.frames + kept } := by
  simp only [commitPages, pageOffsets_pages, range_eq_range']
  simpa only [Nat.zero_add, Nat.add_zero] using
    commitOffsets_from backing first heap pages 0 fun _ low => absurd low (Nat.not_lt_zero _)

theorem trailingBlock_some (table : List HeapBlock) (block : HeapBlock)
    (h : trailingBlock table = some block) :
    ∃ before, table = before ++ [block] ∧ block.used = false := by
  rw [trailingBlock, filter_eq_some_iff] at h
  obtain ⟨last, free⟩ := h
  obtain ⟨before, rfl⟩ := getLast?_eq_some_iff.mp last
  exact ⟨before, rfl, by simpa using free⟩

theorem trailingBlock_none (table : List HeapBlock) (h : trailingBlock table = none) :
    ∀ block ∈ table.getLast?, block.used := by
  intro block hb
  have := filter_eq_none_iff.mp h block hb
  simpa using this

def grown (heap : KernelHeap) (growth : Nat) : KernelHeap :=
  ⟨growTable heap.blocks heap.state.committedBytes growth,
    { heap.state with
      committedBytes := heap.state.committedBytes + growth
      mappedPages := heap.state.mappedPages + growth / pagingPageSize },
    heap.frames + growth / pagingPageSize⟩

def Grows (backing : PageBacking) (heap : KernelHeap) (size : Nat) : Prop :=
  growthFor heap.blocks size ≤ heapSize - heap.state.committedBytes ∧
  ¬(trailingBlock heap.blocks = none ∧ heap.blocks.length = heapMaxBlocks) ∧
  Backed backing heap.state.committedBytes (growthFor heap.blocks size / pagingPageSize)

theorem growthFor_pages (table : List HeapBlock) (size : Nat) :
    growthFor table size / pagingPageSize * pagingPageSize = growthFor table size :=
  Nat.div_mul_cancel (Nat.dvd_of_mod_eq_zero (alignUp_mod _ _))

/-- A growth that the heap itself allows stops at a page whose `paging_map` keeps tables. -/
def KeepsTables (backing : PageBacking) (heap : KernelHeap) (size : Nat) : Prop :=
  growthFor heap.blocks size ≤ heapSize - heap.state.committedBytes ∧
  ¬(trailingBlock heap.blocks = none ∧ heap.blocks.length = heapMaxBlocks) ∧
  ∃ page kept, page < growthFor heap.blocks size / pagingPageSize ∧
    Stops backing heap.state.committedBytes page kept ∧ kept ≠ 0

theorem KeepsTables.stuck {backing : PageBacking} {heap : KernelHeap} {size : Nat}
    (keeps : KeepsTables backing heap size) : ¬Grows backing heap size := by
  obtain ⟨-, -, page, _, inside, stops, -⟩ := keeps
  exact fun grows => stops.fails fun p low => grows.2.2 p (by omega)

theorem growFor_cases (backing : PageBacking) (heap : KernelHeap) (size : Nat) :
    (Grows backing heap size ∧ growFor backing heap size =
      ⟨.ok, (grown heap (growthFor heap.blocks size)).blocks.length - 1,
        grown heap (growthFor heap.blocks size)⟩) ∨
    (¬ Grows backing heap size ∧ (growFor backing heap size).status ≠ .ok ∧
      ∃ kept, (growFor backing heap size).heap = { heap with frames := heap.frames + kept } ∧
        (kept ≠ 0 ↔ KeepsTables backing heap size)) := by
  unfold growFor
  by_cases window : heapSize - heap.state.committedBytes < growthFor heap.blocks size
  · right
    simp only [window, if_true]
    exact ⟨fun h => absurd h.1 (by omega), by simp, 0, rfl,
      iff_of_false (by simp) fun keeps => absurd keeps.1 (by omega)⟩
  by_cases full : trailingBlock heap.blocks = none ∧ heap.blocks.length = heapMaxBlocks
  · right
    simp only [window, if_false, full.1, full.2, isNone_none, decide_true, Bool.and_self,
      if_true]
    exact ⟨fun h => h.2.1 full, by simp, 0, rfl, iff_of_false (by simp) fun keeps => keeps.2.1 full⟩
  have roomy : ((trailingBlock heap.blocks).isNone && decide (heap.blocks.length = heapMaxBlocks))
      = false := by
    simpa using full
  have commit := commitPages_cases backing heap.state.committedBytes
    (growthFor heap.blocks size / pagingPageSize) heap
  simp only [growthFor_pages] at commit
  simp only [window, if_false, roomy, Bool.false_eq_true]
  obtain ⟨backed, result⟩ | ⟨page, kept, inside, stops, status, result⟩ := commit
  · left
    refine ⟨⟨by omega, full, backed⟩, ?_⟩
    rw [result]
    rfl
  · right
    refine ⟨fun grows => stops.fails fun p low => grows.2.2 p (by omega), ?_⟩
    have keeps : kept ≠ 0 ↔ KeepsTables backing heap size := by
      refine ⟨fun some => ⟨by omega, full, page, kept, inside, stops, some⟩, fun keeps => ?_⟩
      obtain ⟨-, -, _, left, -, stops', some⟩ := keeps
      rwa [stops.unique stops']
    generalize commitPages backing heap.state.committedBytes
      (heap.state.committedBytes + growthFor heap.blocks size) heap = outcome at status result
    obtain ⟨code, after⟩ := outcome
    subst result
    cases code <;> simp only [ne_eq, not_true_eq_false, reduceCtorEq, not_false_eq_true] at status ⊢ <;>
      exact ⟨trivial, kept, rfl, keeps⟩

theorem TableValid.extendLast {before : List HeapBlock} {block : HeapBlock} {committed growth : Nat}
    (valid : TableValid (before ++ [block]) committed) (whole : growth % heapAlignment = 0) :
    TableValid (before ++ [{ block with size := block.size + growth }]) (committed + growth) := by
  have own := valid.sized block (by simp)
  refine ⟨by simpa using valid.bounded, ?_, ?_, ?_⟩
  · have tiles := valid.tiles
    simp only [tiles_append, Tiles] at tiles ⊢
    obtain ⟨middle, front, start, stop⟩ := tiles
    exact ⟨middle, front, start, by omega⟩
  · intro b hb
    obtain hb | hb := mem_append.mp hb
    · exact valid.sized b (by simp [hb])
    · obtain rfl := mem_singleton.mp hb
      simp only [heapAlignment] at *
      omega
  · have chain := isChain_append.mp valid.coalesced
    exact isChain_append.mpr ⟨chain.1, isChain_singleton _, by simpa using chain.2.2⟩

theorem TableValid.append {table : List HeapBlock} {committed growth : Nat}
    (valid : TableValid table committed) (positive : 0 < growth)
    (whole : growth % heapAlignment = 0) (room : table.length < heapMaxBlocks)
    (last : ∀ block ∈ table.getLast?, block.used) :
    TableValid (table ++ [⟨committed, growth, false⟩]) (committed + growth) := by
  refine ⟨by simpa using room, ?_, ?_, ?_⟩
  · rw [tiles_append]
    exact ⟨committed, valid.tiles, rfl, rfl⟩
  · intro b hb
    obtain hb | hb := mem_append.mp hb
    · exact valid.sized b hb
    · obtain rfl := mem_singleton.mp hb
      exact ⟨positive, whole⟩
  · refine isChain_append.mpr ⟨valid.coalesced, isChain_singleton _, ?_⟩
    intro x hx y _
    exact .inl (last x hx)

theorem growTable_spec {heap : KernelHeap} {size : Nat}
    (valid : TableValid heap.blocks heap.state.committedBytes)
    (positive : 0 < size)
    (room : ¬(trailingBlock heap.blocks = none ∧ heap.blocks.length = heapMaxBlocks)) :
    let growth := growthFor heap.blocks size
    let table' := growTable heap.blocks heap.state.committedBytes growth
    TableValid table' (heap.state.committedBytes + growth) ∧
      table'.filter HeapBlock.used = heap.blocks.filter HeapBlock.used ∧
      ∃ before block, table' = before ++ [block] ∧ block.used = false ∧ size ≤ block.size := by
  have whole : growthFor heap.blocks size % heapAlignment = 0 := by
    have : growthFor heap.blocks size % pagingPageSize = 0 := alignUp_mod _ _
    simp only [pagingPageSize, heapAlignment] at *
    omega
  have enough := le_alignUp
    (size - ((trailingBlock heap.blocks).map HeapBlock.size).getD 0) pagingPageSize (by decide)
  change _ ≤ growthFor heap.blocks size at enough
  cases trailing : trailingBlock heap.blocks with
  | some block =>
    obtain ⟨before, shape, free⟩ := trailingBlock_some _ _ trailing
    simp only [trailing, map_some, getD_some] at enough
    have table' : growTable heap.blocks heap.state.committedBytes (growthFor heap.blocks size) =
        before ++ [{ block with size := block.size + growthFor heap.blocks size }] := by
      simp only [growTable, trailing]
      rw [shape]
      simp
    simp only [table']
    refine ⟨(shape ▸ valid).extendLast whole, ?_, before, _, rfl, free, by simp only; omega⟩
    rw [shape]
    simp [free]
  | none =>
    simp only [trailing, map_none, getD_none] at enough
    have bounded := valid.bounded
    have short : heap.blocks.length < heapMaxBlocks := by
      simp only [trailing, true_and] at room
      omega
    have table' : growTable heap.blocks heap.state.committedBytes (growthFor heap.blocks size) =
        heap.blocks ++ [⟨heap.state.committedBytes, growthFor heap.blocks size, false⟩] := by
      simp only [growTable, trailing]
    simp only [table']
    refine ⟨valid.append (by omega) whole short (trailingBlock_none _ trailing), by simp,
      heap.blocks, _, rfl, rfl, by simp only; omega⟩

theorem grown_sound (backing : PageBacking) (heap : KernelHeap) (size : Nat)
    (sound : HeapSound heap) (positive : 0 < size) (grows : Grows backing heap size) :
    HeapSound (grown heap (growthFor heap.blocks size)) := by
  obtain ⟨window, room, _⟩ := grows
  have pages := growthFor_pages heap.blocks size
  have within := sound.within
  refine ⟨sound.active, (growTable_spec sound.table positive room).1, ?_, ?_, ?_⟩
  · simp only [grown]
    omega
  · simp only [grown]
    rw [← pages, Nat.add_mul_mod_self_right]
    exact sound.paged
  · simp only [grown]
    rw [sound.mapped]
    conv_rhs => rw [← pages]
    rw [Nat.add_mul_div_right _ _ (by decide)]

end Sapote.Heap
