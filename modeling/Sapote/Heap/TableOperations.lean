import Sapote.Heap.Table

/-!
What the table operations do to a valid table. Every index in the source is
turned into a decomposition `before ++ block :: after`; each operation then
replaces a short run of blocks by another run tiling the same bytes.
-/

namespace Sapote.Heap
open Library Paging List
variable {before after : List HeapBlock} {block : HeapBlock} {committed : Nat}

theorem findIdx?_split {α : Type} (p : α → Bool) (xs : List α) (i : Nat)
    (h : xs.findIdx? p = some i) :
    ∃ before x after, xs = before ++ x :: after ∧ before.length = i ∧ p x := by
  obtain ⟨inside, here, _⟩ := findIdx?_eq_some_iff_getElem.mp h
  refine ⟨xs.take i, xs[i], xs.drop (i + 1), ?_, ?_, here⟩
  · rw [getElem_cons_drop, take_append_drop]
  · rw [length_take, Nat.min_eq_left inside.le]

section
variable (before after : List HeapBlock) (block : HeapBlock)

@[simp] theorem getD_middle :
    (before ++ block :: after).getD before.length default = block := by
  simp [getD_eq_getElem?_getD]

@[simp] theorem set_middle (other : HeapBlock) :
    (before ++ block :: after).set before.length other = before ++ other :: after := by
  simp

theorem getD_middle_succ (next : HeapBlock) :
    (before ++ block :: next :: after).getD (before.length + 1) default = next := by
  simp [getD_eq_getElem?_getD]

theorem insertIdx_middle (other : HeapBlock) :
    (before ++ block :: after).insertIdx (before.length + 1) other =
      before ++ block :: other :: after := by
  induction before with
  | nil => rfl
  | cons x xs ih => simpa using ih

theorem modify_middle (f : HeapBlock → HeapBlock) :
    (before ++ block :: after).modify before.length f = before ++ f block :: after := by
  induction before with
  | nil => simp
  | cons x xs ih => simpa using ih

theorem eraseIdx_middle_succ (next : HeapBlock) :
    (before ++ block :: next :: after).eraseIdx (before.length + 1) =
      before ++ block :: after := by
  simp [eraseIdx_append_of_length_le]

end

theorem findFit_some (table : List HeapBlock) (size index : Nat)
    (h : findFit table size = some index) :
    ∃ before block after, table = before ++ block :: after ∧ before.length = index ∧
      block.used = false ∧ size ≤ block.size := by
  obtain ⟨before, block, after, rfl, rfl, fits⟩ := findIdx?_split _ _ _ h
  refine ⟨before, block, after, rfl, rfl, ?_⟩
  simpa using fits

theorem findFit_none (table : List HeapBlock) (size : Nat) (h : findFit table size = none)
    (block : HeapBlock) (hb : block ∈ table) (free : block.used = false) : block.size < size := by
  have := findIdx?_eq_none_iff.mp h block hb
  simpa [free] using this

theorem splitBlock_middle (before after : List HeapBlock) (block : HeapBlock) (size : Nat) :
    splitBlock (before ++ block :: after) before.length size =
      if heapAlignment ≤ block.size - size then
        if (before ++ block :: after).length = heapMaxBlocks then
          (false, before ++ block :: after)
        else (true, before ++ ⟨block.offset, size, true⟩ ::
          ⟨block.offset + size, block.size - size, false⟩ :: after)
      else (true, before ++ ⟨block.offset, block.size, true⟩ :: after) := by
  unfold splitBlock
  simp only [getD_middle, insertIdx_middle, set_middle]

theorem mergeForward_middle (before after : List HeapBlock) (block : HeapBlock) :
    mergeForward (before ++ block :: after) before.length =
      match after with
      | next :: rest =>
        if next.used then before ++ block :: after
        else before ++ { block with size := block.size + next.size } :: rest
      | [] => before ++ [block] := by
  unfold mergeForward removeBlock
  cases after with
  | nil => simp
  | cons next rest =>
    have long : before.length + 1 < (before ++ block :: next :: rest).length := by simp
    simp only [getD_middle_succ, long, decide_true, Bool.true_and, modify_middle,
      eraseIdx_middle_succ]
    cases next.used <;> simp

theorem mergeBackward_first (after : List HeapBlock) (block : HeapBlock) :
    mergeBackward (block :: after) 0 = block :: after := by
  simp [mergeBackward]

theorem mergeBackward_middle (before after : List HeapBlock) (previous block : HeapBlock) :
    mergeBackward (before ++ previous :: block :: after) (before.length + 1) =
      if previous.used then before ++ previous :: block :: after
      else before ++ { previous with size := previous.size + block.size } :: after := by
  unfold mergeBackward removeBlock
  simp only [Nat.add_sub_cancel, getD_middle, getD_middle_succ, modify_middle,
    eraseIdx_middle_succ]
  cases previous.used <;> simp

/-- Replacing a run of blocks by a run that tiles the same bytes. -/
theorem TableValid.replace {run : List HeapBlock}
    (valid : TableValid (before ++ run ++ after) committed) (other : List HeapBlock)
    (short : (before ++ other ++ after).length ≤ heapMaxBlocks)
    (same : ∀ start stop, Tiles HeapBlock.offset HeapBlock.size start run stop →
      Tiles HeapBlock.offset HeapBlock.size start other stop)
    (sized : ∀ block ∈ other, 0 < block.size ∧ block.size % heapAlignment = 0)
    (coalesced : (before ++ other ++ after).IsChain
      fun left right => left.used ∨ right.used) :
    TableValid (before ++ other ++ after) committed := by
  refine ⟨short, ?_, ?_, coalesced⟩
  · have tiles := valid.tiles
    simp only [append_assoc, tiles_append] at tiles ⊢
    obtain ⟨a, ha, b, hb, rest⟩ := tiles
    exact ⟨a, ha, b, same a b hb, rest⟩
  · intro block hb
    simp only [mem_append] at hb
    obtain (hb | hb) | hb := hb
    · exact valid.sized block (by simp [hb])
    · exact sized block hb
    · exact valid.sized block (by simp [hb])

/-- What a neighbour must be for a free block to stand beside it. -/
def Flanked (left right : List HeapBlock) : Prop :=
  (∀ block ∈ left.getLast?, block.used) ∧ (∀ block ∈ right.head?, block.used)

theorem TableValid.flanked (valid : TableValid (before ++ block :: after) committed)
    (free : block.used = false) : Flanked before after := by
  have chain := valid.coalesced
  rw [isChain_append] at chain
  obtain ⟨_, tail, seam⟩ := chain
  constructor
  · intro x hx
    simpa [free] using seam x hx block (by simp)
  · intro x hx
    have := (isChain_cons.mp tail).1 x hx
    simpa [free] using this

/-- `whole` is the free block that a run of blocks collapses into. -/
def Collapses (run : List HeapBlock) (whole : HeapBlock) : Prop :=
  whole.used = false ∧ whole.size = (run.map HeapBlock.size).sum ∧
    ∃ first ∈ run.head?, whole.offset = first.offset

theorem TableValid.merge {left run right : List HeapBlock} {whole : HeapBlock}
    (valid : TableValid (left ++ run ++ right) committed) (collapses : Collapses run whole)
    (flanked : Flanked left right) : TableValid (left ++ [whole] ++ right) committed := by
  obtain ⟨free, size, first, head, offset⟩ := collapses
  obtain ⟨rest, rfl⟩ : ∃ rest, run = first :: rest := by
    cases run with
    | nil => simp at head
    | cons x xs => simp only [head?_cons, Option.mem_some_iff] at head; exact ⟨xs, by rw [head]⟩
  have sizes : ∀ b ∈ first :: rest, 0 < b.size ∧ b.size % heapAlignment = 0 := fun b hb =>
    valid.sized b (by simp only [mem_append]; exact .inl (.inr hb))
  apply valid.replace
  · have := valid.bounded
    simp only [length_append, length_cons, length_nil] at this ⊢
    omega
  · intro start stop tiles
    have total := tiles_stop _ _ _ tiles
    exact ⟨offset.trans tiles.1, by rw [Tiles, size]; exact total.symm⟩
  · intro b hb
    obtain rfl := mem_singleton.mp hb
    have positive := (sizes first mem_cons_self).1
    rw [size]
    constructor
    · simp only [map_cons, sum_cons]
      omega
    · apply Nat.mod_eq_zero_of_dvd
      apply dvd_sum
      intro n hn
      obtain ⟨b, hb, rfl⟩ := mem_map.mp hn
      exact Nat.dvd_of_mod_eq_zero (sizes b hb).2
  · have chain := valid.coalesced
    simp only [append_assoc, isChain_append] at chain ⊢
    refine ⟨chain.1, ⟨isChain_singleton _, chain.2.1.2.1, ?_⟩, ?_⟩
    · intro x hx y hy
      exact .inr (flanked.2 y hy)
    · intro x hx y hy
      exact .inl (flanked.1 x hx)

def Gains (table table' : List HeapBlock) (piece : HeapBlock) : Prop :=
  ∀ block, (block ∈ table' ∧ block.used) ↔
    (block ∈ table ∧ block.used) ∨ block = piece

theorem gains_middle {piece : HeapBlock} (tail : List HeapBlock) (free : block.used = false)
    (used : piece.used) (rest : ∀ b ∈ tail, b.used = false) :
    Gains (before ++ block :: after) (before ++ piece :: (tail ++ after)) piece := by
  intro b
  simp only [mem_append, mem_cons]
  constructor
  · rintro ⟨hb | rfl | hb | hb, taken⟩
    · exact .inl ⟨.inl hb, taken⟩
    · exact .inr rfl
    · rw [rest b hb] at taken; cases taken
    · exact .inl ⟨.inr (.inr hb), taken⟩
  · rintro (⟨hb | rfl | hb, taken⟩ | rfl)
    · exact ⟨.inl hb, taken⟩
    · rw [free] at taken; cases taken
    · exact ⟨.inr (.inr (.inr hb)), taken⟩
    · exact ⟨.inr (.inl rfl), used⟩

/-- A free block occupied by `piece`, with whatever `tail` is left of it. The
neighbours of a free block are used, so only the run itself must be coalesced. -/
theorem TableValid.occupy (valid : TableValid (before ++ block :: after) committed)
    (free : block.used = false) (piece : HeapBlock) (tail : List HeapBlock)
    (short : (before ++ piece :: (tail ++ after)).length ≤ heapMaxBlocks)
    (same : Tiles HeapBlock.offset HeapBlock.size block.offset (piece :: tail)
      (block.offset + block.size))
    (sized : ∀ b ∈ piece :: tail, 0 < b.size ∧ b.size % heapAlignment = 0)
    (inner : (piece :: tail).IsChain fun left right => left.used ∨ right.used) :
    TableValid (before ++ piece :: (tail ++ after)) committed := by
  have flanked := valid.flanked free
  have valid' : TableValid (before ++ [block] ++ after) committed := by simpa using valid
  have chain := valid'.coalesced
  simp only [append_assoc, isChain_append] at chain
  have replaced := valid'.replace (piece :: tail) (by simpa using short)
    (by intro start stop tiles
        obtain ⟨rfl, rfl⟩ := tiles
        exact same)
    sized
    (by simp only [append_assoc, isChain_append]
        refine ⟨chain.1, ⟨inner, chain.2.1.2.1, ?_⟩, ?_⟩
        · intro x _ y hy
          exact .inr (flanked.2 y hy)
        · intro x hx y _
          exact .inl (flanked.1 x hx))
  simpa using replaced

theorem splitBlock_spec {table' : List HeapBlock} {size : Nat}
    (valid : TableValid (before ++ block :: after) committed) (free : block.used = false)
    (positive : 0 < size) (whole : size % heapAlignment = 0) (fits : size ≤ block.size)
    (split : splitBlock (before ++ block :: after) before.length size = (true, table')) :
    TableValid table' committed ∧
      ∃ piece, table'.getD before.length default = piece ∧ piece.used ∧
        piece.offset = block.offset ∧ size ≤ piece.size ∧
        Gains (before ++ block :: after) table' piece := by
  rw [splitBlock_middle] at split
  have own := valid.sized block (by simp)
  have bounded := valid.bounded
  split at split
  · rename_i large
    split at split
    · simp at split
    · rename_i room
      simp only [Prod.mk.injEq, true_and] at split
      subst split
      refine ⟨?_, _, getD_middle before _ _, rfl, rfl, le_rfl,
        gains_middle [⟨block.offset + size, block.size - size, false⟩] free rfl (by simp)⟩
      apply valid.occupy free _ [⟨block.offset + size, block.size - size, false⟩]
      · simp only [length_append, length_cons, length_nil] at bounded room ⊢
        omega
      · simp only [Tiles, true_and]
        omega
      · intro b hb
        simp only [mem_cons, not_mem_nil, or_false] at hb
        simp only [heapAlignment] at *
        obtain rfl | rfl := hb
        · exact ⟨positive, whole⟩
        · exact ⟨by simp only; omega, by simp only; omega⟩
      · simp
  · simp only [Prod.mk.injEq, true_and] at split
    subst split
    refine ⟨?_, _, getD_middle before _ _, rfl, rfl, fits,
      gains_middle [] free rfl (by simp)⟩
    apply valid.occupy free _ []
    · simpa using bounded
    · simp [Tiles]
    · simpa using own
    · simp

theorem mergeForward_shape (before after : List HeapBlock) (block : HeapBlock)
    (chain : after.IsChain fun left right => left.used ∨ right.used) :
    ∃ post right, after = post ++ right ∧ (∀ b ∈ post, b.used = false) ∧
      (∀ b ∈ right.head?, b.used) ∧
      mergeForward (before ++ block :: after) before.length =
        before ++ { block with size := block.size + (post.map HeapBlock.size).sum } :: right := by
  rw [mergeForward_middle]
  cases after with
  | nil => exact ⟨[], [], by simp⟩
  | cons next rest =>
    cases free : next.used with
    | true => exact ⟨[], next :: rest, by simp [free]⟩
    | false =>
      refine ⟨[next], rest, rfl, by simp [free], ?_, by simp [free]⟩
      intro b hb
      simpa [free] using (isChain_cons.mp chain).1 b hb

theorem mergeBackward_shape (before after : List HeapBlock) (block : HeapBlock)
    (free : block.used = false)
    (chain : before.IsChain fun left right => left.used ∨ right.used) :
    ∃ left pre whole, before = left ++ pre ∧ (∀ b ∈ pre, b.used = false) ∧
      (∀ b ∈ left.getLast?, b.used) ∧ Collapses (pre ++ [block]) whole ∧
      mergeBackward (before ++ block :: after) before.length = left ++ whole :: after := by
  obtain rfl | ⟨left, previous, rfl⟩ := eq_nil_or_concat before
  · exact ⟨[], [], block, by simp [mergeBackward_first, Collapses, free]⟩
  · have shape := mergeBackward_middle left after previous block
    have length : (left.concat previous).length = left.length + 1 := by simp
    rw [length]
    simp only [concat_eq_append, append_assoc, cons_append, nil_append]
      at chain shape ⊢
    rw [shape]
    cases vacant : previous.used with
    | true => exact ⟨left ++ [previous], [], block, by simp [vacant, Collapses, free]⟩
    | false =>
      refine ⟨left, [previous], { previous with size := previous.size + block.size },
        rfl, by simp [vacant], ?_, by simp [Collapses, vacant], by simp [vacant]⟩
      intro b hb
      have seam := (isChain_append.mp chain).2.2 b hb previous (by simp)
      simpa [vacant] using seam

/-- Freeing `block`: whatever merging happens, the table stays valid and the
used blocks are the old ones without it. -/
theorem mergeFreeNeighbours_spec (valid : TableValid (before ++ block :: after) committed)
    (used : block.used) :
    let table' := mergeFreeNeighbours (before ++ { block with used := false } :: after)
      before.length
    TableValid table' committed ∧
      Gains table' (before ++ block :: after) block ∧
      ∀ b ∈ table', b.used → b ≠ block := by
  have chain := isChain_append.mp valid.coalesced
  obtain ⟨post, right, rfl, postFree, rightUsed, forward⟩ :=
    mergeForward_shape before after { block with used := false } (isChain_cons.mp chain.2.1).2
  obtain ⟨left, pre, whole, rfl, preFree, leftUsed, collapses, backward⟩ :=
    mergeBackward_shape before right
      { block with size := block.size + (post.map HeapBlock.size).sum, used := false } rfl chain.1
  have result : mergeFreeNeighbours (left ++ pre ++ { block with used := false } :: (post ++ right))
      (left ++ pre).length = left ++ [whole] ++ right := by
    rw [mergeFreeNeighbours, forward, backward]
    simp
  have joined : Collapses (pre ++ block :: post) whole := by
    obtain ⟨free, size, first, head, offset⟩ := collapses
    refine ⟨free, ?_, ?_⟩
    · simp only [map_append, sum_append, map_cons, sum_cons, map_nil,
        sum_nil] at size ⊢
      omega
    · cases pre with
      | nil =>
        simp only [nil_append, head?_cons, Option.mem_some_iff] at head ⊢
        subst head
        exact ⟨block, rfl, offset⟩
      | cons p ps => exact ⟨first, head, offset⟩
  have valid' : TableValid (left ++ (pre ++ block :: post) ++ right) committed := by
    simpa using valid
  have distinct : ∀ b, b ∈ left ∨ b ∈ right → b ≠ block := by
    intro b hb same
    have ordered := tiles_pairwise _ _ _ valid'.tiles
    have positive := (valid'.sized block (by simp)).1
    simp only [append_assoc, pairwise_append, pairwise_cons, mem_append,
      mem_cons, cons_append] at ordered
    obtain hb | hb := hb
    · have := ordered.2.2 b hb block (by simp)
      rw [same] at this
      omega
    · have := ordered.2.1.2.1.1 b (.inr hb)
      rw [same] at this
      omega
  simp only [result]
  refine ⟨valid'.merge joined ⟨leftUsed, rightUsed⟩, ?_, ?_⟩
  · intro b
    simp only [mem_append, mem_cons, not_mem_nil, or_false]
    constructor
    · rintro ⟨(hb | hb) | rfl | hb | hb, taken⟩
      · exact .inl ⟨.inl (.inl hb), taken⟩
      · rw [preFree b hb] at taken; cases taken
      · exact .inr rfl
      · rw [postFree b hb] at taken; cases taken
      · exact .inl ⟨.inr hb, taken⟩
    · rintro (⟨(hb | rfl) | hb, taken⟩ | rfl)
      · exact ⟨.inl (.inl hb), taken⟩
      · rw [joined.1] at taken; cases taken
      · exact ⟨.inr (.inr (.inr hb)), taken⟩
      · exact ⟨.inr (.inl rfl), used⟩
  · intro b hb taken
    simp only [mem_append, mem_cons, not_mem_nil, or_false] at hb
    obtain (hb | rfl) | hb := hb
    · exact distinct b (.inl hb)
    · rw [joined.1] at taken; cases taken
    · exact distinct b (.inr hb)

end Sapote.Heap
