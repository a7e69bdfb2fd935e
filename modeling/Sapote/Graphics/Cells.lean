import Sapote.Graphics.Console

/-!
What the loops over the cell store leave in it: a store is indexed by column and row, and as
long as the columns are inside it no two cells share an index.
-/

namespace Sapote.Graphics
open List

open Library
variable {cells : Nat → UInt8} {p : Nat × Nat}
  {firstRow copiedRows copiedColumns columns rows : Nat}

theorem cells_assign : Assigns cellAt setCell (fun p => p.1 < screenMaxColumns) where
  same _ _ _ _ := if_pos rfl
  other _ p _ q first second other := by
    refine if_neg fun same => other (Prod.ext ?_ ?_) <;> rw [screenMaxColumns] at * <;> omega

theorem cellAt_blankCells {rows columns : List Nat} (narrow : ∀ x ∈ columns, x < screenMaxColumns)
    (column : p.1 < screenMaxColumns) :
    cellAt (blankCells rows columns cells) p =
      if p.1 ∈ columns ∧ p.2 ∈ rows then blank else cellAt cells p := by
  rw [blankCells, overGrid_eq_foldl]
  simp only [← mem_grid]
  have inside : ∀ q ∈ grid rows columns, q.1 < screenMaxColumns :=
    fun q member => narrow _ (mem_grid.mp member).1
  generalize grid rows columns = steps at inside
  induction steps generalizing cells with
  | nil => rfl
  | cons q steps ih =>
    have here := inside q (.head _)
    rw [foldl_cons, ih fun q' later => inside q' (.tail _ later)]
    by_cases same : p = q
    · rw [same, cells_assign.same _ _ _ here]
      simp
    · rw [cells_assign.other _ _ _ _ here column same]
      simp [same]

theorem cellAt_scrollCells (narrow : columns ≤ screenMaxColumns) (column : p.1 < columns)
    (row : p.2 < rows) :
    cellAt (scrollCells columns rows cells) p =
      if p.2 = rows - 1 then blank else cellAt cells (p.1, p.2 + 1) := by
  have inside : p.1 < screenMaxColumns := column.trans_le narrow
  rw [scrollCells, cellAt_blankCells (fun x member => (mem_range.mp member).trans_le narrow) inside]
  simp only [mem_range, mem_singleton]
  split
  · next last => rw [if_pos last.2]
  next earlier =>
  have above : p.2 ≠ rows - 1 := fun last => earlier ⟨column, last⟩
  rw [if_neg above, overGrid_eq_foldl]
  have member : ∀ q, q ∈ grid (.range' 1 (rows - 1)) (.range columns) ↔
      q.1 < columns ∧ 1 ≤ q.2 ∧ q.2 < 1 + (rows - 1) := by
    intro q
    rw [mem_grid, mem_range, mem_range'_1]
  have fresh : (grid (.range' 1 (rows - 1)) (.range columns)).Pairwise fun p q : Nat × Nat =>
      (q.1, q.2 - 1) ≠ (p.1, p.2 - 1) ∧
        ∀ cells v, cellAt (setCell cells (p.1, p.2 - 1) v) q = cellAt cells q := by
    refine (pairwise_grid pairwise_lt_range' pairwise_lt_range).imp_of_mem
      fun {p q} first second before => ?_
    rw [member] at first second
    refine ⟨fun same => ?_, fun cells v => cells_assign.other _ _ _ _ ?_ ?_ fun same => ?_⟩
    · rw [Prod.mk.injEq] at same
      omega
    · exact first.1.trans_le narrow
    · exact second.1.trans_le narrow
    · rw [same] at second before
      omega
  have written := (@Assigns.assignAll _ _ _ _ cellAt setCell _ cells_assign (fun p => (p.1, p.2 - 1))
    cellAt _ (fun q within => ((member q).mp within).1.trans_le narrow) fresh cells).1 (p.1, p.2 + 1)
    ((member _).mpr (by simp only; omega))
  exact written

/-- The loops of a reflow as one pair of loops. -/
theorem reflow_loops (some : copiedColumns ≤ columns) :
    (List.range copiedRows).foldl (fun cells row =>
      (List.range' copiedColumns (columns - copiedColumns)).foldl (fun cells column =>
        setCell cells (column, row) blank)
        ((List.range copiedColumns).foldl (fun cells column =>
          setCell cells (column, row) (cellAt cells (column, firstRow + row))) cells)) cells =
      overGrid (List.range copiedRows) (List.range columns) (fun cells column row =>
        setCell cells (column, row)
          (if column < copiedColumns then cellAt cells (column, firstRow + row) else blank)) cells := by
  refine foldl_ext _ _ _ fun cells row _ => ?_
  have parts : List.range columns =
      List.range copiedColumns ++ List.range' copiedColumns (columns - copiedColumns) := by
    have joined := @List.range'_append_1 0 copiedColumns (columns - copiedColumns)
    rw [zero_add, Nat.add_sub_cancel' some] at joined
    simp only [range_eq_range', joined]
  rw [parts, foldl_append]
  have kept : (List.range copiedColumns).foldl (fun cells column =>
      setCell cells (column, row) (cellAt cells (column, firstRow + row))) cells =
      (List.range copiedColumns).foldl (fun cells column => setCell cells (column, row)
        (if column < copiedColumns then cellAt cells (column, firstRow + row) else blank)) cells := by
    refine foldl_ext _ _ _ fun cells column earlier => ?_
    rw [if_pos (mem_range.mp earlier)]
  rw [kept]
  refine foldl_ext _ _ _ fun cells column later => ?_
  rw [mem_range'_1] at later
  dsimp only
  rw [if_neg (by omega)]

theorem cellAt_reflowCells (some : copiedColumns ≤ columns) (narrow : columns ≤ screenMaxColumns)
    (column : p.1 < columns) (row : p.2 < rows) :
    cellAt (reflowCells firstRow copiedRows copiedColumns columns rows cells) p =
      if p.2 < copiedRows ∧ p.1 < copiedColumns then cellAt cells (p.1, firstRow + p.2) else blank := by
  have inside : p.1 < screenMaxColumns := column.trans_le narrow
  have few : ∀ x ∈ List.range columns, x < screenMaxColumns :=
    fun x member => (mem_range.mp member).trans_le narrow
  rw [reflowCells, cellAt_blankCells few inside]
  simp only [mem_range, mem_range'_1]
  split
  · next below => rw [if_neg (by omega)]
  rw [reflow_loops some, overGrid_eq_foldl]
  have fresh : (grid (.range copiedRows) (.range columns)).Pairwise fun p q : Nat × Nat =>
      q ≠ p ∧ ∀ cells v,
        (if q.1 < copiedColumns then cellAt (setCell cells p v) (q.1, firstRow + q.2) else blank) =
          if q.1 < copiedColumns then cellAt cells (q.1, firstRow + q.2) else blank := by
    refine (pairwise_grid pairwise_lt_range pairwise_lt_range).imp_of_mem
      fun {p q} first second before => ⟨?_, fun cells v => ?_⟩
    · rintro rfl
      omega
    · rw [mem_grid] at first second
      have apart : (q.1, firstRow + q.2) ≠ p := by
        rintro rfl
        omega
      have other : cellAt (setCell cells p v) (q.1, firstRow + q.2) = cellAt cells (q.1, firstRow + q.2) :=
        cells_assign.other _ _ _ _ (few _ first.1) (few _ second.1) apart
      rw [other]
  have written := (@Assigns.assignAll _ _ _ _ cellAt setCell _ cells_assign id
    (fun cells q => if q.1 < copiedColumns then cellAt cells (q.1, firstRow + q.2) else blank) _
    (fun q within => few _ (mem_grid.mp within).1) fresh cells).1 p
    (mem_grid.mpr ⟨mem_range.mpr column, mem_range.mpr (by omega)⟩)
  refine .trans written ?_
  have above : p.2 < copiedRows := by omega
  simp only [above, true_and]

end Sapote.Graphics
