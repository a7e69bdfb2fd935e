import Sapote.Graphics.Drawing

/-!
A console whose picture is right stays so while it is written to. Cells and picture are cleared
and scrolled alike, and a character is drawn where it is stored.
-/

namespace Sapote.Graphics
open List Nat

open Library
variable {s s' : Console} {pictured : Prop} {column row : Nat} {p : Nat × Nat}

/-- `pictured` says whether the console alone draws in its viewport. -/
structure Sound (pictured : Prop) (s : Console) : Prop where
  fitted : Fitted s
  row : s.state.row < s.state.rows
  column : s.state.column ≤ s.state.columns
  below : ∀ p : Nat × Nat, p.1 < s.state.columns → s.state.row < p.2 → p.2 < s.state.rows →
    cellAt s.cells p = blank
  shown : pictured → s.state.visible → Shown s

theorem Fitted.withCells (fitted : Fitted s) (cells : Nat → UInt8) : Fitted (s.withCells cells) :=
  { fitted with }

theorem Fitted.moveTo (fitted : Fitted s) (column row : Nat) : Fitted (s.moveTo column row) :=
  { fitted with }

theorem Sound.moveTo (sound : Sound pictured s) (low : row < s.state.rows) (high : s.state.row ≤ row)
    (left : column ≤ s.state.columns) : Sound pictured (s.moveTo column row) :=
  ⟨sound.fitted.moveTo column row, low, left,
    fun p across after down => sound.below p across (high.trans_lt after) down, sound.shown⟩

theorem Sound.countScroll (sound : Sound pictured s) : Sound pictured s.countScroll :=
  { sound with fitted := { sound.fitted with } }

theorem Sound.countCharacter (sound : Sound pictured s) : Sound pictured s.countCharacter :=
  { sound with fitted := { sound.fitted with } }

/-- What the cells give to a sound console. -/
def Settled (s : Console) : Prop :=
  s.state.row < s.state.rows ∧ s.state.column ≤ s.state.columns ∧
    ∀ p : Nat × Nat, p.1 < s.state.columns → s.state.row < p.2 → p.2 < s.state.rows →
      cellAt s.cells p = blank

/-- A repainted console is sound where its cells are, and its picture if it has one. -/
theorem Sound.of_repainted (repainted : Repainted s s') (settled : Settled s)
    (shown : pictured → s.state.visible → Shown s') : Sound pictured s' := by
  have fitted := repainted.fitted
  obtain ⟨_, _, rfl⟩ := repainted.rest
  exact ⟨fitted, settled.1, settled.2.1, settled.2.2, shown⟩

/-- A call that is accepted, and the text of the sound console it leaves. -/
def Accepts (pictured : Prop) (result : ScreenStatus × Console) (text : ConsoleText) : Prop :=
  ∃ s', result = (.ok, s') ∧ Sound pictured s' ∧ s'.text = text

theorem Accepts.sound {result : ScreenStatus × Console} {text : ConsoleText}
    (accepts : Accepts pictured result text) : Sound pictured result.2 := by
  obtain ⟨s', rfl, sound, -⟩ := accepts
  exact sound

section
variable (fitted : Fitted s)
include fitted

/-- A console whose whole viewport is redrawn needs no picture before. -/
theorem redrawn_accepts (settled : Settled s) :
    Accepts pictured (if s.state.visible then screenRedrawRegion s s.state.viewport else (.ok, s)) s.text := by
  split
  · next visible =>
      obtain ⟨s', call, repainted, shown⟩ := screenRedrawRegion_eq fitted visible fitted.viewport
      refine ⟨s', call, .of_repainted repainted settled fun _ _ => shown ?_, repainted.text⟩
      exact fun p held outside => absurd held outside
  · next hidden =>
      exact ⟨s, rfl, .of_repainted (.refl fitted) settled fun _ visible => absurd visible hidden, rfl⟩

theorem clearPicture_eq :
    Paints s (clearPicture s) fun s' => s.state.visible →
      ∀ p, s.state.viewport.Has p → s'.backBuffer.pixel p = s.backgroundPixel := by
  rw [clearPicture]
  split
  · refine (fill_eq fitted fitted.viewport s.backgroundPixel).andThen fun s1 repainted1 pixels1 => ?_
    obtain ⟨s2, present, repainted2, pixels2⟩ := presentUnlessDeferred_eq repainted1.fitted
    refine ⟨s2, present, repainted2, fun _ p held => ?_⟩
    rw [pixels2, pixels1 p (held.2.1.trans_le fitted.viewport.right), if_pos held]
  · next hidden => exact ⟨s, rfl, .refl fitted, fun visible => absurd visible hidden⟩

/-- Clearing leaves blank cells and a picture of background. -/
theorem screenClear_accepts :
    Accepts pictured (screenClear s) ⟨blankCells (List.range s.state.rows) (List.range s.state.columns) s.cells,
      s.state.columns, s.state.rows, 0, 0⟩ := by
  have blanked : ∀ p : Nat × Nat, p.1 < s.state.columns → p.2 < s.state.rows →
      cellAt (blankCells (.range s.state.rows) (.range s.state.columns) s.cells) p = blank := by
    intro p across down
    rw [cellAt_blankCells (fun x member => (mem_range.mp member).trans_le fitted.few.1)
      (across.trans_le fitted.few.1)]
    exact if_pos ⟨mem_range.mpr across, mem_range.mpr down⟩
  obtain ⟨s', call, repainted, cleared⟩ := clearPicture_eq (fitted.withCells
    (blankCells (.range s.state.rows) (.range s.state.columns) s.cells))
  refine ⟨s'.moveTo 0 0, ?_, ?_,
    congrArg (fun t : ConsoleText => { t with column := 0, row := 0 }) repainted.text⟩
  · rw [screenClear, if_neg fitted.running, call, andThen_ok]
  have state := repainted.state
  have fitted' := repainted.fitted.moveTo 0 0
  refine ⟨fitted', fitted'.some.2, zero_le _, ?_, fun _ visible p held => ?_⟩
  · obtain ⟨_, _, rfl⟩ := repainted.rest
    exact fun p across _ down => blanked p across down
  · have shown : Right s' p := by
      rw [Right, repainted.rendering, rendering_blank fun across down => blanked _ across down]
      exact cleared (state ▸ visible) p (state ▸ held)
    exact shown

/-- The copy of a scroll, which has nothing to move in a viewport of one line. -/
theorem scrollCopy_eq {view : Rect} (same : view = s.state.viewport) :
    Paints s (s.draw fun surface => surfaceCopyRect surface
      ⟨view.x, view.y + 16, view.width, view.height - 16⟩ view.x view.y) fun s1 =>
      ∀ p : Nat × Nat, view.Has p → p.2 + 16 < view.y + view.height →
        s1.backBuffer.pixel p = s.backBuffer.pixel (p.1, p.2 + 16) := by
  have bound := fitted.bound
  obtain ⟨size, right, bottom⟩ := same ▸ fitted.viewport
  by_cases single : view.height ≤ 16
  · have empty := @surfaceCopyRect_empty s.backBuffer bound
      ⟨view.x, view.y + 16, view.width, view.height - 16⟩ (by simp only; omega) view.x view.y
    refine ⟨s, ?_, .refl fitted, fun p held moved => ?_⟩
    · rw [Console.draw, empty]
      rfl
    · have := held.2.2.1
      omega
  have placed : ∀ top ≤ 16, Rect.Inside ⟨view.x, view.y + top, view.width, view.height - 16⟩
      s.backBuffer.width s.backBuffer.height :=
    fun top low => ⟨by simp only; omega, right, by simp only; omega⟩
  have source := placed 16 (le_refl _)
  have destination : Rect.Inside ⟨view.x, view.y, view.width, view.height - 16⟩ _ _ :=
    placed 0 (zero_le _)
  obtain ⟨s1, call, repainted, pixels⟩ := @draw_eq s fitted
    (surfaceCopyRect · ⟨view.x, view.y + 16, view.width, view.height - 16⟩ view.x view.y) _ _
    (surfaceCopyRect_inside bound (clipRectangle_inside bound source) source ⟨rfl, rfl⟩
      (clipRectangle_inside bound destination) destination ⟨rfl, rfl⟩)
  refine ⟨s1, call, repainted, fun p held moved => ?_⟩
  obtain ⟨left, across, top, down⟩ := held
  rw [pixels p (across.trans_le right), if_pos ⟨left, by simpa using across, top, by simp only; omega⟩]
  refine congrArg _ (Prod.ext ?_ ?_) <;> simp only <;> omega

/-- Where the picture comes from when it moves up. -/
theorem scrollPicture_eq :
    Paints s (scrollPicture s) fun s' => s.state.visible → ∀ p, s.state.viewport.Has p →
      s'.backBuffer.pixel p =
        if p.2 + 16 < s.state.viewport.y + s.state.viewport.height then
          s.backBuffer.pixel (p.1, p.2 + 16)
        else s.backgroundPixel := by
  have tall := fitted.bound.tall
  have some := fitted.some.2
  rw [fitted.rows] at some
  obtain ⟨size, right, bottom⟩ := fitted.viewport
  rw [scrollPicture]
  split
  · next hidden =>
      refine ⟨s, rfl, .refl fitted, fun visible => ?_⟩
      rw [visible] at hidden
      cases hidden
  dsimp only
  rw [fitted.cell.2, add32_eq (show s.state.viewport.y + 16 ≤ s.backBuffer.height by omega) tall,
    sub32_eq (show 16 ≤ s.state.viewport.height by omega) (by omega), add32_eq bottom tall,
    sub32_eq (show 16 ≤ s.state.viewport.y + s.state.viewport.height by omega) (by omega)]
  refine (scrollCopy_eq fitted rfl).andThen fun s1 repainted1 pixels1 => ?_
  have exposed : Rect.Inside ⟨s.state.viewport.x, s.state.viewport.y + s.state.viewport.height - 16,
      s.state.viewport.width, 16⟩ s1.backBuffer.width s1.backBuffer.height := by
    rw [repainted1.size.1, repainted1.size.2]
    exact ⟨by simp only; omega, right, by simp only; omega⟩
  refine (fill_eq repainted1.fitted exposed s1.backgroundPixel).andThen fun s2 repainted2 pixels2 => ?_
  obtain ⟨s3, present, repainted3, pixels3⟩ := presentUnlessDeferred_eq repainted2.fitted
  have background : s1.backgroundPixel = s.backgroundPixel := by
    obtain ⟨_, _, rfl⟩ := repainted1.rest
    rfl
  refine ⟨s3, present, repainted3, fun _ p held => ?_⟩
  have column : p.1 < s1.backBuffer.width := by
    rw [repainted1.size.1]
    exact held.2.1.trans_le right
  rw [pixels3, pixels2 p column]
  obtain ⟨left, across, top, down⟩ := held
  by_cases moved : p.2 + 16 < s.state.viewport.y + s.state.viewport.height
  · rw [if_pos moved, if_neg fun h => by have := h.2.2.1; simp only at this; omega,
      pixels1 p ⟨left, across, top, down⟩ moved]
  · rw [if_neg moved, if_pos ⟨left, across, by simp only; omega, by simp only; omega⟩, background]

/-- What scrolled cells call for: the picture of the old ones, a line lower. -/
theorem rendering_scrolled (held : s.state.viewport.Has p) :
    rendering (s.withCells (scrollCells s.state.columns s.state.rows s.cells)) p =
      if p.2 + 16 < s.state.viewport.y + s.state.viewport.height then rendering s (p.1, p.2 + 16)
      else s.backgroundPixel := by
  have rows := fitted.rows
  obtain ⟨left, across, top, down⟩ := held
  have cells : ∀ q : Nat × Nat, q.1 < s.state.columns → q.2 < s.state.rows →
      cellAt (s.withCells (scrollCells s.state.columns s.state.rows s.cells)).cells q =
        if q.2 = s.state.rows - 1 then blank else cellAt s.cells (q.1, q.2 + 1) :=
    fun q across down => cellAt_scrollCells fitted.few.1 across down
  have state : (s.withCells (scrollCells s.state.columns s.state.rows s.cells)).state = s.state := rfl
  have y : (p.2 + 16 - s.state.viewport.y) / 16 = (p.2 - s.state.viewport.y) / 16 + 1 := by omega
  have y' : (p.2 + 16 - s.state.viewport.y) % 16 = (p.2 - s.state.viewport.y) % 16 := by omega
  by_cases inner : (p.1 - s.state.viewport.x) / 8 < s.state.columns ∧
      (p.2 - s.state.viewport.y) / 16 + 1 < s.state.rows
  · rw [if_pos (by omega), rendering, rendering, state]
    rw [y, y', if_pos ⟨inner.1, by omega⟩, if_pos inner, cells _ inner.1 (by simp only; omega),
      if_neg (by simp only; omega)]
    rfl
  have outer : rendering s (p.1, p.2 + 16) = s.backgroundPixel := by
    refine rendering_blank fun across down => absurd ⟨across, ?_⟩ inner
    simp only [y] at down
    exact down
  rw [outer, ite_self]
  refine rendering_blank fun across down => ?_
  rw [state] at across down
  rw [state, cells _ across down, if_pos (by simp only; omega)]

end

/-- The cells and the picture scroll alike. -/
theorem scrollOneLine_accepts (sound : Sound pictured s) (last : s.state.row + 1 = s.state.rows) :
    Accepts pictured (scrollOneLine s)
      { s.text with cells := scrollCells s.state.columns s.state.rows s.cells } := by
  have fitted := sound.fitted
  obtain ⟨s1, call, repainted, pixels⟩ :=
    scrollPicture_eq (fitted.withCells (scrollCells s.state.columns s.state.rows s.cells))
  refine ⟨s1.countScroll, by rw [scrollOneLine, call, andThen_ok], ?_, repainted.text⟩
  refine .countScroll (.of_repainted repainted ⟨sound.row, sound.column, ?_⟩ ?_)
  · intro p _ after down
    exact absurd after (by have : p.2 < s.state.rows := down; change ¬(s.state.row < p.2); omega)
  · intro alone visible p held
    rw [repainted.state] at held
    rw [Right, repainted.rendering, pixels visible p held, rendering_scrolled fitted held]
    by_cases moved : p.2 + 16 < s.state.viewport.y + s.state.viewport.height
    · refine (if_pos moved).trans (Eq.trans ?_ (if_pos moved).symm)
      exact sound.shown alone visible (p.1, p.2 + 16) ⟨held.1, held.2.1, held.2.2.1.trans (le_add_right _ _),
        moved⟩
    · exact (if_neg moved).trans (if_neg moved).symm

theorem newline_accepts (sound : Sound pictured s) : Accepts pictured (newline s) s.text.newline := by
  have row := sound.row
  have few := sound.fitted.few.2
  have next : add32 s.state.row 1 = s.state.row + 1 :=
    mod_eq_of_lt (by rw [screenMaxRows] at few; omega)
  rw [newline, next]
  by_cases low : s.state.row + 1 < s.state.rows
  · rw [if_pos low]
    exact ⟨_, rfl, sound.moveTo low (le_succ _) (zero_le _), (if_pos low).symm⟩
  · have moved : Sound pictured (s.moveTo 0 s.state.row) := sound.moveTo row (le_refl _) (zero_le _)
    obtain ⟨s', call, sound', text⟩ := scrollOneLine_accepts moved
      (show s.state.row + 1 = s.state.rows by omega)
    rw [if_neg low]
    exact ⟨s', call, sound', text.trans (if_neg low).symm⟩

/-- What one other cell calls for: its own area changes. -/
theorem rendering_setCell (fitted : Fitted s) (across : column < s.state.columns)
    (down : row < s.state.rows) (character : UInt8) (held : s.state.viewport.Has p) :
    rendering (s.withCells (setCell s.cells (column, row) character)) p =
      if (cellArea s column row).Has p then
        s.colour (lit (glyphRows (codeOf character)) (p.1 - (cellArea s column row).x)
          (p.2 - (cellArea s column row).y))
      else rendering s p := by
  have narrow := fitted.few.1
  split
  · next inside =>
      have cell := @rendering_cell (s.withCells (setCell s.cells (column, row) character)) column row across
        down p inside
      have stored : cellAt (setCell s.cells (column, row) character) (column, row) = character :=
        cells_assign.same _ _ _ (across.trans_le narrow)
      refine cell.trans ?_
      rw [Console.withCells, stored]
      rfl
  next outside =>
  by_cases cell : (p.1 - s.state.viewport.x) / 8 < s.state.columns ∧
      (p.2 - s.state.viewport.y) / 16 < s.state.rows
  · have apart : ((p.1 - s.state.viewport.x) / 8, (p.2 - s.state.viewport.y) / 16) ≠ (column, row) := by
      intro same
      rw [Prod.mk.injEq] at same
      refine outside ?_
      rw [← same.1, ← same.2]
      exact cellArea_of_has held
    refine (if_pos cell).trans (.trans ?_ (if_pos cell).symm)
    have other : cellAt (setCell s.cells (column, row) character) _ = cellAt s.cells _ :=
      cells_assign.other _ _ _ _ (across.trans_le narrow) (cell.1.trans_le narrow) apart
    rw [Console.withCells, other]
    rfl
  · exact (if_neg cell).trans (if_neg cell).symm

section
variable (sound : Sound pictured s)
include sound

/-- A cell that is drawn where it is stored. -/
theorem drawCell_accepts (left : s.state.column < s.state.columns) (character : UInt8) :
    let written := s.withCells (setCell s.cells (s.state.column, s.state.row) character)
    Accepts pictured (drawCell written s.state.column s.state.row character) written.text := by
  dsimp only
  have fitted := sound.fitted
  have narrow := fitted.few.1
  have here : s.state.column < screenMaxColumns := left.trans_le narrow
  have fitted' := fitted.withCells (setCell s.cells (s.state.column, s.state.row) character)
  have settled : Settled (s.withCells (setCell s.cells (s.state.column, s.state.row) character)) := by
    refine ⟨sound.row, sound.column, fun p across after down => ?_⟩
    refine .trans ?_ (sound.below p across after down)
    exact cells_assign.other _ _ _ _ here (across.trans_le narrow) fun same =>
      absurd after (by rw [same]; exact lt_irrefl _)
  rw [drawCell]
  split
  · next hidden =>
      refine ⟨_, rfl, .of_repainted (.refl fitted') settled fun _ visible => ?_, rfl⟩
      rw [visible] at hidden
      cases hidden
  obtain ⟨s1, paint, repainted1, pixels1⟩ := paintCell_eq fitted' left sound.row character
  obtain ⟨s2, present, repainted2, pixels2⟩ := presentUnlessDeferred_eq repainted1.fitted
  have repainted := repainted1.trans repainted2
  refine ⟨s2, by rw [paint, andThen_ok, present], ?_, repainted.text⟩
  refine .of_repainted repainted settled fun alone visible p held => ?_
  rw [repainted.state] at held
  rw [Right, repainted.rendering, pixels2, pixels1 p (held.2.1.trans_le fitted.viewport.right),
    rendering_setCell fitted left sound.row character held]
  by_cases inside : (cellArea s s.state.column s.state.row).Has p
  · exact (if_pos inside).trans (if_pos inside).symm
  · refine (if_neg inside).trans (.trans ?_ (if_neg inside).symm)
    exact sound.shown alone visible p held

theorem putGlyph_accepts (left : s.state.column < s.state.columns)
    (character : UInt8) : Accepts pictured (putGlyph s character) (s.text.put character) := by
  obtain ⟨s1, call, sound1, text⟩ := drawCell_accepts sound left character
  have room : s1.state.column < s1.state.columns := by
    change s1.text.column < s1.text.columns
    rw [text]
    exact left
  refine ⟨_, by rw [putGlyph, call, andThen_ok],
    Sound.countCharacter (sound1.moveTo sound1.row (le_refl _) room), ?_⟩
  exact congrArg (fun t : ConsoleText => { t with column := t.column + 1 }) text

/-- A character changes the text as it does on a console without a picture. -/
theorem screenPutc_accepts (character : UInt8) :
    Accepts pictured (screenPutc s character) (s.text.putc character) := by
  have row := sound.row
  rw [screenPutc, if_neg sound.fitted.running, ConsoleText.putc]
  split
  · exact newline_accepts sound
  split
  · exact ⟨_, rfl, sound.moveTo row (le_refl _) (zero_le _), rfl⟩
  split
  · split
    · exact ⟨_, rfl, sound.moveTo row (le_refl _) ((sub_le _ _).trans sound.column), rfl⟩
    · refine ⟨s, rfl, sound, ?_⟩
      have first : s.state.column = 0 := by omega
      rw [Console.text, first]
      rfl
  by_cases full : s.state.columns ≤ s.state.column
  · obtain ⟨s', call, sound', text⟩ := newline_accepts sound
    have first : s'.text.column = 0 := by
      rw [text, ConsoleText.newline]
      split <;> rfl
    rw [if_pos full, call, andThen_ok]
    refine (putGlyph_accepts sound' (first.trans_lt sound'.fitted.some.1) character).imp ?_
    rintro s'' ⟨call', sound'', text'⟩
    exact ⟨call', sound'', text'.trans (text ▸ (if_pos full).symm)⟩
  · rw [if_neg full]
    refine (putGlyph_accepts sound (Nat.lt_of_not_le full) character).imp ?_
    rintro s' ⟨call, sound', text⟩
    exact ⟨call, sound', text.trans (if_neg full).symm⟩

end

end Sapote.Graphics
