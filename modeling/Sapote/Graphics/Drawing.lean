import Sapote.Graphics.Cells

/-!
The drawing calls of the console. Each of them touches the two pictures only; a redraw makes
every pixel of its region the one that the cells call for.
-/

namespace Sapote.Graphics
open List Nat

open Library
variable {width height column row : Nat} {p : Nat × Nat} {r left right : Rect}

/-- The console as text: the cells, and the cursor in their grid. -/
structure ConsoleText where
  cells : Nat → UInt8
  (columns rows column row : Nat)

def Console.text (s : Console) : ConsoleText :=
  ⟨s.cells, s.state.columns, s.state.rows, s.state.column, s.state.row⟩

namespace ConsoleText
open List
variable (t : ConsoleText)

def newline : ConsoleText :=
  if t.row + 1 < t.rows then { t with column := 0, row := t.row + 1 }
  else { t with column := 0, cells := scrollCells t.columns t.rows t.cells }

def put (character : UInt8) : ConsoleText :=
  { t with cells := setCell t.cells (t.column, t.row) character, column := t.column + 1 }

def putc (character : UInt8) : ConsoleText :=
  if character = 0x0A then t.newline
  else if character = 0x0D then { t with column := 0 }
  else if character = 0x08 then { t with column := t.column - 1 }
  else if t.columns ≤ t.column then t.newline.put character
  else t.put character

end ConsoleText

/-- The console as `screen_initialize` and the viewports leave it: the font is the one of the
table, and the grid is what fits into a viewport inside the back buffer. -/
structure Fitted (s : Console) : Prop where
  active : s.state.active
  bound : s.backBuffer.Bound
  matching : Matching s.backBuffer s.framebuffer
  font : s.fontFirst = 32 ∧ s.fontCount = 95
  cell : s.state.cellWidth = 8 ∧ s.state.cellHeight = 16
  viewport : s.state.viewport.Inside s.backBuffer.width s.backBuffer.height
  columns : s.state.columns = s.state.viewport.width / 8
  rows : s.state.rows = s.state.viewport.height / 16
  some : 0 < s.state.columns ∧ 0 < s.state.rows
  few : s.state.columns ≤ screenMaxColumns ∧ s.state.rows ≤ screenMaxRows

theorem Fitted.running {s : Console} (fitted : Fitted s) : ¬(!s.state.active) = true := by
  rw [fitted.active]
  nofun

/-- A step that touches nothing but the two pictures, and neither's geometry. -/
structure Repainted (s s' : Console) : Prop where
  fitted : Fitted s'
  size : s'.backBuffer.width = s.backBuffer.width ∧ s'.backBuffer.height = s.backBuffer.height
  rest : ∃ surface framebuffer, s' = { s with backBuffer := surface, framebuffer := framebuffer }

variable {s s' s'' : Console}

theorem Repainted.refl (fitted : Fitted s) : Repainted s s := ⟨fitted, ⟨rfl, rfl⟩, _, _, rfl⟩

theorem Repainted.trans (first : Repainted s s') (second : Repainted s' s'') : Repainted s s'' := by
  have size : s''.backBuffer.width = s.backBuffer.width ∧ s''.backBuffer.height = s.backBuffer.height :=
    ⟨second.size.1.trans first.size.1, second.size.2.trans first.size.2⟩
  obtain ⟨_, _, rfl⟩ := first.rest
  obtain ⟨_, _, rfl⟩ := second.rest
  exact ⟨second.fitted, size, _, _, rfl⟩

theorem Repainted.state (repainted : Repainted s s') : s'.state = s.state := by
  obtain ⟨_, _, rfl⟩ := repainted.rest
  rfl

theorem Repainted.text (repainted : Repainted s s') : s'.text = s.text := by
  obtain ⟨_, _, rfl⟩ := repainted.rest
  rfl

@[simp]
theorem andThen_ok (next : Console → ScreenStatus × Console) :
    ScreenStatus.andThen (.ok, s) next = next s := if_pos rfl

/-- A call that is accepted and repaints, and what holds of the console it leaves. -/
def Paints (s : Console) (result : ScreenStatus × Console) (Leaves : Console → Prop) : Prop :=
  ∃ s', result = (.ok, s') ∧ Repainted s s' ∧ Leaves s'

theorem Paints.andThen {result : ScreenStatus × Console} {First Leaves : Console → Prop}
    {next : Console → ScreenStatus × Console} (first : Paints s result First)
    (rest : ∀ s', Repainted s s' → First s' → Paints s' (next s') Leaves) :
    Paints s (ScreenStatus.andThen result next) Leaves := by
  obtain ⟨s', rfl, repainted, holds⟩ := first
  obtain ⟨s'', call, repainted', holds'⟩ := rest s' repainted holds
  exact ⟨s'', by rw [andThen_ok, call], repainted.trans repainted', holds'⟩

/-- The picture of the second console is the one of the first with a rectangle drawn over it. -/
def Overlays (s : Console) (r : Rect) (value : Nat × Nat → UInt32) (s' : Console) : Prop :=
  ∀ p : Nat × Nat, p.1 < s.backBuffer.width →
    s'.backBuffer.pixel p = if r.Has p then value p else s.backBuffer.pixel p

/-- A drawing call on the back buffer that is accepted. -/
theorem draw_eq (fitted : Fitted s) {call : Surface → SurfaceStatus × Surface} {r : Rect}
    {value : Nat × Nat → UInt32}
    (drawn : Draws s.backBuffer (call s.backBuffer) r value) :
    Paints s (s.draw call) (Overlays s r value) := by
  obtain ⟨ok, drawn⟩ := drawn
  obtain ⟨-, width, height, -⟩ := drawn.geometry
  refine ⟨{ s with backBuffer := (call s.backBuffer).2 }, ?_, ⟨?_, ⟨width, height⟩, _, _, rfl⟩, drawn.pixels⟩
  · rw [Console.draw]
    dsimp only
    rw [ok, if_pos rfl]
  · refine { fitted with
      bound := drawn.bound fitted.bound, matching := drawn.matching fitted.matching, viewport := ?_ }
    simp only [width, height]
    exact fitted.viewport

theorem fill_eq (fitted : Fitted s) (inside : r.Inside s.backBuffer.width s.backBuffer.height)
    (colour : UInt32) :
    Paints s (s.draw fun surface => surfaceFillRect surface r colour) (Overlays s r fun _ => colour) :=
  draw_eq fitted
    (surfaceFillRect_inside fitted.bound (clipRectangle_inside fitted.bound inside) inside)

theorem presentUnlessDeferred_eq (fitted : Fitted s) :
    Paints s s.presentUnlessDeferred fun s' =>
      ∀ p, s'.backBuffer.pixel p = s.backBuffer.pixel p := by
  have bound := fitted.bound
  have matching := fitted.matching
  rw [Console.presentUnlessDeferred]
  split
  · obtain ⟨-, call⟩ | ⟨-, _, _, _, call⟩ := surfacePresent_cases bound matching
    all_goals
      rw [call]
      exact ⟨_, rfl, ⟨{ fitted with bound := { bound with }, matching := { matching with } },
        ⟨rfl, rfl⟩, _, _, rfl⟩, fun _ => rfl⟩
  · exact ⟨s, rfl, .refl fitted, fun _ => rfl⟩

def codeOf (character : UInt8) : Nat :=
  if 32 ≤ character.toNat ∧ character.toNat < 127 then character.toNat else replacementCharacter

theorem codeOf_covered (character : UInt8) : 32 ≤ codeOf character ∧ codeOf character < 127 := by
  rw [codeOf]
  split
  · next covered => exact covered
  · decide

theorem code_eq (fitted : Fitted s) (character : UInt8) :
    (if fontCovers s character.toNat then character.toNat else replacementCharacter) = codeOf character := by
  rw [fontCovers, fitted.font.1, fitted.font.2, codeOf]
  simp only [Bool.and_eq_true, decide_eq_true_eq]

def Console.colour (s : Console) (on : Bool) : UInt32 := if on then s.foregroundPixel else s.backgroundPixel

def cellArea (s : Console) (column row : Nat) : Rect :=
  ⟨s.state.viewport.x + column * 8, s.state.viewport.y + row * 16, 8, 16⟩

section
variable (fitted : Fitted s)
include fitted

theorem cellArea_inside (across : column < s.state.columns) (down : row < s.state.rows) :
    (cellArea s column row).Inside s.backBuffer.width s.backBuffer.height := by
  obtain ⟨size, right, bottom⟩ := fitted.viewport
  rw [fitted.columns] at across
  rw [fitted.rows] at down
  refine ⟨⟨by simp only [cellArea]; omega, by simp only [cellArea]; omega⟩, ?_, ?_⟩ <;>
    simp only [cellArea] <;> omega

theorem cellOrigin_eq (across : column < s.state.columns) (down : row < s.state.rows) :
    cellOrigin s column row = ((cellArea s column row).x, (cellArea s column row).y) := by
  obtain ⟨-, right, bottom⟩ := cellArea_inside fitted across down
  have narrow := fitted.bound.narrow
  have tall := fitted.bound.tall
  simp only [cellArea] at right bottom ⊢
  rw [uint32Max] at narrow tall
  simp (disch := omega) only [cellOrigin, fitted.cell.1, fitted.cell.2, mul32, add32, mod_eq_of_lt]

theorem pixelAt_tile (rows : List UInt8) {x y : Nat} (column : x < 8) (row : y < 16) :
    pixelAt 32 (tile s rows) (x, y) = s.colour (lit rows x y) := by
  have loops : tile s rows = overGrid (.range 16) (.range 8)
      (fun pixels x y => putPixel 32 pixels (0 + x, 0 + y) (s.colour (lit rows x y))) (fun _ => 0) := by
    rw [tile, fitted.cell.1, fitted.cell.2]
    refine overGrid_congr (fun pixels x y _ _ => ?_) _
    simp only [zero_add]
    rfl
  rw [loops, (pixels_assign (by decide : 8 * 4 ≤ 32)).overGrid_range
    (r := ⟨0, 0, 8, 16⟩) (fun p held => by simpa using held.2.1) (fun x y => s.colour (lit rows x y)) _ column]
  exact if_pos ⟨zero_le _, by simpa using column, zero_le _, by simpa using row⟩

/-- A cell is painted with the two colours of its character. -/
theorem paintCell_eq (across : column < s.state.columns)
    (down : row < s.state.rows) (character : UInt8) :
    Paints s (paintCell s column row character) (Overlays s (cellArea s column row) fun p =>
      s.colour (lit (glyphRows (codeOf character)) (p.1 - (cellArea s column row).x)
        (p.2 - (cellArea s column row).y))) := by
  have inside := cellArea_inside fitted across down
  have code := code_eq fitted character
  have glyph := sapoteFontGlyph_eq (codeOf_covered character)
  rw [paintCell, code, glyph]
  have pitch : mul32 8 surfaceBytesPerPixel = 32 := by decide
  rw [cellOrigin_eq fitted across down, fitted.cell.1, fitted.cell.2, pitch]
  have narrow : 8 ≤ uint32Max / 4 := by
    rw [uint32Max]
    omega
  have blit := @surfaceBlit_inside s.backBuffer fitted.bound (cellArea s column row).x
    (cellArea s column row).y (tile s (glyphRows (codeOf character))) 8 16 32 (cellArea s column row)
    (by decide) narrow (by decide) (by decide) (clipRectangle_inside fitted.bound inside) inside
  obtain ⟨s', call, repainted, pixels⟩ := @draw_eq s fitted
    (fun surface => surfaceBlit surface (cellArea s column row).x (cellArea s column row).y
      (some (tile s (glyphRows (codeOf character)))) 8 16 32) _ _ blit
  refine ⟨s', call, repainted, fun p column => ?_⟩
  rw [pixels p column]
  split
  · next held =>
      simp only [Rect.Has, cellArea] at held
      exact pixelAt_tile fitted _ (by simp only [cellArea]; omega) (by simp only [cellArea]; omega)
  · rfl

end

def rendering (s : Console) (p : Nat × Nat) : UInt32 :=
  let x := p.1 - s.state.viewport.x
  let y := p.2 - s.state.viewport.y
  if x / 8 < s.state.columns ∧ y / 16 < s.state.rows then
    s.colour (lit (glyphRows (codeOf (cellAt s.cells (x / 8, y / 16)))) (x % 8) (y % 16))
  else s.backgroundPixel

def Right (s : Console) (p : Nat × Nat) : Prop := s.backBuffer.pixel p = rendering s p

def Shown (s : Console) : Prop := ∀ p, s.state.viewport.Has p → Right s p

/-- In the area of a cell, the pixel of its character. -/
theorem rendering_cell {column row : Nat} (across : column < s.state.columns)
    (down : row < s.state.rows) {p : Nat × Nat} (held : (cellArea s column row).Has p) :
    rendering s p = s.colour (lit (glyphRows (codeOf (cellAt s.cells (column, row))))
      (p.1 - (cellArea s column row).x) (p.2 - (cellArea s column row).y)) := by
  simp only [Rect.Has, cellArea] at held ⊢
  have x : (p.1 - s.state.viewport.x) / 8 = column := by omega
  have y : (p.2 - s.state.viewport.y) / 16 = row := by omega
  have x' : (p.1 - s.state.viewport.x) % 8 = p.1 - (s.state.viewport.x + column * 8) := by omega
  have y' : (p.2 - s.state.viewport.y) % 16 = p.2 - (s.state.viewport.y + row * 16) := by omega
  rw [rendering, x, y, x', y', if_pos ⟨across, down⟩]

theorem lit_space (x y : Nat) : lit (glyphRows (codeOf blank)) x y = false := by
  have space : codeOf blank = 32 := by decide
  have zero : (List.replicate 16 (0 : UInt8)).getD y 0 = 0 := by
    rw [getD_eq_getElem?_getD, getElem?_replicate]
    split <;> rfl
  rw [space, glyphRows_space, lit, zero, UInt8.zero_and]
  rfl

/-- A blank cell, or none at all, is background. -/
theorem rendering_blank (none : (p.1 - s.state.viewport.x) / 8 < s.state.columns →
      (p.2 - s.state.viewport.y) / 16 < s.state.rows →
      cellAt s.cells ((p.1 - s.state.viewport.x) / 8, (p.2 - s.state.viewport.y) / 16) = blank) :
    rendering s p = s.backgroundPixel := by
  rw [rendering]
  split
  · next inside =>
      rw [none inside.1 inside.2, lit_space]
      rfl
  · rfl

theorem Repainted.rendering (repainted : Repainted s s') (p : Nat × Nat) :
    rendering s' p = Graphics.rendering s p := by
  obtain ⟨_, _, rfl⟩ := repainted.rest
  rfl

theorem rectangleEnd_inside (wide : width ≤ uint32Max) (tall : height ≤ uint32Max)
    (inside : r.Inside width height) : rectangleEnd r = some (r.x + r.width, r.y + r.height) := by
  obtain ⟨size, right, bottom⟩ := inside
  exact if_neg (by omega)

theorem inside_of_rectangleEnd {right bottom : Nat} (ends : rectangleEnd r = some (right, bottom))
    (fits : ¬(width < right ∨ height < bottom)) : r.Inside width height := by
  rw [rectangleEnd] at ends
  split at ends
  · cases ends
  · cases ends
    exact ⟨by omega, by omega, by omega⟩

theorem rectanglesIntersect_iff (wide : width ≤ uint32Max) (tall : height ≤ uint32Max)
    (first : left.Inside width height) (second : right.Inside width height) :
    rectanglesIntersect left right ↔ ∃ p, left.Has p ∧ right.Has p := by
  rw [rectanglesIntersect, rectangleEnd_inside wide tall first, rectangleEnd_inside wide tall second]
  simp only [Bool.and_eq_true, decide_eq_true_eq, Rect.Has]
  have size := first.some
  have size' := second.some
  constructor
  · intro overlap
    exact ⟨(max left.x right.x, max left.y right.y), by simp only; omega, by simp only; omega⟩
  · rintro ⟨p, here, there⟩
    omega

theorem rectangleIntersection_spec (wide : width ≤ uint32Max) (tall : height ≤ uint32Max)
    (first : left.Inside width height) (second : right.Inside width height)
    (meets : rectanglesIntersect left right) :
    (rectangleIntersection left right).Inside width height ∧
      ∀ p, (rectangleIntersection left right).Has p ↔ left.Has p ∧ right.Has p := by
  obtain ⟨q, here, there⟩ := (rectanglesIntersect_iff wide tall first second).mp meets
  rw [rectangleIntersection, meets, rectangleEnd_inside wide tall first,
    rectangleEnd_inside wide tall second]
  obtain ⟨-, bound, bound'⟩ := first
  simp only [Rect.Has] at here there ⊢
  refine ⟨⟨?_, ?_, ?_⟩, fun p => by omega⟩
  · simp only
    omega
  · simp only
    omega
  · simp only
    omega

/-- A pixel of the viewport stands in the area of its cell. -/
theorem cellArea_of_has (held : s.state.viewport.Has p) :
    (cellArea s ((p.1 - s.state.viewport.x) / 8) ((p.2 - s.state.viewport.y) / 16)).Has p := by
  simp only [Rect.Has, cellArea] at held ⊢
  omega

/-- Painting cells spoils no pixel of the viewport and sets those of the cells. -/
theorem paintCells_eq (redraw : Rect) {cells : List (Nat × Nat)} (fitted : Fitted s)
    (inside : ∀ c ∈ cells, c.1 < s.state.columns ∧ c.2 < s.state.rows) :
    Paints s (paintCells redraw cells s) fun s' =>
      (∀ p : Nat × Nat, p.1 < s.backBuffer.width → Right s p → Right s' p) ∧
      ∀ c ∈ cells, rectanglesIntersect (cellArea s c.1 c.2) redraw →
        ∀ p, (cellArea s c.1 c.2).Has p → Right s' p := by
  induction cells generalizing s with
  | nil => exact ⟨s, rfl, .refl fitted, fun _ _ right => right, nofun⟩
  | cons c cells ih =>
    obtain ⟨across, down⟩ := inside c (.head _)
    have others : ∀ c ∈ cells, c.1 < s.state.columns ∧ c.2 < s.state.rows :=
      fun c' later => inside c' (.tail _ later)
    have area : cellRect s c.1 c.2 = cellArea s c.1 c.2 := by
      rw [cellRect, cellOrigin_eq fitted across down, fitted.cell.1, fitted.cell.2, cellArea]
    rw [paintCells, area]
    split
    · obtain ⟨s1, call, repainted, pixels⟩ := paintCell_eq fitted across down (cellAt s.cells c)
      rw [call]
      have painted : ∀ p, (cellArea s c.1 c.2).Has p → Right s1 p := by
        intro p held
        have column : p.1 < s.backBuffer.width :=
          held.2.1.trans_le (cellArea_inside fitted across down).right
        rw [Right, repainted.rendering, pixels p column, if_pos held, rendering_cell across down held]
      have kept : ∀ p : Nat × Nat, p.1 < s.backBuffer.width → Right s p → Right s1 p := by
        intro p column right
        by_cases held : (cellArea s c.1 c.2).Has p
        · exact painted p held
        · rw [Right, repainted.rendering, pixels p column, if_neg held]
          exact right
      have same : ∀ column row, cellArea s1 column row = cellArea s column row := by
        intro column row
        simp only [cellArea, repainted.state]
      rw [← repainted.state] at others
      obtain ⟨s', call', repainted', kept', painted'⟩ := ih repainted.fitted others
      rw [repainted.size.1] at kept'
      refine ⟨s', call', repainted.trans repainted', fun p column right =>
        kept' p column (kept p column right), fun c' member meets p held => ?_⟩
      obtain rfl | later := mem_cons.mp member
      · have column := held.2.1.trans_le (cellArea_inside fitted across down).right
        exact kept' p column (painted p held)
      · exact painted' c' later (by rwa [same]) p (by rwa [same])
    · next apart =>
        obtain ⟨s', call, repainted, kept, painted⟩ := ih fitted others
        refine ⟨s', call, repainted, kept, fun c' member meets => ?_⟩
        obtain rfl | later := mem_cons.mp member
        · exact absurd meets apart
        · exact painted c' later meets

/-- A redraw sets the clip, if the rest of the viewport was right. -/
theorem screenRedrawRegion_eq (fitted : Fitted s) (visible : s.state.visible) {clip : Rect}
    (inside : clip.Inside s.backBuffer.width s.backBuffer.height) :
    Paints s (screenRedrawRegion s clip) fun s' =>
      (∀ p, s.state.viewport.Has p → ¬clip.Has p → Right s p) → Shown s' := by
  have narrow := fitted.bound.narrow
  have wide : s.backBuffer.width ≤ uint32Max := by omega
  have tall := fitted.bound.tall
  rw [screenRedrawRegion, if_neg fitted.running, rectangleEnd_inside wide tall inside]
  dsimp only
  rw [if_neg (by have := inside.right; have := inside.bottom; omega), visible]
  cases meets : rectanglesIntersect clip s.state.viewport with
  | false =>
    refine ⟨s, rfl, .refl fitted, fun before p held => before p held fun there => ?_⟩
    have := (rectanglesIntersect_iff wide tall inside fitted.viewport).mpr ⟨p, there, held⟩
    rw [meets] at this
    cases this
  | true => ?_
  obtain ⟨within, both⟩ := rectangleIntersection_spec wide tall inside fitted.viewport meets
  obtain ⟨s1, fill, repainted1, pixels1⟩ := fill_eq fitted within s.backgroundPixel
  have cells : ∀ c ∈ grid (.range s1.state.rows) (.range s1.state.columns),
      c.1 < s1.state.columns ∧ c.2 < s1.state.rows := by
    intro c member
    rwa [mem_grid, mem_range, mem_range] at member
  obtain ⟨s2, paint, repainted2, kept, painted⟩ :=
    paintCells_eq (rectangleIntersection clip s.state.viewport) repainted1.fitted cells
  obtain ⟨s3, present, repainted3, pixels3⟩ := presentUnlessDeferred_eq repainted2.fitted
  refine ⟨s3, ?_, (repainted1.trans repainted2).trans repainted3, fun before p held => ?_⟩
  · simp only [Bool.not_true, Bool.or_false, Bool.false_eq_true, if_false, fill, andThen_ok, paint,
      present]
  have repainted := repainted1.trans repainted2
  rw [(repainted.trans repainted3).state] at held
  have column : p.1 < s.backBuffer.width := held.2.1.trans_le fitted.viewport.right
  have done : Right s2 p := by
    by_cases there : clip.Has p
    swap
    · refine kept p (by rwa [repainted1.size.1]) ?_
      rw [Right, repainted1.rendering, pixels1 p column, if_neg fun h => there ((both p).mp h).1]
      exact before p held there
    have redrawn := (both p).mpr ⟨there, held⟩
    by_cases cell : (p.1 - s.state.viewport.x) / 8 < s.state.columns ∧
        (p.2 - s.state.viewport.y) / 16 < s.state.rows
    · rw [← repainted1.state] at cell held
      have area := cellArea_of_has held
      have placed := cellArea_inside repainted1.fitted cell.1 cell.2
      rw [repainted1.size.1, repainted1.size.2] at placed
      have meets' := (rectanglesIntersect_iff wide tall placed within).mpr ⟨p, area, redrawn⟩
      exact painted ((p.1 - s1.state.viewport.x) / 8, (p.2 - s1.state.viewport.y) / 16)
        (mem_grid.mpr ⟨mem_range.mpr cell.1, mem_range.mpr cell.2⟩) meets' p area
    · refine kept p (by rwa [repainted1.size.1]) ?_
      rw [Right, repainted1.rendering, pixels1 p column, if_pos redrawn,
        rendering_blank fun across down => absurd ⟨across, down⟩ cell]
  rw [Right, repainted3.rendering, pixels3]
  exact done

end Sapote.Graphics
