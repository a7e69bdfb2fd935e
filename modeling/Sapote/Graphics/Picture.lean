import Sapote.Graphics.Writing

/-!
The console's picture is its cell store. Each call first settles the cells, then draws what
they became; so while the console is visible every pixel of the viewport is the one that the
cells call for.
-/

namespace Sapote.Graphics
open List Nat

open Library
variable {s s' : Console} {pictured : Prop} {width height columns rows : Nat}
  {allocation : Option Storage}

section
variable (sound : Sound pictured s)
include sound

theorem screenRedrawRegion_sound (clip : Rect) : Sound pictured (screenRedrawRegion s clip).2 := by
  have fitted := sound.fitted
  cases ends : rectangleEnd clip with
  | none =>
    rw [screenRedrawRegion, if_neg fitted.running, ends]
    exact sound
  | some e => ?_
  by_cases outside : s.backBuffer.width < e.1 ∨ s.backBuffer.height < e.2
  · rw [screenRedrawRegion, if_neg fitted.running, ends]
    dsimp only
    rw [if_pos outside]
    exact sound
  cases visible : s.state.visible with
  | false =>
    rw [screenRedrawRegion, if_neg fitted.running, ends]
    dsimp only
    rw [if_neg outside, visible]
    exact sound
  | true =>
    obtain ⟨s', call, repainted, shown⟩ := screenRedrawRegion_eq fitted visible
      (inside_of_rectangleEnd ends outside)
    rw [call]
    refine .of_repainted repainted ⟨sound.row, sound.column, sound.below⟩ fun alone _ => shown ?_
    exact fun p held _ => sound.shown alone visible p held

theorem screenSetVisible_accepts (visible : Bool) :
    Accepts pictured (screenSetVisible s visible) s.text := by
  have fitted : Fitted (s.withVisible visible) := { sound.fitted with }
  rw [screenSetVisible, if_neg sound.fitted.running]
  exact redrawn_accepts fitted ⟨sound.row, sound.column, sound.below⟩

end

/-- A grid that begins with the newest rows of a console and is blank below the last of them. -/
structure Newest (s : Console) (columns rows : Nat) (cells : Nat → UInt8) (row : Nat) : Prop where
  last : row + 1 = min (s.state.row + 1) rows
  cells : ∀ p : Nat × Nat, p.1 < columns → p.2 < rows →
    cellAt cells p = if p.2 ≤ row ∧ p.1 < s.state.columns then
      cellAt s.cells (p.1, s.state.row - row + p.2) else blank

theorem reflow_spec (sound : Sound pictured s) (some : 0 < rows) (narrow : columns ≤ screenMaxColumns) :
    ∃ cells row, reflow s columns rows = (s.withCells cells).moveTo s.state.column row ∧
      Newest s columns rows cells row := by
  have low := sound.row
  have few := sound.fitted.few.2
  rw [screenMaxRows] at few
  have next : add32 s.state.row 1 = s.state.row + 1 := mod_eq_of_lt (by omega)
  have activeRows : (if add32 s.state.row 1 < s.state.rows then add32 s.state.row 1 else s.state.rows) =
      s.state.row + 1 := by
    split <;> omega
  rw [reflow]
  split
  · rw [activeRows]
    refine ⟨_, _, rfl, by split_ifs <;> omega, fun p across down => ?_⟩
    rw [cellAt_reflowCells (by split <;> omega) narrow across down]
    refine if_congr ?_ ?_ rfl
    · split_ifs <;> omega
    · congr 2
      split_ifs <;> omega
  · next same =>
      simp only [not_or, not_not] at same
      obtain ⟨rfl, rfl⟩ := same
      refine ⟨s.cells, s.state.row, rfl, by omega, fun p across down => ?_⟩
      rw [Nat.sub_self, Nat.zero_add]
      split
      · rfl
      · exact sound.below p across (by omega) down

theorem gridFor_eq_some (fits : gridFor width height 8 16 = some (columns, rows)) :
    columns = width / 8 ∧ rows = height / 16 ∧ 0 < columns ∧ 0 < rows := by
  rw [gridFor, if_neg (by decide)] at fits
  split at fits
  · cases fits
  · next some =>
      cases fits
      exact ⟨rfl, rfl, by omega, by omega⟩

/-- A viewport is refused without a trace, or the text is reflowed into its grid. -/
theorem screenSetViewport_cases (sound : Sound pictured s) (viewport : Rect) (visible : Bool) :
    let result := screenSetViewport s viewport visible
    (result.1 ≠ .ok ∧ result.2 = s) ∨
      ∃ columns rows cells row,
        gridFor viewport.width viewport.height s.state.cellWidth s.state.cellHeight =
            some (columns, rows) ∧
          reflow s columns rows = (s.withCells cells).moveTo s.state.column row ∧
          Newest s columns rows cells row ∧
          Accepts pictured result ⟨cells, columns, rows,
            if columns ≤ s.state.column then columns - 1 else s.state.column, row⟩ := by
  have cell := sound.fitted.cell
  rw [screenSetViewport, if_neg sound.fitted.running]
  split
  · next right bottom columns rows ends grid =>
      split
      · exact .inl ⟨nofun, rfl⟩
      split
      · exact .inl ⟨nofun, rfl⟩
      next inside few =>
      simp only [not_or, not_lt] at few
      have sized := grid
      rw [cell.1, cell.2] at sized
      obtain ⟨across, down, some⟩ := gridFor_eq_some sized
      obtain ⟨cells, row, same, newest⟩ := reflow_spec sound some.2 few.1
      have fitted : Fitted (((s.withCells cells).moveTo s.state.column row).withGrid viewport columns rows
          visible) :=
        { sound.fitted with
          viewport := inside_of_rectangleEnd ends inside, columns := across, rows := down, some, few }
      have last := newest.last
      refine .inr ⟨columns, rows, cells, row, grid, same, newest, ?_⟩
      rw [same]
      refine redrawn_accepts fitted ⟨?_, ?_, fun p across after down => ?_⟩
      · change row < rows
        omega
      · change (if columns ≤ s.state.column then columns - 1 else s.state.column) ≤ columns
        split <;> omega
      · exact (newest.cells p across down).trans (if_neg fun kept => not_le.mpr after kept.1)
  · exact .inl ⟨nofun, rfl⟩

theorem screenSetViewport_sound (sound : Sound pictured s) (viewport : Rect) (visible : Bool) :
    Sound pictured (screenSetViewport s viewport visible).2 := by
  obtain ⟨-, same⟩ | ⟨_, _, _, _, -, -, -, accepts⟩ := screenSetViewport_cases sound viewport visible
  · rw [same]
    exact sound
  · exact accepts.sound

theorem screenSetDeferredPresent_sound (sound : Sound pictured s) (deferred : Bool) :
    Sound pictured (screenSetDeferredPresent s deferred).2 := by
  rw [screenSetDeferredPresent, if_neg sound.fitted.running]
  exact { sound with fitted := { sound.fitted with } }

theorem surfaceInitialize_ok {surface surface' : Surface} (tall : height ≤ uint32Max)
    (accepted : surfaceInitialize surface width height allocation = (.ok, surface')) :
    surface'.Bound ∧ surface'.width = width ∧ surface'.height = height ∧ 0 < width ∧ 0 < height := by
  rw [surfaceInitialize.eq_def] at accepted
  iterate 3
    split at accepted
    · cases accepted
  dsimp only at accepted
  split at accepted
  · cases accepted
  cases allocation with
  | none => cases accepted
  | some pixels => ?_
  dsimp only at accepted
  cases bound : bindSurface width height (width * surfaceBytesPerPixel) (.some pixels) with
  | error status =>
    rw [bound] at accepted
    have refused : status = .ok := (Prod.mk.inj accepted).1
    rw [bindSurface.eq_def] at bound
    dsimp only at bound
    split at bound <;> cases bound
    cases refused
  | ok result =>
    rw [bound] at accepted
    cases accepted
    exact bound_of_bindSurface tall bound

theorem screenInitialize_sound (device : s.framebuffer.Sound)
    (accepted : screenInitialize s allocation = (.ok, s')) : Sound pictured s' := by
  rw [screenInitialize.eq_def] at accepted
  iterate 2
    split at accepted
    · cases accepted
  rw [sapoteFontGeometry_eq] at accepted
  dsimp only at accepted
  iterate 2
    split at accepted
    · cases accepted
  next columns rows grid =>
  obtain ⟨across, down, some⟩ := gridFor_eq_some grid
  split at accepted
  · cases accepted
  next few =>
  simp only [not_or, not_lt] at few
  iterate 2
    split at accepted
    · cases accepted
  next ok =>
  rw [not_not] at ok
  obtain ⟨bound, width, height, wide, high⟩ := surfaceInitialize_ok device.tall (Prod.ext ok rfl)
  have result : ∀ {t : Console}, Fitted t → screenClear t = (.ok, s') → Sound pictured s' := by
    intro t fitted cleared
    obtain ⟨t', call, sound, -⟩ := screenClear_accepts fitted
    rw [call] at cleared
    cases cleared
    exact sound
  refine result ?_ accepted
  refine ⟨rfl, bound, ⟨device.active, width.symm, height.symm, device.fits⟩, ⟨rfl, rfl⟩, ⟨rfl, rfl⟩, ?_,
    across, down, some, few⟩
  exact ⟨⟨wide, high⟩, by rw [width, zero_add], by rw [height, zero_add]⟩

inductive ScreenCall where
  | putc (character : UInt8)
  | clear
  | setViewport (x y width height : UInt32) (visible : Bool)
  | setVisible (visible : Bool)
  | setDeferredPresent (deferred : Bool)
  | redrawRegion (x y width height : UInt32)
  deriving DecidableEq

def screenStep (s : Console) : ScreenCall → ScreenStatus × Console
  | .putc character => screenPutc s character
  | .clear => screenClear s
  | .setViewport x y width height visible =>
    screenSetViewport s ⟨x.toNat, y.toNat, width.toNat, height.toNat⟩ visible
  | .setVisible visible => screenSetVisible s visible
  | .setDeferredPresent deferred => screenSetDeferredPresent s deferred
  | .redrawRegion x y width height =>
    screenRedrawRegion s ⟨x.toNat, y.toNat, width.toNat, height.toNat⟩

theorem screenStep_sound (sound : Sound pictured s) (call : ScreenCall) : Sound pictured (screenStep s call).2 := by
  cases call with
  | putc character => exact (screenPutc_accepts sound character).sound
  | clear => exact (screenClear_accepts sound.fitted).sound
  | setViewport x y width height visible => exact screenSetViewport_sound sound _ visible
  | setVisible visible => exact (screenSetVisible_accepts sound visible).sound
  | setDeferredPresent deferred => exact screenSetDeferredPresent_sound sound deferred
  | redrawRegion x y width height => exact screenRedrawRegion_sound sound _

/-- Somebody else drew and presented, but not inside a viewport that is visible. -/
structure Elsewhere (s : Console) (surface : Surface) (framebuffer : Framebuffer) : Prop where
  picture : surface.active = s.backBuffer.active ∧ surface.width = s.backBuffer.width ∧
    surface.height = s.backBuffer.height ∧ surface.pitch = s.backBuffer.pitch
  device : framebuffer.active = s.framebuffer.active ∧ framebuffer.width = s.framebuffer.width ∧
    framebuffer.height = s.framebuffer.height ∧ framebuffer.pitch = s.framebuffer.pitch
  outside : s.state.visible →
    ∀ p, s.state.viewport.Has p → surface.pixel p = s.backBuffer.pixel p

theorem Sound.elsewhere (sound : Sound pictured s) {surface : Surface} {framebuffer : Framebuffer}
    (drawn : Elsewhere s surface framebuffer) :
    Sound pictured { s with backBuffer := surface, framebuffer := framebuffer } := by
  obtain ⟨⟨active, width, height, pitch⟩, ⟨active', width', height', pitch'⟩, outside⟩ := drawn
  have fitted := sound.fitted
  obtain ⟨running, narrow, tall, fits⟩ := fitted.bound
  obtain ⟨shining, wide, high, room⟩ := fitted.matching
  refine { sound with
    fitted := { fitted with
      bound := ⟨active.trans running, width ▸ narrow, height ▸ tall, by rwa [width, pitch]⟩
      matching := ⟨active'.trans shining, ?_, ?_, by rwa [width', pitch']⟩, viewport := ?_ }
    shown := ?_ }
  · exact (width'.trans wide).trans width.symm
  · exact (height'.trans high).trans height.symm
  · simp only [width, height]
    exact fitted.viewport
  · exact fun alone visible p held => (outside visible p held).trans (sound.shown alone visible p held)

inductive Reached : Console → Prop
  | start {idle s : Console} {allocation : Option Storage} (device : idle.framebuffer.Sound)
      (accepted : screenInitialize idle allocation = (.ok, s)) : Reached s
  | call {s : Console} (call : ScreenCall) (before : Reached s) : Reached (screenStep s call).2
  | elsewhere {s : Console} {surface : Surface} {framebuffer : Framebuffer} (before : Reached s)
      (drawn : Elsewhere s surface framebuffer) :
      Reached { s with backBuffer := surface, framebuffer := framebuffer }

theorem Reached.sound (reached : Reached s) : Sound True s := by
  induction reached with
  | start device accepted => exact screenInitialize_sound device accepted
  | call call _ sound => exact screenStep_sound sound call
  | elsewhere _ drawn sound => exact sound.elsewhere drawn

/-- The picture of a visible console is the one of its cells, and the cursor stands in the grid
with nothing but blanks below it. -/
theorem console_picture (reached : Reached s) :
    (s.state.visible = true →
      (∀ column row, column < s.state.columns → row < s.state.rows →
        ∃ glyph, sapoteFontGlyph
            (if fontCovers s (cellAt s.cells (column, row)).toNat then (cellAt s.cells (column, row)).toNat
              else replacementCharacter) fontMaxCellHeight = .ok glyph ∧
          ∀ x y, x < s.state.cellWidth → y < s.state.cellHeight →
            s.backBuffer.pixel (s.state.viewport.x + column * s.state.cellWidth + x,
                s.state.viewport.y + row * s.state.cellHeight + y) =
              if lit glyph x y then s.foregroundPixel else s.backgroundPixel) ∧
      ∀ p, s.state.viewport.Has p →
        s.state.viewport.x + s.state.columns * s.state.cellWidth ≤ p.1 ∨
          s.state.viewport.y + s.state.rows * s.state.cellHeight ≤ p.2 →
        s.backBuffer.pixel p = s.backgroundPixel) ∧
      s.state.row < s.state.rows ∧ s.state.column ≤ s.state.columns ∧
      ∀ p : Nat × Nat, p.1 < s.state.columns → s.state.row < p.2 → p.2 < s.state.rows →
        cellAt s.cells p = blank := by
  have sound := reached.sound
  have fitted := sound.fitted
  refine ⟨fun visible => ⟨fun column row across down => ?_, fun p held strip => ?_⟩, sound.row, sound.column,
    sound.below⟩
  · refine ⟨glyphRows (codeOf (cellAt s.cells (column, row))), ?_, fun x y wide high => ?_⟩
    · rw [code_eq fitted]
      exact sapoteFontGlyph_eq (codeOf_covered _)
    · rw [fitted.cell.1] at wide ⊢
      rw [fitted.cell.2] at high ⊢
      have area : (cellArea s column row).Has (s.state.viewport.x + column * 8 + x,
          s.state.viewport.y + row * 16 + y) := by
        simp only [Rect.Has, cellArea]
        omega
      have rows := fitted.rows
      have columns := fitted.columns
      have held : s.state.viewport.Has (s.state.viewport.x + column * 8 + x,
          s.state.viewport.y + row * 16 + y) := by
        simp only [Rect.Has]
        omega
      rw [sound.shown trivial visible _ held, rendering_cell across down area]
      simp only [cellArea, Nat.add_sub_cancel_left]
      rfl
  · rw [fitted.cell.1, fitted.cell.2] at strip
    rw [sound.shown trivial visible p held]
    exact rendering_blank fun across down => by omega

/-- One column and two rows. -/
def tallConsole : Console where
  state := ⟨false, 0, 0, 0, 0, 0, 0, 0, 0, ⟨0, 0, 0, 0⟩, false, false⟩
  backgroundPixel := 0
  foregroundPixel := 0
  backBuffer := ⟨false, 0, 0, 0, fun _ => 0, clearedDamage, 0, 0, 0⟩
  cells := fun _ => 0
  fontFirst := 0
  fontCount := 0
  framebuffer := ⟨true, 0xFD000000, 1024, 32, 8, 32, 16, 8, 0, fun _ => 0⟩

def tallStarted : Console := (screenInitialize tallConsole (some fun _ => 0)).2

theorem tallConsole_device : tallConsole.framebuffer.Sound := ⟨rfl, by decide, by decide, by decide⟩

theorem tallConsole_starts : screenInitialize tallConsole (some fun _ => 0) = (.ok, tallStarted) :=
  Prod.ext (by decide +kernel) rfl

/-- The second letter fills the second row; its strokes are black on white. -/
theorem console_picture_letters :
    let s := (screenStep (screenStep tallStarted (.putc 65)).2 (.putc 66)).2
    Reached s ∧ s.backBuffer.pixel (0, 20) = 0xFFFFFF ∧ s.backBuffer.pixel (1, 20) = 0 := by
  intro s
  have reached : Reached s :=
    .call (.putc 66) (.call (.putc 65) (.start tallConsole_device tallConsole_starts))
  have state : s.state = ⟨true, 1, 2, 8, 16, 1, 1, 2, 0, ⟨0, 0, 8, 32⟩, true, false⟩ := by
    decide +kernel
  have colours : s.foregroundPixel = 0 ∧ s.backgroundPixel = 0xFFFFFF := by decide +kernel
  have letter : (if fontCovers s (cellAt s.cells (0, 1)).toNat then
      (cellAt s.cells (0, 1)).toNat else replacementCharacter) = 66 := by decide +kernel
  have picture := (console_picture reached).1
  rw [state, colours.1, colours.2] at picture
  obtain ⟨glyph, found, pixels⟩ := (picture rfl).1 0 1 (by decide) (by decide)
  rw [letter, sapoteFontGlyph_eq (by decide)] at found
  cases found
  exact ⟨reached, (pixels 0 4 (by decide) (by decide)).trans (by decide +kernel),
    (pixels 1 4 (by decide) (by decide)).trans (by decide +kernel)⟩

end Sapote.Graphics
