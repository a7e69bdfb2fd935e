import Sapote.Graphics.Picture

/-!
What a viewport does to the text. A new grid begins with the newest rows of the old one; a
grid of the same size keeps the text, but a cursor that stands past a full row is moved back
onto its last character.
-/

namespace Sapote.Graphics

open Library
variable {s : Console} {pictured : Prop}

/-- The consoles of any run in which others draw on the back buffer as well, inside the
viewport too, as the pointer's image does. -/
inductive Shared : Console → Prop
  | start {idle s : Console} {allocation : Option Storage} (device : idle.framebuffer.Sound)
      (accepted : screenInitialize idle allocation = (.ok, s)) : Shared s
  | call {s : Console} (call : ScreenCall) (before : Shared s) : Shared (screenStep s call).2
  | drawn {s : Console} {surface : Surface} {framebuffer : Framebuffer} (before : Shared s)
      (drawn : Elsewhere (s.withVisible false) surface framebuffer) :
      Shared { s with backBuffer := surface, framebuffer := framebuffer }

theorem Sound.withVisible (sound : Sound False s) (visible : Bool) :
    Sound False (s.withVisible visible) :=
  { sound with fitted := { sound.fitted with }, shown := nofun }

theorem Shared.sound (shared : Shared s) : Sound False s := by
  induction shared with
  | start device accepted => exact screenInitialize_sound device accepted
  | call call _ sound => exact screenStep_sound sound call
  | @drawn s _ _ _ drawn sound =>
    exact ((sound.withVisible false).elsewhere drawn).withVisible s.state.visible

/-- The console after some characters. -/
def write (s : Console) (text : List UInt8) : Console :=
  text.foldl (fun s character => (screenPutc s character).2) s

theorem write_text (sound : Sound pictured s) (text : List UInt8) :
    (write s text).text = text.foldl ConsoleText.putc s.text := by
  induction text generalizing s with
  | nil => rfl
  | cons character text ih =>
    obtain ⟨s', call, sound', same⟩ := screenPutc_accepts sound character
    rw [List.foldl_cons, ← same, ← ih sound', write, List.foldl_cons, call]
    rfl

theorem Accepts.write {result : ScreenStatus × Console} {t : ConsoleText} (accepts : Accepts pictured result t)
    (text : List UInt8) : (write result.2 text).text = text.foldl ConsoleText.putc t := by
  obtain ⟨s', rfl, sound, rfl⟩ := accepts
  exact write_text sound text

/-- An accepted viewport shows the newest rows, cut or padded to its width, with the cursor
in the last of them; a refused one changes nothing. -/
theorem viewport_keeps_newest (shared : Shared s) (viewport : Rect) (visible : Bool) :
    let result := screenSetViewport s viewport visible
    let t := result.2.text
    let k := min (s.state.row + 1) t.rows
    (result.1 = .ok →
      gridFor viewport.width viewport.height s.state.cellWidth s.state.cellHeight =
          some (t.columns, t.rows) ∧
        (∀ row < k, ∀ column < t.columns, cellAt t.cells (column, row) =
          if column < s.state.columns then cellAt s.cells (column, s.state.row + 1 - k + row)
          else blank) ∧
        (∀ row, k ≤ row → row < t.rows → ∀ column < t.columns,
          cellAt t.cells (column, row) = blank) ∧
        t.row = k - 1) ∧
      (result.1 ≠ .ok → result.2 = s) := by
  intro result t k
  rcases screenSetViewport_cases shared.sound viewport visible with
    ⟨no, same⟩ | ⟨columns, rows, cells, row, grid, -, newest, s', call, -, text⟩
  · exact ⟨fun ok => absurd ok no, fun _ => same⟩
  have shown : t = ⟨cells, columns, rows,
      if columns ≤ s.state.column then columns - 1 else s.state.column, row⟩ :=
    (congrArg (fun r : ScreenStatus × Console => r.2.text) call).trans text
  have size : k = row + 1 := by
    rw [newest.last]
    exact congrArg (fun t : ConsoleText => min (s.state.row + 1) t.rows) shown
  refine ⟨fun _ => ?_, fun no => absurd (congrArg Prod.fst call) no⟩
  rw [size, shown]
  have last := newest.last
  refine ⟨grid, fun y high x across => ?_, fun y low high x across => ?_, rfl⟩
  · rw [newest.cells (x, y) across (by omega), Nat.add_sub_add_right]
    exact if_congr (and_iff_right (Nat.le_of_lt_succ high)) rfl rfl
  · rw [newest.cells (x, y) across high]
    exact if_neg fun kept => not_le.mpr low kept.1

theorem tallStarted_shared : Shared tallStarted := .start tallConsole_device tallConsole_starts

/-- Of two rows with a letter each the second is kept. -/
theorem viewport_keeps_newest_letter :
    let s := write tallStarted [65, 66]
    (screenSetViewport s ⟨0, 0, 8, 16⟩ false).1 = .ok ∧
      cellAt (screenSetViewport s ⟨0, 0, 8, 16⟩ false).2.text.cells (0, 0) = 66 := by
  intro s
  have shared : Shared s := .call (.putc 66) (.call (.putc 65) tallStarted_shared)
  have ok : (screenSetViewport s ⟨0, 0, 8, 16⟩ false).1 = .ok := by decide +kernel
  obtain ⟨-, newest, -⟩ := (viewport_keeps_newest shared ⟨0, 0, 8, 16⟩ false).1 ok
  exact ⟨ok, (newest 0 (by decide +kernel) 0 (by decide +kernel)).trans (by decide +kernel)⟩

/-- A viewport of the same grid leaves every later text as it would have been, unless the
cursor stands past the last column. Showing and hiding the console always do. -/
theorem viewport_invisible_iff (shared : Shared s) :
    (∀ viewport visible, (screenSetViewport s viewport visible).1 = .ok →
      gridFor viewport.width viewport.height s.state.cellWidth s.state.cellHeight =
          some (s.state.columns, s.state.rows) →
        ((∀ text, (write (screenSetViewport s viewport visible).2 text).text = (write s text).text) ↔
          s.state.column < s.state.columns)) ∧
      ∀ visible text, (write (screenSetVisible s visible).2 text).text = (write s text).text := by
  have sound := shared.sound
  refine ⟨fun viewport visible ok same => ?_, fun visible text => ?_⟩
  · rcases screenSetViewport_cases sound viewport visible with
      ⟨no, -⟩ | ⟨columns, rows, cells, row, grid, kept, -, accepts⟩
    · exact absurd ok no
    cases same.symm.trans grid
    -- The cells and the row are the old ones, so only the column can differ.
    obtain ⟨rfl, rfl⟩ : cells = s.cells ∧ row = s.state.row := by
      rw [reflow, if_neg (by simp)] at kept
      exact ⟨(congrArg Console.cells kept).symm, (congrArg (·.state.row) kept).symm⟩
    have written := accepts.write
    constructor
    · intro alike
      have column := congrArg ConsoleText.column ((written []).symm.trans (alike []))
      have some := sound.fitted.some.1
      simp only [List.foldl_nil, write, Console.text] at column
      split at column <;> omega
    · intro inside text
      rw [written, write_text sound, if_neg (not_le.mpr inside)]
      rfl
  · rw [(screenSetVisible_accepts sound visible).write, write_text sound]

theorem viewport_invisible_tall :
    (write (screenSetViewport tallStarted ⟨0, 0, 8, 32⟩ true).2 [65]).text =
      (write tallStarted [65]).text :=
  ((viewport_invisible_iff tallStarted_shared).1 ⟨0, 0, 8, 32⟩ true (by decide +kernel)
    (by decide +kernel)).mpr (by decide +kernel) [65]

/-- After a full row the next character replaces the last one of it. -/
theorem viewport_drops_character :
    let s := write tallStarted [65]
    Shared s ∧ (screenSetViewport s s.state.viewport true).1 = .ok ∧
      gridFor s.state.viewport.width s.state.viewport.height s.state.cellWidth s.state.cellHeight =
        some (s.state.columns, s.state.rows) ∧
      cellAt (write (screenSetViewport s s.state.viewport true).2 [66]).cells (0, 0) = 66 ∧
      cellAt (write s [66]).cells (0, 0) = 65 :=
  ⟨.call (.putc 65) tallStarted_shared, by decide +kernel, by decide +kernel, by decide +kernel,
    by decide +kernel⟩

end Sapote.Graphics
