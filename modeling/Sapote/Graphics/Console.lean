import Sapote.Graphics.Damage
import Sapote.Graphics.Font

/-!
The text console of `screen.c`. It keeps a store of cells and draws each of them into a
viewport of its back buffer; the picture follows the cells while the console is visible.
-/

namespace Sapote.Graphics

open Library

inductive ScreenStatus where
  | ok | noFramebuffer | alreadyInitialized | notInitialized | badFont | cellTooLarge | noRoom
  | surfaceFailure | drawFailure | badViewport | cellCapacity
  deriving DecidableEq

def screenMaxColumns : Nat := 160
def screenMaxRows : Nat := 48

def replacementCharacter : Nat := 63
def blank : UInt8 := 32

structure ScreenState where
  active : Bool
  (columns rows cellWidth cellHeight column row characters scrolls : Nat)
  viewport : Rect
  (visible deferredPresent : Bool)
  deriving DecidableEq

/-- The variables of the file, and the device that the back buffer is shown on. -/
structure Console where
  state : ScreenState
  (backgroundPixel foregroundPixel : UInt32)
  backBuffer : Surface
  cells : Nat → UInt8
  (fontFirst fontCount : Nat)
  framebuffer : Framebuffer

def mul32 (a b : Nat) : Nat := a * b % 2 ^ 32

def cellAt (cells : Nat → UInt8) (p : Nat × Nat) : UInt8 := cells (p.2 * screenMaxColumns + p.1)

def setCell (cells : Nat → UInt8) (p : Nat × Nat) (character : UInt8) : Nat → UInt8 := fun index =>
  if index = p.2 * screenMaxColumns + p.1 then character else cells index

def blankCells (rows columns : List Nat) (cells : Nat → UInt8) : Nat → UInt8 :=
  overGrid rows columns (fun cells column row => setCell cells (column, row) blank) cells

def scrollCells (columns rows : Nat) (cells : Nat → UInt8) : Nat → UInt8 :=
  blankCells [rows - 1] (List.range columns)
    (overGrid (List.range' 1 (rows - 1)) (List.range columns)
      (fun cells column row => setCell cells (column, row - 1) (cellAt cells (column, row))) cells)

/-- The last rows up to the cursor move to the top of the new grid; the rest of it is blank. -/
def reflowCells (firstRow copiedRows copiedColumns columns rows : Nat) (cells : Nat → UInt8) :
    Nat → UInt8 :=
  let copied := (List.range copiedRows).foldl (fun cells row =>
    let kept := (List.range copiedColumns).foldl (fun cells column =>
      setCell cells (column, row) (cellAt cells (column, firstRow + row))) cells
    (List.range' copiedColumns (columns - copiedColumns)).foldl (fun cells column =>
      setCell cells (column, row) blank) kept) cells
  blankCells (List.range' copiedRows (rows - copiedRows)) (List.range columns) copied

section
variable (s : Console)

def ScreenStatus.andThen (result : ScreenStatus × Console)
    (next : Console → ScreenStatus × Console) : ScreenStatus × Console :=
  if result.1 = .ok then next result.2 else result

def Console.draw (call : Surface → SurfaceStatus × Surface) : ScreenStatus × Console :=
  let (status, surface) := call s.backBuffer
  (if status = .ok then .ok else .drawFailure, { s with backBuffer := surface })

def Console.presentUnlessDeferred : ScreenStatus × Console :=
  if !s.state.deferredPresent then
    let (status, surface, framebuffer) := surfacePresent s.backBuffer s.framebuffer
    (if status = .ok then .ok else .drawFailure,
      { s with backBuffer := surface, framebuffer := framebuffer })
  else (.ok, s)

def fontCovers (code : Nat) : Bool := s.fontFirst ≤ code && code < s.fontFirst + s.fontCount

def lit (rows : List UInt8) (x y : Nat) : Bool :=
  rows.getD y 0 &&& ((0x80 : UInt8) >>> UInt8.ofNat x) ≠ 0

def tile (rows : List UInt8) : Storage :=
  overGrid (List.range s.state.cellHeight) (List.range s.state.cellWidth)
    (fun pixels x y => putPixel (s.state.cellWidth * surfaceBytesPerPixel) pixels (x, y)
      (if lit rows x y then s.foregroundPixel else s.backgroundPixel)) (fun _ => 0)

def cellOrigin (column row : Nat) : Nat × Nat :=
  (add32 s.state.viewport.x (mul32 column s.state.cellWidth),
    add32 s.state.viewport.y (mul32 row s.state.cellHeight))

def paintCell (column row : Nat) (character : UInt8) : ScreenStatus × Console :=
  let code := if fontCovers s character.toNat then character.toNat else replacementCharacter
  match sapoteFontGlyph code fontMaxCellHeight with
  | .error _ => (.drawFailure, s)
  | .ok rows =>
    let origin := cellOrigin s column row
    s.draw fun surface => surfaceBlit surface origin.1 origin.2 (some (tile s rows))
      s.state.cellWidth s.state.cellHeight (mul32 s.state.cellWidth surfaceBytesPerPixel)

def drawCell (column row : Nat) (character : UInt8) : ScreenStatus × Console :=
  if !s.state.visible then (.ok, s)
  else ScreenStatus.andThen (paintCell s column row character) fun s => s.presentUnlessDeferred

def Console.withCells (cells : Nat → UInt8) : Console := { s with cells := cells }

def Console.moveTo (column row : Nat) : Console :=
  { s with state := { s.state with column := column, row := row } }

def Console.countScroll : Console :=
  { s with state := { s.state with scrolls := add64 s.state.scrolls 1 } }

def Console.countCharacter : Console :=
  { s with state := { s.state with characters := add64 s.state.characters 1 } }

def scrollPicture : ScreenStatus × Console :=
  if !s.state.visible then (.ok, s)
  else
    let viewport := s.state.viewport
    let source : Rect := ⟨viewport.x, add32 viewport.y s.state.cellHeight, viewport.width,
      sub32 viewport.height s.state.cellHeight⟩
    let exposed : Rect := ⟨viewport.x, sub32 (add32 viewport.y viewport.height) s.state.cellHeight,
      viewport.width, s.state.cellHeight⟩
    ScreenStatus.andThen (s.draw fun surface => surfaceCopyRect surface source viewport.x viewport.y)
      fun s => ScreenStatus.andThen (s.draw fun surface => surfaceFillRect surface exposed s.backgroundPixel)
        fun s => s.presentUnlessDeferred

def scrollOneLine : ScreenStatus × Console :=
  ScreenStatus.andThen
    (scrollPicture (s.withCells (scrollCells s.state.columns s.state.rows s.cells)))
    fun s => (.ok, s.countScroll)

def newline : ScreenStatus × Console :=
  if add32 s.state.row 1 < s.state.rows then (.ok, s.moveTo 0 (s.state.row + 1))
  else scrollOneLine (s.moveTo 0 s.state.row)

def gridFor (screenWidth screenHeight cellWidth cellHeight : Nat) : Option (Nat × Nat) :=
  if cellWidth = 0 ∨ cellHeight = 0 then none
  else if screenWidth / cellWidth = 0 ∨ screenHeight / cellHeight = 0 then none
  else some (screenWidth / cellWidth, screenHeight / cellHeight)

def clearPicture : ScreenStatus × Console :=
  if s.state.visible then
    ScreenStatus.andThen (s.draw fun surface => surfaceFillRect surface s.state.viewport s.backgroundPixel)
      fun s => s.presentUnlessDeferred
  else (.ok, s)

def screenClear : ScreenStatus × Console :=
  if !s.state.active then (.notInitialized, s)
  else
    ScreenStatus.andThen (clearPicture
        (s.withCells (blankCells (List.range s.state.rows) (List.range s.state.columns) s.cells)))
      fun s => (.ok, s.moveTo 0 0)

/-- `allocation` is what `heap_allocate` hands out for the back buffer. -/
def screenInitialize (allocation : Option Storage) : ScreenStatus × Console :=
  if s.state.active then (.alreadyInitialized, s)
  else if !s.framebuffer.active then (.noFramebuffer, s)
  else
    match sapoteFontGeometry with
    | .error _ => (.badFont, s)
    | .ok font =>
      if fontMaxCellHeight < font.height ∨ fontMaxCellWidth < font.width then (.cellTooLarge, s)
      else
        match gridFor s.framebuffer.width s.framebuffer.height font.width font.height with
        | none => (.noRoom, s)
        | some (columns, rows) =>
          if screenMaxColumns < columns ∨ screenMaxRows < rows then (.cellCapacity, s)
          else
            let s := { s with fontFirst := font.first, fontCount := font.count }
            if !fontCovers s replacementCharacter then (.badFont, s)
            else
              let s := { s with
                backgroundPixel := framebufferPack s.framebuffer 0xFF 0xFF 0xFF
                foregroundPixel := framebufferPack s.framebuffer 0 0 0 }
              let (status, surface) :=
                surfaceInitialize s.backBuffer s.framebuffer.width s.framebuffer.height allocation
              let s := { s with backBuffer := surface }
              if status ≠ .ok then (.surfaceFailure, s)
              else
                screenClear { s with
                  state := {
                    active := true
                    columns := columns
                    rows := rows
                    cellWidth := font.width
                    cellHeight := font.height
                    column := 0
                    row := 0
                    characters := 0
                    scrolls := 0
                    viewport := ⟨0, 0, s.framebuffer.width, s.framebuffer.height⟩
                    visible := true
                    deferredPresent := false }
                  cells := fun _ => blank }

def rectangleEnd (rectangle : Rect) : Option (Nat × Nat) :=
  if rectangle.width = 0 ∨ rectangle.height = 0 ∨ uint32Max - rectangle.width < rectangle.x ∨
      uint32Max - rectangle.height < rectangle.y then none
  else some (rectangle.x + rectangle.width, rectangle.y + rectangle.height)

def rectanglesIntersect (left right : Rect) : Bool :=
  match rectangleEnd left, rectangleEnd right with
  | some (leftRight, leftBottom), some (rightRight, rightBottom) =>
    left.x < rightRight && right.x < leftRight && left.y < rightBottom && right.y < leftBottom
  | _, _ => false

def rectangleIntersection (left right : Rect) : Rect :=
  match rectanglesIntersect left right, rectangleEnd left, rectangleEnd right with
  | true, some (leftRight, leftBottom), some (rightRight, rightBottom) =>
    let x := max left.x right.x
    let y := max left.y right.y
    ⟨x, y, min leftRight rightRight - x, min leftBottom rightBottom - y⟩
  | _, _, _ => ⟨0, 0, 0, 0⟩

def cellRect (column row : Nat) : Rect :=
  ⟨(cellOrigin s column row).1, (cellOrigin s column row).2, s.state.cellWidth, s.state.cellHeight⟩

def paintCells (redraw : Rect) : List (Nat × Nat) → Console → ScreenStatus × Console
  | [], s => (.ok, s)
  | p :: rest, s =>
    if rectanglesIntersect (cellRect s p.1 p.2) redraw then
      let (status, s) := paintCell s p.1 p.2 (cellAt s.cells p)
      if status ≠ .ok then (.drawFailure, s) else paintCells redraw rest s
    else paintCells redraw rest s

def screenRedrawRegion (clip : Rect) : ScreenStatus × Console :=
  if !s.state.active then (.notInitialized, s)
  else
    match rectangleEnd clip with
    | none => (.badViewport, s)
    | some (clipRight, clipBottom) =>
      if s.backBuffer.width < clipRight ∨ s.backBuffer.height < clipBottom then (.badViewport, s)
      else if !s.state.visible || !rectanglesIntersect clip s.state.viewport then (.ok, s)
      else
        let redraw := rectangleIntersection clip s.state.viewport
        ScreenStatus.andThen (s.draw fun surface => surfaceFillRect surface redraw s.backgroundPixel)
          fun s => ScreenStatus.andThen
            (paintCells redraw (grid (List.range s.state.rows) (List.range s.state.columns)) s)
            fun s => s.presentUnlessDeferred

def reflow (columns rows : Nat) : Console :=
  let oldColumns := s.state.columns
  let oldRows := s.state.rows
  let oldRow := s.state.row
  if columns ≠ oldColumns ∨ rows ≠ oldRows then
    let activeRows := if add32 oldRow 1 < oldRows then add32 oldRow 1 else oldRows
    let firstRow := if rows < activeRows then activeRows - rows else 0
    let copiedRows := if activeRows - firstRow < rows then activeRows - firstRow else rows
    let copiedColumns := if oldColumns < columns then oldColumns else columns
    let row := if firstRow ≤ oldRow then oldRow - firstRow else 0
    (s.withCells (reflowCells firstRow copiedRows copiedColumns columns rows s.cells)).moveTo
      s.state.column (if rows ≤ row then rows - 1 else row)
  else s

def Console.withGrid (viewport : Rect) (columns rows : Nat) (visible : Bool) : Console :=
  { s with
    state := { s.state with
      viewport := viewport
      columns := columns
      rows := rows
      column := if columns ≤ s.state.column then columns - 1 else s.state.column
      visible := visible } }

def screenSetViewport (viewport : Rect) (visible : Bool) : ScreenStatus × Console :=
  if !s.state.active then (.notInitialized, s)
  else
    match rectangleEnd viewport,
        gridFor viewport.width viewport.height s.state.cellWidth s.state.cellHeight with
    | some (right, bottom), some (columns, rows) =>
      if s.backBuffer.width < right ∨ s.backBuffer.height < bottom then (.badViewport, s)
      else if screenMaxColumns < columns ∨ screenMaxRows < rows then (.cellCapacity, s)
      else
        let s := (reflow s columns rows).withGrid viewport columns rows visible
        if visible then screenRedrawRegion s viewport else (.ok, s)
    | _, _ => (.badViewport, s)

def Console.withVisible (visible : Bool) : Console :=
  { s with state := { s.state with visible := visible } }

def screenSetVisible (visible : Bool) : ScreenStatus × Console :=
  if !s.state.active then (.notInitialized, s)
  else
    if visible then screenRedrawRegion (s.withVisible visible) s.state.viewport
    else (.ok, s.withVisible visible)

def Console.withDeferredPresent (deferred : Bool) : Console :=
  { s with state := { s.state with deferredPresent := deferred } }

def screenSetDeferredPresent (deferred : Bool) : ScreenStatus × Console :=
  if !s.state.active then (.notInitialized, s) else (.ok, s.withDeferredPresent deferred)

def putGlyph (character : UInt8) : ScreenStatus × Console :=
  ScreenStatus.andThen
    (drawCell (s.withCells (setCell s.cells (s.state.column, s.state.row) character)) s.state.column
      s.state.row character)
    fun s => (.ok, (s.moveTo (s.state.column + 1) s.state.row).countCharacter)

def screenPutc (character : UInt8) : ScreenStatus × Console :=
  if !s.state.active then (.notInitialized, s)
  else if character = 0x0A then newline s
  else if character = 0x0D then (.ok, s.moveTo 0 s.state.row)
  else if character = 0x08 then
    (.ok, if 0 < s.state.column then s.moveTo (s.state.column - 1) s.state.row else s)
  else if s.state.columns ≤ s.state.column then
    ScreenStatus.andThen (newline s) fun s => putGlyph s character
  else putGlyph s character

end

end Sapote.Graphics
