import Sapote.Heap.Table
import Sapote.Library.Raster

/-!
The cached picture of `surface.c` and the device's picture behind it. Both are bytes: the
surface has its own storage, and the framebuffer's is indexed from its address. Numbers of
`uint32_t` are below `2 ^ 32`; sums that the code forms in that type wrap there.
-/

namespace Sapote.Graphics

open Library
open Heap (heapSize)

inductive SurfaceStatus where
  | ok | nullArgument | alreadyInitialized | notInitialized | badGeometry | sizeOverflow
  | allocationFailure | outOfBounds | rectangleOverflow | badSourcePitch | noFramebuffer
  | framebufferMismatch
  deriving DecidableEq

def uint32Max : Nat := 2 ^ 32 - 1

def add32 (a b : Nat) : Nat := (a + b) % 2 ^ 32

def sub32 (a b : Nat) : Nat := (a + 2 ^ 32 - b) % 2 ^ 32

def add64 (a b : Nat) : Nat := (a + b) % 2 ^ 64

def surfaceBytesPerPixel : Nat := 4

structure SurfaceDamage where
  pending : Bool
  rectangle : Rect
  deriving DecidableEq

structure Surface where
  active : Bool
  (width height pitch : Nat)
  pixels : Storage
  damage : SurfaceDamage
  (presents lastPresentPixels presentedPixels : Nat)

structure Framebuffer where
  active : Bool
  (address size pitch width height : Nat)
  (redPosition greenPosition bluePosition : UInt8)
  storage : Storage

def framebufferPack (framebuffer : Framebuffer) (red green blue : UInt8) : UInt32 :=
  (red.toUInt32 <<< framebuffer.redPosition.toUInt32) |||
    (green.toUInt32 <<< framebuffer.greenPosition.toUInt32) |||
    (blue.toUInt32 <<< framebuffer.bluePosition.toUInt32)

def clearedDamage : SurfaceDamage := ⟨false, ⟨0, 0, 0, 0⟩⟩

def clearDamage (surface : Surface) : Surface := { surface with damage := clearedDamage }

def joinDamage (old new : Rect) : Rect :=
  let left := min old.x new.x
  let top := min old.y new.y
  let right := max (add32 old.x old.width) (add32 new.x new.width)
  let bottom := max (add32 old.y old.height) (add32 new.y new.height)
  ⟨left, top, sub32 right left, sub32 bottom top⟩

def addDamage (surface : Surface) (rectangle : Rect) : Surface :=
  if rectangle.width = 0 ∨ rectangle.height = 0 then surface
  else if !surface.damage.pending then { surface with damage := ⟨true, rectangle⟩ }
  else { surface with damage := ⟨true, joinDamage surface.damage.rectangle rectangle⟩ }

def clipRectangle (surface : Surface) (requested : Rect) : SurfaceStatus × Rect :=
  if requested.width = 0 ∨ requested.height = 0 then
    (.ok, { requested with width := 0, height := 0 })
  else if surface.width ≤ requested.x ∨ surface.height ≤ requested.y then (.outOfBounds, requested)
  else if uint32Max - requested.x < requested.width ∨ uint32Max - requested.y < requested.height then
    (.rectangleOverflow, requested)
  else
    (.ok, { requested with
      width := min requested.width (surface.width - requested.x)
      height := min requested.height (surface.height - requested.y) })

def bindSurface (width height pitch : Nat) (pixels : Option Storage) : Except SurfaceStatus Surface :=
  match pixels with
  | none => .error .nullArgument
  | some pixels =>
    if width = 0 ∨ height = 0 ∨ uint32Max / surfaceBytesPerPixel < width ∨
        pitch < width * surfaceBytesPerPixel ∨ pitch % surfaceBytesPerPixel ≠ 0 then
      .error .badGeometry
    else
      .ok ⟨true, width, height, pitch, pixels, clearedDamage, 0, 0, 0⟩

/-- `allocation` is what `heap_allocate` hands out. -/
def surfaceInitialize (surface : Surface) (width height : Nat) (allocation : Option Storage) :
    SurfaceStatus × Surface :=
  if surface.active then (.alreadyInitialized, surface)
  else if width = 0 ∨ height = 0 then (.badGeometry, surface)
  else if uint32Max / surfaceBytesPerPixel < width then (.sizeOverflow, surface)
  else
    let pitch := width * surfaceBytesPerPixel
    if heapSize < pitch * height then (.sizeOverflow, surface)
    else
      match allocation with
      | none => (.allocationFailure, surface)
      | some pixels =>
        match bindSurface width height pitch (some pixels) with
        | .ok bound => (.ok, bound)
        | .error status => (status, surface)

section
variable (surface : Surface)

def setPixel (pixels : Storage) (x y : Nat) (value : UInt32) : Storage :=
  putPixel surface.pitch pixels (x, y) value

def surfaceFillRect (rectangle : Rect) (pixel : UInt32) : SurfaceStatus × Surface :=
  if !surface.active then (.notInitialized, surface)
  else
    let (status, clipped) := clipRectangle surface rectangle
    if status ≠ .ok ∨ clipped.width = 0 ∨ clipped.height = 0 then (status, surface)
    else
      let pixels := overGrid (List.range clipped.height) (List.range clipped.width)
        (fun pixels x y =>
          setPixel surface pixels (add32 clipped.x x) (add32 clipped.y y) pixel) surface.pixels
      (.ok, addDamage { surface with pixels := pixels } clipped)

def surfaceBlit (destinationX destinationY : Nat) (source : Option Storage)
    (sourceWidth sourceHeight sourcePitch : Nat) : SurfaceStatus × Surface :=
  match source with
  | none => (.nullArgument, surface)
  | some source =>
    if !surface.active then (.notInitialized, surface)
    else if sourceWidth = 0 ∨ sourceHeight = 0 then (.ok, surface)
    else if uint32Max / surfaceBytesPerPixel < sourceWidth ∨
        sourcePitch < sourceWidth * surfaceBytesPerPixel ∨ sourcePitch % surfaceBytesPerPixel ≠ 0 then
      (.badSourcePitch, surface)
    else
      let (status, clipped) :=
        clipRectangle surface ⟨destinationX, destinationY, sourceWidth, sourceHeight⟩
      if status ≠ .ok then (status, surface)
      else
        let pixels := overGrid (List.range clipped.height) (List.range clipped.width)
          (fun pixels x y =>
            setPixel surface pixels (add32 clipped.x x) (add32 clipped.y y)
              (pixelAt sourcePitch source (x, y))) surface.pixels
        (.ok, addDamage { surface with pixels := pixels } clipped)

/-- The order of the rows, and of the pixels in one, in which a copy meets no pixel that it
has written. -/
def copyRows (source : Rect) (destinationY copyHeight : Nat) : List Nat :=
  if source.y < destinationY then (List.range copyHeight).reverse else List.range copyHeight

def copyColumns (source : Rect) (destinationX destinationY copyWidth : Nat) : List Nat :=
  if destinationY = source.y ∧ source.x < destinationX then (List.range copyWidth).reverse
  else List.range copyWidth

def surfaceCopyRect (source : Rect) (destinationX destinationY : Nat) : SurfaceStatus × Surface :=
  if !surface.active then (.notInitialized, surface)
  else
    let (status, sourceClipped) := clipRectangle surface source
    if status ≠ .ok ∨ sourceClipped.width = 0 ∨ sourceClipped.height = 0 then (status, surface)
    else
      let (status, destinationClipped) :=
        clipRectangle surface ⟨destinationX, destinationY, source.width, source.height⟩
      if status ≠ .ok then (status, surface)
      else
        let copyWidth := min sourceClipped.width destinationClipped.width
        let copyHeight := min sourceClipped.height destinationClipped.height
        let pixels := overGrid (copyRows source destinationY copyHeight)
          (copyColumns source destinationX destinationY copyWidth)
          (fun pixels x y =>
            setPixel surface pixels (add32 destinationX x) (add32 destinationY y)
              (pixelAt surface.pitch pixels (add32 source.x x, add32 source.y y))) surface.pixels
        (.ok, addDamage { surface with pixels := pixels }
          { destinationClipped with width := copyWidth, height := copyHeight })

def surfacePixel (x y : Nat) (pixel : UInt32) : SurfaceStatus × Surface :=
  if !surface.active then (.notInitialized, surface)
  else if surface.width ≤ x ∨ surface.height ≤ y then (.outOfBounds, surface)
  else (.ok, addDamage { surface with pixels := setPixel surface surface.pixels x y pixel } ⟨x, y, 1, 1⟩)

def surfacePresent (framebuffer : Framebuffer) : SurfaceStatus × Surface × Framebuffer :=
  if !surface.active then (.notInitialized, surface, framebuffer)
  else if !framebuffer.active then (.noFramebuffer, surface, framebuffer)
  else if framebuffer.width ≠ surface.width ∨ framebuffer.height ≠ surface.height then
    (.framebufferMismatch, surface, framebuffer)
  else if !surface.damage.pending then
    (.ok, { surface with lastPresentPixels := 0 }, framebuffer)
  else
    let damage := surface.damage.rectangle
    let storage := overGrid (List.range damage.height) (List.range damage.width)
      (fun storage x y =>
        putPixel framebuffer.pitch storage (damage.x + x, add32 damage.y y)
          (pixelAt surface.pitch surface.pixels (add32 damage.x x, add32 damage.y y))) framebuffer.storage
    let copied := damage.width * damage.height % 2 ^ 64
    (.ok, clearDamage { surface with
        presents := add64 surface.presents 1
        lastPresentPixels := copied
        presentedPixels := add64 surface.presentedPixels copied },
      { framebuffer with storage := storage })

end

end Sapote.Graphics
