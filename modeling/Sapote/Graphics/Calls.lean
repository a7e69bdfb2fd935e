import Sapote.Graphics.Surface

/-!
The drawing calls on a surface. One that is accepted changes the pixels of one rectangle inside
the picture and adds it to the damage; one that is refused changes nothing.
-/

namespace Sapote.Graphics
open List

open Library
variable {value : Nat × Nat → UInt32} {result : SurfaceStatus × Surface} {surface : Surface}
  {width height : Nat} {r source : Rect}

/-- The geometry that `bind_surface` accepts, on an active surface. -/
structure Surface.Bound (surface : Surface) : Prop where
  active : surface.active
  narrow : surface.width ≤ uint32Max / 4
  tall : surface.height ≤ uint32Max
  fits : surface.width * 4 ≤ surface.pitch

theorem bound_of_bindSurface {pitch : Nat} {pixels : Option Storage} (tall : height ≤ uint32Max)
    (bound : bindSurface width height pitch pixels = .ok surface) :
    surface.Bound ∧ surface.width = width ∧ surface.height = height ∧ 0 < width ∧ 0 < height := by
  cases pixels with
  | none => cases bound
  | some pixels =>
    rw [bindSurface] at bound
    split at bound
    · cases bound
    · next good =>
        cases bound
        simp only [surfaceBytesPerPixel, not_or, not_lt] at good
        exact ⟨⟨rfl, good.2.2.1, tall, good.2.2.2.1⟩, rfl, rfl, by omega, by omega⟩

theorem Surface.Bound.running (bound : surface.Bound) : ¬(!surface.active) = true := by
  rw [bound.active]
  nofun

structure Framebuffer.Sound (framebuffer : Framebuffer) : Prop where
  active : framebuffer.active
  narrow : framebuffer.width ≤ uint32Max
  tall : framebuffer.height ≤ uint32Max
  fits : framebuffer.width * 4 ≤ framebuffer.pitch

def Surface.pixel (surface : Surface) (p : Nat × Nat) : UInt32 := pixelAt surface.pitch surface.pixels p

def Framebuffer.pixel (framebuffer : Framebuffer) (p : Nat × Nat) : UInt32 :=
  pixelAt framebuffer.pitch framebuffer.storage p

theorem add32_eq {a b c : Nat} (low : a + b ≤ c) (small : c ≤ uint32Max) : add32 a b = a + b := by
  rw [uint32Max] at small
  exact Nat.mod_eq_of_lt (by omega)

theorem sub32_eq {a b : Nat} (low : b ≤ a) (small : a ≤ uint32Max) : sub32 a b = a - b := by
  rw [uint32Max] at small
  rw [sub32]
  omega

/-- The joined damage stays inside the picture and covers both parts. -/
theorem joinDamage_spec (wide : width ≤ uint32Max) (tall : height ≤ uint32Max) {old new : Rect}
    (first : old.Inside width height) (second : new.Inside width height) :
    (joinDamage old new).Inside width height ∧
      ∀ p, old.Has p ∨ new.Has p → (joinDamage old new).Has p := by
  obtain ⟨⟨ow, oh⟩, oright, obottom⟩ := first
  obtain ⟨⟨nw, nh⟩, nright, nbottom⟩ := second
  have right := sub32_eq (a := max (old.x + old.width) (new.x + new.width)) (b := min old.x new.x)
    (by omega) (by omega)
  have bottom := sub32_eq (a := max (old.y + old.height) (new.y + new.height)) (b := min old.y new.y)
    (by omega) (by omega)
  simp only [joinDamage, add32_eq oright wide, add32_eq nright wide, add32_eq obottom tall,
    add32_eq nbottom tall, right, bottom]
  refine ⟨⟨by simp only; omega, by simp only; omega, by simp only; omega⟩, ?_⟩
  rintro p (held | held)
  · simp only [Rect.Has] at held ⊢
    omega
  · simp only [Rect.Has] at held ⊢
    omega

def Surface.Pending (surface : Surface) : Prop :=
  surface.damage.pending → surface.damage.rectangle.Inside surface.width surface.height

def Surface.Damaged (surface : Surface) (p : Nat × Nat) : Prop :=
  surface.damage.pending ∧ surface.damage.rectangle.Has p

theorem addDamage_rest (surface : Surface) (r : Rect) :
    ∃ damage, addDamage surface r = { surface with damage := damage } := by
  rw [addDamage]
  split
  · exact ⟨surface.damage, rfl⟩
  · split
    · exact ⟨_, rfl⟩
    · exact ⟨_, rfl⟩

theorem addDamage_pixel (surface : Surface) (r : Rect) (p : Nat × Nat) :
    (addDamage surface r).pixel p = surface.pixel p := by
  obtain ⟨damage, same⟩ := addDamage_rest surface r
  rw [same]
  rfl

theorem addDamage_spec {r : Rect} (wide : surface.width ≤ uint32Max)
    (tall : surface.height ≤ uint32Max) (inside : r.Inside surface.width surface.height)
    (sound : surface.Pending) :
    (addDamage surface r).Pending ∧
      ∀ p, surface.Damaged p ∨ r.Has p → (addDamage surface r).Damaged p := by
  have size := inside.some
  rw [addDamage, if_neg (by omega)]
  split
  · next none =>
      rw [Bool.not_eq_true'] at none
      refine ⟨fun _ => inside, ?_⟩
      rintro p (⟨pending, -⟩ | held)
      · rw [none] at pending
        cases pending
      · exact ⟨rfl, held⟩
  · next some =>
      simp only [Bool.not_eq_true', Bool.not_eq_false] at some
      obtain ⟨within, covers⟩ := joinDamage_spec wide tall (sound some) inside
      refine ⟨fun _ => within, ?_⟩
      rintro p (⟨-, held⟩ | held)
      · exact ⟨rfl, covers p (.inl held)⟩
      · exact ⟨rfl, covers p (.inr held)⟩

/-- What an accepted drawing call leaves: new pixels in one rectangle, which is now damaged. -/
structure Drawn (before after : Surface) (r : Rect) (value : Nat × Nat → UInt32) : Prop where
  inside : r.Inside before.width before.height
  pixels : ∀ p, p.1 < before.width → after.pixel p = if r.Has p then value p else before.pixel p
  rest : ∃ storage, after = addDamage { before with pixels := storage } r

/-- Clipping refuses, or leaves nothing, or leaves a part of the picture at the same corner. -/
theorem clipRectangle_cases (surface : Surface) (requested : Rect) :
    let result := clipRectangle surface requested
    result.1 ≠ .ok ∨
      (result.1 = .ok ∧ result.2.width = 0 ∧ (requested.width = 0 ∨ requested.height = 0)) ∨
      result.1 = .ok ∧ result.2.Inside surface.width surface.height ∧
        result.2.x = requested.x ∧ result.2.y = requested.y ∧
        result.2.width = min requested.width (surface.width - requested.x) ∧
        result.2.height = min requested.height (surface.height - requested.y) := by
  intro result
  unfold result clipRectangle
  split
  · next none => exact .inr (.inl ⟨rfl, rfl, none⟩)
  split
  · exact .inl nofun
  split
  · exact .inl nofun
  · refine .inr (.inr ⟨rfl, ⟨⟨?_, ?_⟩, ?_, ?_⟩, rfl, rfl, rfl, rfl⟩) <;> simp only <;> omega

theorem clipRectangle_inside (bound : surface.Bound)
    (inside : r.Inside surface.width surface.height) : clipRectangle surface r = (.ok, r) := by
  obtain ⟨-, narrow, tall, -⟩ := bound
  obtain ⟨size, right, bottom⟩ := inside
  rw [uint32Max] at narrow tall
  rw [clipRectangle, if_neg (by omega), if_neg (by omega), uint32Max, if_neg (by omega),
    min_eq_left (by omega), min_eq_left (by omega)]

/-- The sums of a loop do not wrap inside the picture. -/
theorem setPixel_inside (bound : surface.Bound) (inside : r.Inside surface.width surface.height)
    {x y : Nat} (column : x < r.width) (row : y < r.height) (pixels : Storage) (value : UInt32) :
    setPixel surface pixels (add32 r.x x) (add32 r.y y) value =
      putPixel surface.pitch pixels (r.x + x, r.y + y) value := by
  have narrow := bound.narrow
  have right := inside.right
  have bottom := inside.bottom
  rw [setPixel, add32_eq (show r.x + x ≤ surface.width by omega) (by omega),
    add32_eq (show r.y + y ≤ surface.height by omega) bound.tall]

theorem drawn_of_loops (bound : surface.Bound) (inside : r.Inside surface.width surface.height)
    (value : Nat → Nat → UInt32) :
    Drawn surface (addDamage { surface with
      pixels := overGrid (List.range r.height) (List.range r.width)
        (fun pixels x y => setPixel surface pixels (add32 r.x x) (add32 r.y y) (value x y))
        surface.pixels } r) r fun p => value (p.1 - r.x) (p.2 - r.y) := by
  refine ⟨inside, fun p column => ?_, ⟨_, rfl⟩⟩
  rw [addDamage_pixel, Surface.pixel]
  refine (congrArg (pixelAt surface.pitch · p) (overGrid_congr ?_ surface.pixels)).trans
    ((pixels_assign bound.fits).overGrid_range (fun q held => ?_) value surface.pixels column)
  · intro pixels x y across down
    exact setPixel_inside bound inside (mem_range.mp across) (mem_range.mp down) pixels _
  · exact held.2.1.trans_le inside.right

theorem Rect.Inside.drawable (inside : r.Inside width height) :
    ¬(SurfaceStatus.ok ≠ .ok ∨ r.width = 0 ∨ r.height = 0) := by
  have size := inside.some
  rintro (refused | wide | tall)
  · exact refused rfl
  · omega
  · omega

/-- A call that is accepted and draws. -/
def Draws (surface : Surface) (result : SurfaceStatus × Surface) (r : Rect)
    (value : Nat × Nat → UInt32) : Prop :=
  result.1 = .ok ∧ Drawn surface result.2 r value

theorem surfaceFillRect_inside (bound : surface.Bound) {pixel : UInt32} {requested : Rect}
    (clipped : clipRectangle surface requested = (.ok, r))
    (inside : r.Inside surface.width surface.height) :
    Draws surface (surfaceFillRect surface requested pixel) r fun _ => pixel := by
  rw [surfaceFillRect, if_neg bound.running, clipped]
  dsimp only
  rw [if_neg (Rect.Inside.drawable inside)]
  exact ⟨rfl, drawn_of_loops bound inside fun _ _ => pixel⟩

inductive Outcome (surface : Surface) : SurfaceStatus × Surface → Prop
  | refused {status : SurfaceStatus} (no : status ≠ .ok) : Outcome surface (status, surface)
  | empty : Outcome surface (.ok, surface)
  | drawn {after : Surface} {r : Rect} {value : Nat × Nat → UInt32} (done : Drawn surface after r value) :
      Outcome surface (.ok, after)

theorem Draws.outcome (draws : Draws surface result r value) : Outcome surface result := by
  rw [← Prod.eta result, draws.1]
  exact .drawn draws.2

theorem surfaceFillRect_outcome (bound : surface.Bound) (requested : Rect) (pixel : UInt32) :
    Outcome surface (surfaceFillRect surface requested pixel) := by
  obtain no | ⟨yes, none, -⟩ | ⟨yes, inside, -⟩ := clipRectangle_cases surface requested
  · rw [surfaceFillRect, if_neg bound.running]
    dsimp only
    rw [if_pos (.inl no)]
    exact .refused no
  · rw [surfaceFillRect, if_neg bound.running]
    dsimp only
    rw [if_pos (.inr (.inl none)), yes]
    exact .empty
  · exact (surfaceFillRect_inside bound (Prod.ext yes rfl) inside).outcome

theorem surfaceBlit_inside (bound : surface.Bound) {destinationX destinationY : Nat} {source : Storage}
    {sourceWidth sourceHeight sourcePitch : Nat} {r : Rect}
    (some : sourceWidth ≠ 0 ∧ sourceHeight ≠ 0) (narrow : sourceWidth ≤ uint32Max / 4)
    (fits : sourceWidth * 4 ≤ sourcePitch) (whole : sourcePitch % 4 = 0)
    (clipped : clipRectangle surface ⟨destinationX, destinationY, sourceWidth, sourceHeight⟩ = (.ok, r))
    (inside : r.Inside surface.width surface.height) :
    Draws surface
      (surfaceBlit surface destinationX destinationY source sourceWidth sourceHeight sourcePitch) r
      fun p => pixelAt sourcePitch source (p.1 - r.x, p.2 - r.y) := by
  rw [surfaceBlit, if_neg bound.running]
  rw [if_neg (by omega), surfaceBytesPerPixel, if_neg (by omega), clipped]
  dsimp only
  rw [if_neg fun no => no rfl]
  exact ⟨rfl, drawn_of_loops bound inside fun x y => pixelAt sourcePitch source (x, y)⟩

theorem surfaceBlit_outcome (bound : surface.Bound) (destinationX destinationY : Nat)
    (source : Option Storage) (sourceWidth sourceHeight sourcePitch : Nat) :
    Outcome surface
      (surfaceBlit surface destinationX destinationY source sourceWidth sourceHeight sourcePitch) := by
  cases source with
  | none => exact .refused nofun
  | some source => ?_
  by_cases none : sourceWidth = 0 ∨ sourceHeight = 0
  · rw [surfaceBlit]
    simp only [if_neg bound.running, if_pos none]
    exact .empty
  by_cases bad : uint32Max / 4 < sourceWidth ∨ sourcePitch < sourceWidth * 4 ∨ sourcePitch % 4 ≠ 0
  · rw [surfaceBlit]
    simp only [if_neg bound.running, if_neg none, surfaceBytesPerPixel, if_pos bad]
    exact .refused nofun
  rcases clipRectangle_cases surface ⟨destinationX, destinationY, sourceWidth, sourceHeight⟩ with
    no | ⟨-, -, gone⟩ | ⟨yes, inside, -⟩
  · rw [surfaceBlit]
    simp only [if_neg bound.running, if_neg none, surfaceBytesPerPixel, if_neg bad]
    rw [if_pos no]
    exact .refused no
  · exact absurd gone none
  · exact (surfaceBlit_inside bound (by omega) (by omega) (by omega) (by omega)
      (Prod.ext yes rfl) inside).outcome

section
variable {c : Prop} [Decidable c] {n x : Nat}

theorem mem_range_reverse :
    x ∈ (if c then (List.range n).reverse else List.range n) ↔ x < n := by
  split
  · rw [mem_reverse, mem_range]
  · exact mem_range

theorem pairwise_range_reverse :
    (if c then (List.range n).reverse else List.range n).Pairwise
      fun a b => if c then b < a else a < b := by
  split
  · exact pairwise_reverse.mpr pairwise_lt_range
  · exact pairwise_lt_range

end

/-- The order of a copy: no pixel is read after it was written. -/
theorem copy_fresh (source : Rect) (destinationX destinationY width height : Nat) :
    (grid (copyRows source destinationY height) (copyColumns source destinationX destinationY width)).Pairwise
      fun p q => q ≠ p ∧ (source.x + q.1, source.y + q.2) ≠ (destinationX + p.1, destinationY + p.2) := by
  refine (pairwise_grid pairwise_range_reverse pairwise_range_reverse).imp fun {p q} before => ⟨?_, ?_⟩
  · rintro rfl
    split at before <;> split at before <;> omega
  · intro same
    rw [Prod.mk.injEq] at same
    split at before <;> split at before <;> omega

theorem mem_copyRows {destinationY y : Nat} :
    y ∈ copyRows source destinationY height ↔ y < height := mem_range_reverse

theorem mem_copyColumns {destinationX destinationY x : Nat} :
    x ∈ copyColumns source destinationX destinationY width ↔ x < width := mem_range_reverse

section
variable (bound : surface.Bound)
include bound

/-- A copy leaves in its rectangle what the other one held before. -/
theorem drawn_of_copy {source r : Rect}
    (inside : r.Inside surface.width surface.height) (right : source.x + r.width ≤ surface.width)
    (bottom : source.y + r.height ≤ surface.height) :
    Drawn surface (addDamage { surface with
      pixels := overGrid (copyRows source r.y r.height) (copyColumns source r.x r.y r.width)
        (fun pixels x y => setPixel surface pixels (add32 r.x x) (add32 r.y y)
          (pixelAt surface.pitch pixels (add32 source.x x, add32 source.y y)))
        surface.pixels } r) r
      fun p => surface.pixel (source.x + (p.1 - r.x), source.y + (p.2 - r.y)) := by
  have narrow := bound.narrow
  have right' := inside.right
  have law := pixels_assign bound.fits
  refine ⟨inside, fun p column => ?_, ⟨_, rfl⟩⟩
  rw [addDamage_pixel, Surface.pixel]
  refine (congrArg (pixelAt surface.pitch · p) (overGrid_congr (fun pixels x y across down =>
    (?_ : _ = putPixel surface.pitch pixels (r.x + x, r.y + y)
      (pixelAt surface.pitch pixels (source.x + x, source.y + y)))) surface.pixels)).trans
    (law.overGrid (fun _ => mem_copyRows) (fun _ => mem_copyColumns)
      (fun q held => held.2.1.trans_le right') ?_ surface.pixels column)
  · rw [mem_copyColumns] at across
    rw [mem_copyRows] at down
    rw [setPixel_inside bound inside across down,
      add32_eq (show source.x + x ≤ surface.width by omega) (by omega),
      add32_eq (show source.y + y ≤ surface.height by omega) bound.tall]
  refine (copy_fresh source r.x r.y r.width r.height).imp_of_mem fun {p q} first second fresh => ?_
  rw [mem_grid, mem_copyColumns] at first second
  refine ⟨fresh.1, fun pixels value => law.other _ _ _ _ ?_ ?_ fresh.2⟩ <;> simp only <;> omega

theorem surfaceCopyRect_inside {destinationX destinationY : Nat} {from' to' : Rect}
    (first : clipRectangle surface source = (.ok, from'))
    (inside : from'.Inside surface.width surface.height)
    (corner : from'.x = source.x ∧ from'.y = source.y)
    (second : clipRectangle surface ⟨destinationX, destinationY, source.width, source.height⟩ = (.ok, to'))
    (inside' : to'.Inside surface.width surface.height)
    (corner' : to'.x = destinationX ∧ to'.y = destinationY) :
    Draws surface (surfaceCopyRect surface source destinationX destinationY)
      ⟨destinationX, destinationY, min from'.width to'.width, min from'.height to'.height⟩
      fun p => surface.pixel (source.x + (p.1 - destinationX), source.y + (p.2 - destinationY)) := by
  obtain ⟨rfl, rfl⟩ := corner'
  obtain ⟨size, right, bottom⟩ := inside
  obtain ⟨size', right', bottom'⟩ := inside'
  rw [surfaceCopyRect, if_neg bound.running, first]
  dsimp only
  rw [if_neg (Rect.Inside.drawable ⟨size, right, bottom⟩), second]
  rw [if_neg fun no => no rfl]
  refine ⟨rfl, @drawn_of_copy surface bound source
    ⟨to'.x, to'.y, min from'.width to'.width, min from'.height to'.height⟩ ⟨?_, ?_, ?_⟩ ?_ ?_⟩ <;>
    simp only <;> omega

def copiedArea (surface : Surface) (source : Rect) (destinationX destinationY : Nat) : Rect where
  x := destinationX
  y := destinationY
  width := min (min source.width (surface.width - source.x))
    (min source.width (surface.width - destinationX))
  height := min (min source.height (surface.height - source.y))
    (min source.height (surface.height - destinationY))

theorem surfaceCopyRect_empty {source : Rect} (empty : source.height = 0)
    (destinationX destinationY : Nat) :
    surfaceCopyRect surface source destinationX destinationY = (.ok, surface) := by
  rw [surfaceCopyRect, if_neg bound.running, clipRectangle, if_pos (.inr empty)]
  exact if_pos (.inr (.inl rfl))

/-- A copy is refused, or copies from an empty rectangle, or reaches the pixels that are
inside the surface on both sides. -/
theorem surfaceCopyRect_cases (source : Rect) (destinationX destinationY : Nat) :
    let result := surfaceCopyRect surface source destinationX destinationY
    (result.1 ≠ .ok ∧ result.2 = surface) ∨
      ((source.width = 0 ∨ source.height = 0) ∧ result = (.ok, surface)) ∨
      Draws surface result (copiedArea surface source destinationX destinationY) fun p =>
        surface.pixel (source.x + (p.1 - destinationX), source.y + (p.2 - destinationY)) := by
  rcases clipRectangle_cases surface source with no | ⟨yes, none, empty⟩ |
    ⟨yes, inside, left, top, wide, tall⟩
  · rw [surfaceCopyRect, if_neg bound.running]
    dsimp only
    rw [if_pos (.inl no)]
    exact .inl ⟨no, rfl⟩
  · rw [surfaceCopyRect, if_neg bound.running]
    dsimp only
    rw [if_pos (.inr (.inl none)), yes]
    exact .inr (.inl ⟨empty, rfl⟩)
  rcases clipRectangle_cases surface ⟨destinationX, destinationY, source.width, source.height⟩ with
    no | ⟨yes', -, gone⟩ | ⟨yes', inside', left', top', wide', tall'⟩
  · rw [surfaceCopyRect, if_neg bound.running]
    dsimp only
    rw [yes, if_neg (Rect.Inside.drawable inside), if_pos no]
    exact .inl ⟨no, rfl⟩
  · have size := inside.some
    simp only at gone
    omega
  · have draws := surfaceCopyRect_inside bound (Prod.ext yes rfl) inside ⟨left, top⟩
      (Prod.ext yes' rfl) inside' ⟨left', top'⟩
    rw [wide, tall, wide', tall'] at draws
    exact .inr (.inr draws)

theorem surfaceCopyRect_outcome (source : Rect) (destinationX destinationY : Nat) :
    Outcome surface (surfaceCopyRect surface source destinationX destinationY) := by
  have cases := surfaceCopyRect_cases bound source destinationX destinationY
  generalize surfaceCopyRect surface source destinationX destinationY = result at cases
  obtain ⟨no, rfl⟩ | ⟨-, same⟩ | draws := cases
  · exact .refused no
  · cases same
    exact .empty
  · exact draws.outcome

theorem surfacePixel_outcome (x y : Nat) (pixel : UInt32) :
    Outcome surface (surfacePixel surface x y pixel) := by
  rw [surfacePixel, if_neg bound.running]
  split
  · exact .refused nofun
  next here =>
  simp only [not_or, not_le] at here
  have law := pixels_assign bound.fits
  have drawn : Drawn surface
      (addDamage { surface with pixels := setPixel surface surface.pixels x y pixel } ⟨x, y, 1, 1⟩)
      ⟨x, y, 1, 1⟩ fun _ => pixel := by
    refine ⟨⟨⟨one_pos, one_pos⟩, here.1, here.2⟩, fun p column => ?_, ⟨_, rfl⟩⟩
    rw [addDamage_pixel]
    split
    · next held =>
        simp only [Rect.Has] at held
        have same : p = (x, y) := Prod.ext (by simp only; omega) (by simp only; omega)
        rw [same]
        exact law.same _ _ _ here.1
    · next other =>
        refine law.other _ _ _ _ here.1 column fun same => other ?_
        simp only [same, Rect.Has]
        omega
  exact .drawn drawn

end

/-- However the two rectangles overlap, a copy moves the pixels that were there before it,
and no other pixel changes. -/
theorem copy_rect_moves {surface : Surface} (bound : surface.Bound) (source : Rect)
    (destinationX destinationY : Nat)
    (ok : (surfaceCopyRect surface source destinationX destinationY).1 = .ok) :
    let after := (surfaceCopyRect surface source destinationX destinationY).2
    let area := copiedArea surface source destinationX destinationY
    (∀ i j, i < area.width → j < area.height →
        after.pixel (destinationX + i, destinationY + j) =
          surface.pixel (source.x + i, source.y + j)) ∧
      ∀ p : Nat × Nat, p.1 < surface.width → ¬area.Has p → after.pixel p = surface.pixel p := by
  intro after area
  rcases surfaceCopyRect_cases bound source destinationX destinationY with
    ⟨no, -⟩ | ⟨empty, same⟩ | ⟨-, inside, pixels, -⟩
  · exact absurd ok no
  · have unmoved : after = surface := congrArg Prod.snd same
    rw [unmoved]
    refine ⟨fun i j across down => ?_, fun _ _ _ => rfl⟩
    simp only [area, copiedArea] at across down
    omega
  · refine ⟨fun i j across down => ?_, fun p column other => (pixels p column).trans (if_neg other)⟩
    have right : destinationX + i < surface.width := (Nat.add_lt_add_left across _).trans_le inside.right
    have held : area.Has (destinationX + i, destinationY + j) := by
      simp only [Rect.Has, area, copiedArea] at across down ⊢
      omega
    rw [pixels _ right, if_pos held, Nat.add_sub_cancel_left, Nat.add_sub_cancel_left]

/-- Three different pixels. -/
def rampSurface : Surface := ⟨true, 3, 1, 12, UInt8.ofNat, clearedDamage, 0, 0, 0⟩

/-- Two pixels to the right over each other, the order in which the code goes backwards. -/
theorem copy_rect_moves_right :
    let after := (surfaceCopyRect rampSurface ⟨0, 0, 2, 1⟩ 1 0).2
    after.pixel (1, 0) = 0x03020100 ∧ after.pixel (2, 0) = 0x07060504 := by
  obtain ⟨moved, -⟩ := @copy_rect_moves rampSurface ⟨rfl, by decide, by decide, by decide⟩
    ⟨0, 0, 2, 1⟩ 1 0 (by decide)
  exact ⟨(moved 0 0 (by decide) (by decide)).trans (by decide +kernel),
    (moved 1 0 (by decide) (by decide)).trans (by decide +kernel)⟩

end Sapote.Graphics
