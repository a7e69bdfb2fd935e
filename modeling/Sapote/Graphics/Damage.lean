import Sapote.Graphics.Calls
import Sapote.Library.Run

/-!
The damage of a surface. A present copies it to the device, so the pixels in which the two
pictures differ stay inside the damage over any run.
-/

namespace Sapote.Graphics
open List

open Library
variable {value : Nat × Nat → UInt32} {result : SurfaceStatus × Surface} {surface after : Surface}
  {r : Rect} {framebuffer : Framebuffer}

structure Matching (surface : Surface) (framebuffer : Framebuffer) : Prop where
  active : framebuffer.active
  width : framebuffer.width = surface.width
  height : framebuffer.height = surface.height
  fits : framebuffer.width * 4 ≤ framebuffer.pitch

/-- Pixels of the picture that the device does not show are damaged. -/
structure Covered (surface : Surface) (framebuffer : Framebuffer) : Prop where
  bound : surface.Bound
  matching : Matching surface framebuffer
  covered : ∀ p : Nat × Nat, p.1 < surface.width → p.2 < surface.height →
    framebuffer.pixel p ≠ surface.pixel p → surface.Damaged p
  pending : surface.Pending

section
variable (drawn : Drawn surface after r value)
include drawn

theorem Drawn.geometry :
    after.active = surface.active ∧ after.width = surface.width ∧ after.height = surface.height ∧
      after.pitch = surface.pitch := by
  obtain ⟨storage, rfl⟩ := drawn.rest
  obtain ⟨damage, same⟩ := addDamage_rest { surface with pixels := storage } r
  rw [same]
  exact ⟨rfl, rfl, rfl, rfl⟩

theorem Drawn.bound (bound : surface.Bound) :
    after.Bound := by
  obtain ⟨active, width, height, pitch⟩ := drawn.geometry
  obtain ⟨running, narrow, tall, fits⟩ := bound
  exact ⟨active.trans running, width ▸ narrow, height ▸ tall, by rwa [width, pitch]⟩

theorem Drawn.matching (matching : Matching surface framebuffer) : Matching after framebuffer := by
  obtain ⟨-, width, height, -⟩ := drawn.geometry
  exact ⟨matching.active, matching.width.trans width.symm, matching.height.trans height.symm,
    matching.fits⟩

end

/-- Drawing adds to the damage what it changes. -/
theorem Covered.drawn (held : Covered surface framebuffer) (drawn : Drawn surface after r value) :
    Covered after framebuffer := by
  obtain ⟨-, width, height, -⟩ := drawn.geometry
  have narrow := held.bound.narrow
  obtain ⟨storage, same⟩ := drawn.rest
  obtain ⟨pending, damaged⟩ := @addDamage_spec { surface with pixels := storage } r
    (by simp only; omega) held.bound.tall drawn.inside held.pending
  rw [← same] at pending damaged
  refine ⟨drawn.bound held.bound, drawn.matching held.matching, fun p column row differ => ?_, pending⟩
  rw [width] at column
  rw [height] at row
  rw [drawn.pixels p column] at differ
  split at differ
  · next inside => exact damaged p (.inr inside)
  · exact damaged p (.inl (held.covered p column row differ))

theorem Outcome.covered (outcome : Outcome surface result) (held : Covered surface framebuffer) :
    Covered result.2 framebuffer := by
  cases outcome with
  | refused | empty => exact held
  | drawn done => exact held.drawn done

theorem Outcome.unchanged (outcome : Outcome surface result) (no : result.1 ≠ .ok) :
    result.2 = surface := by
  cases outcome with
  | refused | empty => rfl
  | drawn done => exact absurd rfl no

def presented (surface : Surface) (framebuffer : Framebuffer) : Storage :=
  let damage := surface.damage.rectangle
  overGrid (List.range damage.height) (List.range damage.width)
    (fun storage x y =>
      putPixel framebuffer.pitch storage (damage.x + x, add32 damage.y y)
        (pixelAt surface.pitch surface.pixels (add32 damage.x x, add32 damage.y y))) framebuffer.storage

/-- The damage is shown, and the rest of the device's picture stays. -/
theorem pixel_presented (held : Covered surface framebuffer) (pending : surface.damage.pending)
    {p : Nat × Nat} (column : p.1 < surface.width) :
    pixelAt framebuffer.pitch (presented surface framebuffer) p =
      if surface.damage.rectangle.Has p then surface.pixel p else framebuffer.pixel p := by
  obtain ⟨size, right, bottom⟩ := held.pending pending
  have narrow := held.bound.narrow
  have fits := held.matching.fits
  rw [held.matching.width] at fits
  generalize damage : surface.damage.rectangle = r at size right bottom
  have loops : presented surface framebuffer = overGrid (.range r.height) (.range r.width)
      (fun storage x y => putPixel framebuffer.pitch storage (r.x + x, r.y + y)
        (surface.pixel (r.x + x, r.y + y))) framebuffer.storage := by
    rw [presented, damage]
    refine overGrid_congr (fun storage x y column row => ?_) framebuffer.storage
    rw [mem_range] at column row
    rw [add32_eq (show r.x + x ≤ surface.width by omega) (by omega),
      add32_eq (show r.y + y ≤ surface.height by omega) held.bound.tall, Surface.pixel]
  rw [loops, (pixels_assign fits).overGrid_range (fun q inside => inside.2.1.trans_le right)
    (fun x y => surface.pixel (r.x + x, r.y + y)) framebuffer.storage column]
  split
  · next inside =>
      rw [show (r.x + (p.1 - r.x), r.y + (p.2 - r.y)) = p from
        Prod.ext (Nat.add_sub_cancel' inside.1) (Nat.add_sub_cancel' inside.2.2.1)]
  · rfl

/-- Bytes that belong to no pixel are never written. -/
theorem padding_presented (held : Covered surface framebuffer) (pending : surface.damage.pending)
    {i : Nat} (padding : Padding framebuffer.pitch surface.width surface.height i) :
    presented surface framebuffer i = framebuffer.storage i := by
  obtain ⟨size, right, bottom⟩ := held.pending pending
  refine overGrid_induct (P := fun storage : Storage => storage i = framebuffer.storage i) rfl
    fun storage x y column row same => ?_
  rw [mem_range] at column row
  rw [add32_eq (show surface.damage.rectangle.y + y ≤ surface.height by omega) held.bound.tall]
  refine .trans (store_apart ?_) same
  exact padding _ _ (by omega) (by omega)

/-- The two ways in which a present ends on matching pictures. -/
theorem surfacePresent_cases (bound : surface.Bound) (matching : Matching surface framebuffer) :
    (surface.damage.pending = false ∧
      surfacePresent surface framebuffer = (.ok, { surface with lastPresentPixels := 0 }, framebuffer)) ∨
    surface.damage.pending ∧ ∃ counts last total,
      surfacePresent surface framebuffer =
        (.ok, { surface with
            presents := counts
            lastPresentPixels := last
            presentedPixels := total
            damage := clearedDamage }, { framebuffer with storage := presented surface framebuffer }) := by
  have running : ¬(!framebuffer.active) = true := by
    rw [matching.active]
    nofun
  have sized : ¬(framebuffer.width ≠ surface.width ∨ framebuffer.height ≠ surface.height) := by
    rw [matching.width, matching.height]
    simp
  rw [surfacePresent, if_neg bound.running, if_neg running, if_neg sized]
  cases pending : surface.damage.pending with
  | false => exact .inl ⟨rfl, rfl⟩
  | true => exact .inr ⟨rfl, _, _, _, rfl⟩

theorem Covered.presented (held : Covered surface framebuffer) :
    let result := surfacePresent surface framebuffer
    Covered result.2.1 result.2.2 ∧ result.1 = .ok ∧
      ∀ p : Nat × Nat, p.1 < surface.width → p.2 < surface.height →
        result.2.2.pixel p = result.2.1.pixel p := by
  intro result
  obtain ⟨running, narrow, tall, fits⟩ := held.bound
  obtain ⟨active, width, height, wide⟩ := held.matching
  obtain ⟨none, call⟩ | ⟨some, _, _, _, call⟩ := surfacePresent_cases held.bound held.matching
  · unfold result
    rw [call]
    have shown : ∀ p : Nat × Nat, p.1 < surface.width → p.2 < surface.height →
        framebuffer.pixel p = surface.pixel p := by
      intro p column row
      by_contra differ
      have damaged := (held.covered p column row differ).1
      rw [none] at damaged
      cases damaged
    exact ⟨⟨⟨running, narrow, tall, fits⟩, ⟨active, width, height, wide⟩, held.covered, held.pending⟩, rfl,
      shown⟩
  unfold result
  rw [call]
  have shown : ∀ p : Nat × Nat, p.1 < surface.width → p.2 < surface.height →
      pixelAt framebuffer.pitch (Graphics.presented surface framebuffer) p = surface.pixel p := by
    intro p column row
    rw [pixel_presented held some column]
    split
    · rfl
    · next outside =>
        by_contra differ
        exact outside (held.covered p column row differ).2
  exact ⟨⟨⟨running, narrow, tall, fits⟩, ⟨active, width, height, wide⟩,
    fun p column row differ => absurd (shown p column row) differ, nofun⟩, rfl, shown⟩

inductive Call where
  | fillRect (x y width height pixel : UInt32)
  | blit (destinationX destinationY : UInt32) (source : Option Storage)
      (sourceWidth sourceHeight sourcePitch : UInt32)
  | copyRect (x y width height destinationX destinationY : UInt32)
  | pixel (x y value : UInt32)
  | present

structure Display where
  surface : Surface
  framebuffer : Framebuffer

variable (s : Display) {first : Display}

def step : Call → SurfaceStatus × Display
  | .fillRect x y width height pixel =>
    let (status, surface) :=
      surfaceFillRect s.surface ⟨x.toNat, y.toNat, width.toNat, height.toNat⟩ pixel
    (status, { s with surface := surface })
  | .blit destinationX destinationY source sourceWidth sourceHeight sourcePitch =>
    let (status, surface) := surfaceBlit s.surface destinationX.toNat destinationY.toNat source
      sourceWidth.toNat sourceHeight.toNat sourcePitch.toNat
    (status, { s with surface := surface })
  | .copyRect x y width height destinationX destinationY =>
    let (status, surface) := surfaceCopyRect s.surface
      ⟨x.toNat, y.toNat, width.toNat, height.toNat⟩ destinationX.toNat destinationY.toNat
    (status, { s with surface := surface })
  | .pixel x y value =>
    let (status, surface) := surfacePixel s.surface x.toNat y.toNat value
    (status, { s with surface := surface })
  | .present =>
    let (status, surface, framebuffer) := surfacePresent s.surface s.framebuffer
    (status, ⟨surface, framebuffer⟩)

/-- The display after a call, whatever its status. -/
def displayStep (s : Display) (call : Call) : Display := (step s call).2

variable {s}

theorem step_cases (bound : s.surface.Bound) (call : Call) :
    (∃ result, Outcome s.surface result ∧ step s call = (result.1, { s with surface := result.2 })) ∨
      call = .present := by
  cases call with
  | fillRect x y width height pixel => exact .inl ⟨_, surfaceFillRect_outcome bound _ pixel, rfl⟩
  | blit destinationX destinationY source sourceWidth sourceHeight sourcePitch =>
    exact .inl ⟨_, surfaceBlit_outcome bound _ _ source _ _ _, rfl⟩
  | copyRect x y width height destinationX destinationY =>
    exact .inl ⟨_, surfaceCopyRect_outcome bound _ _ _, rfl⟩
  | pixel x y value => exact .inl ⟨_, surfacePixel_outcome bound _ _ value, rfl⟩
  | present => exact .inr rfl

/-- What holds on the way, with the padding of the device's rows as it was in `first`. -/
structure Kept (first s : Display) : Prop where
  covered : Covered s.surface s.framebuffer
  pitch : s.framebuffer.pitch = first.framebuffer.pitch
  size : s.surface.width = first.surface.width ∧ s.surface.height = first.surface.height
  padding : ∀ i, Padding first.framebuffer.pitch first.surface.width first.surface.height i →
    s.framebuffer.storage i = first.framebuffer.storage i

theorem Outcome.geometry (outcome : Outcome surface result) :
    result.2.width = surface.width ∧ result.2.height = surface.height := by
  cases outcome with
  | refused | empty => exact ⟨rfl, rfl⟩
  | drawn done => exact ⟨done.geometry.2.1, done.geometry.2.2.1⟩

theorem Kept.step (held : Kept first s) (call : Call) : Kept first (step s call).2 := by
  obtain ⟨result, outcome, same⟩ | rfl := step_cases held.covered.bound call
  · rw [same]
    obtain ⟨width, height⟩ := outcome.geometry
    exact ⟨outcome.covered held.covered, held.pitch, ⟨width.trans held.size.1, height.trans held.size.2⟩,
      held.padding⟩
  have covered := held.covered.presented.1
  obtain ⟨none, call⟩ | ⟨some, _, _, _, call⟩ := surfacePresent_cases held.covered.bound held.covered.matching
  · rw [call] at covered
    simp only [Graphics.step, call]
    exact ⟨covered, held.pitch, held.size, held.padding⟩
  · rw [call] at covered
    simp only [Graphics.step, call]
    refine ⟨covered, held.pitch, held.size, fun i padding => ?_⟩
    refine (padding_presented held.covered some ?_).trans (held.padding i padding)
    rwa [held.pitch, held.size.1, held.size.2]

/-- Over any run from two equal pictures without damage: what the device does not show is
damaged, refused calls change nothing, a present shows everything, and no padding is written. -/
theorem damage_covers {first : Display} (bound : first.surface.Bound)
    (matching : Matching first.surface first.framebuffer)
    (agree : ∀ p : Nat × Nat, p.1 < first.surface.width → p.2 < first.surface.height →
      first.framebuffer.pixel p = first.surface.pixel p)
    (clean : first.surface.damage.pending = false) (calls : List Call) :
    let s := run displayStep first calls
    (∀ p : Nat × Nat, p.1 < first.surface.width → p.2 < first.surface.height →
      s.framebuffer.pixel p ≠ s.surface.pixel p →
        s.surface.damage.pending = true ∧ s.surface.damage.rectangle.Has p) ∧
      (s.surface.damage.pending = true →
        s.surface.damage.rectangle.Inside first.surface.width first.surface.height) ∧
      (∀ call, (step s call).1 ≠ .ok → (step s call).2 = s) ∧
      ((step s .present).1 = .ok →
        ∀ p : Nat × Nat, p.1 < first.surface.width → p.2 < first.surface.height →
          (step s .present).2.framebuffer.pixel p = (step s .present).2.surface.pixel p) ∧
      ∀ y k, first.surface.width * 4 ≤ k → k < first.framebuffer.pitch →
        s.framebuffer.storage (y * first.framebuffer.pitch + k) =
          first.framebuffer.storage (y * first.framebuffer.pitch + k) := by
  have start : Kept first first := by
    refine ⟨⟨bound, matching, fun p column row differ => absurd (agree p column row) differ, ?_⟩, rfl,
      ⟨rfl, rfl⟩, fun _ _ => rfl⟩
    intro pending
    rw [clean] at pending
    cases pending
  obtain ⟨covered, -, ⟨width, height⟩, padding⟩ :=
    run_invariant displayStep (Kept first) (fun _ call held => held.step call) calls first start
  intro s
  have shown := covered.presented.2.2
  rw [← width, ← height]
  refine ⟨covered.covered, covered.pending, fun call no => ?_, fun _ => shown, fun y k low high => ?_⟩
  · obtain ⟨result, outcome, same⟩ | rfl := step_cases covered.bound call
    · rw [same] at no ⊢
      rw [outcome.unchanged no]
    · exact absurd covered.presented.2.1 no
  · have fits := matching.fits
    rw [matching.width] at fits
    exact padding _ (padding_of_row fits (width ▸ low) high)

def plainDisplay : Display where
  surface := ⟨true, 2, 1, 8, fun _ => 0, clearedDamage, 0, 0, 0⟩
  framebuffer := ⟨true, 0xFD000000, 12, 12, 2, 1, 16, 8, 0, fun _ => 0⟩

theorem damage_covers_fill :
    let s := run displayStep plainDisplay [.fillRect 1 0 5 5 7]
    s.framebuffer.pixel (1, 0) ≠ s.surface.pixel (1, 0) ∧ s.surface.damage.rectangle.Has (1, 0) := by
  intro s
  have differ : s.framebuffer.pixel (1, 0) ≠ s.surface.pixel (1, 0) := by decide +kernel
  obtain ⟨covered, -⟩ := @damage_covers plainDisplay ⟨rfl, by decide, by decide, by decide⟩
    ⟨rfl, rfl, rfl, by decide⟩ (fun _ _ _ => rfl) rfl [.fillRect 1 0 5 5 7]
  exact ⟨differ, (covered (1, 0) (by decide) (by decide) differ).2⟩

end Sapote.Graphics
