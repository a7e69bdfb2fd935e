import Sapote.Library.Bytes

/-!
Pictures in memory. Pixels are words of four bytes in rows that lie `pitch` bytes apart; loops
over rows and columns assign them one after the other. What such a loop leaves is known from
its order alone, if no value it reads has been assigned before.
-/

namespace Sapote.Library
open List Nat
variable {rows columns : List Nat} {r : Rect} {c : Nat × Nat}

section
variable {σ ι κ ν : Type}

/-- One assignment after the other; a value may be read from what the earlier ones left. -/
def assignAll (put : σ → κ → ν → σ) (target : ι → κ) (value : σ → ι → ν) (s : σ) (steps : List ι) : σ :=
  steps.foldl (fun s i => put s (target i) (value s i)) s

def overGrid (rows columns : List Nat) (body : σ → Nat → Nat → σ) (s : σ) : σ :=
  rows.foldl (fun s y => columns.foldl (fun s x => body s x y) s) s

def grid (rows columns : List Nat) : List (Nat × Nat) :=
  rows.flatMap fun y => columns.map fun x => (x, y)

theorem overGrid_eq_foldl (rows columns : List Nat) (body : σ → Nat → Nat → σ) (s : σ) :
    overGrid rows columns body s = (grid rows columns).foldl (fun s p => body s p.1 p.2) s := by
  induction rows generalizing s with
  | nil => rfl
  | cons y rows ih =>
    rw [grid, flatMap_cons, foldl_append, foldl_map, ← grid, ← ih]
    rfl

theorem mem_grid {p : Nat × Nat} : p ∈ grid rows columns ↔ p.1 ∈ columns ∧ p.2 ∈ rows := by
  simp only [grid, mem_flatMap, mem_map]
  constructor
  · rintro ⟨y, row, x, column, rfl⟩
    exact ⟨column, row⟩
  · rintro ⟨column, row⟩
    exact ⟨p.2, row, p.1, column, rfl⟩

/-- What every visit keeps, the loops keep. -/
theorem overGrid_induct {P : σ → Prop} {body : σ → Nat → Nat → σ} {s : σ} (start : P s)
    (step : ∀ s x y, x ∈ columns → y ∈ rows → P s → P (body s x y)) :
    P (overGrid rows columns body s) := by
  rw [overGrid_eq_foldl]
  refine List.foldlRecOn _ _ start fun s held p member => ?_
  obtain ⟨column, row⟩ := mem_grid.mp member
  exact step s p.1 p.2 column row held

/-- Loops with the same body on the cells they visit are the same. -/
theorem overGrid_congr {body body' : σ → Nat → Nat → σ}
    (same : ∀ s x y, x ∈ columns → y ∈ rows → body s x y = body' s x y) (s : σ) :
    overGrid rows columns body s = overGrid rows columns body' s := by
  simp only [overGrid_eq_foldl]
  refine foldl_ext _ _ _ fun s p member => ?_
  obtain ⟨column, row⟩ := mem_grid.mp member
  exact same s p.1 p.2 column row

/-- The order of the visits: by rows first. -/
theorem pairwise_grid {S T : Nat → Nat → Prop} (ordered : rows.Pairwise S)
    (across : columns.Pairwise T) :
    (grid rows columns).Pairwise fun p q => S p.2 q.2 ∨ p.2 = q.2 ∧ T p.1 q.1 := by
  rw [grid, pairwise_flatMap]
  constructor
  · intro y _
    rw [pairwise_map]
    exact across.imp fun before => .inr ⟨rfl, before⟩
  · refine ordered.imp fun before p first q second => .inl ?_
    obtain ⟨_, -, rfl⟩ := mem_map.mp first
    obtain ⟨_, -, rfl⟩ := mem_map.mp second
    exact before

variable {get : σ → κ → ν} {put : σ → κ → ν → σ} {In : κ → Prop}

/-- In cells of `In`, an assignment changes its own cell and no other. -/
structure Assigns (get : σ → κ → ν) (put : σ → κ → ν → σ) (In : κ → Prop) : Prop where
  same : ∀ s c v, In c → get (put s c v) c = v
  other : ∀ s c v c', In c → In c' → c' ≠ c → get (put s c v) c' = get s c'

/-- Every cell ends with the value that was there for it at the start, if the steps neither
assign a cell twice nor read what an earlier one assigned. -/
theorem Assigns.assignAll (law : Assigns get put In) {target : ι → κ} {value : σ → ι → ν}
    {steps : List ι} (inside : ∀ i ∈ steps, In (target i))
    (fresh : steps.Pairwise fun i j =>
      target j ≠ target i ∧ ∀ s v, value (put s (target i) v) j = value s j) (s : σ) :
    (∀ i ∈ steps, get (assignAll put target value s steps) (target i) = value s i) ∧
      ∀ c, In c → (∀ i ∈ steps, target i ≠ c) →
        get (assignAll put target value s steps) c = get s c := by
  induction steps generalizing s with
  | nil => exact ⟨nofun, fun _ _ _ => rfl⟩
  | cons i steps ih =>
    rw [pairwise_cons] at fresh
    have here := inside i (.head _)
    obtain ⟨written, kept⟩ := ih (fun j later => inside j (.tail _ later)) fresh.2
      (put s (target i) (value s i))
    constructor
    · intro j member
      obtain rfl | later := mem_cons.mp member
      · exact (kept _ here fun k later => (fresh.1 k later).1).trans (law.same _ _ _ here)
      · exact (written j later).trans ((fresh.1 j later).2 _ _)
    · intro c inC apart
      refine (kept c inC fun j later => apart j (.tail _ later)).trans ?_
      exact law.other _ _ _ _ here inC (apart i (.head _)).symm

abbrev Storage := Nat → UInt8

def load (s : Storage) (address : Nat) : UInt32 :=
  UInt32.ofNat (littleEndian ((List.range 4).map fun i => s (address + i)))

def store (s : Storage) (address : Nat) (value : UInt32) : Storage := fun i =>
  if address ≤ i ∧ i < address + 4 then (bytesOf 4 value.toNat).getD (i - address) 0 else s i

theorem store_apart {s : Storage} {address : Nat} {value : UInt32} {i : Nat}
    (apart : i < address ∨ address + 4 ≤ i) : store s address value i = s i :=
  if_neg (by omega)

theorem load_store_same (s : Storage) (address : Nat) (value : UInt32) :
    load (store s address value) address = value := by
  have bytes : (List.range 4).map (fun i => store s address value (address + i)) = bytesOf 4 value.toNat := by
    refine ext_getElem (by rw [bytesOf_length, length_map, length_range]) fun i low high => ?_
    rw [length_map, length_range] at low
    rw [getElem_map, getElem_range, store, if_pos (by omega), Nat.add_sub_cancel_left,
      getD_eq_getElem]
  rw [load, bytes, littleEndian_bytesOf value.toNat_lt, UInt32.ofNat_toNat]

theorem load_store_apart (s : Storage) {address other : Nat} (value : UInt32)
    (apart : other + 4 ≤ address ∨ address + 4 ≤ other) :
    load (store s address value) other = load s other := by
  refine congrArg (fun bytes => UInt32.ofNat (littleEndian bytes)) (map_congr_left fun i low => ?_)
  rw [mem_range] at low
  exact store_apart (by omega)

variable {pitch width : Nat}

def pixelOffset (pitch : Nat) (p : Nat × Nat) : Nat := p.2 * pitch + p.1 * 4

def pixelAt (pitch : Nat) (s : Storage) (p : Nat × Nat) : UInt32 := load s (pixelOffset pitch p)

def putPixel (pitch : Nat) (s : Storage) (p : Nat × Nat) (value : UInt32) : Storage :=
  store s (pixelOffset pitch p) value

theorem pixelOffset_apart (fits : width * 4 ≤ pitch) {p q : Nat × Nat} (first : p.1 < width)
    (second : q.1 < width) (other : q ≠ p) :
    pixelOffset pitch q + 4 ≤ pixelOffset pitch p ∨ pixelOffset pitch p + 4 ≤ pixelOffset pitch q := by
  obtain ⟨px, py⟩ := p
  obtain ⟨qx, qy⟩ := q
  simp only [pixelOffset] at first second ⊢
  obtain above | rfl | below := lt_trichotomy py qy
  · have rows := mul_le_mul_right pitch above
    rw [succ_mul] at rows
    omega
  · have columns : qx ≠ px := fun same => other (by rw [same])
    omega
  · have rows := mul_le_mul_right pitch below
    rw [succ_mul] at rows
    omega

/-- Pixels of a picture that is no wider than its rows are long do not share bytes. -/
theorem pixels_assign (fits : width * 4 ≤ pitch) :
    Assigns (pixelAt pitch) (putPixel pitch) (fun p => p.1 < width) where
  same s _ value _ := load_store_same s _ value
  other s _ value _ first second other :=
    load_store_apart s value (pixelOffset_apart fits first second other)

def Padding (pitch width height i : Nat) : Prop :=
  ∀ x y, x < width → y < height → i < pixelOffset pitch (x, y) ∨ pixelOffset pitch (x, y) + 4 ≤ i

/-- The bytes after the pixels of a row are padding. -/
theorem padding_of_row (fits : width * 4 ≤ pitch) {height y k : Nat} (low : width * 4 ≤ k)
    (high : k < pitch) : Padding pitch width height (y * pitch + k) := by
  intro x y' column _
  simp only [pixelOffset]
  obtain above | rfl | below := lt_trichotomy y y'
  · have rows := mul_le_mul_right pitch above
    rw [succ_mul] at rows
    omega
  · omega
  · have rows := mul_le_mul_right pitch below
    rw [succ_mul] at rows
    omega

structure Rect where
  (x y width height : Nat)
  deriving DecidableEq

namespace Rect
open List

def Has (r : Rect) (p : Nat × Nat) : Prop :=
  r.x ≤ p.1 ∧ p.1 < r.x + r.width ∧ r.y ≤ p.2 ∧ p.2 < r.y + r.height

instance (r : Rect) (p : Nat × Nat) : Decidable (r.Has p) := inferInstanceAs (Decidable (_ ∧ _))

structure Inside (r : Rect) (width height : Nat) : Prop where
  some : 0 < r.width ∧ 0 < r.height
  right : r.x + r.width ≤ width
  bottom : r.y + r.height ≤ height

/-- The cells of a rectangle are those of a grid moved to its corner. -/
theorem has_iff_grid {r : Rect} {rows columns : List Nat} (down : ∀ y, y ∈ rows ↔ y < r.height)
    (across : ∀ x, x ∈ columns ↔ x < r.width) {p : Nat × Nat} :
    r.Has p ↔ ∃ q ∈ grid rows columns, (r.x + q.1, r.y + q.2) = p := by
  constructor
  · rintro ⟨left, right, top, bottom⟩
    refine ⟨(p.1 - r.x, p.2 - r.y), mem_grid.mpr ⟨(across _).mpr (by omega), (down _).mpr (by omega)⟩, ?_⟩
    exact Prod.ext (by simp only; omega) (by simp only; omega)
  · rintro ⟨q, member, rfl⟩
    obtain ⟨column, row⟩ := mem_grid.mp member
    rw [across] at column
    rw [down] at row
    exact ⟨by simp only; omega, by simp only; omega, by simp only; omega, by simp only; omega⟩

end Rect

variable {σ ν : Type} {get : σ → Nat × Nat → ν} {put : σ → Nat × Nat → ν → σ} {In : Nat × Nat → Prop}

/-- What two loops over the cells of a rectangle leave. -/
theorem Assigns.overGrid (law : Assigns get put In) (down : ∀ y, y ∈ rows ↔ y < r.height)
    (across : ∀ x, x ∈ columns ↔ x < r.width) (inside : ∀ p, r.Has p → In p)
    {value : σ → Nat → Nat → ν} (fresh : (grid rows columns).Pairwise fun p q => q ≠ p ∧
      ∀ s v, value (put s (r.x + p.1, r.y + p.2) v) q.1 q.2 = value s q.1 q.2) (s : σ)
    (inC : In c) :
    get (overGrid rows columns (fun s x y => put s (r.x + x, r.y + y) (value s x y)) s) c =
      if r.Has c then value s (c.1 - r.x) (c.2 - r.y) else get s c := by
  have visited := @Rect.has_iff_grid r rows columns down across
  have apart : ∀ p q : Nat × Nat, q ≠ p → (r.x + q.1, r.y + q.2) ≠ (r.x + p.1, r.y + p.2) := by
    intro p q other same
    rw [Prod.mk.injEq] at same
    exact other (Prod.ext (by omega) (by omega))
  obtain ⟨written, kept⟩ := @Assigns.assignAll σ (Nat × Nat) _ ν get put In law
    (fun p => (r.x + p.1, r.y + p.2)) (fun s p => value s p.1 p.2) (grid rows columns)
    (fun p member => inside _ (visited.mpr ⟨p, member, rfl⟩))
    (fresh.imp fun {p q} h => ⟨apart p q h.1, h.2⟩) s
  rw [overGrid_eq_foldl]
  split
  · next held =>
      obtain ⟨q, member, rfl⟩ := visited.mp held
      simp only [Nat.add_sub_cancel_left]
      exact written q member
  · next outside =>
      exact kept c inC fun q member same => outside (visited.mpr ⟨q, member, same⟩)

/-- Loops that assign values known before reach the whole rectangle in either order. -/
theorem Assigns.overGrid_range (law : Assigns get put In) (inside : ∀ p, r.Has p → In p)
    (value : Nat → Nat → ν) (s : σ) (inC : In c) :
    get (Library.overGrid (List.range r.height) (List.range r.width)
        (fun s x y => put s (r.x + x, r.y + y) (value x y)) s) c =
      if r.Has c then value (c.1 - r.x) (c.2 - r.y) else get s c := by
  refine law.overGrid (fun _ => mem_range) (fun _ => mem_range) inside ?_ s inC
  refine (pairwise_grid pairwise_lt_range pairwise_lt_range).imp fun {p q} before => ?_
  refine ⟨?_, fun _ _ => rfl⟩
  rintro rfl
  omega

end

end Sapote.Library
