import Mathlib.Tactic

/-!
The frame bitmaps of `src/kernel/physical_memory.c`: bytes indexed by
`frame / 8`, one bit a frame. Everything above this module reads a bitmap only
through `bitmapGet`.
-/

namespace Sapote.Frames

abbrev Bitmap := Nat → BitVec 8

def bitmapMask (frame : Nat) : BitVec 8 := 1#8 <<< (frame % 8)

def bitmapGet (bitmap : Bitmap) (frame : Nat) : Bool :=
  decide (bitmap (frame / 8) &&& bitmapMask frame ≠ 0)

def bitmapSet (bitmap : Bitmap) (frame : Nat) (value : Bool) : Bitmap :=
  let byte := bitmap (frame / 8)
  Function.update bitmap (frame / 8)
    (if value then byte ||| bitmapMask frame else byte &&& ~~~bitmapMask frame)

def bitmapFill (value : BitVec 8) : Bitmap := fun _ => value

theorem bitmapGet_eq (bitmap : Bitmap) (frame : Nat) :
    bitmapGet bitmap frame = (bitmap (frame / 8)).getLsbD (frame % 8) := by
  have mask : bitmapMask frame = BitVec.twoPow 8 (frame % 8) := rfl
  have low : frame % 8 < 8 := Nat.mod_lt _ (by decide)
  have nonzero : BitVec.twoPow 8 (frame % 8) ≠ 0#8 := by
    intro zero
    have selected := congrArg (fun byte => byte.getLsbD (frame % 8)) zero
    simp [low] at selected
  rw [bitmapGet, mask, BitVec.and_twoPow]
  cases bit : (bitmap (frame / 8)).getLsbD (frame % 8) <;> simp [nonzero]

theorem bitmapGet_bitmapSet (bitmap : Bitmap) (frame other : Nat) (value : Bool) :
    bitmapGet (bitmapSet bitmap frame value) other =
      if other = frame then value else bitmapGet bitmap other := by
  have mask : bitmapMask frame = BitVec.twoPow 8 (frame % 8) := rfl
  simp only [bitmapGet_eq, bitmapSet, mask]
  by_cases byte : other / 8 = frame / 8
  · have low : other % 8 < 8 := Nat.mod_lt _ (by decide)
    have same : other = frame ↔ other % 8 = frame % 8 := by omega
    rw [byte, Function.update_self]
    by_cases bit : other % 8 = frame % 8
    · cases value <;> simp [same, bit]
      omega
    · cases value <;> simp [same, bit, low]
  · have different : other ≠ frame := by
      intro h
      exact byte (by rw [h])
    rw [Function.update_of_ne byte, if_neg different]

theorem bitmapGet_bitmapFill_zero (frame : Nat) : bitmapGet (bitmapFill 0) frame = false := by
  simp [bitmapGet_eq, bitmapFill]

theorem bitmapGet_bitmapFill_ones (frame : Nat) : bitmapGet (bitmapFill 0xFF) frame := by
  have low : frame % 8 < 8 := Nat.mod_lt _ (by decide)
  rw [bitmapGet_eq, bitmapFill]
  have ones : (0xFF : BitVec 8) = BitVec.allOnes 8 := by decide
  rw [ones, BitVec.getLsbD_allOnes]
  simpa using low

def bitmapSetRun (bitmap : Bitmap) (first count : Nat) (value : Bool) : Bitmap :=
  (List.range' first count).foldl (fun bitmap frame => bitmapSet bitmap frame value) bitmap

theorem bitmapGet_bitmapSetRun (bitmap : Bitmap) (first count frame : Nat) (value : Bool) :
    bitmapGet (bitmapSetRun bitmap first count value) frame =
      if first ≤ frame ∧ frame < first + count then value else bitmapGet bitmap frame := by
  unfold bitmapSetRun
  induction count generalizing bitmap first with
  | zero =>
    rw [if_neg (by omega)]
    rfl
  | succ count ih =>
    rw [List.range'_succ, List.foldl_cons, ih, bitmapGet_bitmapSet]
    by_cases here : frame = first
    · subst here
      simp
    · by_cases inside : first + 1 ≤ frame ∧ frame < first + 1 + count
      · rw [if_pos inside, if_pos (by omega)]
      · rw [if_neg inside, if_neg here, if_neg (by omega)]

end Sapote.Frames
