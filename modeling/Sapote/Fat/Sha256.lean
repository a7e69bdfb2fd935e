import Mathlib.Data.Nat.NthRoot.Defs
import Sapote.Fat.Volume

/-!
The SHA-256 of `fat16.rs` against the hash that FIPS 180-4 defines. The source keeps sixteen
words of the message schedule and overwrites the oldest.
-/

namespace Sapote.Fat

structure HashState where
  (a b c d e f g h : BitVec 32)

def HashState.add (s t : HashState) : HashState :=
  ⟨s.a + t.a, s.b + t.b, s.c + t.c, s.d + t.d, s.e + t.e, s.f + t.f, s.g + t.g, s.h + t.h⟩

/-- The words one after the other, most significant byte first. -/
def HashState.bytes (s : HashState) : List UInt8 :=
  [s.a, s.b, s.c, s.d, s.e, s.f, s.g, s.h].flatMap fun word =>
    [24, 16, 8, 0].map fun low => ⟨word.extractLsb' low 8⟩

def wordAt (data : List UInt8) (offset : Nat) : BitVec 32 :=
  let byte i := (data.getD (offset + i) 0).toBitVec
  byte 0 ++ byte 1 ++ byte 2 ++ byte 3

def sha256Initial : HashState :=
  ⟨0x6A09E667, 0xBB67AE85, 0x3C6EF372, 0xA54FF53A, 0x510E527F, 0x9B05688C, 0x1F83D9AB, 0x5BE0CD19⟩

def sha256K : List (BitVec 32) :=
  [0x428A2F98, 0x71374491, 0xB5C0FBCF, 0xE9B5DBA5, 0x3956C25B, 0x59F111F1, 0x923F82A4, 0xAB1C5ED5,
    0xD807AA98, 0x12835B01, 0x243185BE, 0x550C7DC3, 0x72BE5D74, 0x80DEB1FE, 0x9BDC06A7, 0xC19BF174,
    0xE49B69C1, 0xEFBE4786, 0x0FC19DC6, 0x240CA1CC, 0x2DE92C6F, 0x4A7484AA, 0x5CB0A9DC, 0x76F988DA,
    0x983E5152, 0xA831C66D, 0xB00327C8, 0xBF597FC7, 0xC6E00BF3, 0xD5A79147, 0x06CA6351, 0x14292967,
    0x27B70A85, 0x2E1B2138, 0x4D2C6DFC, 0x53380D13, 0x650A7354, 0x766A0ABB, 0x81C2C92E, 0x92722C85,
    0xA2BFE8A1, 0xA81A664B, 0xC24B8B70, 0xC76C51A3, 0xD192E819, 0xD6990624, 0xF40E3585, 0x106AA070,
    0x19A4C116, 0x1E376C08, 0x2748774C, 0x34B0BCB5, 0x391C0CB3, 0x4ED8AA4A, 0x5B9CCA4F, 0x682E6FF3,
    0x748F82EE, 0x78A5636F, 0x84C87814, 0x8CC70208, 0x90BEFFFA, 0xA4506CEB, 0xBEF9A3F7, 0xC67178F2]

def sha256InputWord (data : List UInt8) (blockIndex wordIndex : Nat) : BitVec 32 :=
  if blockIndex < 2 then wordAt data (blockIndex * 64 + wordIndex * 4)
  else if wordIndex = 0 then 0x80000000
  else if wordIndex = 15 then .ofNat 32 (fileBytes * 8)
  else 0

/-- `a` to `h`, and `words`, which is only read and written below 16. -/
structure Rolling where
  vars : HashState
  words : Nat → BitVec 32

def scheduleTurn (words : Nat → BitVec 32) (index : Nat) : BitVec 32 × (Nat → BitVec 32) :=
  let scheduleIndex := index &&& 15
  if index < 16 then (words scheduleIndex, words)
  else
    let wordMinus15 := words ((index + 1) &&& 15)
    let wordMinus2 := words ((index + 14) &&& 15)
    let s0 := wordMinus15.rotateRight 7 ^^^ wordMinus15.rotateRight 18 ^^^ wordMinus15 >>> 3
    let s1 := wordMinus2.rotateRight 17 ^^^ wordMinus2.rotateRight 19 ^^^ wordMinus2 >>> 10
    let next := words scheduleIndex + s0 + words ((index + 9) &&& 15) + s1
    (next, Function.update words scheduleIndex next)

def sha256Turn (r : Rolling) (index : Nat) : Rolling :=
  let ⟨a, b, c, d, e, f, g, h⟩ := r.vars
  let (scheduled, words) := scheduleTurn r.words index
  let upper := e.rotateRight 6 ^^^ e.rotateRight 11 ^^^ e.rotateRight 25
  let choose := (e &&& f) ^^^ (~~~e &&& g)
  let first := h + upper + choose + sha256K.getD index 0 + scheduled
  let lower := a.rotateRight 2 ^^^ a.rotateRight 13 ^^^ a.rotateRight 22
  let majority := (a &&& b) ^^^ (a &&& c) ^^^ (b &&& c)
  let second := lower + majority
  ⟨⟨first + second, a, b, c, d + first, e, f, g⟩, words⟩

/-- A block after `n` turns of its loop. -/
def sha256Turns (start : Rolling) : Nat → Rolling
  | 0 => start
  | n + 1 => sha256Turn (sha256Turns start n) n

/-- The start of block `n`, whose `vars` are the state that the blocks before it left. -/
def sha256Block (data : List UInt8) : Nat → Rolling
  | 0 => ⟨sha256Initial, sha256InputWord data 0⟩
  | n + 1 =>
    let block := sha256Block data n
    ⟨block.vars.add (sha256Turns block 64).vars, sha256InputWord data (n + 1)⟩

/-- No digest is `PayloadLength`. -/
def sha256 (data : List UInt8) : Option (List UInt8) :=
  if data.length ≠ fileBytes then none else some (sha256Block data 3).vars.bytes

/-- The first 32 bits of the fractional part of a root. -/
def rootFraction (degree n : Nat) : BitVec 32 :=
  .ofNat 32 (Nat.nthRoot degree (n * 2 ^ (32 * degree)))

/-- The first 64 primes; a composite number below 312 has a divisor below 18. -/
def firstPrimes : List Nat :=
  (List.range' 2 310).filter fun n => (List.range' 2 16).all fun d => n = d ∨ n % d ≠ 0

def fipsInitial : HashState :=
  let word i := rootFraction 2 (firstPrimes.getD i 0)
  ⟨word 0, word 1, word 2, word 3, word 4, word 5, word 6, word 7⟩

def fipsK (t : Nat) : BitVec 32 := (firstPrimes.map (rootFraction 3)).getD t 0

def fipsSchedule (m : Nat → BitVec 32) (t : Nat) : BitVec 32 :=
  if t < 16 then m t
  else sigma1 (fipsSchedule m (t - 2)) + fipsSchedule m (t - 7) + sigma0 (fipsSchedule m (t - 15)) +
    fipsSchedule m (t - 16)
where
  sigma0 (x : BitVec 32) := x.rotateRight 7 ^^^ x.rotateRight 18 ^^^ x >>> 3
  sigma1 (x : BitVec 32) := x.rotateRight 17 ^^^ x.rotateRight 19 ^^^ x >>> 10

def fipsRound (k w : BitVec 32) (s : HashState) : HashState :=
  let t1 := s.h + sum1 s.e + ch s.e s.f s.g + k + w
  let t2 := sum0 s.a + maj s.a s.b s.c
  ⟨t1 + t2, s.a, s.b, s.c, s.d + t1, s.e, s.f, s.g⟩
where
  ch (x y z : BitVec 32) := (x &&& y) ^^^ (~~~x &&& z)
  maj (x y z : BitVec 32) := (x &&& y) ^^^ (x &&& z) ^^^ (y &&& z)
  sum0 (x : BitVec 32) := x.rotateRight 2 ^^^ x.rotateRight 13 ^^^ x.rotateRight 22
  sum1 (x : BitVec 32) := x.rotateRight 6 ^^^ x.rotateRight 11 ^^^ x.rotateRight 25

def fipsRounds (m : Nat → BitVec 32) (s : HashState) : Nat → HashState
  | 0 => s
  | t + 1 => fipsRound (fipsK t) (fipsSchedule m t) (fipsRounds m s t)

/-- The message, a one bit, as few zeros as fill a block and the length in 64 bits. -/
def fipsPadded (message : List UInt8) : List UInt8 :=
  message ++ 0x80 :: (List.replicate ((119 - message.length % 64) % 64) 0 ++
    (List.range 8).map fun i => .ofNat (8 * message.length / 256 ^ (7 - i)))

def fipsWord (message : List UInt8) (block t : Nat) : BitVec 32 :=
  wordAt (fipsPadded message) (64 * block + 4 * t)

def fipsHash (message : List UInt8) : Nat → HashState
  | 0 => fipsInitial
  | n + 1 => (fipsHash message n).add (fipsRounds (fipsWord message n) (fipsHash message n) 64)

def fipsSha256 (message : List UInt8) : List UInt8 :=
  (fipsHash message ((fipsPadded message).length / 64)).bytes

theorem sha256Initial_eq : sha256Initial = fipsInitial := by
  simp only [sha256Initial, fipsInitial, HashState.mk.injEq]
  decide +kernel

theorem sha256K_eq (t : Nat) : sha256K.getD t 0 = fipsK t := by
  rw [fipsK, show sha256K = firstPrimes.map (rootFraction 3) by decide +kernel]

section
variable {m : Nat → BitVec 32} {s : HashState} {r : Rolling} {n : Nat}

/-- After `n` turns `words` holds the last sixteen words of the schedule. -/
def Window (m words : Nat → BitVec 32) (n : Nat) : Prop :=
  ∀ t < max n 16, max n 16 ≤ t + 16 → words (t % 16) = fipsSchedule m t

theorem Window.turn {words : Nat → BitVec 32} (window : Window m words n) :
    (scheduleTurn words n).1 = fipsSchedule m n ∧ Window m (scheduleTurn words n).2 (n + 1) := by
  have low : ∀ k, k &&& 15 = k % 16 := fun k => Nat.and_two_pow_sub_one_eq_mod k 4
  unfold scheduleTurn
  simp only [low]
  split
  next early =>
    refine ⟨window n (by omega) (by omega), fun t _ _ => window t (by omega) (by omega)⟩
  next late =>
    have older : ∀ back, 0 < back → back ≤ 16 →
        words ((n + (16 - back)) % 16) = fipsSchedule m (n - back) := by
      intro back _ _
      rw [← window (n - back) (by omega) (by omega)]
      congr 1
      omega
    have next : words (n % 16) + fipsSchedule.sigma0 (words ((n + 1) % 16)) +
        words ((n + 9) % 16) + fipsSchedule.sigma1 (words ((n + 14) % 16)) = fipsSchedule m n := by
      rw [fipsSchedule, if_neg late, older 15 (by omega) (by omega), older 7 (by omega) (by omega),
        older 2 (by omega) (by omega), show words (n % 16) = _ from older 16 (by omega) (by omega)]
      ac_rfl
    refine ⟨next, fun t _ _ => ?_⟩
    dsimp only
    by_cases same : t = n
    · rw [same, Function.update_self]
      exact next
    · rw [Function.update_of_ne (by omega)]
      exact window t (by omega) (by omega)

/-- The turns of a block are the rounds of the standard. -/
theorem sha256Turns_eq (start : ∀ t < 16, r.words t = m t) (n : Nat) :
    (sha256Turns r n).vars = fipsRounds m r.vars n ∧ Window m (sha256Turns r n).words n := by
  induction n with
  | zero =>
    refine ⟨rfl, fun t early _ => ?_⟩
    rw [fipsSchedule, if_pos (by omega), Nat.mod_eq_of_lt (by omega)]
    exact start t (by omega)
  | succ n ih =>
    obtain ⟨scheduled, window⟩ := ih.2.turn
    refine ⟨?_, window⟩
    rw [fipsRounds, ← ih.1, ← scheduled, ← sha256K_eq]
    rfl

end

variable {data : List UInt8}

theorem wordAt_append_left {rest : List UInt8} {offset : Nat} (inside : offset + 4 ≤ data.length) :
    wordAt (data ++ rest) offset = wordAt data offset := by
  simp (disch := omega) only [wordAt, List.getD_append]

theorem wordAt_append_right {rest : List UInt8} (offset : Nat) :
    wordAt (data ++ rest) (data.length + offset) = wordAt rest offset := by
  simp only [wordAt, Nat.add_assoc, List.getD_append_right, Nat.le_add_right, Nat.add_sub_cancel_left]

/-- The third block holds nothing of the message. -/
theorem sha256InputWord_eq (length : data.length = fileBytes) {block : Nat} (few : block < 3)
    {t : Nat} (small : t < 16) : sha256InputWord data block t = fipsWord data block t := by
  rw [sha256InputWord, fipsWord, fipsPadded, length]
  unfold fileBytes at *
  split
  · rw [wordAt_append_left (by omega)]
    congr 1
    omega
  · rw [show 64 * block + 4 * t = data.length + 4 * t by omega, wordAt_append_right]
    revert t
    decide

theorem sha256Block_words (data : List UInt8) (n : Nat) :
    (sha256Block data n).words = sha256InputWord data n := by
  cases n <;> rfl

theorem sha256Turns_standard (length : data.length = fileBytes) {block : Nat} (few : block < 3)
    (n : Nat) :
    let start := sha256Block data block
    let m := fipsWord data block
    (sha256Turns start n).vars = fipsRounds m start.vars n ∧ Window m (sha256Turns start n).words n := by
  refine sha256Turns_eq (fun t small => ?_) n
  rw [sha256Block_words, sha256InputWord_eq length few small]

theorem sha256Block_eq (length : data.length = fileBytes) :
    ∀ n ≤ 3, (sha256Block data n).vars = fipsHash data n := by
  intro n
  induction n with
  | zero => exact fun _ => sha256Initial_eq
  | succ n ih =>
    intro few
    rw [sha256Block, fipsHash, ← ih (by omega), ← (sha256Turns_standard length (by omega) 64).1]

/-- On a message of 128 bytes the rolling words are the schedule of the standard, the variables go
through its rounds and the digest is the one it defines. -/
theorem sha256_is_fips (length : data.length = fileBytes) :
    sha256 data = some (fipsSha256 data) ∧ ∀ block < 3, ∀ i < 64,
      let m := fipsWord data block
      let turned := sha256Turns (sha256Block data block) (i + 1)
      turned.words (i % 16) = fipsSchedule m i ∧
        turned.vars = fipsRounds m (fipsHash data block) (i + 1) := by
  have hash := sha256Block_eq length
  refine ⟨?_, fun block few i _ => ?_⟩
  · rw [sha256, if_neg (not_not.mpr length), hash 3 (le_refl 3), fipsSha256]
    simp [fipsPadded, length, fileBytes]
  · obtain ⟨vars, window⟩ := sha256Turns_standard length few (i + 1)
    rw [hash block (by omega)] at vars
    exact ⟨window i (by omega) (by omega), vars⟩

theorem sha256_is_fips_zeros :
    sha256 (List.replicate 128 0) = some (fipsSha256 (List.replicate 128 0)) :=
  (sha256_is_fips List.length_replicate).1

end Sapote.Fat
