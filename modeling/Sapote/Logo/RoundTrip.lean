import Sapote.Logo.Codec

/-!
A body is accepted exactly if it is a sequence of runs that covers the picture, and the
encoder writes such a sequence. Both sides are related to the pixels that a sequence of
runs stands for.
-/

namespace Sapote.Logo
open List

open Library
variable {out : List UInt32} {body blob : List UInt8} {written start count : Nat} {g : Geometry}
  {packed : UInt32} {r : Run} {runs : List Run}

structure Pixel where
  (red green blue alpha : UInt8)
  deriving DecidableEq

def Pixel.bytes (p : Pixel) : List UInt8 := [p.red, p.green, p.blue, p.alpha]

def Pixel.compose (p : Pixel) (format : Format) : UInt32 :=
  Logo.compose p.red p.green p.blue p.alpha format

def picture (image : List Pixel) : List UInt8 := image.flatMap Pixel.bytes

structure Run where
  count : UInt8
  pixel : Pixel
  deriving DecidableEq

def Run.bytes (r : Run) : List UInt8 := r.count :: r.pixel.bytes

def runBytes (runs : List Run) : List UInt8 := runs.flatMap Run.bytes

def expand (runs : List Run) : List Pixel := runs.flatMap fun r => List.replicate r.count.toNat r.pixel

def Proper (runs : List Run) : Prop := ∀ r ∈ runs, r.count ≠ 0

@[simp]
theorem expand_nil : expand [] = [] := rfl

@[simp]
theorem expand_cons (r : Run) (runs : List Run) :
    expand (r :: runs) = List.replicate r.count.toNat r.pixel ++ expand runs := rfl

@[simp]
theorem runBytes_cons (r : Run) (runs : List Run) :
    runBytes (r :: runs) = r.bytes ++ runBytes runs := rfl

theorem count_pos (proper : r.count ≠ 0) : 0 < r.count.toNat := by
  rw [Nat.pos_iff_ne_zero]
  exact fun zero => proper (UInt8.toNat_inj.mp zero)

section
variable {format : Format} {pixels : Nat}

theorem decodeRuns_done (done : pixels ≤ written) : decodeRuns format pixels body written out =
      if body ≠ [] then (.error .trailingBytes, out) else (.ok (), out) := by
  rw [decodeRuns.eq_def, if_neg (by omega)]

theorem decodeRuns_short (left : written < pixels) (short : body.length < 5) :
    decodeRuns format pixels body written out = (.error .truncated, out) := by
  rw [decodeRuns.eq_def, if_pos left]
  split
  · exact absurd short (by simp)
  · rfl

theorem decodeRuns_run {rest : List UInt8} (left : written < pixels) :
    decodeRuns format pixels (r.bytes ++ rest) written out =
      if r.count = 0 then (.error .zeroRun, out)
      else if pixels - written < r.count.toNat then (.error .tooManyPixels, out)
      else decodeRuns format pixels rest (written + r.count.toNat)
        (fillSlots out written r.count.toNat (r.pixel.compose format)) := by
  rw [decodeRuns.eq_def, if_pos left]
  rfl

/-- A body is too short for a run or starts with one. -/
theorem body_induct {motive : List UInt8 → Prop} (short : ∀ body, body.length < 5 → motive body)
    (run : ∀ (r : Run) rest, motive rest → motive (r.bytes ++ rest)) : ∀ body, motive body
  | [] | [_] | [_, _] | [_, _, _] | [_, _, _, _] => short _ (by simp)
  | count :: red :: green :: blue :: alpha :: rest =>
    run ⟨count, red, green, blue, alpha⟩ rest (body_induct short run rest)

theorem fillSlots_take (inside : start + count ≤ out.length) :
    (fillSlots out start count packed).take (start + count) =
      out.take start ++ List.replicate count packed := by
  rw [fillSlots, take_left']
  rw [length_append, length_replicate, length_take]
  omega

theorem fillSlots_drop (inside : start + count ≤ pixels) (room : pixels ≤ out.length) :
    (fillSlots out start count packed).drop pixels = out.drop pixels := by
  have length : (out.take start ++ List.replicate count packed).length = start + count := by
    rw [length_append, length_replicate, length_take]
    omega
  rw [fillSlots, drop_append, length, drop_eq_nil_of_le (by omega), nil_append,
    drop_drop]
  congr 1
  omega

theorem fillSlots_length (inside : start + count ≤ out.length) :
    (fillSlots out start count packed).length = out.length := by
  simp only [fillSlots, length_append, length_replicate, length_take,
    length_drop]
  omega

/-- Runs that cover the rest of the picture are decoded one after the other. -/
theorem decodeRuns_of_runs (format : Format) (proper : Proper runs)
    (cover : written + (expand runs).length = pixels) (room : pixels ≤ out.length) :
    decodeRuns format pixels (runBytes runs) written out =
      (.ok (), out.take written ++ (expand runs).map (·.compose format) ++ out.drop pixels) := by
  induction runs generalizing written out with
  | nil =>
    have done : written = pixels := cover
    rw [decodeRuns_done (by omega), done]
    simp [runBytes, expand]
  | cons r runs ih =>
    obtain ⟨first, later⟩ := forall_mem_cons.mp proper
    have positive := count_pos first
    rw [expand_cons, length_append, length_replicate] at cover
    have inside : written + r.count.toNat ≤ out.length := by omega
    have cover' : written + r.count.toNat + (expand runs).length = pixels := by omega
    rw [runBytes_cons, decodeRuns_run (by omega), if_neg first, if_neg (by omega),
      ih later cover' (by rw [fillSlots_length inside]; exact room), fillSlots_take inside,
      fillSlots_drop (by omega) room, expand_cons, map_append, map_replicate,
      append_assoc, append_assoc, append_assoc]
    simp

theorem runs_of_done (done : written = pixels)
    (accepted : (decodeRuns format pixels body written out).1 = .ok ()) :
    ∃ runs, Proper runs ∧ body = runBytes runs ∧ written + (expand runs).length = pixels := by
  rw [decodeRuns_done done.ge] at accepted
  split at accepted
  · cases accepted
  · next empty => exact ⟨[], nofun, not_not.mp empty, done⟩

/-- What the loop accepts is a sequence of runs that covers the rest of the picture. -/
theorem runs_of_decodeRuns (inside : written ≤ pixels)
    (accepted : (decodeRuns format pixels body written out).1 = .ok ()) :
    ∃ runs, Proper runs ∧ body = runBytes runs ∧ written + (expand runs).length = pixels := by
  induction body using body_induct generalizing written out with
  | short body short =>
    obtain left | done := lt_or_ge written pixels
    · rw [decodeRuns_short left short] at accepted
      cases accepted
    · exact runs_of_done (le_antisymm inside done) accepted
  | run r rest ih =>
    obtain left | done := lt_or_ge written pixels
    · rw [decodeRuns_run left] at accepted
      iterate 2
        split at accepted
        · cases accepted
      next proper fits =>
        obtain ⟨runs, later, rfl, cover⟩ := ih (by omega) accepted
        refine ⟨r :: runs, forall_mem_cons.mpr ⟨proper, later⟩, rfl, ?_⟩
        rw [expand_cons, length_append, length_replicate]
        omega
    · exact runs_of_done (le_antisymm inside done) accepted

/-- Whatever the loop concludes, it leaves the buffer alone past the picture. -/
theorem decodeRuns_beyond (format : Format) (body : List UInt8) (written : Nat)
    (room : pixels ≤ out.length) :
    (decodeRuns format pixels body written out).2.length = out.length ∧
      (decodeRuns format pixels body written out).2.drop pixels = out.drop pixels := by
  induction body using body_induct generalizing written out with
  | short body short =>
    obtain left | done := lt_or_ge written pixels
    · rw [decodeRuns_short left short]
      exact ⟨rfl, rfl⟩
    · rw [decodeRuns_done done]
      split <;> exact ⟨rfl, rfl⟩
  | run r rest ih =>
    obtain left | done := lt_or_ge written pixels
    · rw [decodeRuns_run left]
      split
      · exact ⟨rfl, rfl⟩
      split
      · exact ⟨rfl, rfl⟩
      · have length : (fillSlots out written r.count.toNat (r.pixel.compose format)).length =
            out.length := fillSlots_length (by omega)
        obtain ⟨same, beyond⟩ := ih (written + r.count.toNat) (length.symm ▸ room)
        exact ⟨same.trans length, beyond.trans (fillSlots_drop (by omega) room)⟩
    · rw [decodeRuns_done done]
      split <;> exact ⟨rfl, rfl⟩

end

def Run.raw (r : Run) : List UInt8 × Nat := (r.pixel.bytes, r.count.toNat)

theorem bytes_inj {p p' : Pixel} (same : p.bytes = p'.bytes) : p = p' := by
  cases p
  cases p'
  simpa [Pixel.bytes] using same

theorem emit_run (r : Run) : emit (some r.raw) = r.bytes := by
  rw [Run.raw, emit, Run.bytes, UInt8.ofNat_toNat]

/-- The bytes at an index of a picture are those of its pixel. -/
theorem pixel_at (before : List Pixel) (p : Pixel) (after : List Pixel) :
    ((picture (before ++ p :: after)).drop (before.length * 4)).take 4 = p.bytes := by
  have length : (picture before).length = before.length * 4 := by
    rw [picture, length_flatMap]
    simp [Pixel.bytes]
  have split : picture (before ++ p :: after) = picture before ++ (p.bytes ++ picture after) := by
    rw [picture, flatMap_append]
    rfl
  rw [split, drop_left' length]
  rfl

/-- The run in progress grows while the pixels stay the same and the count fits a byte. -/
theorem encodeRuns_eq (after before : List Pixel) (body : List UInt8) (run : Option Run)
    (proper : ∀ r ∈ run, r.count ≠ 0) :
    ∃ runs, Proper runs ∧ encodeRuns (picture (before ++ after)) before.length after.length body
        (run.map Run.raw) = body ++ runBytes runs ∧
      expand runs = expand run.toList ++ after := by
  induction after generalizing before body run with
  | nil =>
    cases run with
    | none => exact ⟨[], nofun, rfl, rfl⟩
    | some r =>
      refine ⟨[r], by simpa [Proper] using proper, ?_, by simp⟩
      rw [length_nil, encodeRuns, Option.map_some, emit_run]
      simp [runBytes]
  | cons p after ih =>
    have here := pixel_at before p after
    have later : picture (before ++ p :: after) = picture (before ++ [p] ++ after) := by simp
    have count : (before ++ [p]).length = before.length + 1 := by simp
    cases run with
    | none =>
      obtain ⟨runs, good, written, same⟩ := ih (before ++ [p]) body (some ⟨1, p⟩) (by simp)
      refine ⟨runs, good, ?_, by simpa using same⟩
      rw [length_cons, Option.map_none, encodeRuns, here]
      rw [later, ← count]
      exact written
    | some r => ?_
    rw [length_cons, Option.map_some, Run.raw, encodeRuns, here]
    split
    · next grows =>
        obtain rfl : r.pixel = p := bytes_inj grows.1
        have next : (r.count + 1).toNat = r.count.toNat + 1 := by
          rw [UInt8.toNat_add, UInt8.toNat_one]
          exact Nat.mod_eq_of_lt (by omega)
        have positive : r.count + 1 ≠ 0 := fun zero => by
          have := congrArg UInt8.toNat zero
          rw [next] at this
          cases this
        obtain ⟨runs, good, written, same⟩ :=
          ih (before ++ [r.pixel]) body (some ⟨r.count + 1, r.pixel⟩) (by simpa using positive)
        refine ⟨runs, good, ?_, ?_⟩
        · rw [later, ← count, ← next]
          exact written
        · simp only [same, Option.toList_some, expand_cons, next, replicate_succ']
          simp
    · obtain ⟨runs, good, written, same⟩ :=
        ih (before ++ [p]) (body ++ r.bytes) (some ⟨1, p⟩) (by simp)
      have first : r.count ≠ 0 := proper r rfl
      refine ⟨r :: runs, forall_mem_cons.mpr ⟨first, good⟩, ?_, ?_⟩
      · rw [later, ← count, ← Run.raw, emit_run, runBytes_cons, ← append_assoc]
        exact written
      · rw [expand_cons, same]
        simp

theorem encode_eq (image : List Pixel) (width height : Nat) (size : image.length = width * height) :
    ∃ runs, Proper runs ∧ encode (picture image) width height = runBytes runs ∧ expand runs = image := by
  have written := encodeRuns_eq image [] [] none nofun
  rw [encode, ← size]
  exact written

structure ValidHeader (blob : List UInt8) (g : Geometry) : Prop where
  length : headerSize ≤ blob.length
  magic : blob.take 4 = magic
  width : g.width = readU16 blob 4
  height : g.height = readU16 blob 6
  widthRange : 0 < g.width ∧ g.width ≤ maxDimension
  heightRange : 0 < g.height ∧ g.height ≤ maxDimension

theorem geometry_eq_ok : geometry blob = .ok g ↔ ValidHeader blob g := by
  simp only [geometry, accept_bind_eq_ok, Bool.and_eq_true, decide_eq_true_eq]
  constructor
  · rintro ⟨length, magic, ⟨⟨⟨w, h⟩, w'⟩, h'⟩, same⟩
    cases same
    exact ⟨length, magic, rfl, rfl, ⟨pos_of_ne_zero w, w'⟩, ⟨pos_of_ne_zero h, h'⟩⟩
  · rintro ⟨length, magic, width, height, w, h⟩
    rw [width] at w
    rw [height] at h
    refine ⟨length, magic, ⟨⟨⟨w.1.ne', h.1.ne'⟩, w.2⟩, h.2⟩, ?_⟩
    rw [← width, ← height]
    rfl

section
variable {format : Format}

theorem expand_length (runs : List Run) :
    (expand runs).length = (runs.map fun r => r.count.toNat).sum := by
  rw [expand, length_flatMap]
  simp

theorem decode_of_runs (format : Format) (header : ValidHeader blob g)
    (room : g.width * g.height ≤ out.length) (proper : Proper runs)
    (body : blob.drop headerSize = runBytes runs)
    (cover : (expand runs).length = g.width * g.height) :
    decode blob out format =
      (.ok g, (expand runs).map (·.compose format) ++ out.drop (g.width * g.height)) := by
  have decoded := decodeRuns_of_runs format proper ((zero_add _).trans cover) room
  rw [decode, geometry_eq_ok.mpr header]
  dsimp only
  rw [if_neg (by omega), body, decoded, take_zero, nil_append]
  rfl

theorem decode_eq_ok :
    (decode blob out format).1 = .ok g ↔ ValidHeader blob g ∧ g.width * g.height ≤ out.length ∧
      ∃ runs, Proper runs ∧ blob.drop headerSize = runBytes runs ∧
        (expand runs).length = g.width * g.height := by
  constructor
  · intro accepted
    rw [decode] at accepted
    split at accepted
    · cases accepted
    next h found =>
    dsimp only at accepted
    split at accepted
    · cases accepted
    next room =>
    cases decoded : (decodeRuns format (h.width * h.height) (blob.drop headerSize) 0 out).1 with
    | error status =>
      rw [decoded] at accepted
      cases accepted
    | ok _ =>
      rw [decoded] at accepted
      obtain rfl : h = g := Except.ok.inj accepted
      obtain ⟨runs, proper, body, cover⟩ := runs_of_decodeRuns (Nat.zero_le _) decoded
      exact ⟨geometry_eq_ok.mp found, Nat.le_of_not_lt room, runs, proper, body,
        (zero_add _).symm.trans cover⟩
  · rintro ⟨header, room, runs, proper, body, cover⟩
    rw [decode_of_runs format header room proper body cover]

theorem decode_beyond (blob : List UInt8) (out : List UInt32) :
    (decode blob out format).2.length = out.length ∧
      ∀ i, (∀ g, geometry blob = .ok g → g.width * g.height ≤ i) →
        (decode blob out format).2[i]? = out[i]? := by
  rw [decode]
  cases found : geometry blob with
  | error status => exact ⟨rfl, fun _ _ => rfl⟩
  | ok g =>
    dsimp only
    split
    · exact ⟨rfl, fun _ _ => rfl⟩
    · next room =>
        obtain ⟨length, beyond⟩ :=
          decodeRuns_beyond format (blob.drop headerSize) 0 (Nat.le_of_not_lt room)
        refine ⟨length, fun i past => ?_⟩
        obtain ⟨k, rfl⟩ := Nat.exists_eq_add_of_le (past g rfl)
        rw [← getElem?_drop, beyond, getElem?_drop]

theorem assemble_header (pixels : List UInt8) {width height : Nat} (w : 0 < width)
    (w' : width ≤ maxDimension) (h : 0 < height) (h' : height ≤ maxDimension) :
    ValidHeader (assemble pixels width height) ⟨width, height⟩ := by
  have dimensions : ∀ n, n ≤ maxDimension → littleEndian (bytesOf 2 n) = n := fun n small =>
    littleEndian_bytesOf (by rw [maxDimension] at small; omega)
  refine ⟨?_, rfl, (dimensions width w').symm, (dimensions height h').symm, ⟨w, w'⟩, ⟨h, h'⟩⟩
  simp [assemble, magic, headerSize, bytesOf]

end

/-- The codec: what the decoder makes of an encoded picture, which blobs it accepts and
what it leaves alone. -/
theorem logo_round_trip (format : Format) :
    (∀ (image : List Pixel) (width height : Nat) (out : List UInt32),
      0 < width → width ≤ maxDimension → 0 < height → height ≤ maxDimension →
      image.length = width * height → out.length = width * height →
      decode (assemble (picture image) width height) out format =
        (.ok ⟨width, height⟩, image.map (·.compose format))) ∧
    (∀ (blob : List UInt8) (out : List UInt32) (g : Geometry),
      (decode blob out format).1 = .ok g ↔ ValidHeader blob g ∧ g.width * g.height ≤ out.length ∧
        ∃ runs : List Run, Proper runs ∧ blob.drop headerSize = runBytes runs ∧
          (runs.map fun r => r.count.toNat).sum = g.width * g.height) ∧
    (∀ (blob : List UInt8) (out : List UInt32), (decode blob out format).2.length = out.length ∧
      ∀ i, (∀ g, geometry blob = .ok g → g.width * g.height ≤ i) →
        (decode blob out format).2[i]? = out[i]?) := by
  refine ⟨?_, ?_, decode_beyond⟩
  · intro image width height out w w' h h' size room
    obtain ⟨runs, proper, body, same⟩ := encode_eq image width height size
    have header := assemble_header (picture image) w w' h h'
    have rest : (assemble (picture image) width height).drop headerSize = runBytes runs := by
      rw [← body]
      rfl
    have decoded := decode_of_runs format header room.ge proper rest
      ((congrArg List.length same).trans size)
    rw [decoded, same, drop_eq_nil_of_le room.le, append_nil]
  · intro blob out g
    simp only [decode_eq_ok, expand_length]

def stripedImage : List Pixel := .replicate 300 ⟨255, 0, 0, 255⟩ ++ .replicate 4 ⟨0, 0, 255, 128⟩

/-- The first stripe is longer than a run can be. -/
theorem logo_round_trip_stripes :
    encode (picture stripedImage) 19 16 =
        [255, 255, 0, 0, 255, 45, 255, 0, 0, 255, 4, 0, 0, 255, 128] ∧
      decode (assemble (picture stripedImage) 19 16) (.replicate 304 7) ⟨16, 8, 0, 0⟩ =
        (.ok ⟨19, 16⟩, stripedImage.map (·.compose ⟨16, 8, 0, 0⟩)) :=
  ⟨by decide +kernel, (logo_round_trip ⟨16, 8, 0, 0⟩).1 stripedImage 19 16 (.replicate 304 7)
    (by decide) (by decide) (by decide) (by decide) (by decide +kernel) (by decide +kernel)⟩

end Sapote.Logo
