import Sapote.Elf.Image

/-!
The parser accepts one family of files: the fixture moved to any page of the user half.
Every byte of the file belongs to a field that the parser checks, and the fields tile the
file, so an accepted file is the record of its fields.
-/

namespace Sapote.Elf
open List Option

open Library
variable {status : ElfStatus} {bytes : List UInt8} {va entry : Nat} {header : Header}
  {image : ValidatedImage}

def byteFields (bytes : List UInt8) : List Field := bytes.map fun b => (1, b.toNat)

def identFields : List Field :=
  byteFields [0x7F, 0x45, 0x4C, 0x46, 2, 1, 1, 0, 0, 0, 0, 0, 0, 0, 0, 0]

def headerFields (entry : Nat) : List Field :=
  [(2, 2), (2, 62), (4, 1), (8, entry), (8, 64), (8, 0), (4, 0), (2, 64), (2, 56), (2, 1), (2, 0),
    (2, 0), (2, 0)]

def segmentFields (virtualAddress : Nat) : List Field :=
  [(4, 1), (4, 5), (8, 0), (8, virtualAddress), (8, 0), (8, 128), (8, 128), (8, 4096)]

def layout (entry virtualAddress : Nat) : List Field :=
  identFields ++ headerFields entry ++ segmentFields virtualAddress ++ byteFields code

/-- A number is written over as many bytes as it has. -/
theorem putInteger_over (before old after : List UInt8) (value : Nat) :
    putInteger (before ++ old ++ after) before.length value old.length =
      some (before ++ bytesOf old.length value ++ after) := by
  induction old generalizing before value with
  | nil => rfl
  | cons b old ih =>
    have written : putByte (before ++ b :: old ++ after) before.length (.ofNat value) =
        some (before ++ [UInt8.ofNat value] ++ old ++ after) := by
      rw [putByte, if_pos (by simp), append_assoc, set_append_right _ _ (le_refl _),
        Nat.sub_self]
      simp
    have next := ih (before ++ [UInt8.ofNat value]) (value / 256)
    rw [length_append, length_singleton] at next
    rw [length_cons, putInteger, written, bind_eq_bind, bind_some, next, bytesOf]
    simp

theorem putInteger_field (before after : List Field) (offset value old width : Nat)
    (place : (encodeFields before).length = offset) :
    putInteger (encodeFields (before ++ [(width, old)] ++ after)) offset value width =
      some (encodeFields (before ++ [(width, value)] ++ after)) := by
  have written := putInteger_over (encodeFields before) (bytesOf width old) (encodeFields after) value
  rw [bytesOf_length, place] at written
  simpa [encodeFields] using written

theorem layout_segment (entry virtualAddress : Nat) : layout entry virtualAddress =
    (identFields ++ headerFields entry ++ [(4, 1), (4, 5), (8, 0)]) ++ [(8, virtualAddress)] ++
      ([(8, 0), (8, 128), (8, 128), (8, 4096)] ++ byteFields code) := rfl

theorem layout_entry (entry virtualAddress : Nat) : layout entry virtualAddress =
    (identFields ++ [(2, 2), (2, 62), (4, 1)]) ++ [(8, entry)] ++
      ((headerFields entry).drop 4 ++ segmentFields virtualAddress ++ byteFields code) := rfl

theorem fixtureAt_eq (virtualAddress : Nat) :
    fixtureAt virtualAddress = some (encodeFields (layout (virtualAddress + 120) virtualAddress)) := by
  have written : writeFixture (.replicate fileBytes 0) =
      some (encodeFields (layout 0x0000400000000078 0x0000400000000000)) := by decide +kernel
  have segment : putInteger (encodeFields (layout 0x0000400000000078 0x0000400000000000)) 80
      virtualAddress 8 = some (encodeFields (layout 0x0000400000000078 virtualAddress)) := by
    simp only [layout_segment]
    exact putInteger_field _ _ 80 virtualAddress 0x0000400000000000 8 (by decide +kernel)
  have entry : putInteger (encodeFields (layout 0x0000400000000078 virtualAddress)) 24
      (virtualAddress + 120) 8 =
        some (encodeFields (layout (virtualAddress + 120) virtualAddress)) := by
    simp only [layout_entry]
    exact putInteger_field _ _ 24 (virtualAddress + 120) 0x0000400000000078 8 (by decide +kernel)
  calc fixtureAt virtualAddress
      = (putInteger (encodeFields (layout 0x0000400000000078 0x0000400000000000)) 80
          virtualAddress 8).bind fun image => putInteger image 24 (virtualAddress + 120) 8 := by
        rw [fixtureAt, written]
        simp only [bind_eq_bind, bind_some]
    _ = putInteger (encodeFields (layout 0x0000400000000078 virtualAddress)) 24
          (virtualAddress + 120) 8 := by rw [segment, bind_some]
    _ = _ := entry

section
variable {input : List UInt8} {offset : Nat}

theorem integerLe_eq {width : Nat} (inside : offset + width ≤ input.length) :
    integerLe input offset width = .ok (fieldAt input offset width) := by
  induction width generalizing offset with
  | zero =>
    rfl
  | succ width ih =>
    have here : offset < input.length := by omega
    have next : integerLe input (offset + 1) width = _ := ih (by omega)
    simp only [integerLe, byte, getElem?_eq_getElem here, okOr_bind, next, ok_bind, fieldAt,
      drop_eq_getElem_cons here, take_succ_cons, littleEndian_cons]
    rfl

theorem expectBytes_eq_ok (inside : offset + bytes.length ≤ input.length) :
    expectBytes input status offset bytes = .ok () ↔ HasFields input offset (byteFields bytes) := by
  induction bytes generalizing offset with
  | nil => exact iff_of_true rfl trivial
  | cons b bytes ih =>
    rw [length_cons] at inside
    have here : offset < input.length := by omega
    have next : expectBytes input status (offset + 1) bytes = .ok () ↔ _ := ih (by omega)
    have value : fieldAt input offset 1 = input[offset].toNat := by
      rw [fieldAt, drop_eq_getElem_cons here, take_succ_cons, take_zero,
        littleEndian_cons, littleEndian_nil, mul_zero, add_zero]
    rw [expectBytes, byte, getElem?_eq_getElem here, okOr_bind, accept_bind_eq_ok, next,
      decide_eq_true_iff, ← UInt8.toNat_inj, ← value]
    rfl

theorem expectBytes_refuses (inside : offset + bytes.length ≤ input.length) {E : ElfStatus → Prop}
    (now : E status) : Refuses (expectBytes input status offset bytes) E := by
  induction bytes generalizing offset with
  | nil => exact .ok
  | cons b bytes ih =>
    rw [length_cons] at inside
    rw [expectBytes, byte, getElem?_eq_getElem (by omega), okOr_bind]
    exact .accept now fun _ => ih (by omega)

end

/-- The pages are those of one address; none of the checked additions overflows. -/
theorem placeSegment_eq_ok {alignment mappingEnd : Nat} :
    placeSegment 0 va 128 128 alignment entry = .ok mappingEnd ↔ alignment = 4096 ∧
      va % 4096 = 0 ∧ va + 4095 ≤ 0x00007FFFFFFFFFFF ∧ entry = va + 120 ∧ mappingEnd = va + 4096 := by
  simp only [placeSegment, accept_bind_eq_ok, okOr_bind_eq_ok, checkedAdd_eq_some, Bool.and_eq_true,
    decide_eq_true_eq, canonicalUser]
  simp only [pageBytes, codeOffset, u64Bound]
  constructor
  · rintro ⟨⟨rfl, -⟩, -, ⟨aligned, low⟩, _, ⟨-, rfl⟩, -, _, ⟨-, rfl⟩, ⟨-, high⟩, _, ⟨-, rfl⟩, _, -, ⟨⟨entry, -⟩, -⟩,
      same⟩
    have aligned : va % 4096 = 0 := by
      rwa [Nat.and_two_pow_sub_one_eq_mod va 12] at aligned
    cases same
    refine ⟨rfl, aligned, ?_, entry, ?_⟩ <;> omega
  · rintro ⟨rfl, aligned, high, rfl, rfl⟩
    have masked : va &&& (4096 - 1) = 0 := (Nat.and_two_pow_sub_one_eq_mod va 12).trans aligned
    have whole : (va + 128 + (4096 - 1)) / 4096 * 4096 = va + 4096 := by omega
    refine ⟨⟨rfl, by decide⟩, masked, ⟨masked, by omega⟩, _, ⟨by omega, rfl⟩, ⟨by omega, by omega⟩, _,
      ⟨by omega, rfl⟩, ⟨by omega, by omega⟩, _, ⟨by omega, rfl⟩, _, ⟨by omega, rfl⟩,
      ⟨⟨rfl, by omega⟩, by omega⟩, ?_⟩
    rw [whole]
    rfl

section
variable {input : List UInt8} (length : input.length = fileBytes)

include length

theorem parseIdent_eq_ok : parseIdent input = .ok () ↔ HasFields input 0 identFields := by
  rw [fileBytes] at length
  simp (disch := simp; omega) only [parseIdent, unit_bind_eq_ok, expectBytes_eq_ok]
  simp only [identFields, byteFields, map_cons, map_nil, HasFields, and_true, and_assoc,
    Nat.reduceAdd]

theorem parseHeader_eq_ok : parseHeader input = .ok header ↔
    HasFields input 16 (headerFields header.entry) ∧ header.elfType = 2 ∧ header.machine = 62 := by
  rw [fileBytes] at length
  simp (disch := omega) only [parseHeader, u16Le, u32Le, u64Le, integerLe_eq, ok_bind,
    accept_bind_eq_ok, okOr_bind_eq_ok, decide_eq_true_iff, Bool.and_eq_true]
  simp only [headerFields, HasFields, Nat.reduceAdd, and_true, headerBytes, programHeaderBytes,
    codeOffset]
  constructor
  · rintro ⟨type, machine, version, flags, size, table, entrySize, count, ⟨⟨⟨offset, s1⟩, s2⟩, s3⟩, -, -, -,
      -, -, same⟩
    cases same
    exact ⟨⟨type, machine, version, rfl, table, offset, flags, size, entrySize, count, s1, s2, s3⟩, type,
      machine⟩
  · rintro ⟨⟨type, machine, version, entry, table, offset, flags, size, entrySize, count, s1, s2, s3⟩,
      same, same'⟩
    refine ⟨type, machine, version, flags, size, table, entrySize, count, ⟨⟨⟨offset, s1⟩, s2⟩, s3⟩, 56, ?_,
      120, ?_, ⟨rfl, by omega⟩, ?_⟩
    · rw [entrySize, count]
      rfl
    · rw [table]
      rfl
    · rw [type, machine, entry, ← same, ← same']
      rfl

def validated (virtualAddress : Nat) : ValidatedImage where
  valid := 1
  segmentCount := 1
  elfType := 2
  machine := 62
  programFlags := 5
  entry := virtualAddress + 120
  fileOffset := 0
  virtualAddress := virtualAddress
  fileSize := 128
  memorySize := 128
  alignment := 4096
  mappingStart := virtualAddress
  mappingEnd := virtualAddress + 4096
  code := code

theorem parseSegment_eq_ok (type : header.elfType = 2) (machine : header.machine = 62) :
    parseSegment input header = .ok image ↔ ∃ va, va % 4096 = 0 ∧ va + 4095 ≤ 0x00007FFFFFFFFFFF ∧
      header.entry = va + 120 ∧ HasFields input 64 (segmentFields va) ∧
      HasFields input 120 (byteFields code) ∧ image = validated va := by
  rw [fileBytes] at length
  have inside : codeOffset + code.length ≤ input.length := length ▸ by decide
  simp (disch := omega) only [parseSegment, u32Le, u64Le, headerBytes, integerLe_eq, ok_bind,
    accept_bind_eq_ok, okOr_bind_eq_ok, decide_eq_true_iff, Bool.and_eq_true, checkedAdd_eq_some]
  simp only [bind_eq_ok, expectBytes_eq_ok inside, fileBytes, segmentFields, HasFields, Nat.reduceAdd,
    and_true, length]
  constructor
  · rintro ⟨load, flags, physical, offset, ⟨size, memory⟩, -, -, -, mappingEnd, placed, -, bytes, same⟩
    rw [size, memory, offset, placeSegment_eq_ok] at placed
    obtain ⟨alignment, aligned, low, entry, rfl⟩ := placed
    refine ⟨fieldAt input 80 8, aligned, low, entry, ⟨load, flags, offset, rfl, physical, size, memory,
      alignment⟩, bytes, ?_⟩
    rw [type, machine, flags, offset, size, memory, alignment, entry] at same
    exact (Except.ok.inj same).symm
  · rintro ⟨va, aligned, low, entry, ⟨load, flags, offset, address, physical, size, memory, alignment⟩,
      bytes, rfl⟩
    rw [type, machine, flags, offset, size, memory, alignment, address, entry]
    refine ⟨load, rfl, physical, rfl, ⟨rfl, rfl⟩, 128, ⟨by decide, rfl⟩, rfl, va + 4096, ?_, (), bytes, rfl⟩
    exact placeSegment_eq_ok.mpr ⟨rfl, aligned, low, rfl, rfl⟩

theorem parse_eq_ok_iff : parse input = .ok image ↔
    ∃ va, va % 4096 = 0 ∧ va + 4095 ≤ 0x00007FFFFFFFFFFF ∧
      HasFields input 0 (layout (va + 120) va) ∧ image = validated va := by
  have parts : ∀ va, HasFields input 0 (layout (va + 120) va) ↔ HasFields input 0 identFields ∧
      HasFields input 16 (headerFields (va + 120)) ∧ HasFields input 64 (segmentFields va) ∧
      HasFields input 120 (byteFields code) := by
    intro va
    have ident : (identFields.map Prod.fst).sum = 16 := rfl
    have header : ((headerFields (va + 120)).map Prod.fst).sum = 48 := rfl
    have segment : ((segmentFields va).map Prod.fst).sum = 56 := rfl
    simp only [layout, hasFields_append, and_assoc]
    simp only [map_append, sum_append, ident, header, segment, Nat.reduceAdd]
  simp only [parse, unit_bind_eq_ok, accept_eq_ok, decide_eq_true_iff, parseIdent_eq_ok length,
    parts]
  rw [bind_eq_ok]
  simp only [parseHeader_eq_ok length]
  constructor
  · rintro ⟨-, -, ident, header, ⟨fields, type, machine⟩, parsed⟩
    obtain ⟨va, aligned, low, entry, segment, bytes, rfl⟩ :=
      (parseSegment_eq_ok length type machine).mp parsed
    exact ⟨va, aligned, low, ⟨ident, entry ▸ fields, segment, bytes⟩, rfl⟩
  · rintro ⟨va, aligned, low, ⟨ident, fields, segment, bytes⟩, rfl⟩
    refine ⟨length.ge, length, ident, ⟨2, 62, va + 120⟩, ⟨fields, rfl, rfl⟩, ?_⟩
    exact (parseSegment_eq_ok length rfl rfl).mpr ⟨va, aligned, low, rfl, segment, bytes, rfl⟩

end

section

/-- The statuses of arithmetic and of a short table, which a whole file never meets. -/
def Unreachable (status : ElfStatus) : Prop :=
  status = .addressOverflow ∨ status = .programTable ∨ status = .truncated

instance : DecidablePred Unreachable := fun _ => inferInstanceAs (Decidable (_ ∨ _ ∨ _))

variable {input : List UInt8} (length : input.length = fileBytes)

theorem placeSegment_refuses {alignment : Nat} :
    Refuses (placeSegment 0 va 128 128 alignment entry) (¬Unreachable ·) := by
  refine .accept (by decide) fun _ => .accept (by decide) fun _ => ?_
  refine .accept (by decide) fun placed => ?_
  have low : va ≤ 0x00007FFFFFFFFFFF := by
    simp only [Bool.and_eq_true, canonicalUser, decide_eq_true_eq] at placed
    exact placed.2
  rw [checkedAdd_of_lt (by rw [u64Bound]; omega), okOr_bind]
  refine .accept (by decide) fun _ => ?_
  rw [checkedAdd_of_lt (by rw [u64Bound, pageBytes]; omega), okOr_bind]
  refine .accept (by decide) fun _ => ?_
  rw [checkedAdd_of_lt (by rw [u64Bound, codeOffset]; omega), okOr_bind, okOr_bind]
  exact .accept (by decide) fun _ => .ok

include length

theorem parseIdent_refuses : Refuses (parseIdent input) (¬Unreachable ·) := by
  rw [fileBytes] at length
  iterate 5 refine .bind (expectBytes_refuses (by simp; omega) (by decide)) fun _ _ => ?_
  exact expectBytes_refuses (by simp; omega) (by decide)

theorem parseHeader_refuses : Refuses (parseHeader input) (¬Unreachable ·) := by
  rw [fileBytes] at length
  simp (disch := omega) only [parseHeader, u16Le, u32Le, u64Le, integerLe_eq, ok_bind]
  iterate 4 refine .accept (by decide) fun _ => ?_
  refine .accept (by decide) fun _ => .accept (by decide) fun table => ?_
  refine .accept (by decide) fun size => .accept (by decide) fun count => ?_
  refine .accept (by decide) fun _ => ?_
  rw [of_decide_eq_true table, of_decide_eq_true size, of_decide_eq_true count]
  rw [checkedMul_of_lt (by decide), okOr_bind, checkedAdd_of_lt (by decide), okOr_bind]
  rw [show decide (headerBytes + programHeaderBytes * 1 = codeOffset) = true by decide, length]
  exact .ok

theorem parseSegment_refuses (header : Header) :
    Refuses (parseSegment input header) (¬Unreachable ·) := by
  rw [fileBytes] at length
  have inside : codeOffset + code.length ≤ input.length := length ▸ by decide
  simp (disch := omega) only [parseSegment, u32Le, u64Le, headerBytes, integerLe_eq, ok_bind]
  refine .accept (by decide) fun _ => .accept (by decide) fun _ => ?_
  refine .accept (by decide) fun _ => .accept (by decide) fun offset => ?_
  refine .accept (by decide) fun sizes => ?_
  simp only [Bool.and_eq_true, decide_eq_true_eq] at offset sizes
  rw [offset, sizes.1, sizes.2, checkedAdd_of_lt (by decide), okOr_bind]
  refine .accept (by decide) fun _ => ?_
  refine .bind placeSegment_refuses fun mappingEnd _ => ?_
  exact .bind (expectBytes_refuses inside (by decide)) fun _ _ => .ok

theorem parse_refuses : Refuses (parse input) (¬Unreachable ·) := by
  rw [parse, decide_eq_true length.ge, accept_true, ok_bind]
  refine .accept (by decide) fun _ => .bind (parseIdent_refuses length) fun _ _ => ?_
  exact .bind (parseHeader_refuses length) fun header _ => parseSegment_refuses length header

end

section
variable {input : List UInt8}

theorem layout_fits (entryFits : entry < 2 ^ 64) (vaFits : va < 2 ^ 64) :
    ∀ f ∈ layout entry va, f.2 < 256 ^ f.1 := by
  have ident : ∀ f ∈ identFields ++ byteFields code, f.2 < 256 ^ f.1 := by decide
  have header : ∀ f ∈ headerFields entry, f.2 < 256 ^ f.1 := by
    simpa [headerFields] using entryFits
  have segment : ∀ f ∈ segmentFields va, f.2 < 256 ^ f.1 := by
    simpa [segmentFields] using vaFits
  simp only [forall_mem_append, layout] at ident ⊢
  exact ⟨⟨⟨ident.1, header⟩, segment⟩, ident.2⟩

/-- The files of the fixture are those of its length with its fields. -/
theorem fixtureAt_eq_some (low : va + 4095 ≤ 0x00007FFFFFFFFFFF) :
    fixtureAt va = some input ↔
      input.length = fileBytes ∧ HasFields input 0 (layout (va + 120) va) := by
  have widths : ((layout (va + 120) va).map Prod.fst).sum = fileBytes := by
    simp only [layout, map_append, sum_append]
    rfl
  have fits : ∀ f ∈ layout (va + 120) va, f.2 < 256 ^ f.1 := layout_fits (by omega) (by omega)
  rw [fixtureAt_eq, Option.some.injEq]
  constructor
  · rintro rfl
    have length := (encodeFields_length (layout (va + 120) va)).trans widths
    exact ⟨length, (eq_encodeFields_iff fits (length.trans widths.symm)).mp rfl⟩
  · rintro ⟨length, fields⟩
    exact ((eq_encodeFields_iff fits (length.trans widths.symm)).mpr fields).symm

/-- An accepted file is the fixture at a page of the user half. -/
theorem parse_eq_ok : parse input = .ok image ↔
    ∃ va, va % 4096 = 0 ∧ va + 4095 ≤ 0x00007FFFFFFFFFFF ∧ fixtureAt va = some input ∧
      image = validated va := by
  constructor
  · intro parsed
    have length : input.length = fileBytes := by
      simp only [parse, unit_bind_eq_ok, accept_eq_ok, decide_eq_true_iff] at parsed
      exact parsed.2.1
    obtain ⟨va, aligned, low, fields, rfl⟩ := (parse_eq_ok_iff length).mp parsed
    exact ⟨va, aligned, low, (fixtureAt_eq_some low).mpr ⟨length, fields⟩, rfl⟩
  · rintro ⟨va, aligned, low, same, rfl⟩
    obtain ⟨length, fields⟩ := (fixtureAt_eq_some low).mp same
    exact (parse_eq_ok_iff length).mpr ⟨va, aligned, low, fields, rfl⟩

end

/-- The parser accepts the fixture moved to a page of the user half and nothing else; the
mapping of an accepted file is one page there that holds the file and its entry. -/
theorem parse_exact (input : List UInt8) :
    ((∃ image, parse input = .ok image) ↔
      ∃ va, va % pageBytes = 0 ∧ va + 4095 ≤ 0x00007FFFFFFFFFFF ∧ fixtureAt va = some input) ∧
    (∀ image, parse input = .ok image → ∃ va, fixtureAt va = some input ∧
      image.virtualAddress = va ∧ image.entry = va + 120 ∧
      image.mappingStart = va ∧ image.mappingEnd = va + 4096 ∧
      (∀ address, image.mappingStart ≤ address → address < image.mappingEnd →
        canonicalUser address = true) ∧
      image.mappingStart ≤ image.entry ∧ image.entry < image.mappingEnd ∧
      image.mappingStart ≤ image.virtualAddress ∧
      image.virtualAddress + input.length ≤ image.mappingEnd) ∧
    (input.length = fileBytes → parse input ≠ .error .addressOverflow ∧
      parse input ≠ .error .programTable ∧ parse input ≠ .error .truncated) := by
  refine ⟨⟨?_, ?_⟩, ?_, ?_⟩
  · rintro ⟨image, parsed⟩
    obtain ⟨va, aligned, low, same, -⟩ := parse_eq_ok.mp parsed
    exact ⟨va, aligned, low, same⟩
  · rintro ⟨va, aligned, low, same⟩
    exact ⟨validated va, parse_eq_ok.mpr ⟨va, aligned, low, same, rfl⟩⟩
  · intro image parsed
    obtain ⟨va, aligned, low, same, rfl⟩ := parse_eq_ok.mp parsed
    have length : input.length = 128 := ((fixtureAt_eq_some low).mp same).1
    refine ⟨va, same, rfl, rfl, rfl, rfl, ?_, ?_, ?_, ?_, ?_⟩
    · intro address _ inside
      simp only [validated] at inside
      exact decide_eq_true (by omega)
    all_goals simp only [validated, length]; omega
  · intro length
    have reached := parse_refuses length
    refine ⟨fun h => reached _ h (.inl rfl), fun h => reached _ h (.inr (.inl rfl)),
      fun h => reached _ h (.inr (.inr rfl))⟩

theorem parse_exact_fixture :
    (encodeFields (layout 0x0000400000000078 0x0000400000000000)).length = fileBytes ∧
    (∃ image, parse (encodeFields (layout 0x0000400000000078 0x0000400000000000)) = .ok image) ∧
    parse (encodeFields (layout 0x0000400000000078 0x0000400000000000)) ≠
      .error .addressOverflow := by
  have length : (encodeFields (layout 0x0000400000000078 0x0000400000000000)).length = fileBytes := by
    decide +kernel
  refine ⟨length, (parse_exact _).1.mpr ?_, ((parse_exact _).2.2 length).1⟩
  exact ⟨0x0000400000000000, by decide, by decide, fixtureAt_eq 0x0000400000000000⟩

end Sapote.Elf
