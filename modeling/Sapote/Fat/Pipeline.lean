import Sapote.Fat.Volume

/-!
What the four parsers accept together. An accepted boot block leaves one geometry, up to the
size of the namespace; on that geometry no checked operation fails, the root directory is
described byte by byte, and the extent always exists.
-/

namespace Sapote.Fat
open Library List
variable {candidate : CandidateVolume} {entry : RootEntry} {geometry : Geometry}
  {offset index left blockBytes past : Nat} {length : Nat} {bytes : List UInt8}
  {found : Option RootEntry}

def acceptedGeometry (namespaceBlocks : Nat) : Geometry where
  totalSectors := 4096
  rootDirSectors := 1
  firstFatSector := 1
  fatSectors := 2
  firstRootSector := 3
  firstDataSector := 4
  dataSectors := 4092
  clusterCount := 4092
  namespaceBlocks := namespaceBlocks
  bytesPerSector := 4096
  sectorsPerCluster := 1
  rootEntries := 128
  media := 0xF8

section
variable {geometry : Geometry} {blocks : Nat}

theorem validateGeometry_accepted (room : 4096 ≤ blocks) :
    validateGeometry (acceptedGeometry blocks) = .ok () := by
  simp only [validateGeometry, okOr_bind_eq_ok, checkedAdd_eq_some, accept_eq_ok, Bool.and_eq_true,
    decide_eq_true_eq]
  have fat : 1 + 2 < wordBound := by decide
  have root : 3 + 1 < wordBound := by decide
  have data : 4 + 4092 < wordBound := by decide
  refine ⟨_, ⟨fat, rfl⟩, _, ⟨root, rfl⟩, _, ⟨data, rfl⟩, ⟨?_, room⟩, rfl⟩
  exact ⟨⟨⟨⟨⟨⟨⟨⟨⟨⟨rfl, rfl⟩, rfl⟩, rfl⟩, rfl⟩, rfl⟩, rfl⟩, rfl⟩, rfl⟩, rfl⟩, rfl⟩

theorem geometry_of_validateGeometry (valid : validateGeometry geometry = .ok ()) :
    geometry = acceptedGeometry geometry.namespaceBlocks ∧ 4096 ≤ geometry.namespaceBlocks := by
  simp only [validateGeometry, okOr_bind_eq_ok, checkedAdd_eq_some, accept_eq_ok, Bool.and_eq_true,
    decide_eq_true_eq] at valid
  obtain ⟨_, ⟨-, rfl⟩, _, ⟨-, rfl⟩, _, ⟨-, rfl⟩, checks⟩ := valid
  obtain ⟨⟨⟨⟨⟨⟨⟨⟨⟨⟨⟨⟨bytes, cluster⟩, entries⟩, media⟩, total⟩, root⟩, fat⟩, sectors⟩, fatEnd⟩, rootEnd⟩,
    dataEnd⟩, room⟩, clusters⟩ := checks
  rw [fat, sectors] at fatEnd
  rw [← fatEnd, root] at rootEnd
  rw [← rootEnd, total, totalSectorsAccepted] at dataEnd
  rw [total, totalSectorsAccepted] at room
  refine ⟨?_, room⟩
  have data : geometry.dataSectors = 4092 := by omega
  rw [data] at clusters
  cases geometry
  subst_vars
  rfl

theorem deriveGeometry_namespace (derived : deriveGeometry candidate blocks = .ok geometry) :
    geometry.namespaceBlocks = blocks := by
  rw [deriveGeometry, bind_eq_ok] at derived
  simp only [okOr_bind_eq_ok, accept_bind_eq_ok] at derived
  obtain ⟨_, -, _, -, _, -, _, -, -, -, _, -, _, -, _, -, _, -, -, -, -, -, -, _, -, _, -, -, same⟩ :=
    derived
  cases same
  rfl

theorem geometry_of_parseBpb {block : List UInt8}
    (parsed : parseBpb block blocks blockBytes = .ok geometry) :
    geometry = acceptedGeometry blocks ∧ 4096 ≤ blocks := by
  simp only [parseBpb, bind_eq_ok] at parsed
  obtain ⟨_, -, _, -, _, -, candidate, -, _, -, accepted, derived, _, valid, same⟩ := parsed
  cases same
  have standard := geometry_of_validateGeometry valid
  rw [deriveGeometry_namespace derived] at standard
  exact standard

end

section
variable {block : List UInt8} {blocks destination : Nat} {query : RootQuery}

section
variable (small : block.length ≤ 4096)
include small

theorem field_eq (inside : offset + length ≤ block.length) :
    field block offset length = .ok ((block.drop offset).take length) := by
  have bound : offset + length < wordBound := by
    rw [wordBound]
    omega
  rw [field, checkedAdd_of_lt bound, okOr_bind, decide_eq_true inside, accept_true, ok_bind]
  rfl

theorem readU16_eq (inside : offset + 2 ≤ block.length) :
    readU16 block offset = .ok (fieldAt block offset 2) := by
  rw [readU16, field_eq small inside]
  rfl

theorem readU32_eq (inside : offset + 4 ≤ block.length) :
    readU32 block offset = .ok (fieldAt block offset 4) := by
  rw [readU32, field_eq small inside]
  rfl

end

theorem entryOffset_eq (inside : index ≤ 128) : checkedMul wordBound index 32 = some (index * 32) :=
  checkedMul_of_lt (by rw [wordBound]; omega)

theorem getD_take_drop (bytes : List UInt8) (offset : Nat) {width : Nat} (some : 0 < width) :
    ((bytes.drop offset).take width).getD 0 0 = bytes.getD offset 0 := by
  simp only [getD_eq_getElem?_getD, getElem?_take_of_lt some, getElem?_drop,
    add_zero]

theorem checkEntry_twice {found : RootEntry} :
    checkEntry geometry query destination bytes (some found) ≠ .ok entry := by
  simp only [checkEntry, accept_bind_eq_ok, ne_eq]
  rintro ⟨-, -, -, -, -, once, -⟩
  cases once

section
variable (whole : block.length = 4096)
include whole

theorem findEnd_succ (low : index < 128) :
    findEnd block index (left + 1) =
      if block.getD (index * 32) 0 = 0 then .ok (some index) else findEnd block (index + 1) left := by
  rw [findEnd, entryOffset_eq (by omega), okOr_bind, field_eq whole.le (by omega), ok_bind,
    getD_take_drop block (index * 32) one_pos]
  rfl

/-- The first pass finds the first entry that starts with a zero. -/
theorem findEnd_cases (range : index + left = 128) :
    (findEnd block index left = .ok none) ∨
      ∃ past, findEnd block index left = .ok (some past) ∧ index ≤ past ∧ past < 128 ∧
        block.getD (past * 32) 0 = 0 ∧ ∀ j, index ≤ j → j < past → block.getD (j * 32) 0 ≠ 0 := by
  induction left generalizing index with
  | zero => exact .inl rfl
  | succ left ih =>
    rw [findEnd_succ whole (by omega)]
    split
    · next zero =>
        exact .inr ⟨index, rfl, le_refl _, by omega, zero, fun j low high => by omega⟩
    · next other =>
        obtain none | ⟨past, found, low, high, zero, earlier⟩ := @ih (index + 1) (by omega)
        · exact .inl none
        · refine .inr ⟨past, found, by omega, high, zero, fun j first last => ?_⟩
          obtain rfl | later := Nat.eq_or_lt_of_le first
          · exact other
          · exact earlier j later last

theorem scanTrailing_eq_ok (range : index + left = 128) (after : past ≤ index) :
    scanTrailing block past index left = .ok () ↔
      ∀ b ∈ block.drop (index * 32 + if index = past then 1 else 0), b = 0 := by
  induction left generalizing index with
  | zero =>
    refine iff_of_true rfl ?_
    rw [drop_eq_nil_of_le (by omega)]
    nofun
  | succ left ih =>
    have next := @ih (index + 1) (by omega) (by omega)
    rw [if_neg (by omega)] at next
    simp only [add_zero] at next
    have skip : (if index = past then 1 else 0) ≤ 1 := by split <;> decide
    rw [scanTrailing, entryOffset_eq (by omega), okOr_bind]
    generalize (if index = past then 1 else 0) = skipped at skip
    have parts : (∀ b ∈ block.drop (index * 32 + skipped), b = 0) ↔
        (∀ b ∈ (block.drop (index * 32 + skipped)).take (32 - skipped), b = 0) ∧
          ∀ b ∈ block.drop ((index + 1) * 32), b = 0 := by
      have split := take_append_drop (32 - skipped) (block.drop (index * 32 + skipped))
      rw [drop_drop, show index * 32 + skipped + (32 - skipped) = (index + 1) * 32 by omega] at split
      rw [← forall_mem_append, split]
    dsimp only
    rw [checkedAdd_of_lt (by rw [wordBound]; omega), okOr_bind, checkedSub_of_le (by omega),
      okOr_bind, field_eq whole.le (by omega), ok_bind, accept_bind_eq_ok, next, parts,
      all_eq_true]
    simp only [decide_eq_true_eq]

/-- The root block byte by byte; bytes 12 to 19 and 22 to 25 are free. -/
structure RootBlock (block : List UInt8) : Prop where
  length : block.length = 4096
  name : block.take 11 = sapoteName
  attributes : block.getD 11 0 = attrArchive
  highCluster : fieldAt block 20 2 = 0
  firstCluster : fieldAt block 26 2 = 2
  fileSize : fieldAt block 28 4 = 128
  rest : ∀ b ∈ block.drop 32, b = 0

def rootEntry : RootEntry := ⟨sapoteName, attrArchive, 2, 128⟩

/-- One entry of the second pass, at the start of the block. -/
theorem checkEntry_eq_ok (name : query.canonicalName = sapoteName) (room : 128 ≤ destination) :
    checkEntry (acceptedGeometry blocks) query destination ((block.drop 0).take 32) none = .ok entry ↔
      (block.take 11 = sapoteName ∧ block.getD 11 0 = attrArchive ∧ fieldAt block 20 2 = 0 ∧
        fieldAt block 26 2 = 2 ∧ fieldAt block 28 4 = 128) ∧ entry = rootEntry := by
  have length : (block.take 32).length = 32 := by
    rw [length_take]
    omega
  have number : ∀ offset width, offset + width ≤ 32 →
      fieldAt (block.take 32) offset width = fieldAt block offset width := by
    intro offset width inside
    rw [fieldAt, drop_take, take_take, min_eq_left (by omega), fieldAt]
  have attributes : (block.take 32).getD 11 0 = block.getD 11 0 := by
    rw [getD_eq_getElem?_getD, getElem?_take_of_lt (by decide), getD_eq_getElem?_getD]
  have clusters : 4092 + 1 < wordBound := by decide
  have second : 2 ≤ 4092 + 1 := by decide
  have bytes : checkedMul (2 ^ 32) 4096 1 = some 4096 := by decide
  rw [drop_zero]
  simp (disch := omega) only [checkEntry, readU16_eq, readU32_eq, ok_bind, accept_bind_eq_ok,
    okOr_bind_eq_ok, checkedAdd_eq_some, Bool.and_eq_true, decide_eq_true_eq, name, number,
    take_take, attributes, Nat.min_def, Nat.reduceLeDiff, if_true]
  constructor
  · rintro ⟨-, -, archive, -, same, -, _, -, ⟨⟨⟨high, -⟩, -⟩, first⟩, _, -, ⟨⟨⟨-, size⟩, -⟩, -⟩, found⟩
    rw [archive, same, first, size] at found
    exact ⟨⟨same, archive, high, first, size⟩, (Except.ok.inj found).symm⟩
  · rintro ⟨⟨same, archive, high, first, size⟩, rfl⟩
    have start : (block.take 32).getD 0 0 = 0x53 := by
      rw [getD_eq_getElem?_getD, getElem?_take_of_lt (by decide),
        ← getElem?_take_of_lt (show 0 < 11 by decide), same]
      rfl
    rw [start, archive, same, high, first, size]
    refine ⟨by decide, by decide, rfl, by decide, rfl, rfl, _, ⟨clusters, rfl⟩, ⟨⟨⟨rfl, le_refl _⟩, second⟩, rfl⟩,
      4096, bytes, ⟨⟨⟨by decide, rfl⟩, by decide⟩, room⟩, rfl⟩

/-- The second pass over the entries before the end. -/
theorem scanEntries_eq_ok (low : past < 128) :
    scanEntries block geometry query destination 0 past none = .ok (some entry) ↔ past = 1 ∧
      checkEntry geometry query destination ((block.drop 0).take 32) none = .ok entry := by
  match past with
  | 0 => exact iff_of_false nofun fun h => nomatch h.1
  | 1 =>
    rw [scanEntries, entryOffset_eq (by decide), okOr_bind, field_eq whole.le (by omega),
      ok_bind, bind_eq_ok, zero_mul]
    constructor
    · rintro ⟨next, checked, same⟩
      cases same
      exact ⟨rfl, checked⟩
    · exact fun h => ⟨entry, h.2, rfl⟩
  | past + 2 =>
    refine iff_of_false ?_ fun h => absurd h.1 (by omega)
    rw [scanEntries, entryOffset_eq (by decide), okOr_bind, field_eq whole.le (by omega),
      ok_bind, bind_eq_ok]
    rintro ⟨next, -, more⟩
    rw [scanEntries, entryOffset_eq (by decide), okOr_bind, field_eq whole.le (by omega),
      ok_bind, bind_eq_ok] at more
    obtain ⟨_, twice, -⟩ := more
    exact checkEntry_twice twice

/-- The first pass ends at the second entry of a directory with one file. -/
theorem findEnd_one (start : block.getD 0 0 ≠ 0) (zero : block.getD 32 0 = 0) :
    findEnd block 0 128 = .ok (some 1) := by
  rw [findEnd_succ whole (by decide), zero_mul, if_neg start, findEnd_succ whole (by decide)]
  exact if_pos zero

theorem forall_mem_drop_32 :
    (∀ b ∈ block.drop 32, b = 0) ↔ block.getD 32 0 = 0 ∧ ∀ b ∈ block.drop 33, b = 0 := by
  have here : 32 < block.length := by omega
  rw [drop_eq_getElem_cons here, forall_mem_cons, getD_eq_getElem _ _ here]

end

/-- The directory is accepted exactly if it is this one. -/
theorem findRoot_eq_ok (room : 4096 ≤ blocks) (name : query.canonicalName = sapoteName)
    (destinationRoom : 128 ≤ destination) :
    findRoot block (acceptedGeometry blocks) query destination = .ok entry ↔
      RootBlock block ∧ entry = rootEntry := by
  have known : (canonicalName query.canonicalName && decide (query.canonicalName = sapoteName)) := by
    rw [name]
    decide
  simp only [findRoot, validateGeometry_accepted room, known, exactBlock, accept_bind_eq_ok,
    decide_eq_true_iff, ok_bind, accept_true]
  simp only [bind_eq_ok, okOr_eq_ok]
  constructor
  · rintro ⟨whole, endIndex, scanned, past, rfl, found, entries, _, trailing, rfl⟩
    obtain none | ⟨past', same, -, high, zero, -⟩ := findEnd_cases whole (zero_add 128)
    · exact nomatch none.symm.trans scanned
    cases same.symm.trans scanned
    obtain ⟨rfl, checked⟩ := (scanEntries_eq_ok whole high).mp entries
    obtain ⟨⟨name', archive, cluster, first, size⟩, rfl⟩ :=
      (checkEntry_eq_ok whole name destinationRoom).mp checked
    have rest := (scanTrailing_eq_ok whole rfl (le_refl 1)).mp trailing
    exact ⟨⟨whole, name', archive, cluster, first, size,
      (forall_mem_drop_32 whole).mpr ⟨zero, rest⟩⟩, rfl⟩
  · rintro ⟨⟨whole, name', archive, cluster, first, size, rest⟩, rfl⟩
    have start : block.getD 0 0 = 0x53 := by
      rw [getD_eq_getElem?_getD, ← getElem?_take_of_lt (show 0 < 11 by decide), name']
      rfl
    obtain ⟨zero, rest⟩ := (forall_mem_drop_32 whole).mp rest
    refine ⟨whole, some 1, findEnd_one whole (by rw [start]; decide) zero, 1, rfl, some rootEntry, ?_, (), ?_,
      rfl⟩
    · exact (scanEntries_eq_ok whole (by decide)).mpr ⟨rfl, (checkEntry_eq_ok whole name
        destinationRoom).mpr ⟨⟨name', archive, cluster, first, size⟩, rfl⟩⟩
    · exact (scanTrailing_eq_ok whole rfl (le_refl 1)).mpr rest

end

section
variable {block : List UInt8} {blocks : Nat} {fat : FatState}

/-- A table whose reserved entries are whole and where the file ends in its first cluster. -/
structure Terminated (fat : FatState) : Prop where
  mediaEntry : fat.mediaEntry = 0xFFF8
  reservedEntry : fat.reservedEntry = 0xFFFF
  fileCluster : fat.fileCluster = 2
  fileEntry : fat16EocMin ≤ fat.fileEntry

theorem terminated_of_parseFat (parsed : parseFat block geometry = .ok fat) : Terminated fat := by
  simp only [parseFat, bind_eq_ok, accept_eq_ok, Bool.and_eq_true, decide_eq_true_eq] at parsed
  obtain ⟨_, -, _, -, _, -, _, -, _, reserved, _, -, _, -, _, -, _, ending, same⟩ := parsed
  cases same
  exact ⟨reserved.1, reserved.2, rfl, ending⟩

theorem translateCluster_accepted (room : 4096 ≤ blocks) :
    translateCluster (acceptedGeometry blocks) 2 = .ok 4 := by
  simp only [translateCluster, okOr_bind_eq_ok, checkedAdd_eq_some, accept_bind_eq_ok,
    Bool.and_eq_true, decide_eq_true_eq]
  simp only [acceptedGeometry]
  refine ⟨0, rfl, 0, by decide, 4, ⟨by decide, rfl⟩, 5, ⟨by decide, rfl⟩, 4096, ⟨by decide, rfl⟩, ?_, rfl⟩
  have inside : 5 ≤ blocks := by omega
  exact ⟨⟨⟨⟨le_refl 4, by decide⟩, by decide⟩, inside⟩, rfl⟩

theorem validateExtent_accepted (room : 4096 ≤ blocks) (ended : Terminated fat) :
    validateExtent (acceptedGeometry blocks) rootEntry fat =
      .ok ⟨2, fat.fileEntry, 4, 128, 4096⟩ := by
  rw [validateExtent, validateGeometry_accepted room, ok_bind]
  simp only [accept_bind_eq_ok, okOr_bind_eq_ok, checkedAdd_eq_some, Bool.and_eq_true,
    decide_eq_true_eq]
  have clusters : 4092 + 1 < wordBound := by decide
  refine ⟨⟨rfl, rfl⟩, 4093, ⟨clusters, rfl⟩, ⟨⟨⟨by decide, by decide⟩, rfl⟩, ended.fileCluster⟩,
    ⟨ended.mediaEntry, ended.reservedEntry⟩, ended.fileEntry, ?_⟩
  rw [show rootEntry.firstCluster = 2 from rfl, translateCluster_accepted room, ok_bind]
  simp only [okOr_bind_eq_ok, accept_bind_eq_ok, Bool.and_eq_true, decide_eq_true_eq, acceptedGeometry]
  exact ⟨4096, by decide, ⟨⟨by decide, rfl⟩, by decide⟩, rfl⟩

end

section
variable {block : List UInt8} {blocks destination : Nat} {query : RootQuery}

def NoOverflow (status : FatStatus) : Prop := status ≠ .spanOverflow

instance : DecidablePred NoOverflow := fun _ => inferInstanceAs (Decidable (_ ≠ _))

theorem exactBlock_refuses : Refuses (exactBlock block) NoOverflow := .check (by decide)

theorem field_refuses (small : offset + length < wordBound) :
    Refuses (field block offset length) NoOverflow := by
  rw [field, checkedAdd_of_lt small, okOr_bind]
  exact .accept (by decide) fun _ => .ok

theorem readU16_refuses (small : offset + 2 < wordBound) :
    Refuses (readU16 block offset) NoOverflow :=
  .bind (field_refuses small) fun _ _ => .ok

theorem readU32_refuses (small : offset + 4 < wordBound) :
    Refuses (readU32 block offset) NoOverflow :=
  .bind (field_refuses small) fun _ _ => .ok

theorem entry_small (index : Nat) (low : index < 128) : index * 32 + 32 < wordBound := by
  rw [wordBound]
  omega

theorem findEnd_refuses (range : index + left ≤ 128) :
    Refuses (findEnd block index left) NoOverflow := by
  induction left generalizing index with
  | zero => exact .ok
  | succ left ih =>
    have small := entry_small index (by omega)
    rw [findEnd, entryOffset_eq (by omega), okOr_bind]
    refine .bind (field_refuses (by omega)) fun first _ => ?_
    split
    · exact .ok
    · exact ih (by omega)

theorem checkEntry_refuses :
    Refuses (checkEntry (acceptedGeometry blocks) query destination bytes found) NoOverflow := by
  have clusters : checkedAdd wordBound 4092 1 = some 4093 := by decide
  have cluster : checkedMul (2 ^ 32) 4096 1 = some 4096 := by decide
  iterate 6 refine .accept (by decide) fun _ => ?_
  refine .bind (readU16_refuses (by decide)) fun _ _ => ?_
  refine .bind (readU16_refuses (by decide)) fun _ _ => ?_
  refine .bind (readU32_refuses (by decide)) fun _ _ => ?_
  simp only [acceptedGeometry, clusters, cluster, okOr_bind]
  exact .accept (by decide) fun _ => .accept (by decide) fun _ => .ok

theorem scanEntries_refuses (range : index + left ≤ 128) :
    Refuses (scanEntries block (acceptedGeometry blocks) query destination index left found)
      NoOverflow := by
  induction left generalizing index found with
  | zero => exact .ok
  | succ left ih =>
    have small := entry_small index (by omega)
    rw [scanEntries, entryOffset_eq (by omega), okOr_bind]
    refine .bind (field_refuses small) fun entry _ => ?_
    exact .bind checkEntry_refuses fun next _ => ih (by omega)

theorem scanTrailing_refuses (range : index + left ≤ 128) :
    Refuses (scanTrailing block past index left) NoOverflow := by
  induction left generalizing index with
  | zero => exact .ok
  | succ left ih =>
    have small := entry_small index (by omega)
    have skip : (if index = past then 1 else 0) ≤ 1 := by split <;> decide
    rw [scanTrailing, entryOffset_eq (by omega), okOr_bind]
    dsimp only
    rw [checkedAdd_of_lt (by omega), okOr_bind, checkedSub_of_le (by omega), okOr_bind]
    refine .bind (field_refuses (by omega)) fun trailing _ => ?_
    exact .accept (by decide) fun _ => ih (by omega)

theorem findRoot_refuses (room : 4096 ≤ blocks) :
    Refuses (findRoot block (acceptedGeometry blocks) query destination) NoOverflow := by
  refine .bind exactBlock_refuses fun _ sized => ?_
  have whole : block.length = 4096 := of_decide_eq_true (accept_eq_ok.mp sized)
  rw [validateGeometry_accepted room, ok_bind]
  refine .accept (by decide) fun _ => ?_
  refine .bind (findEnd_refuses (le_refl 128)) fun endIndex scanned => ?_
  refine .bind (.okOr (by decide)) fun past same => ?_
  have low : past < 128 := by
    obtain none | ⟨past', found, -, high, -, -⟩ := findEnd_cases whole (zero_add 128)
    · rw [← Except.ok.inj (none.symm.trans scanned)] at same
      cases same
    · rw [← Except.ok.inj (found.symm.trans scanned)] at same
      cases same
      exact high
  refine .bind (scanEntries_refuses (by omega)) fun found _ => ?_
  have rest : past + ((acceptedGeometry blocks).rootEntries - past) ≤ 128 := by
    simp only [acceptedGeometry]
    omega
  exact .bind (scanTrailing_refuses rest) fun _ _ => .okOr (by decide)

theorem parseFat_refuses (room : 4096 ≤ blocks) :
    Refuses (parseFat block (acceptedGeometry blocks)) NoOverflow := by
  have clusters : checkedAdd wordBound 4092 1 = some 4093 := by decide
  have offset : checkedMul wordBound fileCluster 2 = some 4 := by decide
  refine .bind exactBlock_refuses fun _ _ => ?_
  rw [validateGeometry_accepted room, ok_bind]
  refine .bind (readU16_refuses (by decide)) fun mediaEntry _ => ?_
  refine .bind (readU16_refuses (by decide)) fun reservedEntry _ => ?_
  refine .accept (by split <;> decide) fun _ => ?_
  simp only [acceptedGeometry, clusters, offset, okOr_bind]
  refine .bind (readU16_refuses (by decide)) fun fatValue _ => ?_
  exact .accept (by split <;> decide) fun _ => .ok

theorem translateCluster_refuses {cluster : Nat} :
    Refuses (translateCluster geometry cluster) NoOverflow := by
  have now : NoOverflow .clusterTranslation := by decide
  iterate 4 refine .bind (.okOr now) fun _ _ => ?_
  exact .bind (.okOr now) fun _ _ => .accept now fun _ => .ok

theorem validateExtent_refuses (room : 4096 ≤ blocks) {fat : FatState} :
    Refuses (validateExtent (acceptedGeometry blocks) entry fat) NoOverflow := by
  have cluster : checkedMul (2 ^ 32) 4096 1 = some 4096 := by decide
  rw [validateExtent, validateGeometry_accepted room, ok_bind]
  iterate 3 refine .accept (by decide) fun _ => ?_
  refine .accept (by decide) fun _ => .bind translateCluster_refuses fun lba _ => ?_
  simp only [acceptedGeometry, cluster, okOr_bind]
  exact .accept (by decide) fun _ => .ok

/-- The fields of a candidate are as wide as those of the boot block. -/
structure Narrow (candidate : CandidateVolume) : Prop where
  bytesPerSector : candidate.bytesPerSector < 2 ^ 16
  rootEntries : candidate.rootEntries < 2 ^ 16
  totalSectors16 : candidate.totalSectors16 < 2 ^ 16
  totalSectors32 : candidate.totalSectors32 < 2 ^ 32
  fatSectors : candidate.fatSectors < 2 ^ 16

theorem narrow_of_readCandidate (whole : block.length = 4096)
    (read : readCandidate block = .ok candidate) : Narrow candidate := by
  have low := fun offset => fieldAt_lt block offset 2
  simp (disch := omega) only [readCandidate, readU16_eq, readU32_eq, ok_bind] at read
  cases read
  exact ⟨low 11, low 17, low 19, fieldAt_lt block 32 4, low 22⟩

theorem readCandidate_refuses : Refuses (readCandidate block) NoOverflow := by
  iterate 4 refine .bind (readU16_refuses (by decide)) fun _ _ => ?_
  refine .bind (readU32_refuses (by decide)) fun _ _ => ?_
  refine .bind (readU16_refuses (by decide)) fun _ _ => ?_
  exact .bind (readU32_refuses (by decide)) fun _ _ => .ok

theorem checkCandidate_refuses : Refuses (checkCandidate candidate blockBytes) NoOverflow := by
  iterate 6 refine .accept (by decide) fun _ => ?_
  exact .accept (by decide) fun _ => .check (by decide)

theorem counts_of_checkCandidate (checked : checkCandidate candidate blockBytes = .ok ()) :
    candidate.reservedSectors = 1 ∧ candidate.fatCount = 1 := by
  simp only [checkCandidate, accept_bind_eq_ok, decide_eq_true_eq] at checked
  exact ⟨checked.2.2.1, checked.2.2.2.1⟩

theorem selectTotalSectors_refuses : Refuses (selectTotalSectors candidate) NoOverflow := by
  rw [selectTotalSectors]
  split
  · exact fun status same => by cases same; decide
  · exact fun status same => by cases same; decide
  · exact .ok
  · exact .ok

theorem selectTotalSectors_lt (narrow : Narrow candidate) {total : Nat}
    (selected : selectTotalSectors candidate = .ok total) : total < 2 ^ 32 := by
  have low := narrow.totalSectors16
  have high := narrow.totalSectors32
  rw [selectTotalSectors] at selected
  split at selected
  · cases selected
  · cases selected
  · cases selected
    omega
  · cases selected
    exact high

theorem deriveGeometry_refuses (narrow : Narrow candidate)
    (counts : candidate.reservedSectors = 1 ∧ candidate.fatCount = 1) :
    Refuses (deriveGeometry candidate blocks) NoOverflow := by
  obtain ⟨bytes, entries, -, -, sectors⟩ := narrow
  obtain ⟨reserved, count⟩ := counts
  have product : candidate.fatSectors * candidate.bytesPerSector < 2 ^ 16 * 2 ^ 16 :=
    Nat.mul_lt_mul'' sectors bytes
  refine .bind selectTotalSectors_refuses fun total _ => ?_
  rw [reserved, count, directoryEntryBytes, wordBound, checkedMul_of_lt (by omega), okOr_bind]
  refine .bind (.okOr (by decide)) fun lastByte last => ?_
  obtain ⟨-, rfl⟩ := checkedSub_eq_some.mp (okOr_eq_ok.mp last)
  rw [checkedAdd_of_lt (by omega), okOr_bind]
  refine .accept (by decide) fun _ => .accept (by decide) fun _ => ?_
  have rounded := Nat.div_le_self
    (candidate.rootEntries * 32 + (candidate.bytesPerSector - 1)) candidate.bytesPerSector
  rw [checkedMul_of_lt (by omega), okOr_bind]
  dsimp only
  rw [checkedAdd_of_lt (by omega), okOr_bind, checkedAdd_of_lt (by omega), okOr_bind]
  refine .bind (.okOr (by decide)) fun dataSectors _ => ?_
  refine .accept (by decide) fun _ => .accept (by decide) fun range => ?_
  iterate 3 refine .accept (by decide) fun _ => ?_
  have clusters : dataSectors / candidate.sectorsPerCluster ≤ 65524 :=
    of_decide_eq_true ((Bool.and_eq_true _ _).mp range).2
  rw [checkedMul_of_lt (by omega), okOr_bind, checkedAdd_of_lt (by omega), okOr_bind]
  exact .accept (by decide) fun _ => .ok

/-- What is derived adds up without leaving the word. -/
theorem validateGeometry_refuses (narrow : Narrow candidate)
    (counts : candidate.reservedSectors = 1 ∧ candidate.fatCount = 1)
    (derived : deriveGeometry candidate blocks = .ok geometry) :
    Refuses (validateGeometry geometry) NoOverflow := by
  have sectors := narrow.fatSectors
  rw [deriveGeometry, bind_eq_ok] at derived
  simp only [okOr_bind_eq_ok, accept_bind_eq_ok, checkedMul_eq_some, checkedAdd_eq_some,
    checkedSub_eq_some] at derived
  obtain ⟨total, selected, _, -, _, -, _, -, -, -, _, -, _, -, _, ⟨root, rfl⟩, _, ⟨data, rfl⟩, -, -, -, -,
    -, _, -, _, -, -, same⟩ := derived
  have bound := selectTotalSectors_lt narrow selected
  have table : candidate.reservedSectors + candidate.fatSectors < wordBound := by
    rw [counts.1, wordBound]
    omega
  have past : ∀ first, first ≤ total → first + (total - first) < wordBound := by
    intro first low
    rw [wordBound]
    omega
  cases same
  simp only [validateGeometry, checkedAdd_of_lt table, okOr_bind, checkedAdd_of_lt root,
    checkedAdd_of_lt (past _ data)]
  exact .check (by decide)

theorem parseBpb_refuses : Refuses (parseBpb block blocks blockBytes) NoOverflow := by
  refine .bind exactBlock_refuses fun _ sized => ?_
  have whole : block.length = 4096 := of_decide_eq_true (accept_eq_ok.mp sized)
  refine .bind (field_refuses (by decide)) fun signature _ => .accept (by decide) fun _ => ?_
  refine .bind readCandidate_refuses fun candidate read => ?_
  refine .bind checkCandidate_refuses fun _ checked => ?_
  have narrow := narrow_of_readCandidate whole read
  have counts := counts_of_checkCandidate checked
  refine .bind (deriveGeometry_refuses narrow counts) fun geometry derived => ?_
  exact .bind (validateGeometry_refuses narrow counts derived) fun _ _ => .ok

end

section

inductive Region where
  | reserved | table | root | data
  deriving DecidableEq

def Region.sectors (geometry : Geometry) : Region → Nat × Nat
  | .reserved => (0, geometry.firstFatSector)
  | .table => (geometry.firstFatSector, geometry.firstFatSector + geometry.fatSectors)
  | .root => (geometry.firstRootSector, geometry.firstRootSector + geometry.rootDirSectors)
  | .data => (geometry.firstDataSector, geometry.firstDataSector + geometry.dataSectors)

def Region.Holds (geometry : Geometry) (region : Region) (sector : Nat) : Prop :=
  (region.sectors geometry).1 ≤ sector ∧ sector < (region.sectors geometry).2

/-- The parts follow one another, share no sector, and are the whole volume, which the
namespace has; the table has an entry of two bytes for every cluster and the two before. -/
structure Laid (geometry : Geometry) : Prop where
  table : (Region.sectors geometry .reserved).2 = (Region.sectors geometry .table).1
  root : (Region.sectors geometry .table).2 = (Region.sectors geometry .root).1
  data : (Region.sectors geometry .root).2 = (Region.sectors geometry .data).1
  whole : (Region.sectors geometry .data).2 = geometry.totalSectors
  filled : ∀ sector, sector < geometry.totalSectors ↔ ∃ region, Region.Holds geometry region sector
  disjoint : ∀ sector first second,
    Region.Holds geometry first sector → Region.Holds geometry second sector → first = second
  inside : geometry.totalSectors ≤ geometry.namespaceBlocks
  entries : geometry.clusterCount + 2 ≤ geometry.fatSectors * geometry.bytesPerSector / 2

variable {blocks : Nat}

theorem laid_accepted (room : 4096 ≤ blocks) : Laid (acceptedGeometry blocks) where
  table := rfl
  root := rfl
  data := rfl
  whole := rfl
  filled := by
    intro sector
    simp only [acceptedGeometry, Region.Holds]
    constructor
    · intro low
      by_cases reserved : sector < 1
      · exact ⟨.reserved, by simp only [Region.sectors]; omega⟩
      by_cases table : sector < 3
      · exact ⟨.table, by simp only [Region.sectors]; omega⟩
      by_cases root : sector < 4
      · exact ⟨.root, by simp only [Region.sectors]; omega⟩
      · exact ⟨.data, by simp only [Region.sectors]; omega⟩
    · rintro ⟨region, held⟩
      cases region <;> simp only [Region.sectors] at held <;> omega
  disjoint := by
    intro sector first second low high
    simp only [acceptedGeometry, Region.Holds] at low high
    cases first <;> cases second <;> first | rfl | (simp only [Region.sectors] at low high; omega)
  inside := room
  entries := by
    simp only [acceptedGeometry]
    omega

/-- Where the extent stands: in the data, and large enough for the file. -/
structure Extent.Within (extent : Extent) (geometry : Geometry) : Prop where
  first : Region.Holds geometry .data extent.lba
  last : ∀ sector, extent.lba ≤ sector → sector < extent.lba + geometry.sectorsPerCluster →
    Region.Holds geometry .data sector
  bytes : extent.fileSize ≤ extent.clusterBytes
  size : extent.clusterBytes = geometry.sectorsPerCluster * geometry.bytesPerSector

theorem extent_within (value : Nat) : Extent.Within ⟨2, value, 4, 128, 4096⟩ (acceptedGeometry blocks) where
  first := by
    simp only [Region.Holds, Region.sectors, acceptedGeometry]
    omega
  last := by
    intro sector low high
    simp only [Region.Holds, Region.sectors, acceptedGeometry] at low high ⊢
    omega
  bytes := Nat.le_of_ble_eq_true rfl
  size := (one_mul 4096).symm

theorem query_of_makeQuery {name : List UInt8} {query : RootQuery} (made : makeQuery name = .ok query) :
    query.canonicalName = sapoteName := by
  simp only [makeQuery, accept_bind_eq_ok, Bool.and_eq_true, decide_eq_true_eq] at made
  obtain ⟨⟨-, rfl⟩, same⟩ := made
  cases same
  rfl

/-- The parsers together, on a boot block that was accepted. -/
theorem pipeline_exact {boot fatBlock root name : List UInt8} {blockBytes destination : Nat}
    {geometry : Geometry} {query : RootQuery} (accepted : parseBpb boot blocks blockBytes = .ok geometry)
    (asked : makeQuery name = .ok query) (room : 128 ≤ destination) :
    ((∃ entry, findRoot root geometry query destination = .ok entry) ↔ RootBlock root) ∧
      (∀ fat entry, parseFat fatBlock geometry = .ok fat →
        findRoot root geometry query destination = .ok entry →
        ∃ extent, validateExtent geometry entry fat = .ok extent ∧ extent.Within geometry) ∧
      Laid geometry ∧ geometry.namespaceBlocks = blocks ∧
      (∀ boot' blocks' blockBytes', parseBpb boot' blocks' blockBytes' ≠ .error .spanOverflow) ∧
      (∀ block query' destination', findRoot block geometry query' destination' ≠ .error .spanOverflow) ∧
      (∀ block, parseFat block geometry ≠ .error .spanOverflow) ∧
      (∀ cluster, translateCluster geometry cluster ≠ .error .spanOverflow) ∧
      ∀ entry fat, validateExtent geometry entry fat ≠ .error .spanOverflow := by
  obtain ⟨rfl, large⟩ := geometry_of_parseBpb accepted
  have known := query_of_makeQuery asked
  refine ⟨?_, ?_, laid_accepted large, rfl, ?_, ?_, ?_, ?_, ?_⟩
  · constructor
    · rintro ⟨entry, found⟩
      exact ((findRoot_eq_ok large known room).mp found).1
    · exact fun described => ⟨rootEntry, (findRoot_eq_ok large known room).mpr ⟨described, rfl⟩⟩
  · intro fat entry parsed found
    obtain ⟨-, rfl⟩ := (findRoot_eq_ok large known room).mp found
    exact ⟨_, validateExtent_accepted large (terminated_of_parseFat parsed), extent_within _⟩
  · exact fun boot' blocks' blockBytes' refused => parseBpb_refuses _ refused rfl
  · exact fun block query' destination' refused => findRoot_refuses large _ refused rfl
  · exact fun block refused => parseFat_refuses large _ refused rfl
  · exact fun cluster refused => translateCluster_refuses _ refused rfl
  · exact fun entry fat refused => validateExtent_refuses large _ refused rfl

def bootFixture : List UInt8 :=
  List.replicate 11 0 ++ [0x00, 0x10, 1, 1, 0, 1, 0x80, 0, 0x00, 0x10, 0xF8, 2, 0] ++
    List.replicate 14 0 ++ [0x29] ++ List.replicate 471 0 ++ [0x55, 0xAA] ++ List.replicate 3584 0

def fatFixture : List UInt8 := [0xF8, 0xFF, 0xFF, 0xFF, 0xFF, 0xFF] ++ List.replicate 4090 0

def rootFixture : List UInt8 :=
  sapoteName ++ [attrArchive] ++ List.replicate 14 0 ++ [2, 0, 128, 0, 0, 0] ++ List.replicate 4064 0

theorem bootFixture_accepted : parseBpb bootFixture 4096 4096 = .ok (acceptedGeometry 4096) := by
  decide +kernel

theorem fatFixture_accepted :
    parseFat fatFixture (acceptedGeometry 4096) = .ok ⟨0xFFF8, 0xFFFF, 2, 0xFFFF⟩ := by
  decide +kernel

theorem rootFixture_described : RootBlock rootFixture where
  length := by decide +kernel
  name := by decide +kernel
  attributes := by decide +kernel
  highCluster := by decide +kernel
  firstCluster := by decide +kernel
  fileSize := by decide +kernel
  rest := by
    intro b inRest
    have zeros : rootFixture.drop 32 = List.replicate 4064 0 :=
      drop_left' (by decide +kernel)
    exact eq_of_mem_replicate (zeros ▸ inRest)

theorem pipeline_exact_fixture :
    ∃ entry, findRoot rootFixture (acceptedGeometry 4096) ⟨sapoteName⟩ 128 = .ok entry ∧
      ∃ extent, validateExtent (acceptedGeometry 4096) entry ⟨0xFFF8, 0xFFFF, 2, 0xFFFF⟩ = .ok extent ∧
        extent.Within (acceptedGeometry 4096) := by
  have asked : makeQuery sapoteName = .ok ⟨sapoteName⟩ := by decide +kernel
  obtain ⟨exact, composed, -⟩ := @pipeline_exact _ _ fatFixture rootFixture _ _ _ _ _
    bootFixture_accepted asked (le_refl 128)
  obtain ⟨entry, found⟩ := exact.mpr rootFixture_described
  exact ⟨entry, found, composed _ entry fatFixture_accepted found⟩

end

end Sapote.Fat
