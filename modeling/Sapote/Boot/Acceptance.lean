import Sapote.Boot.Grammar

/-!
The parser accepts exactly the information that the grammar describes, and reads nothing else.
Each function that reads a tag gets two lemmas: when it accepts and with what, and that it
otherwise refuses.
-/

namespace Sapote.Boot
open List

open Library
variable {index offset turns : Nat}

section
variable {memory : Memory UInt8} {tag : Tag} {context result : BootInformation}

theorem stringLengthFrom_eq {address : Nat} {bytes : List UInt8} (holds : Holds memory address bytes)
    {left : Nat} (range : index + left = bytes.length) (past : 8 ≤ index) :
    stringLengthFrom memory address left index =
      .ok (if 0 ∈ bytes.drop index then some (index - 8 + (bytes.drop index).idxOf 0) else none) := by
  induction left generalizing index with
  | zero =>
    rw [drop_eq_nil_of_le (by omega)]
    rfl
  | succ left ih =>
    have here : index < bytes.length := by omega
    rw [stringLengthFrom, holds.readByte here, ok_bind, ih (by omega) (by omega),
      drop_eq_getElem_cons here]
    by_cases zero : bytes[index] = 0
    · rw [get_eq_getElem, if_pos zero, zero, if_pos mem_cons_self, idxOf_cons_self]
      rfl
    · rw [get_eq_getElem, if_neg zero]
      have shift : ∀ k, index + 1 - 8 + k = index - 8 + (k + 1) := by omega
      simp only [mem_cons, Ne.symm zero, false_or, idxOf_cons_ne _ zero, shift,
        Nat.succ_eq_add_one]

theorem entry_inside {length entrySize : Nat} (header : 16 ≤ length) (entry : 24 ≤ entrySize)
    (low : index < (length - 16) / entrySize) : 16 + index * entrySize + 24 ≤ length := by
  have whole : (index + 1) * entrySize ≤ length - 16 :=
    (Nat.le_div_iff_mul_le (by omega)).mp low
  rw [add_mul, one_mul] at whole
  omega

theorem available_append (regions : List BootMemoryRegion) (region : BootMemoryRegion) :
    available (regions ++ [region]) = available regions + if region.type = 1 then region.length else 0 := by
  split <;> simp_all [available]

theorem highest_append (regions : List BootMemoryRegion) (region : BootMemoryRegion) :
    highest (regions ++ [region]) = max (highest regions) (region.baseAddress + region.length) := by
  rw [highest, map_append, foldl_append]
  rfl

def reported (context : BootInformation) (tag : Tag) (regions : List BootMemoryRegion) : BootInformation :=
  { context with
    memoryMap := some tag.address
    memoryMapEntryCount := tag.regions.length
    reportedUsableBytes := min (available regions) uint64Max
    highestReportedAddress := highest regions }

theorem reportRegion_reported (regions : List BootMemoryRegion) (region : BootMemoryRegion) :
    reportRegion (reported context tag regions) region = reported context tag (regions ++ [region]) := by
  have usable : (if region.type = 1 then
      if uint64Max - min (available regions) uint64Max < region.length then uint64Max
      else min (available regions) uint64Max + region.length
      else min (available regions) uint64Max) = min (available (regions ++ [region])) uint64Max := by
    rw [available_append]
    split
    · split <;> omega
    · rw [add_zero]
  have address : (if highest regions < region.baseAddress + region.length then
      region.baseAddress + region.length else highest regions) = highest (regions ++ [region]) := by
    rw [highest_append]
    split <;> omega
  rw [reportRegion, reported, reported]
  rw [usable, address]

theorem regions_length : tag.regions.length = (tag.bytes.length - 16) / tag.entrySize := by
  rw [Tag.regions, length_map, length_range]

theorem region_base_le (index : Nat) : (tag.region index).baseAddress ≤ uint64Max := by
  have bound := fieldAt_lt tag.bytes (16 + index * tag.entrySize) 8
  rw [uint64Max, Tag.region, regionOf]
  dsimp only
  omega

section
variable (held : tag.Held memory)
include held

theorem stringLengthWithin_eq :
    stringLengthWithin memory tag.address tag.bytes.length =
      .ok (if 0 ∈ tag.bytes.drop 8 then some tag.stringLength else none) := by
  rw [stringLengthWithin]
  split
  · rw [drop_eq_nil_of_le (by omega)]
    rfl
  · rw [stringLengthFrom_eq held.holds (by omega) (Nat.le_refl 8), Nat.sub_self, Nat.zero_add]
    rfl

theorem readSize_eq :
    readField memory (tag.address + 4) 4 = (.ok tag.bytes.length : Except (Stop BootStatus) Nat) := by
  rw [held.holds.readField held.least, held.declared]

section
variable (header : 16 ≤ tag.bytes.length) (entry : 24 ≤ tag.entrySize)
include header entry

theorem bootInformationRegionAt_eq (map : context.memoryMap = some tag.address)
    (count : context.memoryMapEntryCount = (tag.bytes.length - 16) / tag.entrySize)
    (low : index < (tag.bytes.length - 16) / tag.entrySize) :
    bootInformationRegionAt memory context index = .ok (some (tag.region index)) := by
  have inside := entry_inside header entry low
  have size : readField memory (tag.address + 8) 4 = (.ok tag.entrySize : Except (Stop BootStatus) Nat) :=
    held.holds.readField (by omega)
  rw [bootInformationRegionAt, map]
  dsimp only
  rw [if_neg (by omega), size]
  simp (disch := omega) only [held.holds.readField, ok_bind]
  rfl

theorem validateRegion_eq (map : context.memoryMap = some tag.address)
    (count : context.memoryMapEntryCount = tag.regions.length) (low : index < tag.regions.length) :
    validateRegion memory context index =
      (accept ((tag.region index).length ≤ uint64Max - (tag.region index).baseAddress)
          (.refused .memoryRegionOverflow) >>= fun _ => .ok (reportRegion context (tag.region index))) := by
  rw [regions_length] at count low
  rw [validateRegion, bootInformationRegionAt_eq held header entry map count low]
  rfl

theorem validateRegions_eq_ok :
    (List.range tag.regions.length).foldlM (validateRegion memory) (reported context tag []) = .ok result ↔
      (∀ region ∈ tag.regions, region.baseAddress + region.length ≤ uint64Max) ∧
        result = reported context tag tag.regions := by
  have step : ∀ (before : List Nat) (index : Nat) (s : BootInformation),
      InOrder (fun _ index => (tag.region index).baseAddress + (tag.region index).length ≤ uint64Max) before →
      index < tag.regions.length →
      (validateRegion memory (reported context tag (before.map tag.region)) index = .ok s ↔
        (tag.region index).baseAddress + (tag.region index).length ≤ uint64Max ∧
          s = reported context tag ((before ++ [index]).map tag.region)) := by
    intro before index s _ low
    have base := @region_base_le tag index
    rw [validateRegion_eq held header entry rfl rfl low, accept_bind_eq_ok, decide_eq_true_iff,
      reportRegion_reported, map_append, map_singleton, Except.ok.injEq]
    constructor
    · rintro ⟨fits, rfl⟩
      exact ⟨by omega, rfl⟩
    · rintro ⟨fits, rfl⟩
      exact ⟨by omega, rfl⟩
  have all := @foldlM_eq_ok _ _ _ _ _ _ _ step (.range tag.regions.length)
    (fun index member => mem_range.mp member) result
  rw [inOrder_iff_forall, map_nil] at all
  rw [all, Tag.regions, forall_mem_map]
  rw [length_map, length_range]

end

theorem validateMemoryMap_eq_ok (usable : context.reportedUsableBytes = 0)
    (address : context.highestReportedAddress = 0) :
    validateMemoryMap memory tag.address context = .ok result ↔
      tag.IsMap ∧ result = reported context tag tag.regions := by
  have start : { context with memoryMap := some tag.address,
                              memoryMapEntryCount := (tag.bytes.length - 16) / tag.entrySize } =
      reported context tag [] := by
    rw [← regions_length, reported]
    obtain ⟨⟩ := context
    cases usable
    cases address
    rfl
  rw [validateMemoryMap, readSize_eq held, ok_bind, accept_bind_eq_ok, decide_eq_true_iff]
  by_cases header : 16 ≤ tag.bytes.length
  swap
  · exact iff_of_false (fun told => header told.1) fun told => header told.1.header
  rw [held.holds.readField (by omega), ok_bind, accept_bind_eq_ok, decide_eq_true_iff,
    held.holds.readField (by omega), ok_bind, accept_bind_eq_ok, decide_eq_true_iff,
    accept_bind_eq_ok, decide_eq_true_iff]
  dsimp only
  rw [← Tag.entrySize, start, ← regions_length]
  constructor
  · rintro ⟨-, entry, version, whole, accepted⟩
    obtain ⟨ends, same⟩ := (validateRegions_eq_ok held header entry).mp accepted
    exact ⟨⟨header, entry, version, whole, ends⟩, same⟩
  · rintro ⟨⟨-, entry, version, whole, ends⟩, same⟩
    exact ⟨header, entry, version, whole,
      (validateRegions_eq_ok held header entry).mpr ⟨ends, same⟩⟩

theorem decodeFramebuffer_eq_ok {framebuffer : BootFramebuffer} :
    decodeFramebuffer memory tag.address = .ok framebuffer ↔
      tag.IsFramebuffer ∧ framebuffer = tag.framebuffer := by
  have byte : ∀ {offset : Nat}, offset < tag.bytes.length → readByte memory (tag.address + offset) =
      (.ok (tag.bytes.getD offset 0) : Except (Stop BootStatus) UInt8) :=
    fun inside => held.holds.readByte_getD inside
  have number : ∀ {offset width : Nat}, offset + width ≤ tag.bytes.length →
      readField memory (tag.address + offset) width =
        (.ok (fieldAt tag.bytes offset width) : Except (Stop BootStatus) Nat) :=
    fun inside => held.holds.readField inside
  by_cases wide : 38 ≤ tag.bytes.length
  swap
  · refine iff_of_false (fun accepted => ?_) fun h => wide h.1.header
    rw [decodeFramebuffer, readSize_eq held, ok_bind, accept_bind_eq_ok, decide_eq_true_iff] at accepted
    obtain ⟨common, accepted⟩ := accepted
    simp (disch := omega) only [number, byte, ok_bind, accept_bind_eq_ok, decide_eq_true_eq] at accepted
    exact wide accepted.2.1
  rw [decodeFramebuffer, readSize_eq held]
  simp (disch := omega) only [number, byte, ok_bind, accept_bind_eq_ok, decide_eq_true_eq]
  constructor
  · rintro ⟨-, direct, -, depth, visible, pitch, address, mapped, red, green, blue, distinct, same⟩
    have size : fieldAt tag.bytes 8 8 + fieldAt tag.bytes 16 4 * fieldAt tag.bytes 24 4 ≤
        sapoteEarlyPhysicalLimit := by omega
    rw [depth] at same
    cases same
    exact ⟨⟨wide, direct, depth, visible, pitch, address, size, red, green, blue, distinct⟩, rfl⟩
  · rintro ⟨⟨-, direct, depth, visible, pitch, address, mapped, red, green, blue, distinct⟩, rfl⟩
    simp only [Tag.framebuffer] at visible pitch address mapped red green blue distinct
    have size : fieldAt tag.bytes 16 4 * fieldAt tag.bytes 24 4 ≠ 0 :=
      Nat.mul_ne_zero (by omega) visible.2
    refine ⟨by omega, direct, wide, depth, visible, pitch, address, ⟨size, by omega, by omega⟩, red, green,
      blue, distinct, ?_⟩
    rw [depth]
    rfl

theorem validateMemoryMap_refuses :
    Refuses (validateMemoryMap memory tag.address context) Stop.IsRefusal := by
  rw [validateMemoryMap, readSize_eq held, ok_bind]
  refine .accept trivial fun header => ?_
  rw [decide_eq_true_iff] at header
  rw [held.holds.readField (by omega), ok_bind]
  refine .accept trivial fun entry => ?_
  rw [held.holds.readField (by omega), ok_bind]
  refine .accept trivial fun _ => .accept trivial fun _ => ?_
  rw [← Tag.entrySize, decide_eq_true_iff] at entry
  rw [← Tag.entrySize, ← regions_length]
  refine .foldlM (P := fun context => context.memoryMap = some tag.address ∧
    context.memoryMapEntryCount = tag.regions.length) (fun context known index member => ?_) ⟨rfl, rfl⟩
  rw [validateRegion_eq held header entry known.1 known.2 (mem_range.mp member)]
  refine ⟨.accept trivial fun _ => .ok, fun next taken => ?_⟩
  rw [accept_bind_eq_ok] at taken
  cases taken.2
  exact known

theorem decodeFramebuffer_refuses :
    Refuses (decodeFramebuffer memory tag.address) Stop.IsRefusal := by
  rw [decodeFramebuffer, readSize_eq held, ok_bind]
  refine .accept trivial fun common => ?_
  rw [decide_eq_true_iff] at common
  simp (disch := omega) only [held.holds.readField, held.holds.readByte, ok_bind]
  refine .accept trivial fun _ => .accept trivial fun wide => ?_
  rw [decide_eq_true_iff] at wide
  iterate 5 refine .accept trivial fun _ => ?_
  simp (disch := omega) only [held.holds.readByte, ok_bind]
  refine .accept trivial fun _ => .accept trivial fun _ => ?_
  exact .accept trivial fun _ => .accept trivial fun _ => .ok

theorem stringLength_refuses {f : Nat → BootInformation} : Refuses (do
      let found ← stringLengthWithin memory tag.address tag.bytes.length
      let length ← okOr found (.refused .stringNotTerminated)
      .ok (f length)) Stop.IsRefusal := by
  rw [stringLengthWithin_eq held, ok_bind]
  exact .bind (.okOr trivial) fun _ _ => .ok

theorem consumeTag_refuses :
    Refuses (consumeTag memory tag.address tag.type tag.bytes.length context) Stop.IsRefusal := by
  cases tag.type with
  | memoryMap => exact .accept trivial fun _ => validateMemoryMap_refuses held
  | moduleTag =>
    rintro _ ⟨⟩
    trivial
  | acpiOld | acpiNew =>
    exact .accept trivial fun _ => .accept trivial fun _ => .ok
  | framebuffer =>
    refine .accept trivial fun _ => ?_
    exact .bind (decodeFramebuffer_refuses held) fun _ _ => .ok
  | bootLoaderName | commandLine => exact stringLength_refuses held
  | endTag | other => exact .ok

end

end

section
variable {memory : Memory UInt8} {tag : Tag} {tags : List Tag} {start total : Nat}
  {result : BootInformation}

theorem lastOf_append (type : TagType) (tags : List Tag) (tag : Tag) :
    lastOf type (tags ++ [tag]) = if tag.type = type then some tag else lastOf type tags := by
  rw [lastOf, lastWith_concat]
  simp only [decide_eq_true_eq, lastOf]

def Admits (before : List Tag) (tag : Tag) : Prop :=
  tag.Valid ∧ (tag.type.single → lastOf tag.type before = none)

theorem described_present : (described start total tags).framebuffer.present = false ↔
    lastOf .framebuffer tags = none := by
  rw [described]
  cases lastOf .framebuffer tags with
  | none => exact iff_of_true rfl rfl
  | some found => exact iff_of_false nofun nofun

theorem consumeTag_eq_ok (held : tag.Held memory) :
    consumeTag memory tag.address tag.type tag.bytes.length (described start total tags) = .ok result ↔
      Admits tags tag ∧ result = described start total (tags ++ [tag]) := by
  have next : ∀ {context : BootInformation}, context = described start total (tags ++ [tag]) →
      ((.ok context : Except (Stop BootStatus) BootInformation) = .ok result ↔
        result = described start total (tags ++ [tag])) := by
    rintro _ rfl
    rw [Except.ok.injEq]
    exact eq_comm
  rw [Admits, Tag.Valid]
  cases type : tag.type with
  | memoryMap =>
    rw [consumeTag, accept_bind_eq_ok]
    cases fresh : lastOf .memoryMap tags with
    | some found => exact iff_of_false (fun h => absurd h.1 (by simp [described, fresh])) (by simp [TagType.single])
    | none =>
      have same : reported (described start total tags) tag tag.regions =
          described start total (tags ++ [tag]) := by
        simp [described, reported, lastOf_append, type]
      rw [validateMemoryMap_eq_ok held (by simp [described, fresh, available])
        (by simp [described, fresh, highest]), same]
      simp [described, fresh]
  | moduleTag => exact iff_of_false nofun fun h => h.1.1
  | acpiOld | acpiNew =>
    rw [consumeTag, accept_bind_eq_ok, accept_bind_eq_ok, next (by simp [described, lastOf_append, type])]
    simp [described, TagType.single, and_assoc]
  | framebuffer =>
    rw [consumeTag, accept_bind_eq_ok, Bool.not_eq_true', described_present, bind_eq_ok]
    simp only [decodeFramebuffer_eq_ok held, TagType.single]
    constructor
    · rintro ⟨fresh, framebuffer, ⟨valid, rfl⟩, same⟩
      exact ⟨⟨valid, fun _ => fresh⟩, (next (by simp [described, lastOf_append, type])).mp same⟩
    · rintro ⟨⟨valid, fresh⟩, same⟩
      exact ⟨fresh trivial, _, ⟨valid, rfl⟩, (next (by simp [described, lastOf_append, type])).mpr same⟩
  | bootLoaderName | commandLine =>
    rw [consumeTag, stringLengthWithin_eq held, ok_bind]
    split
    · next ended =>
        rw [okOr_bind, next (by simp [described, lastOf_append, type])]
        exact ⟨fun same => ⟨⟨ended, nofun⟩, same⟩, fun h => h.2⟩
    · next open_ => exact iff_of_false nofun fun h => open_ h.1.1
  | endTag => exact absurd type held.notLast
  | other =>
    rw [consumeTag, next (by simp [described, lastOf_append, type])]
    exact ⟨fun same => ⟨⟨trivial, nofun⟩, same⟩, fun h => h.2⟩

theorem consumeTags_eq_ok (held : ∀ tag ∈ tags, tag.Held memory) :
    tags.foldlM (fun context tag => consumeTag memory tag.address tag.type tag.bytes.length context)
        (described start total []) = .ok result ↔
      InOrder Admits tags ∧ result = described start total tags := by
  have step : ∀ (before : List Tag) (tag : Tag) (next : BootInformation), InOrder Admits before →
      tag.Held memory →
      (consumeTag memory tag.address tag.type tag.bytes.length (described start total before) = .ok next ↔
        Admits before tag ∧ next = described start total (before ++ [tag])) :=
    fun before tag next _ held => consumeTag_eq_ok held
  exact foldlM_eq_ok step held

theorem described_map : (described start total tags).memoryMap = (lastOf .memoryMap tags).map Tag.address :=
  rfl

theorem lastOf_eq_none {type : TagType} :
    lastOf type tags = none ↔ tags.filter (fun tag => tag.type = type) = [] := lastWith_eq_none

/-- Tags admitted one after the other, a memory map among them. -/
theorem allowed_iff : InOrder Admits tags ∧ lastOf .memoryMap tags ≠ none ↔ Allowed tags := by
  have single : (∀ type : TagType, type.single →
      InOrder (fun before tag => tag.type = type → lastOf type before = none) tags) ↔
        ∀ type : TagType, type.single → (tags.filter fun tag => tag.type = type).length ≤ 1 := by
    refine forall_congr' fun type => imp_congr_right fun _ => ?_
    rw [← inOrder_fresh_iff]
    simp only [lastOf_eq_none, decide_eq_true_eq]
  have some : lastOf .memoryMap tags ≠ none ↔ ∃ tag ∈ tags, tag.type = .memoryMap := by
    rw [Ne, lastOf_eq_none, filter_eq_nil_iff]
    simp
  constructor
  · rintro ⟨order, map⟩
    refine ⟨inOrder_iff_forall.mp fun before tag rest split => (order before tag rest split).1,
      single.mp fun type once before tag rest split same => ?_, some.mp map⟩
    have fresh := (order before tag rest split).2
    rw [same] at fresh
    exact fresh once
  · rintro ⟨valid, once, map⟩
    refine ⟨fun before tag rest split => ⟨inOrder_iff_forall.mpr valid before tag rest split, fun now => ?_⟩,
      some.mpr map⟩
    exact single.mpr once tag.type now before tag rest split rfl

variable {magic : Nat} {input : List UInt8} {context : BootInformation}

theorem rangeFits_iff {length total : Nat} (inside : offset ≤ total) :
    rangeFits offset length total ↔ offset + length ≤ total := by
  rw [rangeFits, decide_eq_true_iff]
  omega

def tagAt (start : Nat) (input : List UInt8) (offset : Nat) : Tag :=
  ⟨start + offset, (input.drop offset).take (fieldAt input (offset + 4) 4)⟩

theorem tagAt_type (least : 8 ≤ fieldAt input (offset + 4) 4) :
    (tagAt start input offset).type = tagType (fieldAt input offset 4) := by
  rw [Tag.type, tagAt, fieldAt_take (by omega), fieldAt_drop, add_zero]

theorem tagAt_length (fits : offset + fieldAt input (offset + 4) 4 ≤ input.length) :
    (tagAt start input offset).bytes.length = fieldAt input (offset + 4) 4 := by
  rw [tagAt, length_take, length_drop]
  omega

section
variable (holds : Holds memory start input)
include holds

theorem tagAt_held (least : 8 ≤ fieldAt input (offset + 4) 4)
    (fits : offset + fieldAt input (offset + 4) 4 ≤ input.length)
    (other : tagType (fieldAt input offset 4) ≠ .endTag) :
    (tagAt start input offset).Held memory where
  holds := (holds.drop offset).take _
  least := by rwa [tagAt_length fits]
  declared := by rw [tagAt_length fits, tagAt, fieldAt_take (by omega), fieldAt_drop]
  notLast := by rwa [tagAt_type least]

theorem parseTags_succ (more : offset < input.length) {result : Bool × BootInformation} :
    parseTags memory start input.length (turns + 1) offset context = .ok result ↔
      let type := tagType (fieldAt input offset 4)
      let size := fieldAt input (offset + 4) 4
      offset + 8 ≤ input.length ∧ 8 ≤ size ∧ offset + size ≤ input.length ∧
        (type = .endTag ∧ size = 8 ∧ offset + size = input.length ∧ result = (true, context) ∨
          type ≠ .endTag ∧ offset + alignTagSize size ≤ input.length ∧
            ∃ next, consumeTag memory (start + offset) type size context = .ok next ∧
              parseTags memory start input.length turns (offset + alignTagSize size) next =
                .ok result) := by
  have fits : ∀ {length : Nat}, rangeFits offset length input.length ↔ offset + length ≤ input.length :=
    rangeFits_iff more.le
  have small := fieldAt_lt input (offset + 4) 4
  obtain ⟨above, -, -⟩ := alignTagSize_eq (show fieldAt input (offset + 4) 4 < 2 ^ 32 by omega)
  rw [parseTags, if_pos more, accept_bind_eq_ok, fits]
  refine and_congr_right fun header => ?_
  rw [holds.readField (by omega), ok_bind, accept_bind_eq_ok, decide_eq_true_iff, accept_bind_eq_ok, fits]
  refine and_congr_right fun least => and_congr_right fun inside => ?_
  rw [holds.readField (by omega), ok_bind]
  split
  · next last =>
      rw [accept_bind_eq_ok, decide_eq_true_iff, Except.ok.injEq]
      constructor
      · rintro ⟨⟨size, exact⟩, rfl⟩
        exact .inl ⟨last, size, exact, rfl⟩
      · rintro (⟨-, size, exact, rfl⟩ | ⟨other, -⟩)
        · exact ⟨⟨size, exact⟩, rfl⟩
        · exact absurd last other
  next other =>
  rw [bind_eq_ok]
  constructor
  · rintro ⟨next, consumed, later⟩
    rw [accept_bind_eq_ok, decide_eq_true_iff, fits] at later
    exact .inr ⟨other, later.1.2, next, consumed, later.2⟩
  · rintro (⟨last, -⟩ | ⟨-, padded, next, consumed, later⟩)
    · exact absurd last other
    · refine ⟨next, consumed, ?_⟩
      rw [accept_bind_eq_ok, decide_eq_true_iff, fits]
      exact ⟨⟨above, padded⟩, later⟩

/-- The loop cuts the input as the grammar does and consumes one tag after the other. -/
theorem parseTags_eq_ok (enough : input.length < offset + turns) {result : BootInformation} :
    parseTags memory start input.length turns offset context = .ok (true, result) ↔
      ∃ tags, Tags (start + offset) (input.drop offset) tags ∧
        tags.foldlM (fun context tag => consumeTag memory tag.address tag.type tag.bytes.length context)
          context = .ok result := by
  have length : (input.drop offset).length = input.length - offset := length_drop
  induction turns generalizing offset context with
  | zero =>
    refine iff_of_false nofun fun ⟨tags, cut, _⟩ => ?_
    have header := (tags_iff.mp cut).1
    omega
  | succ turns ih =>
    by_cases more : offset < input.length
    swap
    · rw [parseTags, if_neg more]
      refine iff_of_false nofun fun ⟨tags, cut, _⟩ => ?_
      have header := (tags_iff.mp cut).1
      omega
    have small := fieldAt_lt input (offset + 4) 4
    obtain ⟨above, -, -⟩ := alignTagSize_eq (show fieldAt input (offset + 4) 4 < 2 ^ 32 by omega)
    rw [parseTags_succ holds more]
    simp only [@tags_iff _ (input.drop offset), fieldAt_drop, length, drop_drop, add_zero]
    constructor
    · rintro ⟨header, least, inside, ⟨last, size, exact, same⟩ | ⟨other, padded, next, consumed, later⟩⟩
      · cases same
        exact ⟨[], ⟨by omega, least, by omega, .inl ⟨last, size, by omega, rfl⟩⟩, rfl⟩
      · obtain ⟨tags, cut, folded⟩ := (ih (by omega) length_drop).mp later
        refine ⟨_ :: tags, ⟨by omega, least, by omega, .inr ⟨other, by omega, tags, rfl, ?_⟩⟩, ?_⟩
        · rwa [add_assoc]
        · rw [foldlM_cons, ← tagAt, tagAt_type least, tagAt_length inside]
          exact bind_eq_ok.mpr ⟨next, consumed, folded⟩
    · rintro ⟨tags, ⟨header, least, inside, ⟨last, size, exact, rfl⟩ | ⟨other, padded, rest, rfl, cut⟩⟩, folded⟩
      · cases folded
        exact ⟨by omega, least, by omega, .inl ⟨last, size, by omega, rfl⟩⟩
      · rw [foldlM_cons, ← tagAt, tagAt_type least, tagAt_length (by omega), bind_eq_ok] at folded
        obtain ⟨next, consumed, folded⟩ := folded
        refine ⟨by omega, least, by omega, .inr ⟨other, by omega, next, consumed, ?_⟩⟩
        refine (ih (by omega) length_drop).mpr ⟨rest, ?_, folded⟩
        rwa [add_assoc] at cut

theorem parseTags_refuses
    (enough : input.length < offset + turns) (inside : offset ≤ input.length) :
    Refuses (parseTags memory start input.length turns offset context) Stop.IsRefusal := by
  induction turns generalizing offset context with
  | zero => omega
  | succ turns ih =>
    rw [parseTags]
    split
    · next more =>
        refine .accept trivial fun header => ?_
        rw [rangeFits_iff inside] at header
        rw [holds.readField (by omega), ok_bind]
        refine .accept trivial fun least => .accept trivial fun fits => ?_
        rw [decide_eq_true_iff] at least
        rw [rangeFits_iff inside] at fits
        rw [holds.readField (by omega), ok_bind]
        split
        · exact .accept trivial fun _ => .ok
        · next other =>
            have held := tagAt_held holds least fits other
            have consumed := @consumeTag_refuses memory _ context held
            rw [tagAt_type least, tagAt_length fits] at consumed
            refine .bind consumed fun next _ => .accept trivial fun padded => ?_
            rw [decide_eq_true_iff, rangeFits_iff inside] at padded
            exact ih (by omega) padded.2
    · exact .ok

end

structure Header (address : Nat) (input : List UInt8) : Prop where
  aligned : address % 8 = 0
  size : fieldAt input 0 4 = input.length
  least : 16 ≤ input.length
  most : input.length ≤ multiboot2MaxInformationSize
  whole : input.length % 8 = 0
  mapped : address + input.length ≤ sapoteEarlyPhysicalLimit
  reserved : fieldAt input 4 4 = 0

theorem bootInformationParse_eq (holds : Holds memory start input) (header : Header start input) :
    bootInformationParse memory magic start = (do
      accept (magic = multiboot2BootMagic) (.refused .badMagic)
      accept (start ≠ 0) (.refused .nullInformation)
      let (foundEnd, context) ← parseTags memory start input.length input.length 8 (described start input.length [])
      accept foundEnd (.refused .missingEndTag)
      accept context.memoryMap.isSome (.refused .missingMemoryMap)
      .ok context) := by
  obtain ⟨aligned, size, least, most, whole, mapped, reserved⟩ := header
  rw [multiboot2MaxInformationSize] at most
  rw [sapoteEarlyPhysicalLimit] at mapped
  have below : decide (start ≤ sapoteEarlyPhysicalLimit - 8) := by
    rw [sapoteEarlyPhysicalLimit, decide_eq_true_iff]
    omega
  have flat : decide (start ≤ uint64Max - input.length) := by
    rw [uint64Max, decide_eq_true_iff]
    omega
  have fresh : { bootInformationReset with
      informationStart := start
      informationEnd := start + input.length } = described start input.length [] := by
    simp [described, lastOf, lastWith, available, highest, bootInformationReset]
  rw [bootInformationParse, decide_eq_true aligned, below, holds.readField (by omega), size,
    holds.readField (by omega), ok_bind, ok_bind, reserved, ← fresh, flat]
  simp only [multiboot2MaxInformationSize, sapoteEarlyPhysicalLimit, least, most, whole, mapped, decide_true,
    accept_true, ok_bind]

/-- The parser returns without a read outside the information, and it accepts exactly what the
grammar describes. -/
theorem bootInformationParse_exact (holds : Holds memory start input) (header : Header start input) :
    Refuses (bootInformationParse memory magic start) Stop.IsRefusal ∧
      ∀ information, bootInformationParse memory magic start = .ok information ↔
        magic = multiboot2BootMagic ∧ start ≠ 0 ∧
          ∃ tags, Tags (start + 8) (input.drop 8) tags ∧ Allowed tags ∧
            information = described start input.length tags := by
  have least := header.least
  rw [bootInformationParse_eq holds header]
  constructor
  · refine .accept trivial fun _ => .accept trivial fun _ => ?_
    refine .bind (parseTags_refuses holds (by omega) (by omega)) fun result _ => ?_
    exact .accept trivial fun _ => .accept trivial fun _ => .ok
  · intro information
    rw [accept_bind_eq_ok, decide_eq_true_iff, accept_bind_eq_ok, decide_eq_true_iff, bind_eq_ok]
    refine and_congr_right fun _ => and_congr_right fun _ => ?_
    constructor
    · rintro ⟨⟨found, context⟩, parsed, accepted⟩
      simp only [accept_bind_eq_ok, Except.ok.injEq] at accepted
      obtain ⟨rfl, map, rfl⟩ := accepted
      obtain ⟨tags, cut, folded⟩ := (parseTags_eq_ok holds (by omega)).mp parsed
      obtain ⟨order, rfl⟩ := (consumeTags_eq_ok (cut.held (holds.drop 8))).mp folded
      refine ⟨tags, cut, allowed_iff.mp ⟨order, ?_⟩, rfl⟩
      rwa [described_map, Option.isSome_map, Option.isSome_iff_ne_none] at map
    · rintro ⟨tags, cut, allowed, rfl⟩
      obtain ⟨order, map⟩ := allowed_iff.mpr allowed
      have folded := (@consumeTags_eq_ok memory tags start input.length _ (cut.held (holds.drop 8))).mpr
        ⟨order, rfl⟩
      refine ⟨(true, _), (parseTags_eq_ok holds (by omega)).mpr ⟨tags, cut, folded⟩, ?_⟩
      rw [accept_bind_eq_ok, accept_bind_eq_ok, described_map, Option.isSome_map, Option.isSome_iff_ne_none]
      exact ⟨rfl, map, rfl⟩

def smallInformation : List UInt8 :=
  encodeFields [(4, 56), (4, 0), (4, 6), (4, 40), (4, 24), (4, 0), (8, 0x100000), (8, 0x4000), (4, 1), (4, 0),
    (4, 0), (4, 8)]

theorem bootInformationParse_exact_small :
    (∃ information, bootInformationParse (memoryOf 0x1000 smallInformation) multiboot2BootMagic 0x1000 =
      .ok information ∧ information.reportedUsableBytes = 0x4000) ∧
    ∃ tags, Tags 0x1008 (smallInformation.drop 8) tags ∧ Allowed tags := by
  have header : Header 0x1000 smallInformation :=
    ⟨by decide, by decide, by decide, by decide, by decide, by decide, by decide⟩
  have parsed : ∃ information, bootInformationParse (memoryOf 0x1000 smallInformation) multiboot2BootMagic
      0x1000 = .ok information ∧ information.reportedUsableBytes = 0x4000 := ⟨_, by rfl, by decide +kernel⟩
  refine ⟨parsed, ?_⟩
  obtain ⟨information, same, -⟩ := parsed
  obtain ⟨-, -, tags, cut, allowed, -⟩ :=
    ((bootInformationParse_exact (holds_memoryOf 0x1000 smallInformation) header).2 information).mp same
  exact ⟨tags, cut, allowed⟩

end

end Sapote.Boot
