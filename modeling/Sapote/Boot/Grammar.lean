import Sapote.Boot.Information

/-!
What the Multiboot2 information is, as tags one after the other, and what an accepted one says.
-/

namespace Sapote.Boot
open List

open Library

/-- A tag with the address it is at. The padding does not belong to its bytes. -/
structure Tag where
  address : Nat
  bytes : List UInt8

def Tag.type (tag : Tag) : TagType := tagType (fieldAt tag.bytes 0 4)

/-- Bytes that are tags one after the other, each at least its own header and padded to eight
bytes, and then the last one. -/
inductive Tags : Nat → List UInt8 → List Tag → Prop
  | last {address : Nat} : Tags address (encodeFields [(4, 0), (4, 8)]) []
  | more {address : Nat} {tag padding rest : List UInt8} {tags : List Tag}
      (least : 8 ≤ tag.length) (declared : fieldAt tag 4 4 = tag.length)
      (type : tagType (fieldAt tag 0 4) ≠ .endTag)
      (short : padding.length < 8) (aligned : (tag.length + padding.length) % 8 = 0)
      (next : Tags (address + (tag.length + padding.length)) rest tags) :
      Tags address (tag ++ (padding ++ rest)) (⟨address, tag⟩ :: tags)

def lastOf (type : TagType) (tags : List Tag) : Option Tag :=
  lastWith (fun tag => tag.type = type) tags

def Tag.stringLength (tag : Tag) : Nat := (tag.bytes.drop 8).idxOf 0

def regionOf (bytes : List UInt8) (offset : Nat) : BootMemoryRegion :=
  ⟨fieldAt bytes offset 8, fieldAt bytes (offset + 8) 8, fieldAt bytes (offset + 16) 4⟩

def Tag.entrySize (tag : Tag) : Nat := fieldAt tag.bytes 8 4

def Tag.region (tag : Tag) (index : Nat) : BootMemoryRegion :=
  regionOf tag.bytes (16 + index * tag.entrySize)

def Tag.regions (tag : Tag) : List BootMemoryRegion :=
  (List.range ((tag.bytes.length - 16) / tag.entrySize)).map tag.region

/-- Whole entries of a known version, none of which ends past the last address. -/
structure Tag.IsMap (tag : Tag) : Prop where
  header : 16 ≤ tag.bytes.length
  entry : 24 ≤ tag.entrySize
  version : fieldAt tag.bytes 12 4 = 0
  whole : (tag.bytes.length - 16) % tag.entrySize = 0
  ends : ∀ region ∈ tag.regions, region.baseAddress + region.length ≤ uint64Max

def Tag.framebuffer (tag : Tag) : BootFramebuffer where
  address := fieldAt tag.bytes 8 8
  pitch := fieldAt tag.bytes 16 4
  width := fieldAt tag.bytes 20 4
  height := fieldAt tag.bytes 24 4
  size := fieldAt tag.bytes 16 4 * fieldAt tag.bytes 24 4
  bitsPerPixel := 32
  redPosition := tag.bytes.getD 32 0
  greenPosition := tag.bytes.getD 34 0
  bluePosition := tag.bytes.getD 36 0
  present := true

/-- Direct colour of 32 bits, rows that hold their pixels, all of it in the early map, and three
bytes of the pixel for the channels. -/
structure Tag.IsFramebuffer (tag : Tag) : Prop where
  header : 38 ≤ tag.bytes.length
  direct : tag.bytes.getD 29 0 = 1
  depth : tag.bytes.getD 28 0 = 32
  visible : tag.framebuffer.width ≠ 0 ∧ tag.framebuffer.height ≠ 0
  pitch : tag.framebuffer.width * 4 ≤ tag.framebuffer.pitch ∧ tag.framebuffer.pitch % 4 = 0
  address : tag.framebuffer.address ≠ 0 ∧ tag.framebuffer.address % 4 = 0
  mapped : tag.framebuffer.address + tag.framebuffer.size ≤ sapoteEarlyPhysicalLimit
  red : channelFits tag.framebuffer.redPosition (tag.bytes.getD 33 0)
  green : channelFits tag.framebuffer.greenPosition (tag.bytes.getD 35 0)
  blue : channelFits tag.framebuffer.bluePosition (tag.bytes.getD 37 0)
  distinct : tag.framebuffer.redPosition ≠ tag.framebuffer.greenPosition ∧
    tag.framebuffer.greenPosition ≠ tag.framebuffer.bluePosition ∧
    tag.framebuffer.redPosition ≠ tag.framebuffer.bluePosition

def Tag.Valid (tag : Tag) : Prop :=
  match tag.type with
  | .memoryMap => tag.IsMap
  | .moduleTag => False
  | .acpiOld => 8 + acpiRsdpV1Size ≤ tag.bytes.length
  | .acpiNew => 8 + acpiRsdpV2Size ≤ tag.bytes.length
  | .framebuffer => tag.IsFramebuffer
  | .bootLoaderName | .commandLine => 0 ∈ tag.bytes.drop 8
  | .endTag | .other => True

def TagType.single : TagType → Bool
  | .memoryMap | .acpiOld | .acpiNew | .framebuffer => true
  | _ => false

/-- Valid tags, no second one of a single type, and a memory map. -/
structure Allowed (tags : List Tag) : Prop where
  valid : ∀ tag ∈ tags, tag.Valid
  single : ∀ type : TagType, type.single → (tags.filter fun tag => tag.type = type).length ≤ 1
  map : ∃ tag ∈ tags, tag.type = .memoryMap

def available (regions : List BootMemoryRegion) : Nat :=
  ((regions.filter fun region => region.type = 1).map BootMemoryRegion.length).sum

def highest (regions : List BootMemoryRegion) : Nat :=
  (regions.map fun region => region.baseAddress + region.length).foldl max 0

/-- What tags say: the map, the tables and the framebuffer there are, and the last string of
either kind. -/
def described (start total : Nat) (tags : List Tag) : BootInformation where
  informationStart := start
  informationEnd := start + total
  memoryMap := (lastOf .memoryMap tags).map Tag.address
  acpiOld := (lastOf .acpiOld tags).map Tag.address
  acpiNew := (lastOf .acpiNew tags).map Tag.address
  bootLoaderName := (lastOf .bootLoaderName tags).map fun tag => tag.address + 8
  commandLine := (lastOf .commandLine tags).map fun tag => tag.address + 8
  bootLoaderNameLength := ((lastOf .bootLoaderName tags).map Tag.stringLength).getD 0
  commandLineLength := ((lastOf .commandLine tags).map Tag.stringLength).getD 0
  memoryMapEntryCount := (((lastOf .memoryMap tags).map Tag.regions).getD []).length
  reportedUsableBytes := min (available (((lastOf .memoryMap tags).map Tag.regions).getD [])) uint64Max
  highestReportedAddress := highest (((lastOf .memoryMap tags).map Tag.regions).getD [])
  framebuffer := ((lastOf .framebuffer tags).map Tag.framebuffer).getD noFramebuffer

section
variable {address : Nat} {bytes : List UInt8} {tags : List Tag}

theorem tagType_eq_endTag {number : Nat} : tagType number = .endTag ↔ number = 0 := by
  unfold tagType
  split <;> simp_all

theorem alignTagSize_eq {size : Nat} (small : size < 2 ^ 32) :
    size ≤ alignTagSize size ∧ alignTagSize size < size + 8 ∧ alignTagSize size % 8 = 0 := by
  rw [alignTagSize, Nat.mod_eq_of_lt (by omega)]
  omega

/-- How the first eight bytes tell the first tag. -/
theorem tags_iff :
    Tags address bytes tags ↔
      8 ≤ bytes.length ∧ 8 ≤ fieldAt bytes 4 4 ∧ fieldAt bytes 4 4 ≤ bytes.length ∧
        (tagType (fieldAt bytes 0 4) = .endTag ∧ fieldAt bytes 4 4 = 8 ∧ bytes.length = 8 ∧ tags = [] ∨
          tagType (fieldAt bytes 0 4) ≠ .endTag ∧ alignTagSize (fieldAt bytes 4 4) ≤ bytes.length ∧
            ∃ rest, tags = ⟨address, bytes.take (fieldAt bytes 4 4)⟩ :: rest ∧
              Tags (address + alignTagSize (fieldAt bytes 4 4))
                (bytes.drop (alignTagSize (fieldAt bytes 4 4))) rest) := by
  have small := fieldAt_lt bytes 4 4
  obtain ⟨above, below, whole⟩ := alignTagSize_eq (show fieldAt bytes 4 4 < 2 ^ 32 by omega)
  constructor
  · intro cut
    cases cut with
    | last => exact ⟨by decide, by decide, by decide, .inl ⟨by decide, by decide, by decide, rfl⟩⟩
    | @more _ tag padding rest tags least declared type short aligned next =>
      have size : fieldAt (tag ++ (padding ++ rest)) 4 4 = tag.length := by
        rw [fieldAt_append (by omega), declared]
      have kind : fieldAt (tag ++ (padding ++ rest)) 0 4 = fieldAt tag 0 4 := fieldAt_append (by omega)
      rw [size] at above below whole ⊢
      have span : alignTagSize tag.length = tag.length + padding.length := by omega
      have length : (tag ++ (padding ++ rest)).length = tag.length + (padding.length + rest.length) := by
        simp only [length_append]
      rw [span, kind, length, take_left]
      refine ⟨by omega, least, by omega, .inr ⟨type, by omega, tags, rfl, ?_⟩⟩
      rw [← append_assoc, drop_left' (length_append ..)]
      exact next
  · rintro ⟨header, least, fits, ⟨type, size, last, rfl⟩ | ⟨type, padded, rest, rfl, next⟩⟩
    · have same : bytes = encodeFields [(4, 0), (4, 8)] := by
        refine (eq_encodeFields_iff (by decide) (by rw [last]; rfl)).mpr ?_
        exact ⟨tagType_eq_endTag.mp type, size, trivial⟩
      rw [same]
      exact .last
    · have declared : fieldAt (bytes.take (fieldAt bytes 4 4)) 4 4 = fieldAt bytes 4 4 :=
        fieldAt_take (by omega)
      have kind : fieldAt (bytes.take (fieldAt bytes 4 4)) 0 4 = fieldAt bytes 0 4 := fieldAt_take (by omega)
      generalize fieldAt bytes 4 4 = size at *
      generalize alignTagSize size = span at *
      have first : (bytes.take size).length = size := by
        rw [length_take]
        omega
      have second : ((bytes.drop size).take (span - size)).length = span - size := by
        rw [length_take, length_drop]
        omega
      have behind : bytes.drop span = (bytes.drop size).drop (span - size) := by
        rw [drop_drop, Nat.add_sub_cancel' above]
      have split : bytes = bytes.take size ++ ((bytes.drop size).take (span - size) ++ bytes.drop span) := by
        simp only [behind, take_append_drop]
      have together : (bytes.take size).length + ((bytes.drop size).take (span - size)).length = span := by
        omega
      have cut : Tags address (bytes.take size ++ ((bytes.drop size).take (span - size) ++ bytes.drop span))
          (⟨address, bytes.take size⟩ :: rest) :=
        .more (by omega) (by omega) (by rwa [kind]) (by omega) (by omega) (by rwa [together])
      rwa [← split] at cut

structure Tag.Held (memory : Memory UInt8) (tag : Tag) : Prop where
  holds : Holds memory tag.address tag.bytes
  least : 8 ≤ tag.bytes.length
  declared : fieldAt tag.bytes 4 4 = tag.bytes.length
  notLast : tag.type ≠ .endTag

theorem Tags.held {memory : Memory UInt8} (cut : Tags address bytes tags) (holds : Holds memory address bytes) :
    ∀ tag ∈ tags, tag.Held memory := by
  induction cut with
  | last => nofun
  | @more address tag padding rest tags least declared type short aligned next ih =>
    have later : Holds memory (address + (tag.length + padding.length)) rest := by
      rw [← add_assoc]
      exact holds.right.right
    intro t member
    obtain rfl | member := mem_cons.mp member
    · exact ⟨holds.left, least, declared, type⟩
    · exact ih later t member

end

end Sapote.Boot
