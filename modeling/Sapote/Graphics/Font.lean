import Sapote.Library.Bytes
import Sapote.Library.Checks

/-!
The console font: the reader of `font.rs` and the table that `make-font-asset.py` packs from
`font8x16.txt`, one number of sixteen rows for each character from the space on.
-/

namespace Sapote.Graphics

open Library

inductive FontStatus where
  | badHeader | badGeometry | truncated | trailingBytes | noSuchGlyph | bufferTooSmall
  deriving DecidableEq

structure FontGeometry where
  (width height first count : Nat)
  deriving DecidableEq

def fontHeaderSize : Nat := 8
def fontMagic : List UInt8 := [0x53, 0x4E, 0x46, 0x31]
def fontMaxCellWidth : Nat := 8
def fontMaxCellHeight : Nat := 32

def geometry (blob : List UInt8) : Except FontStatus FontGeometry := do
  accept (fontHeaderSize ≤ blob.length) .badHeader
  accept (blob.take 4 = fontMagic) .badHeader
  let width := (blob.getD 4 0).toNat
  let height := (blob.getD 5 0).toNat
  let first := (blob.getD 6 0).toNat
  let count := (blob.getD 7 0).toNat
  accept (width ≠ 0 && width ≤ fontMaxCellWidth) .badGeometry
  accept (height ≠ 0 && height ≤ fontMaxCellHeight) .badGeometry
  accept (count ≠ 0 && first + count ≤ 256) .badGeometry
  let declared := fontHeaderSize + count * height
  accept (declared ≤ blob.length) .truncated
  accept (blob.length ≤ declared) .trailingBytes
  return ⟨width, height, first, count⟩

def glyph (blob : List UInt8) (code outLength : Nat) : Except FontStatus (List UInt8) := do
  let geometry ← geometry blob
  accept (geometry.first ≤ code && code < geometry.first + geometry.count) .noSuchGlyph
  accept (geometry.height ≤ outLength) .bufferTooSmall
  let start := fontHeaderSize + (code - geometry.first) * geometry.height
  accept (start + geometry.height ≤ blob.length) .truncated
  return (blob.drop start).take geometry.height

/-- A table that is accepted has every character that it declares. -/
theorem glyph_eq {blob : List UInt8} {font : FontGeometry} (accepted : geometry blob = .ok font)
    {code outLength : Nat} (covered : font.first ≤ code ∧ code < font.first + font.count)
    (room : font.height ≤ outLength) :
    glyph blob code outLength =
      .ok ((blob.drop (fontHeaderSize + (code - font.first) * font.height)).take font.height) := by
  have whole : fontHeaderSize + font.count * font.height ≤ blob.length := by
    simp only [geometry, accept_bind_eq_ok, decide_eq_true_eq] at accepted
    obtain ⟨-, -, -, -, -, whole, -, same⟩ := accepted
    cases same
    exact whole
  have inside : (code - font.first + 1) * font.height ≤ font.count * font.height :=
    Nat.mul_le_mul_right _ (by omega)
  rw [Nat.succ_mul] at inside
  simp only [glyph, accepted, ok_bind, accept_bind_eq_ok, Bool.and_eq_true, decide_eq_true_eq]
  exact ⟨covered, room, by omega, rfl⟩

section

/-- The characters from the space to the tilde, the first row in the highest byte. -/
def glyphTable : List Nat := [
  0x00000000000000000000000000000000, 0x00000000080808080808080008080000,
  0x00002222222200000000000000000000, 0x000000001212127E24247E4848480000,
  0x00000000083E4948380E09493E080000, 0x00000000314A4A340808162929460000,
  0x000000001C2222141829454246390000, 0x00000808080800000000000000000000,
  0x00000004080810101010101008080400, 0x00000020101008080808080810102000,
  0x00000000000008492A1C2A4908000000, 0x0000000000000808087F080808000000,
  0x00000000000000000000000018080810, 0x0000000000000000003C000000000000,
  0x00000000000000000000000018180000, 0x00000000020204080810102040400000,
  0x00000000182442464A52624224180000, 0x000000000818280808080808083E0000,
  0x000000003C4242020C102040407E0000, 0x000000003C4242021C020242423C0000,
  0x00000000040C142444447E0404040000, 0x000000007E4040407C020202423C0000,
  0x000000001C2040407C424242423C0000, 0x000000007E0202040404080808080000,
  0x000000003C4242423C424242423C0000, 0x000000003C4242423E02020204380000,
  0x00000000000018180000001818000000, 0x00000000000018180000001808081000,
  0x00000000000204081020100804020000, 0x000000000000007E0000007E00000000,
  0x00000000004020100804081020400000, 0x000000003C4242020408080008080000,
  0x000000001C224A565252524E201E0000, 0x0000000018242442427E424242420000,
  0x000000007C4242427C424242427C0000, 0x000000003C42424040404042423C0000,
  0x00000000784442424242424244780000, 0x000000007E4040407C404040407E0000,
  0x000000007E4040407C40404040400000, 0x000000003C424240404E4242463A0000,
  0x00000000424242427E42424242420000, 0x000000003E08080808080808083E0000,
  0x000000001F0404040404044444380000, 0x00000000424448506060504844420000,
  0x000000004040404040404040407E0000, 0x00000000424266665A5A424242420000,
  0x0000000042626252524A4A4646420000, 0x000000003C42424242424242423C0000,
  0x000000007C4242427C40404040400000, 0x000000003C4242424242425A663C0300,
  0x000000007C4242427C48444442420000, 0x000000003C424240300C0242423C0000,
  0x000000007F0808080808080808080000, 0x000000004242424242424242423C0000,
  0x00000000414141222222141408080000, 0x00000000424242425A5A666642420000,
  0x00000000424224241818242442420000, 0x00000000414122221408080808080000,
  0x000000007E02020408102040407E0000, 0x0000000E080808080808080808080E00,
  0x00000000404020101008080402020000, 0x00000070101010101010101010107000,
  0x00001824420000000000000000000000, 0x00000000000000000000000000007F00,
  0x00201008000000000000000000000000, 0x0000000000003C42023E4242463A0000,
  0x0000004040405C6242424242625C0000, 0x0000000000003C4240404040423C0000,
  0x0000000202023A4642424242463A0000, 0x0000000000003C42427E4040423C0000,
  0x0000000C1010107C1010101010100000, 0x0000000000023A44444438203C42423C,
  0x0000004040405C624242424242420000, 0x000000080800180808080808083E0000,
  0x0000000404000C040404040404044830, 0x00000040404044485060504844420000,
  0x000000180808080808080808083E0000, 0x00000000000076494949494949490000,
  0x0000000000005C624242424242420000, 0x0000000000003C4242424242423C0000,
  0x0000000000005C6242424242625C4040, 0x0000000000003A4642424242463A0202,
  0x0000000000005C624240404040400000, 0x0000000000003C4240300C02423C0000,
  0x000000001010107C10101010100C0000, 0x000000000000424242424242463A0000,
  0x00000000000042424224242418180000, 0x00000000000041494949494949360000,
  0x00000000000042422418182442420000, 0x0000000000004242424242261A02023C,
  0x0000000000007E0204081020407E0000, 0x0000000C10100808102010080810100C,
  0x00000808080808080808080808080808, 0x00000030080810100804081010080830,
  0x00000031494600000000000000000000]

def fontBlob : List UInt8 :=
  fontMagic ++ [8, 16, 0x20, 95] ++ glyphTable.flatMap fun rows => (bytesOf 16 rows).reverse

def sapoteFontGeometry : Except FontStatus FontGeometry := geometry fontBlob

def sapoteFontGlyph (code outLength : Nat) : Except FontStatus (List UInt8) :=
  glyph fontBlob code outLength

theorem sapoteFontGeometry_eq : sapoteFontGeometry = .ok ⟨8, 16, 32, 95⟩ := by
  decide +kernel

theorem sapoteFontGlyph_space : sapoteFontGlyph 32 fontMaxCellHeight = .ok (List.replicate 16 0) := by
  decide +kernel

def glyphRows (code : Nat) : List UInt8 := (fontBlob.drop (8 + (code - 32) * 16)).take 16

theorem sapoteFontGlyph_eq {code : Nat} (covered : 32 ≤ code ∧ code < 127) :
    sapoteFontGlyph code fontMaxCellHeight = .ok (glyphRows code) :=
  glyph_eq sapoteFontGeometry_eq covered (by decide)

theorem glyphRows_space : glyphRows 32 = List.replicate 16 0 :=
  Except.ok.inj ((sapoteFontGlyph_eq (by decide)).symm.trans sapoteFontGlyph_space)

attribute [irreducible] fontBlob glyphRows sapoteFontGlyph sapoteFontGeometry

end

end Sapote.Graphics
