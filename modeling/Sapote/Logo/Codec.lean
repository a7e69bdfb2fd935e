import Sapote.Library.Bytes
import Sapote.Library.Checks

/-!
The boot logo: the encoder of `make-logo-asset.py` and the decoder of `logo.rs`. A picture
is a string of bytes, four for each pixel; the decoder keeps the buffer that it writes into
whatever it concludes.
-/

namespace Sapote.Logo

open Library

inductive LogoStatus where
  | badHeader | badGeometry | zeroRun | tooManyPixels | truncated | trailingBytes | bufferTooSmall
  deriving DecidableEq

def headerSize : Nat := 8
def magic : List UInt8 := [0x53, 0x52, 0x4C, 0x31]
def maxDimension : Nat := 1024

structure Format where
  (redShift greenShift blueShift : UInt8)
  background : UInt32
  deriving DecidableEq

structure Geometry where
  (width height : Nat)
  deriving DecidableEq

def readU16 (bytes : List UInt8) (offset : Nat) : Nat := fieldAt bytes offset 2

def geometry (blob : List UInt8) : Except LogoStatus Geometry := do
  accept (headerSize ≤ blob.length) .badHeader
  accept (blob.take 4 = magic) .badHeader
  let width := readU16 blob 4
  let height := readU16 blob 6
  accept (width ≠ 0 && height ≠ 0 && width ≤ maxDimension && height ≤ maxDimension) .badGeometry
  return ⟨width, height⟩

def mix (channel under alpha : UInt8) : UInt32 :=
  (channel.toUInt32 * alpha.toUInt32 + under.toUInt32 * (255 - alpha).toUInt32 + 127) / 255 &&& 0xFF

def Format.under (format : Format) (shift : UInt8) : UInt8 :=
  ((format.background >>> shift.toUInt32) &&& 0xFF).toUInt8

def compose (red green blue alpha : UInt8) (format : Format) : UInt32 :=
  (mix red (format.under format.redShift) alpha <<< format.redShift.toUInt32) |||
    (mix green (format.under format.greenShift) alpha <<< format.greenShift.toUInt32) |||
    (mix blue (format.under format.blueShift) alpha <<< format.blueShift.toUInt32)

def fillSlots (out : List UInt32) (start count : Nat) (packed : UInt32) : List UInt32 :=
  out.take start ++ List.replicate count packed ++ out.drop (start + count)

def decodeRuns (format : Format) (pixels : Nat) (body : List UInt8) (written : Nat)
    (out : List UInt32) : Except LogoStatus Unit × List UInt32 :=
  if written < pixels then
    match body with
    | count :: red :: green :: blue :: alpha :: rest =>
      if count = 0 then (.error .zeroRun, out)
      else if pixels - written < count.toNat then (.error .tooManyPixels, out)
      else decodeRuns format pixels rest (written + count.toNat)
        (fillSlots out written count.toNat (compose red green blue alpha format))
    | _ => (.error .truncated, out)
  else if body ≠ [] then (.error .trailingBytes, out)
  else (.ok (), out)

def decode (blob : List UInt8) (out : List UInt32) (format : Format) :
    Except LogoStatus Geometry × List UInt32 :=
  match geometry blob with
  | .error status => (.error status, out)
  | .ok geometry =>
    let pixels := geometry.width * geometry.height
    if out.length < pixels then (.error .bufferTooSmall, out)
    else
      let result := decodeRuns format pixels (blob.drop headerSize) 0 out
      (result.1.map fun _ => geometry, result.2)

def emit : Option (List UInt8 × Nat) → List UInt8
  | none => []
  | some (pixel, count) => UInt8.ofNat count :: pixel

/-- The loop of `encode`, with the body so far, the run in progress and the indices left. -/
def encodeRuns (pixels : List UInt8) : Nat → Nat → List UInt8 → Option (List UInt8 × Nat) → List UInt8
  | _, 0, body, run => body ++ emit run
  | index, left + 1, body, run =>
    let pixel := (pixels.drop (index * 4)).take 4
    match run with
    | some (current, count) =>
      if current = pixel ∧ count < 255 then
        encodeRuns pixels (index + 1) left body (some (pixel, count + 1))
      else encodeRuns pixels (index + 1) left (body ++ emit run) (some (pixel, 1))
    | none => encodeRuns pixels (index + 1) left body (some (pixel, 1))

def encode (pixels : List UInt8) (width height : Nat) : List UInt8 :=
  encodeRuns pixels 0 (width * height) [] none

def assemble (pixels : List UInt8) (width height : Nat) : List UInt8 :=
  magic ++ bytesOf 2 width ++ bytesOf 2 height ++ encode pixels width height

end Sapote.Logo
