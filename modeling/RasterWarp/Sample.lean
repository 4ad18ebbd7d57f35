/-
# Samples in buffers

A sample is written as the bytes of its real part, lowest byte first, followed by zeros for an
imaginary half.  `SampleType.encode` and `SampleType.decode` are one codec for all types, and
`SampleType.get?` and `SampleType.set?` apply it to sample number `index` of a buffer.

Integers are rounded to the nearest, a half away from zero, and kept within the type's bounds.
-/
import RasterWarp.Binary.Binary64
import RasterWarp.Bytes
import RasterWarp.SampleType

namespace RasterWarp

namespace NumberFormat

/-- The bit pattern of a value, as a number below `256 ^ size`. -/
def encode (f : NumberFormat) (v : Binary64) : Nat :=
  match f with
  | unsigned n => (v.roundWithin 0 (Nat.pow 256 n - 1 : Nat)).toNat
  | signed n =>
    let i := v.roundWithin (-(Nat.pow 256 n / 2 : Nat)) (Nat.pow 256 n / 2 - 1 : Nat)
    (i % (Nat.pow 256 n : Nat)).toNat
  | single => v.toSingle
  | double => v.bits.toNat

/-- The value of a bit pattern. -/
def decode (f : NumberFormat) (pattern : Nat) : Binary64 :=
  match f with
  | unsigned _ => .ofInt pattern
  | signed n =>
    .ofInt (if pattern < Nat.pow 256 n / 2 then pattern
      else (pattern : Int) - (Nat.pow 256 n : Nat))
  | single => .ofSingle pattern
  | double => ⟨pattern.toUInt64⟩

end NumberFormat

namespace SampleType

/-- **The bytes of a value:** none for an unknown type, and a zero imaginary half. -/
def encode (t : SampleType) (v : Binary64) : Bytes :=
  match t.number? with
  | none => #[]
  | some f => (Bytes.ofNat t.size (f.encode v)).toArray

theorem size_eq_zero_of_number? {t : SampleType} (h : t.number? = none) : t.size = 0 := by
  simp [size, h]

@[simp] theorem size_encode (t : SampleType) (v : Binary64) : (t.encode v).size = t.size := by
  unfold encode
  cases h : t.number? with
  | none => simp [size_eq_zero_of_number? h]
  | some f => simp

/-- **The value of a sample's bytes,** the real part of a complex one. -/
def decode (t : SampleType) (bytes : Bytes) : Binary64 :=
  match t.number? with
  | none => .zero
  | some f => f.decode (Bytes.toNat (bytes.toList.take f.size))

/-- Sample `index` of a buffer, if the buffer has it. -/
def get? (t : SampleType) (b : Bytes) (index : Nat) : Option Binary64 :=
  (b.slice? (index * t.size) t.size).map t.decode

/-- The buffer with a value written as sample `index`, if the buffer has that sample. -/
def set? (t : SampleType) (b : Bytes) (index : Nat) (v : Binary64) : Option Bytes :=
  b.splice? (index * t.size) (t.encode v)

/-- **The buffer with every whole sample set to a value:** one encoded sample, repeated.  The bytes
of a trailing part of a sample keep their contents. -/
def fill (t : SampleType) (b : Bytes) (v : Binary64) : Bytes :=
  if t.size = 0 then b else
    let count := b.size / t.size
    let piece := t.encode v
    Bytes.concat count (fun _ => piece) ++ b.extract (count * t.size) b.size

end SampleType
end RasterWarp
