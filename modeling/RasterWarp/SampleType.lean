/-
# Sample types

What one sample of a band is: a number of some width, alone or as the real half of a complex
number.  The types are numbered in the usual order of raster libraries.
-/

namespace RasterWarp

/-- **How one number is encoded.**  Integers are given by their width in bytes. -/
inductive NumberFormat where
  | unsigned (bytes : Nat)
  | signed (bytes : Nat)
  | single
  | double
deriving DecidableEq, Repr

def NumberFormat.size : NumberFormat → Nat
  | unsigned n => n
  | signed n => n
  | single => 4
  | double => 8

/-- **The type of a band's samples.** -/
inductive SampleType where
  | unknown
  | byte
  | uint16
  | int16
  | uint32
  | int32
  | float32
  | float64
  | cint16
  | cint32
  | cfloat32
  | cfloat64
  | uint64
  | int64
  | int8
deriving DecidableEq, Repr, Inhabited

namespace SampleType

/-- All types in the order of their codes. -/
def all : List SampleType :=
  [unknown, byte, uint16, int16, uint32, int32, float32, float64, cint16, cint32, cfloat32,
    cfloat64, uint64, int64, int8]

def code (t : SampleType) : Nat := t.ctorIdx

def ofCode? (code : Nat) : Option SampleType := all[code]?

def name : SampleType → String
  | unknown => "Unknown"
  | byte => "Byte"
  | uint16 => "UInt16"
  | int16 => "Int16"
  | uint32 => "UInt32"
  | int32 => "Int32"
  | float32 => "Float32"
  | float64 => "Float64"
  | cint16 => "CInt16"
  | cint32 => "CInt32"
  | cfloat32 => "CFloat32"
  | cfloat64 => "CFloat64"
  | uint64 => "UInt64"
  | int64 => "Int64"
  | int8 => "Int8"

def ofName? (name : String) : Option SampleType := all.find? (·.name == name)

/-- The encoding of a sample, or of its real half; an unknown type has none. -/
def number? : SampleType → Option NumberFormat
  | unknown => none
  | byte => some (.unsigned 1)
  | uint16 => some (.unsigned 2)
  | int16 => some (.signed 2)
  | uint32 => some (.unsigned 4)
  | int32 => some (.signed 4)
  | float32 => some .single
  | float64 => some .double
  | cint16 => some (.signed 2)
  | cint32 => some (.signed 4)
  | cfloat32 => some .single
  | cfloat64 => some .double
  | uint64 => some (.unsigned 8)
  | int64 => some (.signed 8)
  | int8 => some (.signed 1)

/-- Whether an imaginary half of the same encoding follows. -/
def isComplex : SampleType → Bool
  | cint16 | cint32 | cfloat32 | cfloat64 => true
  | _ => false

/-- Bytes of one sample; an unknown type has none. -/
def size (t : SampleType) : Nat :=
  match t.number? with
  | none => 0
  | some n => if t.isComplex then 2 * n.size else n.size

/-- Types that a warp hands on as they are. -/
def isHandedOn : SampleType → Bool
  | byte | int16 | uint16 | float32 => true
  | _ => false

/-- The type in which a warp writes samples of this type. -/
def warpedType (t : SampleType) : SampleType := if t.isHandedOn then t else float32

theorem warpedType_ne_unknown (t : SampleType) : t.warpedType ≠ unknown := by
  cases t <;> decide

end SampleType

/-- **The sample type reported for a result.**  A byte band marked as signed is stored as `byte`
and reported apart. -/
inductive ReportedType where
  | data (type : SampleType)
  | signedByte
deriving DecidableEq, Repr

namespace ReportedType

def code : ReportedType → Nat
  | data t => t.code
  | signedByte => 100

def name : ReportedType → String
  | data t => t.name
  | signedByte => "SignedByte"

/-- The type in which the samples are stored. -/
def storage : ReportedType → SampleType
  | data t => t
  | signedByte => .byte

end ReportedType
end RasterWarp
