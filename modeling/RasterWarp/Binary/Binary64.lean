/-
# Sixty-four bit samples

A sample value is a `Binary64`: a bit pattern, kept as it is, so that copying a value never
disturbs the payload of a `nan`.  Arithmetic on samples is conversion only, and each conversion
is done on integers: to the nearest integer within bounds (`roundWithin`), from an integer
(`ofInt`), and to and from the 32-bit format (`toSingle`, `ofSingle`).
-/
import RasterWarp.Binary.Format

namespace RasterWarp

open Binary

/-- **A double-precision bit pattern.** -/
structure Binary64 where
  bits : UInt64
deriving DecidableEq, Inhabited

namespace Binary64

/-- The sign bit. -/
def isNegative (v : Binary64) : Bool := Nat.pow 2 63 ≤ v.bits.toNat

/-- The pattern without its sign. -/
def magnitude (v : Binary64) : Nat := v.bits.toNat % Nat.pow 2 63

def isNaN (v : Binary64) : Bool := double.infinity < v.magnitude

def isInfinite (v : Binary64) : Bool := v.magnitude = double.infinity

/-- The pattern of a sign and a magnitude. -/
def ofParts (negative : Bool) (magnitude : Nat) : Binary64 :=
  ⟨((if negative then Nat.pow 2 63 else 0) + magnitude).toUInt64⟩

def zero : Binary64 := ⟨0⟩

/-- The number a coordinate stands for as a sample. -/
def ofFloat (x : Float) : Binary64 := ⟨x.toBits⟩

def toFloat (v : Binary64) : Float := Float.ofBits v.bits

/-- The value nearest to an integer. -/
def ofInt (i : Int) : Binary64 := ofParts (i < 0) (double.ofRatio i.natAbs 1)

/-- **The nearest integer of a finite value,** a half going away from zero. -/
def round (v : Binary64) : Int :=
  let m := double.significand v.magnitude
  let e := double.exponent v.magnitude
  let whole :=
    if 0 ≤ e then m * Nat.pow 2 e.toNat
    else (2 * m + Nat.pow 2 (-e).toNat) / Nat.pow 2 ((-e).toNat + 1)
  if v.isNegative then -(whole : Int) else whole

/-- **The nearest integer between `low` and `high`;** `0` stands in for what is not a number. -/
def roundWithin (low high : Int) (v : Binary64) : Int :=
  if v.isNaN then 0
  else if v.isInfinite then (if v.isNegative then low else high)
  else max low (min high v.round)

/-- The nearest 32-bit pattern.  A `nan` keeps its sign and the top of its payload, and becomes a
quiet one. -/
def toSingle (v : Binary64) : Nat :=
  let magnitude :=
    if v.isNaN then
      single.infinity + (v.magnitude % Nat.pow 2 52 / Nat.pow 2 29 ||| Nat.pow 2 22)
    else if v.isInfinite then single.infinity
    else single.ofDyadic (double.significand v.magnitude) (double.exponent v.magnitude)
  (if v.isNegative then Nat.pow 2 31 else 0) + magnitude

/-- The value of a 32-bit pattern, which is exact.  A `nan` keeps its sign and payload, and
becomes a quiet one. -/
def ofSingle (pattern : Nat) : Binary64 :=
  let magnitude := pattern % Nat.pow 2 31
  ofParts (Nat.pow 2 31 ≤ pattern)
    (if single.infinity < magnitude then
      double.infinity + (magnitude % Nat.pow 2 23 ||| Nat.pow 2 22) * Nat.pow 2 29
    else if magnitude = single.infinity then double.infinity
    else double.ofDyadic (single.significand magnitude) (single.exponent magnitude))

end Binary64
end RasterWarp
