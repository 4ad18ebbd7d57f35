/-
# Binary interchange formats

A floating-point bit pattern without its sign is a natural number, and patterns are ordered as
the values they stand for.  `Format` names the widths of the two fields; `significand` and
`exponent` say what a pattern stands for (`significand * 2 ^ exponent`), and `ofRatio` finds the
pattern of the value nearest to a quotient of naturals.

Main statement: `ofRatio` is one formula for normal and subnormal results.  With `e` the weight
of the last bit kept and `m` the rounded multiple of it, the pattern is
`(e - lowest) * 2 ^ fractionBits + m`: a normal `m` carries its leading bit into the exponent
field, and a rounding up to the next power of two carries into it too.
-/

namespace RasterWarp.Binary

/-- **Widths of the fraction and exponent fields.** -/
structure Format where
  fractionBits : Nat
  exponentBits : Nat

/-- The 64-bit format. -/
def double : Format := ⟨52, 11⟩

/-- The 32-bit format. -/
def single : Format := ⟨23, 8⟩

/-- **The quotient `num / den` rounded to an integer,** a half going to the even neighbour. -/
def nearestEven (num den : Nat) : Nat :=
  let q := num / den
  let r := num % den
  if 2 * r < den then q
  else if den < 2 * r then q + 1
  else q + q % 2

namespace Format

variable (f : Format)

/-- What an exponent is raised by in its field. -/
def bias : Nat := Nat.pow 2 (f.exponentBits - 1) - 1

/-- The binary weight of the last bit of a subnormal value. -/
def lowest : Int := 1 - (f.bias : Int) - f.fractionBits

/-- The pattern of infinity; greater patterns are not numbers. -/
def infinity : Nat := (Nat.pow 2 f.exponentBits - 1) * Nat.pow 2 f.fractionBits

/-- The integer multiple of `2 ^ exponent` that a finite pattern stands for. -/
def significand (pattern : Nat) : Nat :=
  if pattern < Nat.pow 2 f.fractionBits then pattern
  else Nat.pow 2 f.fractionBits + pattern % Nat.pow 2 f.fractionBits

/-- The binary weight of the last bit of a finite pattern's significand. -/
def exponent (pattern : Nat) : Int :=
  if pattern < Nat.pow 2 f.fractionBits then f.lowest
  else f.lowest + (pattern / Nat.pow 2 f.fractionBits : Nat) - 1

/-- The largest `k` with `2 ^ k ≤ num / den`, for positive `num` and `den`. -/
def floorLog2 (num den : Nat) : Int :=
  let k : Int := (num.log2 : Int) - den.log2
  let reached := if 0 ≤ k then den * Nat.pow 2 k.toNat ≤ num else den ≤ num * Nat.pow 2 (-k).toNat
  if reached then k else k - 1

/-- **The pattern of the value nearest to `num / den`,** a tie going to the even significand and
what is too large to infinity. -/
def ofRatio (num den : Nat) : Nat :=
  if num = 0 then 0 else
    let e := max (floorLog2 num den - f.fractionBits) f.lowest
    let m := if 0 ≤ e then nearestEven num (den * Nat.pow 2 e.toNat)
      else nearestEven (num * Nat.pow 2 (-e).toNat) den
    min ((e - f.lowest).toNat * Nat.pow 2 f.fractionBits + m) f.infinity

/-- The pattern of the value nearest to `m * 2 ^ e`. -/
def ofDyadic (m : Nat) (e : Int) : Nat :=
  if 0 ≤ e then f.ofRatio (m * Nat.pow 2 e.toNat) 1 else f.ofRatio m (Nat.pow 2 (-e).toNat)

end Format
end RasterWarp.Binary
