/-
# The shortest decimal that reads back

Many decimals round to one binary value: those of an interval around it, whose ends count
exactly if the significand is even.  `shortest` takes the one with the fewest digits, and of
those the nearest to the value.  The search is on exact naturals: the grid of `n` digits has two
points next to the value, and a grid with any point in the interval has one of these two in it.
-/
import RasterWarp.Binary.Binary64

namespace RasterWarp

open Binary

/-- **A decimal number** `digits * 10 ^ exponent`. -/
structure Decimal where
  digits : Nat
  exponent : Int
deriving DecidableEq, Inhabited

namespace Decimal

/-- The decimal digits, first digit first. -/
def text (d : Decimal) : List Char := Nat.toDigits 10 d.digits

/-- The power of ten of the first digit. -/
def leading (d : Decimal) : Int := d.exponent + d.text.length - 1

/-- Drops trailing zeros, at most `fuel` of them. -/
def stripZeros : Nat → Decimal → Decimal
  | 0, d => d
  | fuel + 1, d =>
    if d.digits ≠ 0 ∧ d.digits % 10 = 0 then stripZeros fuel ⟨d.digits / 10, d.exponent + 1⟩ else d

end Decimal

/-- **The reals that round to one value,** in units of a common denominator: the value and both
ends of the interval are naturals over `unit`. -/
structure RoundingInterval where
  unit : Nat
  value : Nat
  low : Nat
  high : Nat
  closed : Bool

namespace RoundingInterval

/-- The interval of a positive finite magnitude.  Below a power of two the neighbour is only half
as far away. -/
def ofMagnitude (f : Format) (magnitude : Nat) : RoundingInterval :=
  let m := f.significand magnitude
  let e := f.exponent magnitude
  let scale := 4 * Nat.pow 2 e.toNat
  let unit := 4 * Nat.pow 2 (-e).toNat
  let step := scale / 4
  let narrow := m = Nat.pow 2 f.fractionBits ∧ f.lowest < e
  { unit
    value := m * scale
    low := m * scale - (if narrow then step else 2 * step)
    high := m * scale + 2 * step
    closed := m % 2 = 0 }

variable (i : RoundingInterval)

/-- Whether `n / d` (in the interval's own unit) rounds to the value. -/
def contains (n d : Nat) : Bool :=
  if i.closed then i.low * d ≤ n ∧ n ≤ i.high * d else i.low * d < n ∧ n < i.high * d

/-- The power of ten above the value: `10 ^ (k - 1) ≤ value < 10 ^ k`, looked for upwards from a
start that is not above it. -/
def decimalExponent : Nat → Int → Int
  | 0, k => k
  | fuel + 1, k =>
    let above := if 0 ≤ k then i.value < Nat.pow 10 k.toNat * i.unit
      else i.value * Nat.pow 10 (-k).toNat < i.unit
    if above then k else decimalExponent fuel (k + 1)

/-- The point of the grid `10 ^ q` to take, if one rounds to the value: the nearer of the two next
to it, the upper one of two equally near. -/
def onGrid (q : Int) : Option Nat :=
  let up := Nat.pow 10 q.toNat
  let down := Nat.pow 10 (-q).toNat
  let below := i.value * down / (i.unit * up)
  let lowIn := i.contains (below * up * i.unit) down
  let highIn := i.contains ((below + 1) * up * i.unit) down
  let twice := 2 * (i.value * down)
  let middle := (2 * below + 1) * up * i.unit
  if highIn ∧ (¬ lowIn ∨ middle ≤ twice) then some (below + 1)
  else if lowIn then some below
  else none

/-- Tries grids of one digit more at a time. -/
def search (k : Int) : Nat → Int → Decimal
  | 0, q => ⟨(i.onGrid q).getD 0, q⟩
  | fuel + 1, q =>
    match i.onGrid q with
    | some d => ⟨d, q⟩
    | none => search k fuel (q - 1)

end RoundingInterval

/-- **The fewest digits that read back,** the nearest such decimal; for finite values. -/
def Binary64.shortest (v : Binary64) : Decimal :=
  if v.magnitude = 0 then ⟨0, 0⟩ else
    let i := RoundingInterval.ofMagnitude double v.magnitude
    let start : Int := (Format.floorLog2 i.value i.unit) * 30103 / 100000 - 1
    let k := i.decimalExponent 6 start
    (i.search k 17 (k - 1)).stripZeros 17

end RasterWarp
