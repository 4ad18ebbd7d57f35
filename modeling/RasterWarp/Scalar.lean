/-
# Numbers that georeference a raster

Every coordinate, resolution and tolerance of the library is a value of a type `α` with
`[Scalar α]`, and no definition fixes that type.  `Float` is the instance that runs.  An ordered
field is another instance, and there the same definitions compute without rounding, so what a
warp does to exact coordinates is said of the code that runs and not of a second copy.

A scalar may be a value that no comparison accepts (`nan`): comparisons are therefore written
out with `<` and `≤` as they are meant, and never replaced by their negated converse.
-/

namespace RasterWarp

/-- **A number type for coordinates.**  `trunc` drops the fraction and sends what is below zero
(or not a number) to `0`; `top?` is the value that a minimum starts from, where the type has a
greatest value. -/
class Scalar (α : Type) extends Zero α, One α, Add α, Sub α, Mul α, Div α, Neg α, LT α, LE α,
    BEq α, OfScientific α where
  decLt : DecidableLT α
  decLe : DecidableLE α
  ofNat : Nat → α
  trunc : α → Nat
  sqrt : α → α
  top? : Option α

namespace Scalar

variable {α : Type} [Scalar α]

instance (a b : α) : Decidable (a < b) := Scalar.decLt a b

instance (a b : α) : Decidable (a ≤ b) := Scalar.decLe a b

/-- The smaller of two numbers, the first of two equal ones; a `nan` yields to the other. -/
def min (a b : α) : α := if a ≤ b || b != b then a else b

/-- The larger of two numbers, the first of two equal ones; a `nan` yields to the other. -/
def max (a b : α) : α := if b ≤ a || b != b then a else b

/-- The distance from zero. -/
def abs (a : α) : α := if a < 0 then -a else a

/-- Neither infinite nor a `nan`: only such a number differs from itself by zero. -/
def isFinite (a : α) : Bool := a - a == 0

/-- The least number of a list that starts with `a`. -/
def least (a : α) (rest : List α) : α :=
  match Scalar.top? (α := α) with
  | some t => (a :: rest).foldl min t
  | none => rest.foldl min a

/-- The greatest number of a list that starts with `a`. -/
def greatest (a : α) (rest : List α) : α :=
  match Scalar.top? (α := α) with
  | some t => (a :: rest).foldl max (-t)
  | none => rest.foldl max a

end Scalar

instance : Scalar Float where
  decLt := inferInstance
  decLe := inferInstance
  ofNat := Float.ofNat
  trunc x := x.toUInt64.toNat
  sqrt := Float.sqrt
  top? := some (1.0 / 0.0)

end RasterWarp
