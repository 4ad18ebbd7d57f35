/-
# How numbers are written

Two layouts are in use.  `Layout.exact` is the one of messages and descriptions: a fraction is
always shown and very large or small numbers take an exponent.  `Layout.plain` is the one of
settings: it never takes an exponent and shows no fraction that is not there.  Both write the
shortest digits that read back.
-/
import RasterWarp.Decimal.Shortest

namespace RasterWarp

/-- **The choices of a number's text.** -/
structure Layout where
  /-- The powers of ten of a first digit that are written positionally; `none` for all of them. -/
  positional : Option (Int × Int)
  /-- Whether an integer is written with the fraction `.0`. -/
  showsFraction : Bool

namespace Layout

/-- Positional from `1e-4` to below `1e16`, with a fraction. -/
def exact : Layout := ⟨some (-4, 15), true⟩

/-- Always positional, and without an empty fraction. -/
def plain : Layout := ⟨none, false⟩

variable (l : Layout)

def isPositional (leading : Int) : Bool :=
  match l.positional with
  | some (low, high) => low ≤ leading ∧ leading ≤ high
  | none => true

/-- The digits around the point, with the zeros that the position asks for. -/
def positionalText (d : Decimal) : List Char :=
  let digits := d.text
  if 0 ≤ d.exponent then
    digits ++ List.replicate d.exponent.toNat '0' ++ (if l.showsFraction then ['.', '0'] else [])
  else if 0 ≤ d.leading then
    let whole := d.leading.toNat + 1
    digits.take whole ++ '.' :: digits.drop whole
  else
    '0' :: '.' :: (List.replicate (-d.leading - 1).toNat '0' ++ digits)

/-- One digit before the point, the rest after it, and the power of ten of the first digit. -/
def exponentText (d : Decimal) : List Char :=
  let fraction := d.text.drop 1
  let exponent := 'e' :: (toString d.leading).toList
  d.text.take 1 ++ (if fraction.isEmpty then [] else '.' :: fraction) ++ exponent

def text (v : Binary64) : String :=
  if v.isNaN then "NaN" else
    let magnitude :=
      if v.isInfinite then ['i', 'n', 'f'] else
        let d := v.shortest
        if v.magnitude = 0 ∨ l.isPositional d.leading then l.positionalText d
        else exponentText d
    String.ofList (if v.isNegative then '-' :: magnitude else magnitude)

end Layout

/-- **Numbers that can be written in a message.** -/
class DecimalText (α : Type) where
  exact : α → String
  plain : α → String

export DecimalText (exact plain)

instance : DecimalText Binary64 := ⟨Layout.exact.text, Layout.plain.text⟩

instance : DecimalText Float :=
  ⟨fun x => Layout.exact.text (.ofFloat x), fun x => Layout.plain.text (.ofFloat x)⟩

end RasterWarp
