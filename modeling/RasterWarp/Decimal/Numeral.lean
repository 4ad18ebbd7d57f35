/-
# Reading decimal numbers

`Numeral.toWord?` reads a count below `2 ^ 64` and says what is wrong with anything else, the
first fault from the left.  `Numeral.toBinary64?` reads a number with a point and an exponent,
rounded to the nearest value.
-/
import RasterWarp.Binary.Binary64

namespace RasterWarp.Numeral

open Binary

/-- **Why a text is not a count.** -/
inductive Fault where
  | empty
  | invalidDigit
  | tooLarge
deriving DecidableEq, Repr

def Fault.message : Fault → String
  | .empty => "cannot parse integer from empty string"
  | .invalidDigit => "invalid digit found in string"
  | .tooLarge => "number too large to fit in target type"

/-- The first count that does not fit a machine word. -/
def wordBound : Nat := Nat.pow 2 64

/-- The value of a digit in a base up to 16. -/
def digit? (base : Nat) (c : Char) : Option Nat :=
  let value :=
    if '0' ≤ c ∧ c ≤ '9' then some (c.toNat - 48)
    else if 'a' ≤ c ∧ c ≤ 'f' then some (c.toNat - 87)
    else if 'A' ≤ c ∧ c ≤ 'F' then some (c.toNat - 55)
    else none
  value.filter (· < base)

/-- Reads digits onto `value`.  Where a digit is both out of place and too many, it is out of
place. -/
def digits (base : Nat) : Nat → List Char → Except Fault Nat
  | value, [] => .ok value
  | value, c :: rest =>
    match digit? base c with
    | none => .error .invalidDigit
    | some d =>
      if value * base + d < wordBound then digits base (value * base + d) rest
      else .error .tooLarge

/-- **A count below `2 ^ 64`:** decimal digits, with an optional plus sign before them. -/
def toWord? (s : String) : Except Fault Nat :=
  match s.toList with
  | [] => .error .empty
  | ['+'] => .error .invalidDigit
  | '+' :: rest => digits 10 0 rest
  | cs => digits 10 0 cs

/-- The digits a text starts with, and the rest. -/
def span (cs : List Char) : List Char × List Char :=
  (cs.takeWhile Char.isDigit, cs.dropWhile Char.isDigit)

/-- The number that digits spell. -/
def natural (cs : List Char) : Nat := cs.foldl (fun n c => 10 * n + (c.toNat - 48)) 0

/-- The value of `digits * 10 ^ exponent` with a sign.  Exponents beyond the format's range by
more than the digits can make up for are decided without computing the power. -/
def scaled (negative : Bool) (n : Nat) (exponent : Int) : Binary64 :=
  let size : Int := (Nat.toDigits 10 n).length
  .ofParts negative <|
    if n = 0 ∨ exponent + size < -400 then 0
    else if 400 < exponent + size then double.infinity
    else if 0 ≤ exponent then double.ofRatio (n * Nat.pow 10 exponent.toNat) 1
    else double.ofRatio n (Nat.pow 10 (-exponent).toNat)

/-- An exponent mark with its optional sign and its digits, to the end of the text. -/
def exponent? : List Char → Option Int
  | [] => some 0
  | mark :: rest =>
    if mark = 'e' ∨ mark = 'E' then
      let (negative, ds) := match rest with
        | '-' :: r => (true, r)
        | '+' :: r => (false, r)
        | r => (false, r)
      if ds.isEmpty ∨ !ds.all Char.isDigit then none
      else some (if negative then -(natural ds : Int) else natural ds)
    else none

/-- **A number with an optional sign, point and exponent,** and at least one digit. -/
def toBinary64? (cs : List Char) : Option Binary64 :=
  let (negative, body) := match cs with
    | '-' :: r => (true, r)
    | '+' :: r => (false, r)
    | r => (false, r)
  let (whole, afterWhole) := span body
  let (fraction, rest) := match afterWhole with
    | '.' :: r => span r
    | r => ([], r)
  if whole.isEmpty ∧ fraction.isEmpty then none
  else (exponent? rest).map fun e =>
    scaled negative (natural (whole ++ fraction)) (e - fraction.length)

end RasterWarp.Numeral
