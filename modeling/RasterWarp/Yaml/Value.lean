/-
# What scalars stand for

A scalar is text wherever text is asked for.  As a number it counts only if it is written plainly,
or as a literal block under the tag of that kind of number; so `5` is a number and `"5"` is not.
-/
import RasterWarp.Decimal.Numeral
import RasterWarp.Yaml.Node

namespace RasterWarp.Yaml

def tagOf (kind : String) : String := "tag:yaml.org,2002:" ++ kind

/-- Whether a scalar may be a value of some kind and not only text. -/
def mayBe (kind : String) (tag : Option String) (style : Style) : Bool :=
  style = .plain || (style = .literal && tag = some (tagOf kind))

/-- The ways to write that there is no value. -/
def isNull (text : String) : Bool := ["null", "Null", "NULL", "~"].contains text

/-- Digits of a base, to the end of the text. -/
def inBase? (base : Nat) (cs : List Char) : Option Nat :=
  if cs.isEmpty then none else (Numeral.digits base 0 cs).toOption

/-- **A count below `2 ^ 64`:** decimal, or with a mark for base 16, 8 or 2.  Decimal digits with
zeros in front are no number. -/
def word? (text : String) : Option Nat :=
  let cs := match text.toList with
    | '+' :: rest => rest
    | cs => cs
  match cs with
  | '0' :: 'x' :: rest => inBase? 16 rest
  | '0' :: 'o' :: rest => inBase? 8 rest
  | '0' :: 'b' :: rest => inBase? 2 rest
  | ['0'] => some 0
  | '0' :: _ => none
  | cs => inBase? 10 cs

/-- **A number with a point, an exponent, or neither,** or one of the names of what is not a finite
number.  A number too large to be finite is none. -/
def number? (text : String) : Option Binary64 :=
  let infinity := Binary64.ofParts false Binary.double.infinity
  let minusInfinity := Binary64.ofParts true Binary.double.infinity
  let unsigned := match text.toList with
    | '+' :: rest => rest
    | cs => cs
  if [".inf", ".Inf", ".INF"].contains (String.ofList unsigned) then some infinity
  else if ["-.inf", "-.Inf", "-.INF"].contains text then some minusInfinity
  else if [".nan", ".NaN", ".NAN"].contains text then
    some (.ofParts false (Binary.double.infinity + Nat.pow 2 51))
  else if unsigned.length < text.length && unsigned.head?.any (fun c => c = '+' || c = '-') then
    none
  else (Numeral.toBinary64? unsigned).filter fun v => !v.isInfinite

namespace Document

variable (d : Document)

def text? (n : Node) : Option String :=
  match d.resolve? n with
  | some (.scalar _ _ text) => some text
  | _ => none

def count? (n : Node) : Option Nat :=
  match d.resolve? n with
  | some (.scalar tag style text) => if mayBe "int" tag style then word? text else none
  | _ => none

def decimal? (n : Node) : Option Binary64 :=
  match d.resolve? n with
  | some (.scalar tag style text) => if mayBe "float" tag style then number? text else none
  | _ => none

/-- A count that may be left out: by nothing, or by one of the ways to write that there is none. -/
def optionalCount? (n : Node) : Option (Option Nat) :=
  match d.resolve? n with
  | some (.scalar tag .plain text) =>
    if tag = some (tagOf "null") then (if isNull text then some none else none)
    else if tag.isNone && (text.isEmpty || isNull text) then some none
    else (d.count? n).map some
  | _ => (d.count? n).map some

/-- The entries of a sequence; nothing is an empty one. -/
def items? (n : Node) : Option (List Node) :=
  match d.resolve? n with
  | some (.sequence items) => some items
  | some (.scalar _ .plain text) => if text.isEmpty then some [] else none
  | _ => none

/-- The texts of a sequence. -/
def texts? (n : Node) : Option (List String) := do (← d.items? n).mapM d.text?

/-- The named entries of a mapping; nothing is an empty one. -/
def fields? (n : Node) : Option (List (String × Node)) :=
  match d.resolve? n with
  | some (.mapping entries) => entries.mapM fun (k, v) => (d.text? k).map fun name => (name, v)
  | some (.scalar _ .plain text) => if text.isEmpty then some [] else none
  | _ => none

end Document
end RasterWarp.Yaml
