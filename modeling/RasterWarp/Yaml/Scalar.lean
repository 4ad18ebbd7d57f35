/-
# Scalars

The three ways to write a scalar over several lines fold line breaks in their own manner.  In
plain and quoted scalars a `Gap` collects the blanks and breaks between two words: a single line
break counts as a space, of several all but the first remain, and blanks around breaks are lost.

Each reader goes through the symbols one at a time and answers with the text and the symbols after
it, or with nothing if the text is malformed.
-/
import RasterWarp.Decimal.Numeral
import RasterWarp.Yaml.Symbol

namespace RasterWarp.Yaml

/-! ## 1. Gaps -/

/-- **Blanks and line breaks between two words.** -/
structure Gap where
  /-- Whether the line has been broken; blanks no longer count then. -/
  broken : Bool
  blanks : String
  /-- The first break, unless it was escaped. -/
  first : Option Char
  further : String

namespace Gap

def none : Gap := ⟨false, "", .none, ""⟩

/-- The gap that an escaped line break starts. -/
def escaped : Gap := ⟨true, "", .none, ""⟩

def isNone (g : Gap) : Bool := !g.broken && g.blanks.isEmpty

def addBlank (g : Gap) (c : Char) : Gap :=
  if g.broken then g else { g with blanks := g.blanks.push c }

def addBreak (g : Gap) (c : Char) : Gap :=
  if g.broken then { g with further := g.further.push c }
  else { g with broken := true, blanks := "", first := some c }

/-- What the gap stands for. -/
def text (g : Gap) : String :=
  if !g.broken then g.blanks
  else match g.first with
    | some '\n' => if g.further.isEmpty then " " else g.further
    | some c => c.toString ++ g.further
    | .none => g.further

end Gap

/-! ## 2. Plain scalars -/

/-- Characters that end a word within brackets. -/
def isFlowMark (c : Char) : Bool := c = ',' || c = '[' || c = ']' || c = '\x7b' || c = '\x7d'

/-- **Reads a plain scalar,** given what was read and the gap after it, and tells whether a line
was broken before what follows.  `indent` is the column that continued lines have to reach. -/
def readPlain (inFlow : Bool) (indent : Int) (read : String) (gap : Gap) :
    List Symbol → Option (String × Bool × List Symbol)
  | [] => some (read, gap.broken, [])
  | s :: rest =>
    if s.isBlank then
      if gap.broken && s.char = '\t' && s.column < indent then none
      else readPlain inFlow indent read (gap.addBlank s.char) rest
    else if s.isBreak then readPlain inFlow indent read (gap.addBreak s.char) rest
    else
      let next := charAt rest 0
      let outside := !gap.isNone
        && ((!inFlow && s.column < indent) || atDocumentMark (s :: rest) || s.char = '#')
      if s.isEnd || outside then some (read, gap.broken, s :: rest)
      else if inFlow && s.char = ':' && (isFlowMark next || next = '?') then none
      else if (s.char = ':' && endsWordAt rest 0) || (inFlow && isFlowMark s.char) then
        some (read, gap.broken, s :: rest)
      else readPlain inFlow indent ((read ++ gap.text).push s.char) .none rest

/-! ## 3. Quoted scalars -/

/-- **What a backslash or a quote has begun.** -/
inductive Pending where
  | nothing
  /-- A quote that ends a single-quoted scalar, unless another one follows. -/
  | quote
  | backslash
  /-- Digits still to come of a character's number, and its value so far. -/
  | number (digits value : Nat)

/-- The characters that a backslash and one letter stand for. -/
def escape? : Char → Option Char
  | '0' => some '\x00'
  | 'a' => some '\x07'
  | 'b' => some '\x08'
  | 't' => some '\t'
  | '\t' => some '\t'
  | 'n' => some '\n'
  | 'v' => some '\x0b'
  | 'f' => some '\x0c'
  | 'r' => some '\r'
  | 'e' => some '\x1b'
  | ' ' => some ' '
  | '"' => some '"'
  | '/' => some '/'
  | '\\' => some '\\'
  | 'N' => some '\u0085'
  | '_' => some '\u00a0'
  | 'L' => some '\u2028'
  | 'P' => some '\u2029'
  | _ => none

/-- The digits of the number that a backslash and a letter announce. -/
def numberLength? : Char → Option Nat
  | 'x' => some 2
  | 'u' => some 4
  | 'U' => some 8
  | _ => none

/-- The character of a number, if there is one. -/
def charOf? (n : Nat) : Option Char := if n.isValidChar then some (Char.ofNat n) else none

/-- **Reads a quoted scalar,** from after its opening quote on. -/
def readQuoted (single : Bool) (read : String) (gap : Gap) (pending : Pending) :
    List Symbol → Option (String × List Symbol)
  | [] => none
  | s :: rest =>
    match pending with
    | .quote =>
      if s.char = '\'' then readQuoted single (read.push '\'') .none .nothing rest
      else some (read, s :: rest)
    | .backslash =>
      if s.isBreak then readQuoted single read .escaped .nothing rest
      else match escape? s.char, numberLength? s.char with
        | some c, _ => readQuoted single (read.push c) .none .nothing rest
        | none, some n => readQuoted single read .none (.number n 0) rest
        | none, none => none
    | .number digits value =>
      match Numeral.digit? 16 s.char with
      | none => none
      | some d =>
        let value := 16 * value + d
        if 1 < digits then readQuoted single read .none (.number (digits - 1) value) rest
        else match charOf? value with
          | some c => readQuoted single (read.push c) .none .nothing rest
          | none => none
    | .nothing =>
      let text := read ++ gap.text
      if s.isEnd || atDocumentMark (s :: rest) then none
      else if s.isBlank then readQuoted single read (gap.addBlank s.char) .nothing rest
      else if s.isBreak then readQuoted single read (gap.addBreak s.char) .nothing rest
      else if single && s.char = '\'' then readQuoted single text .none .quote rest
      else if !single && s.char = '"' then some (text, rest)
      else if !single && s.char = '\\' then readQuoted single text .none .backslash rest
      else readQuoted single (text.push s.char) .none .nothing rest

/-! ## 4. Block scalars -/

/-- **What becomes of the breaks at the end of a block scalar.** -/
inductive Chomping where
  | strip
  | clip
  | keep
deriving DecidableEq

/-- **The head of a block scalar,** given after its indicator. -/
structure BlockHead where
  chomping : Chomping
  /-- How much further than its surroundings the text is indented, if that is said. -/
  increment : Option Nat

/-- Passes over the rest of a line with nothing but a comment on it, and its end. -/
def endLine? (comment : Bool) : List Symbol → Option (List Symbol)
  | [] => some []
  | s :: rest =>
    if s.isBreak then some rest
    else if s.isEnd then some (s :: rest)
    else if comment then endLine? true rest
    else if s.char = '#' then endLine? true rest
    else if s.isBlank then endLine? false rest
    else none

def chomping? : Char → Option Chomping
  | '+' => some .keep
  | '-' => some .strip
  | _ => none

/-- A digit from 1 to 9; nothing for what is no digit. -/
def increment? (c : Char) : Option Nat := if c.isDigit then some (c.toNat - 48) else none

/-- Reads the chomping mark and the increment, in either order, and the rest of the line. -/
def readBlockHead (symbols : List Symbol) : Option (BlockHead × List Symbol) :=
  let c := charAt symbols 0
  let d := charAt symbols 1
  let (head, used) : BlockHead × Nat := match chomping? c, increment? c with
    | some m, _ => (⟨m, increment? d⟩, if (increment? d).isSome then 2 else 1)
    | none, some n => (⟨(chomping? d).getD .clip, some n⟩, if (chomping? d).isSome then 2 else 1)
    | none, none => (⟨.clip, none⟩, 0)
  if head.increment = some 0 then none
  else (endLine? false (symbols.drop used)).map fun rest => (head, rest)

/-- The column of the first line with text, or the furthest of the blank lines before it if that
is further.  Tabs cannot indent. -/
def textColumn (furthest : Nat) : List Symbol → Option Nat
  | [] => some furthest
  | s :: rest =>
    if s.char = ' ' then textColumn furthest rest
    else if s.char = '\t' then none
    else if s.isBreak then textColumn (max furthest s.column) rest
    else some (max furthest s.column)

/-- **The lines of a block scalar so far.** -/
structure BlockText where
  read : String
  /-- The break at the end of the last line with text. -/
  lineBreak : String
  /-- Breaks of the empty lines after it. -/
  emptyLines : String
  /-- Whether the last line with text started with a blank. -/
  startedBlank : Bool
  inLine : Bool

namespace BlockText

def empty : BlockText := ⟨"", "", "", false, false⟩

/-- Starts a line with its first symbol.  A folded break between two lines that both start with
text is a space, or nothing before empty lines. -/
def startLine (t : BlockText) (folded : Bool) (s : Symbol) : BlockText :=
  let joint :=
    if folded && t.lineBreak = "\n" && !t.startedBlank && !s.isBlank then
      (if t.emptyLines.isEmpty then " " else "")
    else t.lineBreak
  { read := (t.read ++ joint ++ t.emptyLines).push s.char, lineBreak := "", emptyLines := ""
    startedBlank := s.isBlank, inLine := true }

/-- The whole text, with the breaks at its end treated as asked. -/
def finish (t : BlockText) (c : Chomping) : String :=
  match c with
  | .strip => t.read
  | .clip => t.read ++ t.lineBreak
  | .keep => t.read ++ t.lineBreak ++ t.emptyLines

end BlockText

/-- **Reads the lines of a block scalar** that are indented to a column. -/
def readBlockLines (folded : Bool) (chomping : Chomping) (indent : Nat) (t : BlockText) :
    List Symbol → Option (String × List Symbol)
  | [] => some (t.finish chomping, [])
  | s :: rest =>
    let go (t : BlockText) := readBlockLines folded chomping indent t rest
    if t.inLine then
      if s.isEnd then some (t.finish chomping, s :: rest)
      else if s.isBreak then go { t with lineBreak := s.char.toString, inLine := false }
      else go { t with read := t.read.push s.char }
    else if s.column < indent && s.char = ' ' then go t
    else if s.column < indent && s.char = '\t' then none
    else if s.isBreak then go { t with emptyLines := t.emptyLines.push s.char }
    else if s.column = indent && !s.isEnd then go (t.startLine folded s)
    else some (t.finish chomping, s :: rest)

/-- **Reads a block scalar,** from after its indicator on, in surroundings indented to `outer`. -/
def readBlockScalar (folded : Bool) (outer : Int) (symbols : List Symbol) :
    Option (String × List Symbol) := do
  let (head, rest) ← readBlockHead symbols
  let indent ← match head.increment with
    | some n => some (if 0 ≤ outer then outer.toNat + n else n)
    | none => (textColumn 0 rest).map fun column => max (max column (outer + 1).toNat) 1
  readBlockLines folded head.chomping indent .empty rest

end RasterWarp.Yaml
