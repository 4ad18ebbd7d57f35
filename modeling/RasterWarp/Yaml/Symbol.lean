/-
# Characters with their places

A settings text is read as a list of symbols: its characters with the line and column where they
stand.  Carriage return, line feed, both in a row and the next-line character are one line feed
each.  The list ends with a symbol of its own, so that every place in the text has one.
-/

namespace RasterWarp.Yaml

/-- **A character and its place.**  `index` counts the characters before it. -/
structure Symbol where
  char : Char
  line : Nat
  column : Nat
  index : Nat

/-- Stands at the end of every text, and nowhere else. -/
def endChar : Char := '\x00'

/-- The characters that a text may have. -/
def isAllowed (c : Char) : Bool :=
  let n := c.toNat
  n = 0x09 || n = 0x0A || n = 0x0D || (0x20 ≤ n && n ≤ 0x7E) || n = 0x85
    || (0xA0 ≤ n && n ≤ 0xD7FF) || (0xE000 ≤ n && n ≤ 0xFFFD) || 0x10000 ≤ n

def isBlankChar (c : Char) : Bool := c = ' ' || c = '\t'

/-- Line breaks as they appear among symbols. -/
def isBreakChar (c : Char) : Bool := c = '\n' || c = '\u2028' || c = '\u2029'

namespace Symbol

def isBlank (s : Symbol) : Bool := isBlankChar s.char

def isBreak (s : Symbol) : Bool := isBreakChar s.char

def isEnd (s : Symbol) : Bool := s.char = endChar

/-- The end of a line, the last one included. -/
def endsLine (s : Symbol) : Bool := s.isBreak || s.isEnd

/-- The end of a word. -/
def endsWord (s : Symbol) : Bool := s.isBlank || s.endsLine

/-- Places characters, from a given place on. -/
def place (line column index : Nat) : List Char → List Symbol
  | [] => [⟨endChar, line, column, index⟩]
  | '\r' :: '\n' :: rest => ⟨'\n', line, column, index⟩ :: place (line + 1) 0 (index + 2) rest
  | c :: rest =>
    if c = '\n' || c = '\r' || c = '\u0085' then
      ⟨'\n', line, column, index⟩ :: place (line + 1) 0 (index + 1) rest
    else if isBreakChar c then
      ⟨c, line, column, index⟩ :: place (line + 1) 0 (index + 1) rest
    else ⟨c, line, column, index⟩ :: place line (column + 1) (index + 1) rest

/-- **The symbols of a text,** unless it has a character that no text may have. -/
def ofText? (text : String) : Option (List Symbol) :=
  let cs := text.toList
  if cs.all isAllowed then some (place 0 0 0 cs) else none

end Symbol

/-- The character that stands `n` places on. -/
def charAt (symbols : List Symbol) (n : Nat) : Char := (symbols[n]?.map (·.char)).getD endChar

/-- Whether a word ends `n` places on. -/
def endsWordAt (symbols : List Symbol) (n : Nat) : Bool :=
  (symbols[n]?.map (·.endsWord)).getD true

/-- Whether three equal marks stand at the start of a line, as a word of their own. -/
def marks (c : Char) (symbols : List Symbol) : Bool :=
  match symbols with
  | a :: b :: d :: rest =>
    a.column = 0 && a.char = c && b.char = c && d.char = c && endsWordAt rest 0
  | _ => false

/-- The start or the end of a document, which no scalar goes across. -/
def atDocumentMark (symbols : List Symbol) : Bool := marks '-' symbols || marks '.' symbols

end RasterWarp.Yaml
