/-
# From symbols to tokens

`Token.ofText?` cuts a text into tokens, or refuses it.  Two things make this more than cutting:
indentation opens and closes block collections, and a key is recognised only by the colon after
it, so that its token goes in front of tokens that are already there.  `PossibleKey` remembers
where that would be, as long as the colon can still follow: on the same line and not more than
1024 characters on.

Every token takes at least one symbol, so the number of symbols bounds the number of rounds.
-/
import RasterWarp.Yaml.Scalar
import RasterWarp.Yaml.Token

namespace RasterWarp.Yaml

/-! ## 1. State -/

/-- **A place where a key may have started.**  If one is required there, nothing else can be. -/
structure PossibleKey where
  /-- The number of tokens before it. -/
  position : Nat
  required : Bool
  line : Nat
  column : Nat
  index : Nat

/-- Whether a colon at a symbol would come too late for a key. -/
def PossibleKey.isStale (k : PossibleKey) (s : Symbol) : Bool :=
  k.line < s.line || k.index + 1024 < s.index

/-- **The lexer's state.** -/
structure Lexer where
  rest : List Symbol
  /-- In how many brackets the text stands. -/
  flowLevel : Nat
  /-- The column of the innermost block collection, or `-1`. -/
  indent : Int
  /-- Those of the collections around it. -/
  outer : List Int
  keyAllowed : Bool
  /-- Where a key may have started, by bracket from the inside. -/
  keys : List (Option PossibleKey)
  tokens : Array Token

namespace Lexer

def start (symbols : List Symbol) : Lexer := ⟨symbols, 0, -1, [], true, [none], #[]⟩

variable (l : Lexer)

def inFlow : Bool := 0 < l.flowLevel

/-- The symbol at the current place. -/
def here : Symbol := l.rest.headD ⟨endChar, 0, 0, 0⟩

def emit (t : Token) : Lexer := { l with tokens := l.tokens.push t }

def skip (n : Nat) : Lexer := { l with rest := l.rest.drop n }

/-! ## 2. Indentation and possible keys -/

/-- Opens a block collection at a column, if it is further in than the one around it; its token
goes to a position among the tokens. -/
def openBlock (column : Nat) (position : Nat) (t : Token) : Lexer :=
  if !l.inFlow && l.indent < column then
    { l with
      outer := l.indent :: l.outer
      indent := column
      tokens := (l.tokens.extract 0 position).push t ++ l.tokens.extract position l.tokens.size }
  else l

/-- Closes the block collections that are further in than a column. -/
def closeBlocks (column : Int) : Lexer :=
  if l.inFlow then l else
    let levels := l.indent :: l.outer
    let closed := levels.takeWhile (column < ·)
    let left := levels.dropWhile (column < ·)
    { l with
      indent := left.headD (-1)
      outer := left.drop 1
      tokens := l.tokens ++ Array.replicate closed.length Token.blockEnd }

/-- The innermost place for a key is given up, unless a key is required there. -/
def dropKey : Option Lexer :=
  match l.keys with
  | some k :: rest => if k.required then none else some { l with keys := none :: rest }
  | _ => some l

/-- A key may start here, if one is allowed. -/
def saveKey : Option Lexer :=
  if l.keyAllowed then do
    let s := l.here
    let key : PossibleKey :=
      { position := l.tokens.size
        required := !l.inFlow && l.indent = s.column
        line := s.line, column := s.column, index := s.index }
    let l ← l.dropKey
    return { l with keys := some key :: l.keys.drop 1 }
  else some l

/-- Gives up the places for keys for which a colon would now come too late. -/
def dropStaleKeys : Option Lexer :=
  let stale (k : Option PossibleKey) : Bool := k.any (·.isStale l.here)
  if l.keys.any fun k => stale k && k.any (·.required) then none
  else some { l with keys := l.keys.map fun k => if stale k then none else k }

/-! ## 3. Blanks and comments -/

/-- Passes over blanks, comments and line breaks.  Outside brackets a key may start on a new line,
and tabs do not count as blanks where one may.  A byte order mark may start a line; it takes a
column. -/
def passBlanks (inFlow : Bool) (keyAllowed comment : Bool) : List Symbol → Bool × List Symbol
  | [] => (keyAllowed, [])
  | s :: rest =>
    if s.isBreak then passBlanks inFlow (keyAllowed || !inFlow) false rest
    else if s.isEnd then (keyAllowed, s :: rest)
    else if comment then passBlanks inFlow keyAllowed true rest
    else if s.char = ' ' || (s.char = '\t' && (inFlow || !keyAllowed)) then
      passBlanks inFlow keyAllowed false rest
    else if s.char = '#' then passBlanks inFlow keyAllowed true rest
    else if s.char = '\uFEFF' && s.column = 0 then passBlanks inFlow keyAllowed false rest
    else (keyAllowed, s :: rest)

/-- Goes on to where the next token starts. -/
def toNextToken : Lexer :=
  let (keyAllowed, rest) := passBlanks l.inFlow l.keyAllowed false l.rest
  { l with keyAllowed, rest }

/-! ## 4. Directives, anchors and tags -/

/-- Characters of names. -/
def isNameChar (c : Char) : Bool := c.isAlphanum || c = '_' || c = '-'

/-- The characters that symbols start with, as long as they are of a class, and the rest. -/
def span (p : Char → Bool) (symbols : List Symbol) : String × List Symbol :=
  (String.ofList ((symbols.takeWhile fun s => p s.char).map (·.char)),
    symbols.dropWhile fun s => p s.char)

def skipBlanks (symbols : List Symbol) : List Symbol := symbols.dropWhile (·.isBlank)

/-- A part of a version number, of up to nine digits. -/
def versionPart? (symbols : List Symbol) : Option (Nat × List Symbol) :=
  let (digits, rest) := span Char.isDigit symbols
  if digits.isEmpty || 9 < digits.length then none else some (Numeral.natural digits.toList, rest)

/-- Characters of tags; commas and brackets only where a tag is written out. -/
def isTagChar (writtenOut : Bool) (c : Char) : Bool :=
  isNameChar c || (";/?:@&=+$.%!~*'()".toList.contains c)
    || (writtenOut && (c = ',' || c = '[' || c = ']'))

/-- The number of bytes of a character by its first byte. -/
def byteCount? (first : Nat) : Option Nat :=
  if first < 0x80 then some 1
  else if first / 32 = 6 then some 2
  else if first / 16 = 14 then some 3
  else if first / 8 = 30 then some 4
  else none

/-- Decodes bytes written as a percent sign and two digits.  `due` counts the bytes still to come
of a character; each byte is kept as it is. -/
def percentDecode? (due : Nat) : List Char → Option (List Char)
  | [] => if due = 0 then some [] else none
  | '%' :: a :: b :: rest => do
    let byte := 16 * (← Numeral.digit? 16 a) + (← Numeral.digit? 16 b)
    let due ← if due = 0 then (byteCount? byte).map (· - 1)
      else if byte / 64 = 2 then some (due - 1) else none
    return Char.ofNat byte :: (← percentDecode? due rest)
  | c :: rest => if due = 0 ∧ c ≠ '%' then (percentDecode? 0 rest).map (c :: ·) else none

/-- The suffix of a tag, after what was read of it already.  What is decoded counts up to the first
null character. -/
def tagSuffix? (writtenOut : Bool) (head : List Char) (mayBeEmpty : Bool)
    (symbols : List Symbol) : Option (String × List Symbol) := do
  let (raw, rest) := span (isTagChar writtenOut) symbols
  if raw.isEmpty && !mayBeEmpty then none
  else
    let decoded ← percentDecode? 0 raw.toList
    return (String.ofList (head ++ decoded.takeWhile (· ≠ endChar)), rest)

/-- The start of a tag: an exclamation mark, and a name with another mark if it is a handle. -/
def tagHandle? (symbols : List Symbol) : Option (String × List Symbol) :=
  if charAt symbols 0 = '!' then
    let (name, rest) := span isNameChar (symbols.drop 1)
    if charAt rest 0 = '!' then some ("!" ++ name ++ "!", rest.drop 1)
    else some ("!" ++ name, rest)
  else none

/-- A line that starts with a percent sign: the version of the format, or a handle for tags. -/
def directive (l : Lexer) : Option Lexer := do
  let (name, rest) := span isNameChar (l.rest.drop 1)
  if name.isEmpty || !endsWordAt rest 0 then none
  else
    let (token, rest) ←
      if name = "YAML" then do
        let (major, rest) ← versionPart? (skipBlanks rest)
        if charAt rest 0 ≠ '.' then none
        else
          let (minor, rest) ← versionPart? (rest.drop 1)
          pure (Token.version major minor, rest)
      else if name = "TAG" then do
        let (handle, rest) ← tagHandle? (skipBlanks rest)
        if !(handle = "!" || handle.endsWith "!") || !isBlankChar (charAt rest 0) then none
        else
          let (expansion, rest) ← tagSuffix? true [] false (skipBlanks rest)
          if !endsWordAt rest 0 then none else pure (Token.tagShorthand handle expansion, rest)
      else none
    let rest ← endLine? false (skipBlanks rest)
    let l ← (l.closeBlocks (-1)).dropKey
    return { (l.emit token) with rest, keyAllowed := false }

/-- A name given to a node, or the name of a node given before. -/
def reference (l : Lexer) (make : String → Token) : Option Lexer := do
  let l ← l.saveKey
  let (name, rest) := span isNameChar (l.rest.drop 1)
  let ended := endsWordAt rest 0 || "?:,]\x7d%@\x60".toList.contains (charAt rest 0)
  if name.isEmpty || !ended then none
  else return { (l.emit (make name)) with rest, keyAllowed := false }

/-- A tag: written out between angle brackets, or as a handle and a suffix. -/
def tagParts? (symbols : List Symbol) : Option ((String × String) × List Symbol) :=
  if charAt symbols 1 = '<' then do
    let (suffix, rest) ← tagSuffix? true [] false (symbols.drop 2)
    if charAt rest 0 = '>' then return (("", suffix), rest.drop 1) else none
  else do
    let (handle, rest) ← tagHandle? symbols
    if 1 < handle.length && handle.endsWith "!" then
      let (suffix, rest) ← tagSuffix? false [] false rest
      return ((handle, suffix), rest)
    else
      let (suffix, rest) ← tagSuffix? false (handle.toList.drop 1) true rest
      return (if suffix.isEmpty then ("", "!") else ("!", suffix), rest)

def tag (l : Lexer) : Option Lexer := do
  let l ← l.saveKey
  let ((handle, suffix), rest) ← tagParts? l.rest
  if !((l.inFlow && charAt rest 0 = ',') || endsWordAt rest 0) then none
  else return { (l.emit (.tag handle suffix)) with rest, keyAllowed := false }

/-! ## 5. Collections, keys and scalars -/

def documentMark (l : Lexer) (t : Token) : Option Lexer := do
  let l ← (l.closeBlocks (-1)).dropKey
  return { ((l.emit t).skip 3) with keyAllowed := false }

def openFlow (l : Lexer) (t : Token) : Option Lexer := do
  let l ← l.saveKey
  return { ((l.emit t).skip 1) with
    flowLevel := l.flowLevel + 1, keys := none :: l.keys, keyAllowed := true }

def closeFlow (l : Lexer) (t : Token) : Option Lexer := do
  let l ← l.dropKey
  return { ((l.emit t).skip 1) with
    flowLevel := l.flowLevel - 1
    keys := if l.inFlow then l.keys.drop 1 else l.keys
    keyAllowed := false }

def flowEntry (l : Lexer) : Option Lexer := do
  let l ← l.dropKey
  return { ((l.emit .flowEntry).skip 1) with keyAllowed := true }

def blockEntry (l : Lexer) : Option Lexer := do
  if !l.inFlow && !l.keyAllowed then none
  else
    let l ← (l.openBlock l.here.column l.tokens.size .blockSequenceStart).dropKey
    return { ((l.emit .blockEntry).skip 1) with keyAllowed := true }

def explicitKey (l : Lexer) : Option Lexer := do
  if !l.inFlow && !l.keyAllowed then none
  else
    let l ← (l.openBlock l.here.column l.tokens.size .blockMappingStart).dropKey
    return { ((l.emit .key).skip 1) with keyAllowed := !l.inFlow }

/-- A colon makes a key of what may have been one, and opens the mapping it is in. -/
def value (l : Lexer) : Option Lexer :=
  match l.keys with
  | some k :: rest =>
    let tokens := (l.tokens.extract 0 k.position).push .key
      ++ l.tokens.extract k.position l.tokens.size
    let l := { l with tokens, keys := none :: rest, keyAllowed := false }
    some (((l.openBlock k.column k.position .blockMappingStart).emit .value).skip 1)
  | _ =>
    if !l.inFlow && !l.keyAllowed then none
    else
      let l := l.openBlock l.here.column l.tokens.size .blockMappingStart
      some { ((l.emit .value).skip 1) with keyAllowed := !l.inFlow }

def blockScalar (l : Lexer) (style : Style) : Option Lexer := do
  let l ← l.dropKey
  let (text, rest) ← readBlockScalar (style = .folded) l.indent (l.rest.drop 1)
  return { (l.emit (.scalar style text)) with rest, keyAllowed := true }

def quotedScalar (l : Lexer) (single : Bool) : Option Lexer := do
  let l ← l.saveKey
  let (text, rest) ← readQuoted single "" .none .nothing (l.rest.drop 1)
  return { (l.emit (.scalar .quoted text)) with rest, keyAllowed := false }

def plainScalar (l : Lexer) : Option Lexer := do
  let l ← l.saveKey
  let (text, broken, rest) ← readPlain l.inFlow (l.indent + 1) "" .none l.rest
  return { (l.emit (.scalar .plain text)) with rest, keyAllowed := broken }

/-- The end of the text closes everything but brackets. -/
def finish (l : Lexer) : Option (Array Token) := do
  let l ← (l.closeBlocks (-1)).dropKey
  return l.tokens.push .textEnd

/-! ## 6. The next token -/

/-- Characters that start no plain scalar by themselves. -/
def isIndicator (c : Char) : Bool := "-?:,[]\x7b\x7d#&*!|>'\"%@\x60".toList.contains c

/-- Whether a plain scalar starts here: a dash, and outside brackets a question mark or colon, may
start one if a word goes on after it. -/
def startsPlain (l : Lexer) : Bool :=
  let c := l.here.char
  let next := charAt l.rest 1
  (!l.here.endsWord && !isIndicator c)
    || (c = '-' && !isBlankChar next)
    || (!l.inFlow && (c = '?' || c = ':') && !endsWordAt l.rest 1)

/-- **Takes the token that starts here.** -/
def next (l : Lexer) : Option Lexer :=
  let c := l.here.char
  let marked := endsWordAt l.rest 1
  let firstColumn := l.here.column = 0
  if firstColumn && c = '%' then l.directive
  else if marks '-' l.rest then l.documentMark .documentStart
  else if marks '.' l.rest then l.documentMark .documentEnd
  else if c = '[' then l.openFlow .flowSequenceStart
  else if c = '\x7b' then l.openFlow .flowMappingStart
  else if c = ']' then l.closeFlow .flowSequenceEnd
  else if c = '\x7d' then l.closeFlow .flowMappingEnd
  else if c = ',' then l.flowEntry
  else if c = '-' && marked then l.blockEntry
  else if c = '?' && (l.inFlow || marked) then l.explicitKey
  else if c = ':' && (l.inFlow || marked) then l.value
  else if c = '*' then l.reference .alias
  else if c = '&' then l.reference .anchor
  else if c = '!' then l.tag
  else if c = '|' && !l.inFlow then l.blockScalar .literal
  else if c = '>' && !l.inFlow then l.blockScalar .folded
  else if c = '\'' then l.quotedScalar true
  else if c = '"' then l.quotedScalar false
  else if l.startsPlain then l.plainScalar
  else none

/-- Takes tokens to the end of the text, in at most `fuel` rounds. -/
def run : Nat → Lexer → Option (Array Token)
  | 0, _ => none
  | fuel + 1, l => do
    let l ← l.toNextToken.dropStaleKeys
    let l := l.closeBlocks l.here.column
    if l.here.isEnd then l.finish else run fuel (← l.next)

end Lexer

/-- **The tokens of a text.** -/
def Token.ofText? (text : String) : Option (List Token) := do
  let symbols ← Symbol.ofText? text
  let tokens ← (Lexer.start symbols).run (symbols.length + 1)
  return tokens.toList

end RasterWarp.Yaml
