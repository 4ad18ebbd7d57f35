/-
# From tokens to a tree

`Document.ofText?` builds the tree of a text that holds one document at most, or refuses the text.
A collection that leaves out a key, a value or an entry has an empty plain scalar there.

Names of nodes are kept by number.  A name takes the count of the names known so far, so a name
that is given again may come to have its number in common with the next new name; whichever node
started last under a number is the one that the number stands for, also for references before it.
-/
import RasterWarp.Yaml.Lexer

namespace RasterWarp.Yaml

/-- **A node of the tree.** -/
inductive Node where
  | scalar (tag : Option String) (style : Style) (text : String)
  | sequence (items : List Node)
  | mapping (entries : List (Node × Node))
  /-- The node under a number. -/
  | reference (number : Nat)

/-- What stands where nothing is written. -/
def Node.blank : Node := .scalar none .plain ""

/-- **A named node:** the number of its name, and the number of named nodes that started before
it. -/
structure Named where
  number : Nat
  order : Nat
  node : Node

/-- **The tree of a text and its named nodes.**  A text without any document has no tree. -/
structure Document where
  root : Option Node
  named : List Named

namespace Document

/-- The node that a number stands for. -/
def target? (d : Document) (number : Nat) : Option Node :=
  let candidates := d.named.filter (·.number = number)
  (candidates.foldl (fun best n =>
    match best with
    | none => some n
    | some b => some (if b.order < n.order then n else b)) (none : Option Named)).map (·.node)

/-- A node, or the node that it refers to. -/
def resolve? (d : Document) : Node → Option Node
  | .reference number => d.target? number
  | node => some node

end Document

/-! ## 1. The reader -/

/-- **What is still to be read, and the names known so far.** -/
structure Reader where
  tokens : List Token
  /-- The number of each name. -/
  numbers : List (String × Nat)
  /-- How many named nodes have started. -/
  started : Nat
  named : List Named
  /-- What handles of tags stand for. -/
  shorthands : List (String × String)

namespace Reader

/-- Handles that need no directive. -/
def defaultShorthands : List (String × String) :=
  [("!", "!"), ("!!", "tag:yaml.org,2002:")]

def start (tokens : List Token) : Reader := ⟨tokens, [], 0, [], defaultShorthands⟩

/-- The token at the current place. -/
def here (r : Reader) : Token := r.tokens.headD .textEnd

def advance (r : Reader) : Reader := { r with tokens := r.tokens.drop 1 }

/-- Goes past a token, if it is there. -/
def expect (r : Reader) (t : Token) : Option Reader := if r.here = t then some r.advance else none

/-- The number that a name gets. -/
def nameNode (r : Reader) (name : String) : Nat × Reader :=
  let count := r.numbers.length
  let numbers := (r.numbers.filter (·.1 ≠ name)) ++ [(name, count)]
  (count, { r with numbers, started := r.started + 1 })

/-- **What may stand before a node:** a name and a tag, in either order. -/
structure Properties where
  anchor : Option String
  tag : Option (String × String)

def properties (r : Reader) : Properties × Reader :=
  match r.here with
  | .anchor a =>
    let r := r.advance
    match r.here with
    | .tag h s => (⟨some a, some (h, s)⟩, r.advance)
    | _ => (⟨some a, none⟩, r)
  | .tag h s =>
    let r := r.advance
    match r.here with
    | .anchor a => (⟨some a, some (h, s)⟩, r.advance)
    | _ => (⟨none, some (h, s)⟩, r)
  | _ => (⟨none, none⟩, r)

/-- The whole of a tag, if its handle is known. -/
def wholeTag? (r : Reader) : Option (String × String) → Option (Option String)
  | none => some none
  | some (handle, suffix) =>
    if handle.isEmpty then some (some suffix)
    else (r.shorthands.lookup handle).map fun expansion => some (expansion ++ suffix)

/-- Whether an entry of a block sequence is left out. -/
def endsEntry (inMapping : Bool) : Token → Bool
  | .blockEntry | .blockEnd => true
  | .key | .value => inMapping
  | _ => false

/-- Whether a key or value of a block mapping is left out. -/
def endsPart : Token → Bool
  | .key | .value | .blockEnd => true
  | _ => false

mutual

/-- **Reads a node,** with its name and tag.  `inBlock` allows block collections, and `inMapping` a
block sequence that is not indented. -/
def node (fuel : Nat) (inBlock inMapping : Bool) (r : Reader) : Option (Node × Reader) :=
  match fuel with
  | 0 => none
  | fuel + 1 =>
    match r.here with
    | .alias name => (r.numbers.lookup name).map fun n => (.reference n, r.advance)
    | _ => do
      let (properties, r) := r.properties
      let tag ← r.wholeTag? properties.tag
      match properties.anchor with
      | none => content fuel inBlock inMapping false tag properties.tag.isSome r
      | some name =>
        let order := r.started
        let (number, r) := r.nameNode name
        let (n, r) ← content fuel inBlock inMapping true tag properties.tag.isSome r
        return (n, { r with named := r.named ++ [⟨number, order, n⟩] })

/-- Reads what follows the name and tag of a node. -/
def content (fuel : Nat) (inBlock inMapping isNamed : Bool) (tag : Option String)
    (isTagged : Bool) (r : Reader) : Option (Node × Reader) :=
  match fuel with
  | 0 => none
  | fuel + 1 =>
    match r.here with
    | .blockEntry =>
      if inMapping then blockEntries fuel true r
      else if isNamed || isTagged then some (.scalar tag .plain "", r)
      else none
    | .scalar style text => some (.scalar tag style text, r.advance)
    | .flowSequenceStart => flowEntries fuel true r.advance
    | .flowMappingStart => flowPairs fuel true r.advance
    | .blockSequenceStart =>
      if inBlock then blockEntries fuel false r.advance
      else if isNamed || isTagged then some (.scalar tag .plain "", r)
      else none
    | .blockMappingStart =>
      if inBlock then blockPairs fuel r.advance
      else if isNamed || isTagged then some (.scalar tag .plain "", r)
      else none
    | _ => if isNamed || isTagged then some (.scalar tag .plain "", r) else none

/-- Reads the entries of a block sequence.  One that is not indented ends where its mapping goes
on. -/
def blockEntries (fuel : Nat) (inMapping : Bool) (r : Reader) : Option (Node × Reader) :=
  match fuel with
  | 0 => none
  | fuel + 1 =>
    match r.here with
    | .blockEntry => do
      let r := r.advance
      let (item, r) ← if endsEntry inMapping r.here then some (Node.blank, r)
        else node fuel true false r
      let (others, r) ← blockEntries fuel inMapping r
      match others with
      | .sequence items => return (.sequence (item :: items), r)
      | _ => none
    | .blockEnd => if inMapping then some (.sequence [], r) else some (.sequence [], r.advance)
    | _ => if inMapping then some (.sequence [], r) else none

/-- Reads the pairs of a block mapping. -/
def blockPairs (fuel : Nat) (r : Reader) : Option (Node × Reader) :=
  match fuel with
  | 0 => none
  | fuel + 1 =>
    match r.here with
    | .blockEnd => some (.mapping [], r.advance)
    | .key => do
      let r := r.advance
      let (k, r) ← if endsPart r.here then some (Node.blank, r) else node fuel true true r
      let (v, r) ← match r.here with
        | .value =>
          let r := r.advance
          if endsPart r.here then some (Node.blank, r) else node fuel true true r
        | _ => some (Node.blank, r)
      let (others, r) ← blockPairs fuel r
      match others with
      | .mapping entries => return (.mapping ((k, v) :: entries), r)
      | _ => none
    | _ => none

/-- Reads the entries of a sequence in brackets.  An entry that is a pair is a mapping of one. -/
def flowEntries (fuel : Nat) (first : Bool) (r : Reader) : Option (Node × Reader) :=
  match fuel with
  | 0 => none
  | fuel + 1 =>
    if r.here = .flowSequenceEnd then some (.sequence [], r.advance)
    else do
      let r ← if first then some r else r.expect .flowEntry
      if r.here = .flowSequenceEnd then return (.sequence [], r.advance)
      else
        let (item, r) ←
          if r.here = .key then flowPair fuel r.advance else node fuel false false r
        let (others, r) ← flowEntries fuel false r
        match others with
        | .sequence items => return (.sequence (item :: items), r)
        | _ => none

/-- Reads the one pair of an entry. -/
def flowPair (fuel : Nat) (r : Reader) : Option (Node × Reader) :=
  match fuel with
  | 0 => none
  | fuel + 1 => do
    let ends (t : Token) : Bool := t = .flowEntry || t = .flowSequenceEnd
    let (k, r) ← if r.here = .value || ends r.here then some (Node.blank, r)
      else node fuel false false r
    if r.here = .value then
      let r := r.advance
      let (v, r) ← if ends r.here then some (Node.blank, r) else node fuel false false r
      return (.mapping [(k, v)], r)
    else return (.mapping [(k, Node.blank)], r)

/-- Reads the pairs of a mapping in braces.  A key may stand without a value. -/
def flowPairs (fuel : Nat) (first : Bool) (r : Reader) : Option (Node × Reader) :=
  match fuel with
  | 0 => none
  | fuel + 1 =>
    if r.here = .flowMappingEnd then some (.mapping [], r.advance)
    else do
      let r ← if first then some r else r.expect .flowEntry
      if r.here = .flowMappingEnd then return (.mapping [], r.advance)
      else
        let ends (t : Token) : Bool := t = .flowEntry || t = .flowMappingEnd
        let ((k, v), r) ←
          if r.here = .key then do
            let r := r.advance
            let (k, r) ← if r.here = .value || ends r.here then some (Node.blank, r)
              else node fuel false false r
            if r.here = .value then
              let r := r.advance
              let (v, r) ← if ends r.here then some (Node.blank, r) else node fuel false false r
              pure ((k, v), r)
            else pure ((k, Node.blank), r)
          else do
            let (k, r) ← node fuel false false r
            pure ((k, Node.blank), r)
        let (others, r) ← flowPairs fuel false r
        match others with
        | .mapping entries => return (.mapping ((k, v) :: entries), r)
        | _ => none

end

/-! ## 2. Documents -/

/-- Reads the directives before a document: one version at most, of a known kind, and no handle
twice. -/
def directives (versionSeen : Bool) (declared : List (String × String)) (r : Reader) :
    List Token → Option Reader
  | .version major minor :: rest =>
    if versionSeen || major ≠ 1 || (minor ≠ 1 && minor ≠ 2) then none
    else directives true declared r rest
  | .tagShorthand handle expansion :: rest =>
    if (declared.lookup handle).isSome then none
    else directives versionSeen ((handle, expansion) :: declared) r rest
  | tokens => some { r with tokens, shorthands := declared ++ defaultShorthands }

/-- Whether a document starts here that is marked as one. -/
def isMarked : Token → Bool
  | .version .. | .tagShorthand .. | .documentStart => true
  | _ => false

/-- Whether a marked document has nothing in it. -/
def endsDocument : Token → Bool
  | .version .. | .tagShorthand .. | .documentStart | .documentEnd | .textEnd => true
  | _ => false

/-- Reads the tree of a document. -/
def tree (r : Reader) : Option (Node × Reader) := do
  let fuel := 4 * r.tokens.length + 4
  if isMarked r.here then
    let r ← directives false [] r r.tokens
    let r ← r.expect .documentStart
    if endsDocument r.here then return (Node.blank, r) else r.node fuel true false
  else r.node fuel true false

/-- Passes over the marks at the end of a document. -/
def passEnds : List Token → List Token
  | .documentEnd :: rest => passEnds rest
  | tokens => tokens

end Reader

/-- **The tree of a text with one document at most.** -/
def Document.ofText? (text : String) : Option Document := do
  let tokens ← Token.ofText? text
  if tokens.head? = some .textEnd then return ⟨none, []⟩
  else
    let (root, r) ← (Reader.start tokens).tree
    if Reader.passEnds r.tokens = [.textEnd] then return ⟨some root, r.named⟩ else none

end RasterWarp.Yaml
