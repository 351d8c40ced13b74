import FeatureAlignment.Data.Yaml.Scalar

/-!
# YAML tokens

A document is cut into tokens. Indentation becomes tokens too: a block
collection has a token at its start and one at its end. Whether a scalar is a
key shows only at the colon behind it, so the scanner remembers the places where
a key may have begun and puts the tokens of the key and of its mapping there.

* `Yaml.Scanner.step` takes the next token.
* `Yaml.tokens?` scans a whole document.
-/

namespace FeatureAlignment

namespace Yaml

/-- **A token.** -/
inductive Token
  | versionDirective (major minor : Nat)
  | tagDirective (handle start : String)
  | documentStart
  | documentEnd
  | blockSequenceStart
  | blockMappingStart
  | blockEnd
  | flowSequenceStart
  | flowSequenceEnd
  | flowMappingStart
  | flowMappingEnd
  | blockEntry
  | flowEntry
  | key
  | value
  | alias (name : String)
  | anchor (name : String)
  | tag (handle rest : String)
  | scalar (text : String) (bare : Bool)

/-- **A place where a key may have begun**: the number of tokens before it, and
where it stands. At the indentation of its collection a key is required. -/
structure KeyPlace where
  number : Nat
  required : Bool
  line : Nat
  column : Nat
  index : Nat

/-- **The scanner**: what is ahead, the tokens so far in reverse with their
count, the indentation of the open block collections, the number of open flow
collections, whether a key may begin here, and the possible keys, one for each
open flow collection and one outside. -/
structure Scanner where
  rest : List Spot
  tokens : List Token
  count : Nat
  indent : Int
  indents : List Int
  flow : Nat
  keyAllowed : Bool
  keys : List (Option KeyPlace)

namespace Scanner

/-- The scanner before a document. -/
def start (spots : List Spot) : Scanner := ⟨spots, [], 0, -1, [], 0, true, [none]⟩

/-- Skip blanks, comments and line ends; behind a line end a key may begin. -/
def skipGap (inFlow keyAllowed inComment : Bool) : List Spot → List Spot × Bool
  | [] => ([], keyAllowed)
  | s :: rest =>
    if isBreak s.char then skipGap inFlow (keyAllowed || !inFlow) false rest
    else if inComment then skipGap inFlow keyAllowed true rest
    else if s.char == ' ' || (s.char == '\t' && (inFlow || !keyAllowed)) then
      skipGap inFlow keyAllowed false rest
    else if s.char == '#' then skipGap inFlow keyAllowed true rest
    else (s :: rest, keyAllowed)

/-- Add a token. -/
def push (s : Scanner) (t : Token) : Scanner :=
  { s with tokens := t :: s.tokens, count := s.count + 1 }

/-- Put a token in front of the one with this number. -/
def insert (s : Scanner) (number : Nat) (t : Token) : Scanner :=
  let after := s.count - number
  { s with tokens := s.tokens.take after ++ t :: s.tokens.drop after, count := s.count + 1 }

/-- A block collection begins if the column lies deeper than the open ones; its
token is put in front of the token with this number. -/
def indentTo (s : Scanner) (column number : Nat) (t : Token) : Scanner :=
  if s.flow = 0 ∧ s.indent < column then
    { s.insert number t with indent := column, indents := s.indent :: s.indents }
  else s

/-- The open block collections that lie deeper than the column end. -/
def closeBlocks (column : Int) (indent : Int) : List Int → List Token → Int × List Int × List Token
  | [], tokens => (indent, [], tokens)
  | outer :: indents, tokens =>
    if indent > column then closeBlocks column outer indents (.blockEnd :: tokens)
    else (indent, outer :: indents, tokens)

/-- Block collections deeper than the column end, outside flow collections. -/
def dedentTo (s : Scanner) (column : Int) : Scanner :=
  if s.flow = 0 then
    let (indent, indents, tokens) := closeBlocks column s.indent s.indents s.tokens
    { s with
      indent := indent
      indents := indents
      tokens := tokens
      count := s.count + (s.indents.length - indents.length) }
  else s

/-- Whether a place for a key is too far back: on another line, or more than
1024 characters ago. -/
def isStale (line index : Nat) (k : KeyPlace) : Bool :=
  k.line < line || k.index + 1024 < index

/-- Forget places for keys that are too far back; a required key may not be. -/
def dropStale? (line index : Nat) : List (Option KeyPlace) → Option (List (Option KeyPlace))
  | [] => some []
  | none :: rest => (dropStale? line index rest).map (none :: ·)
  | some k :: rest =>
    if isStale line index k then
      if k.required then none else (dropStale? line index rest).map (none :: ·)
    else (dropStale? line index rest).map (some k :: ·)

/-- Forget the innermost place for a key; a required key may not be forgotten. -/
def forgetKey? (s : Scanner) : Option Scanner :=
  match s.keys with
  | some k :: rest => if k.required then none else some { s with keys := none :: rest }
  | _ => some s

/-- Remember that a key may begin at the spot. -/
def rememberKey? (s : Scanner) (spot : Spot) : Option Scanner :=
  if s.keyAllowed then do
    let s ← s.forgetKey?
    let place : KeyPlace :=
      ⟨s.count, s.flow = 0 ∧ s.indent = spot.column, spot.line, spot.column, spot.index⟩
    some { s with keys := some place :: s.keys.drop 1 }
  else some s

/-- The scanner behind a token that needs no look back. -/
def take (s : Scanner) (t : Token) (keyAllowed : Bool) (rest : List Spot) : Scanner :=
  { s.push t with keyAllowed := keyAllowed, rest := rest }

/-- A flow collection begins. -/
def openFlow? (s : Scanner) (spot : Spot) (t : Token) (rest : List Spot) : Option Scanner := do
  let s ← s.rememberKey? spot
  some ({ s with flow := s.flow + 1, keys := none :: s.keys }.take t true rest)

/-- A flow collection ends. -/
def closeFlow? (s : Scanner) (t : Token) (rest : List Spot) : Option Scanner := do
  let s ← s.forgetKey?
  let keys := if s.flow = 0 then s.keys else s.keys.drop 1
  some ({ s with flow := s.flow - 1, keys := keys }.take t false rest)

/-- An item of a block sequence. -/
def blockEntry? (s : Scanner) (spot : Spot) (rest : List Spot) : Option Scanner := do
  if s.flow = 0 ∧ ¬s.keyAllowed then none
  else
    let s := s.indentTo spot.column s.count .blockSequenceStart
    let s ← s.forgetKey?
    some (s.take .blockEntry true rest)

/-- A key behind a question mark. -/
def explicitKey? (s : Scanner) (spot : Spot) (rest : List Spot) : Option Scanner := do
  if s.flow = 0 ∧ ¬s.keyAllowed then none
  else
    let s := s.indentTo spot.column s.count .blockMappingStart
    let s ← s.forgetKey?
    some (s.take .key (s.flow = 0) rest)

/-- **A colon.** If a key may have begun before it, that was a key. -/
def value? (s : Scanner) (spot : Spot) (rest : List Spot) : Option Scanner :=
  match s.keys with
  | some k :: keys =>
    let s := s.insert k.number .key
    let s := s.indentTo k.column k.number .blockMappingStart
    some ({ s with keys := none :: keys }.take .value false rest)
  | _ =>
    if s.flow = 0 ∧ ¬s.keyAllowed then none
    else
      let s := s.indentTo spot.column s.count .blockMappingStart
      some (s.take .value (s.flow = 0) rest)

/-- The characters of anchors and handles. -/
def isWordChar (c : Char) : Bool := c.isAlphanum || c == '_' || c == '-'

/-- The name of an anchor or alias, from behind its mark on. -/
def anchorName? (spots : List Spot) : Option (String × List Spot) :=
  let (name, rest) := span isWordChar spots
  if name.isEmpty then none
  else if blankAhead rest || ahead ['?', ':', ',', ']', '\x7d', '%', '@', '\x60'] rest then
    some (String.ofList name, rest)
  else none

/-- The characters of a tag. -/
def isTagChar (verbatim : Bool) (c : Char) : Bool :=
  isWordChar c || [';', '/', '?', ':', '@', '&', '=', '+', '$', '.', '!', '~', '*', '\'', '(', ')', '%'].contains c ||
    (verbatim && [',', '[', ']'].contains c)

/-- Undo the percent escapes of a tag, for characters of ASCII. -/
def unescapeTag : List Char → Option (List Char)
  | [] => some []
  | '%' :: a :: b :: rest => do
    let n := (← hexValue? a) * 16 + (← hexValue? b)
    if n < 0x80 then (unescapeTag rest).map (Char.ofNat n :: ·) else none
  | c :: rest => if c == '%' then none else (unescapeTag rest).map (c :: ·)

/-- A tag, from behind its exclamation mark on: its handle, the rest of it, and
what follows. -/
def tag? (inFlow : Bool) (spots : List Spot) : Option (Token × List Spot) := do
  let (handle, rest, spots) ←
    match spots with
    | s :: more =>
      if s.char == '<' then do
        let (cs, spots) := span (isTagChar true) more
        let name ← unescapeTag cs
        match spots with
        | t :: spots => if t.char == '>' && !name.isEmpty then some ([], name, spots) else none
        | [] => none
      else
        let (word, after) := span isWordChar spots
        if ahead ['!'] after then do
          let (cs, spots) := span (isTagChar false) (after.drop 1)
          let name ← unescapeTag cs
          if name.isEmpty then none else some ('!' :: word ++ ['!'], name, spots)
        else do
          let (cs, spots) := span (isTagChar false) spots
          let name ← unescapeTag cs
          if name.isEmpty then some ([], ['!'], spots) else some (['!'], name, spots)
    | [] => some ([], ['!'], [])
  if blankAhead spots || (inFlow && ahead [','] spots) then
    some (.tag (String.ofList handle) (String.ofList rest), spots)
  else none

/-- A directive, from behind its percent sign on. -/
def directive? (spots : List Spot) : Option (Token × List Spot) := do
  let (name, rest) := span isWordChar spots
  if !blankAhead rest then none
  else if name == ['Y', 'A', 'M', 'L'] then
    let (major, rest) := span Char.isDigit (dropBlanks rest)
    if major.isEmpty || !ahead ['.'] rest then none
    else
      let (minor, rest) := span Char.isDigit (rest.drop 1)
      if minor.isEmpty then none
      else
        let rest ← endOfLine? rest
        some (.versionDirective (Text.valueOfDigits major) (Text.valueOfDigits minor), rest)
  else if name == ['T', 'A', 'G'] then
    let rest := dropBlanks rest
    if !ahead ['!'] rest then none
    else
      let (word, after) := span isWordChar (rest.drop 1)
      let (handle, rest) :=
        if ahead ['!'] after then ('!' :: word ++ ['!'], after.drop 1) else ('!' :: word, after)
      if (!word.isEmpty && handle.getLast? ≠ some '!') || !blankAhead rest || breakAhead rest then none
      else
        let (cs, rest) := span (isTagChar true) (dropBlanks rest)
        let uri ← unescapeTag cs
        if uri.isEmpty || !blankAhead rest then none
        else
          let rest ← endOfLine? rest
          some (.tagDirective (String.ofList handle) (String.ofList uri), rest)
  else none

/-- A mark or directive at the start of a line: all block collections end. -/
def topLevel? (s : Scanner) : Option Scanner := (s.dedentTo (-1)).forgetKey?

/-- The characters with which no plain scalar begins. -/
def isIndicator (c : Char) : Bool :=
  ['-', '?', ':', ',', '[', ']', '\x7b', '\x7d', '#', '&', '*', '!', '|', '>', '\'', '"', '%', '@',
    '\x60'].contains c

/-- Whether a plain scalar begins with this character, given what follows it. -/
def plainBegins (inFlow : Bool) (c : Char) (rest : List Spot) : Bool :=
  if c == '-' then !ahead [' ', '\t'] rest
  else if c == '?' || c == ':' then !inFlow && !blankAhead rest
  else !isBlank c && !isIndicator c

/-- **The token that begins at a spot.** -/
def scan? (s : Scanner) (spot : Spot) (rest : List Spot) : Option Scanner := do
  let c := spot.char
  let inFlow : Bool := s.flow ≠ 0
  if spot.column = 0 ∧ c = '%' then
    let s ← s.topLevel?
    let (t, rest) ← directive? rest
    some (s.take t false rest)
  else if documentMark '-' (spot :: rest) then
    let s ← s.topLevel?
    some (s.take .documentStart false (rest.drop 2))
  else if documentMark '.' (spot :: rest) then
    let s ← s.topLevel?
    some (s.take .documentEnd false (rest.drop 2))
  else if c == '[' then s.openFlow? spot .flowSequenceStart rest
  else if c == '\x7b' then s.openFlow? spot .flowMappingStart rest
  else if c == ']' then s.closeFlow? .flowSequenceEnd rest
  else if c == '\x7d' then s.closeFlow? .flowMappingEnd rest
  else if c == ',' then
    let s ← s.forgetKey?
    some (s.take .flowEntry true rest)
  else if c == '-' && blankAhead rest then s.blockEntry? spot rest
  else if c == '?' && (inFlow || blankAhead rest) then s.explicitKey? spot rest
  else if c == ':' && (inFlow || blankAhead rest) then s.value? spot rest
  else if c == '*' then
    let s ← s.rememberKey? spot
    let (name, rest) ← anchorName? rest
    some (s.take (.alias name) false rest)
  else if c == '&' then
    let s ← s.rememberKey? spot
    let (name, rest) ← anchorName? rest
    some (s.take (.anchor name) false rest)
  else if c == '!' then
    let s ← s.rememberKey? spot
    let (t, rest) ← tag? inFlow rest
    some (s.take t false rest)
  else if (c == '|' || c == '>') && !inFlow then
    let s ← s.forgetKey?
    let (cs, rest) ← blockText? (c == '|') s.indent rest
    some (s.take (.scalar (String.ofList cs) false) true rest)
  else if c == '\'' || c == '"' then
    let s ← s.rememberKey? spot
    let (cs, rest) ← quotedText (c == '"') .text [] .none rest
    some (s.take (.scalar (String.ofList cs) false) false rest)
  else if plainBegins inFlow c rest then
    let s ← s.rememberKey? spot
    let (cs, broken, rest) ← plainText inFlow (s.indent + 1) false true [] .none (spot :: rest)
    some (s.take (.scalar (String.ofList cs) true) broken rest)
  else none

/-- The end of the document: all collections end, and no required key is open. -/
def finish? (s : Scanner) : Option Scanner := do
  let s := s.dedentTo (-1)
  let s ← s.forgetKey?
  if s.keys.all (fun k => k.all (!·.required)) then some s else none

/-- **The next token**, or the end. -/
def step? (s : Scanner) : Option Scanner := do
  let (rest, keyAllowed) := skipGap (s.flow ≠ 0) s.keyAllowed false s.rest
  let s := { s with rest := rest, keyAllowed := keyAllowed }
  match rest with
  | [] => s.finish?
  | spot :: rest =>
    let keys ← dropStale? spot.line spot.index s.keys
    ({ s with keys := keys }.dedentTo spot.column).scan? spot rest

/-- Take tokens until nothing is ahead. Every token takes a character, so the
number of characters is enough fuel. -/
def run? : Nat → Scanner → Option Scanner
  | 0, _ => none
  | fuel + 1, s =>
    match s.step? with
    | none => none
    | some next => if s.rest.isEmpty then some next else run? fuel next

end Scanner

/-- **The tokens of a document**, if it can be cut into tokens. -/
def tokens? (s : String) : Option (List Token) := do
  let spots ← spots? s
  let done ← Scanner.run? (spots.length + 2) (.start spots)
  some done.tokens.reverse

end Yaml

end FeatureAlignment
