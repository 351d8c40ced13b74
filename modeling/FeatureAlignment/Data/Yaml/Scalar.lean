import FeatureAlignment.Data.Yaml.Spot

/-!
# The scalars of YAML

The three families of scalars, each read character by character from its first
character on. Line ends inside a scalar are folded: a single one becomes a
space, and of several the first is dropped.

* `Yaml.quotedText` reads a scalar in single or double quotes.
* `Yaml.plainText` reads a scalar without quotes.
* `Yaml.blockText?` reads a literal or folded block.
-/

namespace FeatureAlignment

namespace Yaml

/-- **White space inside a scalar** that is not written yet: blanks, or, once a
line has ended, the first line end and the ones after it. Lists are reversed. -/
structure Gap where
  spaces : List Char
  broken : Bool
  first : List Char
  more : List Char

namespace Gap

/-- Nothing pending. -/
def none : Gap := ⟨[], false, [], []⟩

/-- One more blank; blanks at the start of a line do not count. -/
def blank (g : Gap) (c : Char) : Gap :=
  if g.broken then g else { g with spaces := c :: g.spaces }

/-- One more line end; blanks before it do not count. -/
def lineEnd (g : Gap) (c : Char) : Gap :=
  if g.broken then { g with more := c :: g.more } else ⟨[], true, [c], []⟩

/-- **Folding**: write what is pending behind the reversed text `done`. -/
def fold (g : Gap) (done : List Char) : List Char :=
  if g.broken then
    if g.first == ['\n'] then
      if g.more.isEmpty then ' ' :: done else g.more ++ done
    else g.more ++ g.first ++ done
  else g.spaces ++ done

end Gap

/-- The character that a one-letter escape stands for. -/
def escaped? (c : Char) : Option Char :=
  match c with
  | '0' => some '\x00'
  | 'a' => some '\x07'
  | 'b' => some '\x08'
  | 't' => some '\t'
  | '\t' => some '\t'
  | 'n' => some '\n'
  | 'v' => some '\x0b'
  | 'f' => some '\x0c'
  | 'r' => some '\r'
  | 'e' => some '\x1b'
  | ' ' => some ' '
  | '"' => some '"'
  | '/' => some '/'
  | '\\' => some '\\'
  | 'N' => some '\x85'
  | '_' => some '\xa0'
  | 'L' => some '\u2028'
  | 'P' => some '\u2029'
  | _ => none

/-- How many hexadecimal digits an escape takes. -/
def escapeWidth? (c : Char) : Option Nat :=
  match c with
  | 'x' => some 2
  | 'u' => some 4
  | 'U' => some 8
  | _ => none

/-- The value of a hexadecimal digit. -/
def hexValue? (c : Char) : Option Nat :=
  if c.isDigit then some (c.toNat - '0'.toNat)
  else if 'a' ≤ c ∧ c ≤ 'f' then some (c.toNat - 'a'.toNat + 10)
  else if 'A' ≤ c ∧ c ≤ 'F' then some (c.toNat - 'A'.toNat + 10)
  else none

/-- The character with this code, surrogates excluded. -/
def character? (n : Nat) : Option Char :=
  if n < 0xD800 ∨ (0xE000 ≤ n ∧ n < 0x110000) then some (Char.ofNat n) else none

/-- **Where a quoted scalar stands**: in its text, behind a single quote that may
be the first of two, behind a backslash, or among hexadecimal digits. -/
inductive QuotedPlace
  | text
  | quote
  | backslash
  | digits (left : Nat) (value : Nat)

/-- **A quoted scalar**, from behind its opening quote on: its characters and
what follows the closing quote. -/
def quotedText (double : Bool) :
    QuotedPlace → List Char → Gap → List Spot → Option (List Char × List Spot)
  | .quote, done, _, [] => some (done.reverse, [])
  | _, _, _, [] => none
  | .quote, done, gap, s :: rest =>
    if s.char == '\'' then quotedText double .text ('\'' :: done) gap rest
    else some (done.reverse, s :: rest)
  | .backslash, done, gap, s :: rest =>
    if isBreak s.char then quotedText double .text done ⟨[], true, [], []⟩ rest
    else
      match escapeWidth? s.char with
      | some width => quotedText double (.digits width 0) done gap rest
      | none =>
        match escaped? s.char with
        | some c => quotedText double .text (c :: done) gap rest
        | none => none
  | .digits left value, done, gap, s :: rest =>
    match hexValue? s.char with
    | none => none
    | some d =>
      let value := value * 16 + d
      if left ≤ 1 then
        match character? value with
        | some c => quotedText double .text (c :: done) gap rest
        | none => none
      else quotedText double (.digits (left - 1) value) done gap rest
  | .text, done, gap, s :: rest =>
    if isBlank s.char then quotedText double .text done (gap.blank s.char) rest
    else if isBreak s.char then quotedText double .text done (gap.lineEnd s.char) rest
    else if anyDocumentMark (s :: rest) then none
    else
      let done := gap.fold done
      if double && s.char == '"' then some (done.reverse, rest)
      else if double && s.char == '\\' then quotedText double .backslash done .none rest
      else if !double && s.char == '\'' then quotedText double .quote done .none rest
      else quotedText double .text (s.char :: done) .none rest

/-- **A plain scalar**: its characters, whether a line ended behind the last of
them, and what follows. Outside flow collections it ends before a line that is
indented less than `indent`. -/
def plainText (inFlow : Bool) (indent : Int) (started runStart : Bool) (done : List Char) (gap : Gap) :
    List Spot → Option (List Char × Bool × List Spot)
  | [] => some (done.reverse, gap.broken, [])
  | s :: rest =>
    if isBlank s.char then
      if gap.broken && s.char == '\t' && (s.column : Int) < indent then none
      else plainText inFlow indent true true done (gap.blank s.char) rest
    else if isBreak s.char then
      plainText inFlow indent true true done (gap.lineEnd s.char) rest
    else if runStart && ((started && !inFlow && (s.column : Int) < indent) ||
        anyDocumentMark (s :: rest) || s.char == '#') then
      some (done.reverse, gap.broken, s :: rest)
    else if inFlow && s.char == ':' && ahead [',', '?', '[', ']', '\x7b', '\x7d'] rest then none
    else if (s.char == ':' && blankAhead rest) ||
        (inFlow && [',', '[', ']', '\x7b', '\x7d'].contains s.char) then
      some (done.reverse, gap.broken, s :: rest)
    else plainText inFlow indent true false (s.char :: gap.fold done) .none rest

/-- What happens to the line ends behind the last line of a block: all are
dropped, one is kept, or all are kept. -/
inductive Chomping
  | strip
  | clip
  | keep
  deriving DecidableEq

/-- The mark for chomping. -/
def chomping? (c : Char) : Option Chomping :=
  if c == '-' then some .strip else if c == '+' then some .keep else none

/-- The digit that fixes the indentation; zero is none. -/
def increment? (c : Char) : Option Nat :=
  if c.isDigit && c ≠ '0' then some (c.toNat - '0'.toNat) else none

/-- The header of a block: chomping, explicit indentation, and what follows. -/
def blockHeader : List Spot → Chomping × Option Nat × List Spot
  | [] => (.clip, none, [])
  | a :: rest =>
    match chomping? a.char with
    | some mode =>
      match rest with
      | b :: more =>
        match increment? b.char with
        | some n => (mode, some n, more)
        | none => (mode, none, rest)
      | [] => (mode, none, [])
    | none =>
      match increment? a.char with
      | some n =>
        match rest with
        | b :: more =>
          match chomping? b.char with
          | some mode => (mode, some n, more)
          | none => (.clip, some n, rest)
        | [] => (.clip, some n, [])
      | none => (.clip, none, a :: rest)

/-- **The text of a block so far**, reversed, with the line end behind its last
line, the empty lines after that, and whether the last line began with a blank. -/
structure Block where
  done : List Char
  lineEnd : List Char
  empty : List Char
  indented : Bool

/-- A new line of a block begins. In a folded block a single line end between
lines that do not begin with a blank becomes a space, or gives way to the empty
lines after it. -/
def Block.beginLine (literal : Bool) (b : Block) (c : Char) : Block :=
  let folds := !literal && b.lineEnd == ['\n'] && !b.indented && !isBlank c
  let done :=
    if folds then if b.empty.isEmpty then ' ' :: b.done else b.done
    else b.lineEnd ++ b.done
  ⟨b.empty ++ done, [], [], isBlank c⟩

/-- The finished text of a block. -/
def Block.finish (mode : Chomping) (b : Block) : List Char :=
  let done := if mode == .strip then b.done else b.lineEnd ++ b.done
  (if mode == .keep then b.empty ++ done else done).reverse

/-- **The lines of a block.** `indent` is its indentation once known, `outer` the
smallest it can be; `widest` is the deepest column among blank lines so far;
`inLine` tells whether a line has begun. -/
def blockLines (literal : Bool) (mode : Chomping) (outer : Nat) (indent : Option Nat) (widest : Nat)
    (inLine : Bool) (b : Block) : List Spot → Option (List Char × List Spot)
  | [] => some (b.finish mode, [])
  | s :: rest =>
    if inLine then
      if isBreak s.char then
        blockLines literal mode outer indent 0 false { b with lineEnd := [s.char] } rest
      else blockLines literal mode outer indent 0 true { b with done := s.char :: b.done } rest
    else
      let shallow := indent.all (s.column < ·)
      if shallow && s.char == ' ' then
        blockLines literal mode outer indent widest false b rest
      else if shallow && s.char == '\t' then none
      else
        let widest := max widest s.column
        if isBreak s.char then
          blockLines literal mode outer indent widest false { b with empty := s.char :: b.empty } rest
        else
          let indent := indent.getD (max widest outer)
          if s.column = indent then
            let b := b.beginLine literal s.char
            blockLines literal mode outer (some indent) 0 true { b with done := s.char :: b.done } rest
          else some (b.finish mode, s :: rest)

/-- **A block scalar**, from behind its indicator on, where the surrounding
collection is indented by `parent` (negative at the top). -/
def blockText? (literal : Bool) (parent : Int) (spots : List Spot) :
    Option (List Char × List Spot) := do
  let (mode, increment, rest) := blockHeader spots
  let rest ← endOfLine? rest
  let indent := increment.map (fun n => (max parent 0).toNat + n)
  blockLines literal mode (max (parent + 1) 1).toNat indent 0 false ⟨[], [], [], false⟩ rest

end Yaml

end FeatureAlignment
