import FeatureAlignment.Text

/-!
# Characters in their places

YAML gives meaning to lines and columns, so a document is read as a list of
characters that know where they stand.

* `Yaml.spots?` places the characters of a text, with every line end as one
  character; texts with control characters have no places.
* The character classes of the format, on a single character or on what is
  ahead.
-/

namespace FeatureAlignment

namespace Yaml

/-- **A character in its place**: its line, its column in that line, and its
index in the text. -/
structure Spot where
  char : Char
  line : Nat
  column : Nat
  index : Nat

/-- Line feed, and the separators of lines and paragraphs. -/
def isBreak (c : Char) : Bool := c == '\n' || c == '\u2028' || c == '\u2029'

/-- Space and tabulator. -/
def isBlank (c : Char) : Bool := c == ' ' || c == '\t'

/-- Whether a document may contain the character. -/
def isAdmitted (c : Char) : Bool :=
  let n := c.toNat
  n == 9 || n == 10 || n == 13 || (0x20 ≤ n && n ≤ 0x7E) || n == 0x85 ||
    (0xA0 ≤ n && n ≤ 0xD7FF) || (0xE000 ≤ n && n ≤ 0xFFFD) || 0x10000 ≤ n

/-- Place characters from a position on. Carriage return, carriage return with
line feed, and the next-line character count as one line feed each. -/
def place (line column index : Nat) : List Char → List Spot
  | [] => []
  | '\r' :: '\n' :: rest => ⟨'\n', line, column, index⟩ :: place (line + 1) 0 (index + 2) rest
  | c :: rest =>
    if c == '\r' || c == '\n' || c == '\x85' then
      ⟨'\n', line, column, index⟩ :: place (line + 1) 0 (index + 1) rest
    else if isBreak c then
      ⟨c, line, column, index⟩ :: place (line + 1) 0 (index + 1) rest
    else ⟨c, line, column, index⟩ :: place line (column + 1) (index + 1) rest

/-- **The characters of a document in their places.** A byte order mark in front is
none of them, but takes the first column. -/
def spots? (s : String) : Option (List Spot) :=
  if s.toList.all isAdmitted then
    match s.toList with
    | '\ufeff' :: rest => some (place 0 1 1 rest)
    | cs => some (place 0 0 0 cs)
  else none

/-- Whether a blank, a line end or the end of the document is ahead. -/
def blankAhead : List Spot → Bool
  | [] => true
  | s :: _ => isBlank s.char || isBreak s.char

/-- Whether a line end or the end of the document is ahead. -/
def breakAhead : List Spot → Bool
  | [] => true
  | s :: _ => isBreak s.char

/-- Whether one of these characters is ahead. -/
def ahead (cs : List Char) : List Spot → Bool
  | [] => false
  | s :: _ => cs.contains s.char

/-- Whether a line that begins or ends a document is ahead. -/
def documentMark (c : Char) : List Spot → Bool
  | a :: b :: d :: rest =>
    a.column == 0 && a.char == c && b.char == c && d.char == c && blankAhead rest
  | _ => false

/-- Either mark of a document. -/
def anyDocumentMark (spots : List Spot) : Bool :=
  documentMark '-' spots || documentMark '.' spots

/-- The longest run of characters in a class, and what follows. -/
def span (p : Char → Bool) : List Spot → List Char × List Spot
  | [] => ([], [])
  | s :: rest =>
    if p s.char then
      let (cs, rest) := span p rest
      (s.char :: cs, rest)
    else ([], s :: rest)

/-- What follows a run of blanks. -/
def dropBlanks (spots : List Spot) : List Spot := (span isBlank spots).2

/-- What follows blanks and a comment, if then the line ends. -/
def endOfLine? (spots : List Spot) : Option (List Spot) :=
  let spots := dropBlanks spots
  let spots := if ahead ['#'] spots then (span (fun c => !isBreak c) spots).2 else spots
  match spots with
  | [] => some []
  | s :: rest => if isBreak s.char then some rest else none

end Yaml

end FeatureAlignment
