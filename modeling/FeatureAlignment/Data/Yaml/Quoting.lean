import FeatureAlignment.Data.Scalar
import FeatureAlignment.Data.Yaml.Spot

/-!
# Writing YAML scalars

A text is written in the first of four styles that suits it: bare, in single
quotes, as a literal block, or in double quotes with escapes.

* `Yaml.style` chooses the style.
* `Yaml.scalarText` writes the text, given the indentation of its further lines.
-/

namespace FeatureAlignment

namespace Yaml

/-- **The styles of a scalar.** -/
inductive Style
  | bare
  | single
  | double
  | literal
  deriving DecidableEq, Repr

/-- Whether a character can be written as it is. -/
def isPrintable (c : Char) : Bool :=
  let n := c.toNat
  n == 10 || (0x20 ≤ n && n ≤ 0x7E) || (0xA0 ≤ n && n ≤ 0xD7FF) ||
    (0xE000 ≤ n && n ≤ 0xFFFD && n != 0xFEFF) || 0x10000 ≤ n

/-- The characters that end a line for a writer. -/
def endsLine (c : Char) : Bool := isBreak c || c == '\r' || c == '\x85'

/-- Whether a blank or the end of the text comes first. -/
def blankFirst : List Char → Bool
  | [] => true
  | c :: _ => isBlank c || endsLine c

/-- The characters with which no bare text begins. -/
def isOpening (c : Char) : Bool :=
  ['#', ',', '[', ']', '\x7b', '\x7d', '&', '*', '!', '|', '>', '\'', '"', '%', '@', '\x60'].contains c

/-- Whether a text begins like something else than a bare scalar. -/
def opensOtherwise : List Char → Bool
  | [] => false
  | '-' :: '-' :: '-' :: _ => true
  | '.' :: '.' :: '.' :: _ => true
  | c :: rest => isOpening c || ((c == '?' || c == ':' || c == '-') && blankFirst rest)

/-- Whether a colon before a blank, or a number sign behind one, comes later on. -/
def breaksOff : List Char → Bool
  | [] => false
  | [_] => false
  | c :: d :: rest =>
    (d == ':' && blankFirst rest) || (d == '#' && (isBlank c || endsLine c)) || breaksOff (d :: rest)

/-- Whether two neighbouring characters satisfy the two predicates. -/
def hasPair (p q : Char → Bool) : List Char → Bool
  | c :: d :: rest => (p c && q d) || hasPair p q (d :: rest)
  | _ => false

/-- Whether a space or a line end comes first or last. -/
def hasBareEdge (cs : List Char) : Bool :=
  let isEdge (c : Char) : Bool := c == ' ' || endsLine c
  cs.head?.any isEdge || cs.getLast?.any isEdge

/-- Whether a text can be written bare. -/
def allowsBare (cs : List Char) : Bool :=
  cs.all isPrintable && !cs.any endsLine && !hasBareEdge cs && !opensOtherwise cs && !breaksOff cs

/-- Whether a text can be written in single quotes: no line end beside a space. -/
def allowsSingle (cs : List Char) : Bool :=
  cs.all isPrintable && !hasPair endsLine (· == ' ') cs && !hasPair (· == ' ') endsLine cs

/-- Whether a text can be written as a literal block: no line of it, nor the
text, ends in a space. -/
def allowsLiteral (cs : List Char) : Bool :=
  cs.all isPrintable && !hasPair (· == ' ') endsLine cs && cs.getLast? != some ' '

/-- **The style of a text.** With line feeds it is a literal block; quotes keep
a text from being read as a value of another kind. -/
def style (s : String) : Style :=
  let cs := s.toList
  if cs.contains '\n' then if allowsLiteral cs then .literal else .double
  else if !Scalar.looksTyped s && allowsBare cs then .bare
  else if allowsSingle cs then .single
  else .double

/-- The digit of a hexadecimal place, with capital letters. -/
def hexDigit (n : Nat) : Char :=
  if n < 10 then Char.ofNat ('0'.toNat + n) else Char.ofNat ('A'.toNat + n - 10)

/-- The last `width` hexadecimal digits of a number. -/
def hexDigits : Nat → Nat → List Char
  | 0, _ => []
  | width + 1, n => hexDigits width (n / 16) ++ [hexDigit (n % 16)]

/-- A character between double quotes. -/
def escape (c : Char) : List Char :=
  if c == '"' then ['\\', '"']
  else if c == '\\' then ['\\', '\\']
  else if isPrintable c && !endsLine c then [c]
  else
    let n := c.toNat
    if n == 0 then ['\\', '0']
    else if n == 7 then ['\\', 'a']
    else if n == 8 then ['\\', 'b']
    else if n == 9 then ['\\', 't']
    else if n == 10 then ['\\', 'n']
    else if n == 11 then ['\\', 'v']
    else if n == 12 then ['\\', 'f']
    else if n == 13 then ['\\', 'r']
    else if n == 27 then ['\\', 'e']
    else if n == 0x85 then ['\\', 'N']
    else if n == 0x2028 then ['\\', 'L']
    else if n == 0x2029 then ['\\', 'P']
    else if n < 0x100 then '\\' :: 'x' :: hexDigits 2 n
    else if n < 0x10000 then '\\' :: 'u' :: hexDigits 4 n
    else '\\' :: 'U' :: hexDigits 8 n

/-- Characters with every line but the first indented; `fresh` tells whether a
line has just begun. Empty lines stay empty. -/
def indented (indent : Nat) (fresh : Bool) : List Char → List Char
  | [] => []
  | c :: rest =>
    if endsLine c then c :: indented indent true rest
    else if fresh then List.replicate indent ' ' ++ c :: indented indent false rest
    else c :: indented indent false rest

/-- A text in single quotes, each single quote doubled. -/
def singleQuoted (indent : Nat) (cs : List Char) : List Char :=
  let body := indented indent false (cs.flatMap (fun c => if c == '\'' then ['\'', '\''] else [c]))
  let tail := if cs.getLast?.any endsLine then List.replicate indent ' ' else []
  '\'' :: body ++ tail ++ ['\'']

/-- How a literal block treats the line ends behind its last line. -/
def chomping (cs : List Char) : List Char :=
  match cs.reverse with
  | [] => ['-']
  | [c] => if endsLine c then ['+'] else ['-']
  | c :: d :: _ => if !endsLine c then ['-'] else if endsLine d then ['+'] else []

/-- A literal block: its header, then its lines. The indentation is announced
when the text begins with a space or a line end. -/
def literalBlock (indent : Nat) (cs : List Char) : List Char :=
  let hint := if cs.head?.any (fun c => c == ' ' || endsLine c) then ['2'] else []
  '|' :: hint ++ chomping cs ++ '\n' :: indented indent true cs

/-- **A text as a scalar**, its further lines indented. -/
def scalarText (indent : Nat) (s : String) : String :=
  match style s with
  | .bare => s
  | .single => String.ofList (singleQuoted indent s.toList)
  | .double => "\"" ++ String.ofList (s.toList.flatMap escape) ++ "\""
  | .literal => String.ofList (literalBlock indent s.toList)

end Yaml

end FeatureAlignment
