import FeatureAlignment.Number.Shortest
import FeatureAlignment.Data.Basic

/-!
# Writing JSON

* `Json.compact` writes a tree on one line without spaces.
* `Json.pretty` gives every item a line of its own, indented by two spaces a
  level; empty lists and records stay closed up.

Non-finite numbers are written as null, a tagged value as a record with the tag
as its only key, and every key as a text.
-/

namespace FeatureAlignment

namespace Json

/-- The digit of a hexadecimal place. -/
def hexDigit (n : Nat) : Char :=
  if n < 10 then Char.ofNat ('0'.toNat + n) else Char.ofNat ('a'.toNat + n - 10)

/-- A character inside quotes: the quote, the backslash and control characters
are escaped. -/
def escape (c : Char) : List Char :=
  if c == '"' then ['\\', '"']
  else if c == '\\' then ['\\', '\\']
  else if c == '\x08' then ['\\', 'b']
  else if c == '\x0c' then ['\\', 'f']
  else if c == '\n' then ['\\', 'n']
  else if c == '\r' then ['\\', 'r']
  else if c == '\t' then ['\\', 't']
  else if c.toNat < 0x20 then
    ['\\', 'u', '0', '0', hexDigit (c.toNat / 16), hexDigit (c.toNat % 16)]
  else [c]

/-- A text in quotes. -/
def quote (s : String) : String := "\"" ++ String.ofList (s.toList.flatMap escape) ++ "\""

/-- The text of a number. -/
def number (d : Double) : String := d.jsonNumeral?.getD "null"

/-- The text of a key: keys of other kinds are written as text. -/
def key : Data → String
  | .text s => quote s
  | .integer i => quote (Text.integer i)
  | .double d => quote (number d)
  | .flag b => quote (if b then "true" else "false")
  | .written source _ _ => quote source
  | _ => quote ""

mutual

/-- **One line, no spaces.** -/
def compact : Data → String
  | .null => "null"
  | .flag b => if b then "true" else "false"
  | .integer i => Text.integer i
  | .double d => number d
  | .text s => quote s
  | .list items => "[" ++ Text.join "," (compactItems items) ++ "]"
  | .record fields => "\x7b" ++ Text.join "," (compactFields fields) ++ "\x7d"
  | .written _ _ value => compact value
  | .sequence items => "[" ++ Text.join "," (compactItems items) ++ "]"
  | .unreadable => "null"
  | .tagged tag value => "\x7b" ++ quote tag ++ ":" ++ compact value ++ "\x7d"

/-- The items of a list, each compact. -/
def compactItems : List Data → List String
  | [] => []
  | d :: ds => compact d :: compactItems ds

/-- The fields of a record, each compact. -/
def compactFields : List (Data × Data) → List String
  | [] => []
  | (k, v) :: rest => (key k ++ ":" ++ compact v) :: compactFields rest

end

/-- The start of a line at a depth. -/
def newline (depth : Nat) : String := "\n" ++ Text.replicate (2 * depth) ' '

/-- Pieces on lines of their own between brackets, the brackets at `depth`. -/
def bracket (depth : Nat) (opening closing : String) (pieces : List String) : String :=
  if pieces.isEmpty then opening ++ closing
  else
    opening ++ newline (depth + 1) ++ Text.join ("," ++ newline (depth + 1)) pieces ++
      newline depth ++ closing

mutual

/-- A tree over several lines, its brackets at `depth`. -/
def prettyAt (depth : Nat) : Data → String
  | .null => "null"
  | .flag b => if b then "true" else "false"
  | .integer i => Text.integer i
  | .double d => number d
  | .text s => quote s
  | .list items => bracket depth "[" "]" (prettyItems (depth + 1) items)
  | .record fields => bracket depth "\x7b" "\x7d" (prettyFields (depth + 1) fields)
  | .written _ _ value => prettyAt depth value
  | .sequence items => bracket depth "[" "]" (prettyItems (depth + 1) items)
  | .unreadable => "null"
  | .tagged tag value =>
    bracket depth "\x7b" "\x7d" [quote tag ++ ": " ++ prettyAt (depth + 1) value]

/-- The items of a list, at `depth`. -/
def prettyItems (depth : Nat) : List Data → List String
  | [] => []
  | d :: ds => prettyAt depth d :: prettyItems depth ds

/-- The fields of a record, at `depth`. -/
def prettyFields (depth : Nat) : List (Data × Data) → List String
  | [] => []
  | (k, v) :: rest => (key k ++ ": " ++ prettyAt depth v) :: prettyFields depth rest

end

/-- **Several lines, two spaces a level.** -/
def pretty (d : Data) : String := prettyAt 0 d

end Json

end FeatureAlignment
