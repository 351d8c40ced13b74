import FeatureAlignment.Number.Shortest
import FeatureAlignment.Data.Yaml.Quoting

/-!
# Writing YAML

Trees are written in block style with two spaces a level; lists are not indented
under their key, empty lists and records are `[]` and the pair of braces.

* `Yaml.afterKey` writes a value behind a colon, `Yaml.afterDash` one behind a
  dash.
* `Yaml.print` writes a whole document, which ends with a line feed.
-/

namespace FeatureAlignment

namespace Yaml

/-- The text of a number. -/
def number : Double → String
  | .nan => ".nan"
  | .infinite false => ".inf"
  | .infinite true => "-.inf"
  | d => d.yamlNumeral?.getD ""

/-- Spaces at the start of a line. -/
def spaces (n : Nat) : String := Text.replicate n ' '

/-- The text with a line end behind it, unless there is one. -/
def endLine (s : String) : String := if s.toList.getLast?.any endsLine then s else s ++ "\n"

/-- A scalar, its further lines indented; other trees have no such text. -/
def scalar (indent : Nat) : Data → String
  | .null => "null"
  | .flag b => if b then "true" else "false"
  | .integer i => Text.integer i
  | .double d => number d
  | .text s => scalarText indent s
  | .written source _ _ => scalarText indent source
  | .list _ => "[]"
  | .sequence _ => "[]"
  | .record _ => "\x7b\x7d"
  | .unreadable => "null"
  | .tagged _ _ => ""

/-- Whether a key fits before its colon: one line of at most 128 bytes. -/
def isSimpleKey : Data → Bool
  | .text s => s.utf8ByteSize ≤ 128 && !s.toList.any endsLine
  | _ => true

/-- Pieces one below the other, each at the column. -/
def stacked (column : Nat) : List String → String
  | [] => ""
  | piece :: pieces => spaces column ++ piece ++ stacked column pieces

/-- Pieces one below the other, the first of which begins where the text stands. -/
def inline (column : Nat) : List String → String
  | [] => ""
  | piece :: pieces => piece ++ stacked column pieces

mutual

/-- **A value behind the colon of a key** at the given column, up to the end of
its last line. -/
def afterKey (column : Nat) : Data → String
  | .list ds => if ds.isEmpty then " []\n" else "\n" ++ stacked column (items column ds)
  | .sequence ds => if ds.isEmpty then " []\n" else "\n" ++ stacked column (items column ds)
  | .record fs =>
    if fs.isEmpty then " \x7b\x7d\n" else "\n" ++ stacked (column + 2) (fields (column + 2) fs)
  | .tagged tag value => " !" ++ tag ++ afterKey column value
  | d => " " ++ endLine (scalar (column + 2) d)

/-- **A value behind a dash** at the given column. Lists and records begin on
the same line. -/
def afterDash (column : Nat) : Data → String
  | .list ds => if ds.isEmpty then " []\n" else " " ++ inline (column + 2) (items (column + 2) ds)
  | .sequence ds => if ds.isEmpty then " []\n" else " " ++ inline (column + 2) (items (column + 2) ds)
  | .record fs =>
    if fs.isEmpty then " \x7b\x7d\n" else " " ++ inline (column + 2) (fields (column + 2) fs)
  | .tagged tag value => " !" ++ tag ++ afterTag column value
  | d => " " ++ endLine (scalar (column + 2) d)

/-- A value behind a dash and a tag. Lists and records begin on a new line. -/
def afterTag (column : Nat) : Data → String
  | .list ds => if ds.isEmpty then " []\n" else "\n" ++ stacked (column + 2) (items (column + 2) ds)
  | .sequence ds =>
    if ds.isEmpty then " []\n" else "\n" ++ stacked (column + 2) (items (column + 2) ds)
  | .record fs =>
    if fs.isEmpty then " \x7b\x7d\n" else "\n" ++ stacked (column + 2) (fields (column + 2) fs)
  | .tagged tag value => " !" ++ tag ++ afterTag column value
  | d => " " ++ endLine (scalar (column + 2) d)

/-- The items of a list, each behind its dash at the column. -/
def items (column : Nat) : List Data → List String
  | [] => []
  | d :: ds => ("-" ++ afterDash column d) :: items column ds

/-- The fields of a record with keys at the column. A key that does not fit
stands behind a question mark. -/
def fields (column : Nat) : List (Data × Data) → List String
  | [] => []
  | (k, v) :: fs =>
    let piece :=
      if isSimpleKey k then scalar (column + 2) k ++ ":" ++ afterKey column v
      else "? " ++ endLine (scalar (column + 2) k) ++ spaces column ++ ":" ++ afterDash column v
    piece :: fields column fs

end

/-- **A document.** -/
def print : Data → String
  | .list ds => if ds.isEmpty then "[]\n" else stacked 0 (items 0 ds)
  | .sequence ds => if ds.isEmpty then "[]\n" else stacked 0 (items 0 ds)
  | .record fs => if fs.isEmpty then "\x7b\x7d\n" else stacked 0 (fields 0 fs)
  | d => endLine (scalar 2 d)

end Yaml

end FeatureAlignment
