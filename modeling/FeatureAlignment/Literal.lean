import FeatureAlignment.Data.Decode
import FeatureAlignment.Expr
import FeatureAlignment.Number.Shortest

/-!
# Literals

A literal is an integer of 64 bits, a double or a text, and its kind matters:
numbers are written bare in expressions, texts in quotes.

* `Literal.display` is the text of a literal.
* `Literal.ofText` reads number-shaped text as a number, provided the number is
  written the same way again.
* `Literal.ofData?` and `Literal.toData` are its form in documents.
-/

namespace FeatureAlignment

/-- **A literal.** -/
inductive Literal
  | integer (i : Int64)
  | double (d : Double)
  | text (s : String)
  deriving BEq, Repr, Inhabited

namespace Literal

/-- Whether the literal is a number. -/
def isNumeric : Literal → Bool
  | .text _ => false
  | _ => true

/-- Whether the literal can be written in the output languages: infinities and
not-a-number cannot. -/
def isFinite : Literal → Bool
  | .double d => d.isFinite
  | _ => true

/-- **The text of a literal.** -/
def display : Literal → String
  | .integer i => Text.integer i.toInt
  | .double d => d.display
  | .text s => s

/-- The literal as an expression: numbers bare, texts quoted. -/
def toExpr : Literal → Expr
  | .text s => .text s
  | l => .number l.display

/-- Digits with at most one point strictly inside. -/
def isUnsignedShape (cs : List Char) : Bool :=
  !cs.isEmpty && cs.all (fun c => c.isDigit || c == '.') && (cs.filter (· == '.')).length ≤ 1 &&
    cs.head? != some '.' && cs.getLast? != some '.'

/-- **Number-shaped text**: an optional minus sign, then digits with at most one
point strictly inside. -/
def isNumberShape : List Char → Bool
  | '-' :: cs => isUnsignedShape cs
  | cs => isUnsignedShape cs

/-- An integer of 64 bits from its decimal text. -/
def integer? (cs : List Char) : Option Int64 :=
  let (negative, digits) :=
    match cs with
    | '-' :: rest => (true, rest)
    | _ => (false, cs)
  if digits.isEmpty || !digits.all Char.isDigit then none
  else
    let n : Int := Text.valueOfDigits digits
    let i := if negative then -n else n
    if -Int.pow 2 63 ≤ i ∧ i < Int.pow 2 63 then some (.ofInt i) else none

/-- **A literal from text.** Number-shaped text is the integer or the double
that is written exactly so; all other text stays text. -/
def ofText (s : String) : Literal :=
  if isNumberShape s.toList then
    let asInteger := (integer? s.toList).filter (fun i => Text.integer i.toInt == s)
    match asInteger with
    | some i => .integer i
    | none =>
      let asDouble := ((Numeral.read? s.toList).map Double.ofNumeral).filter (fun d => d.display == s)
      match asDouble with
      | some d => .double d
      | none => .text s
  else .text s

/-- A literal from a settled tree. Integers beyond 64 bits with sign are doubles. -/
def ofSettled? : Data → Option Literal
  | .integer i =>
    if -Int.pow 2 63 ≤ i ∧ i < Int.pow 2 63 then some (.integer (.ofInt i)) else some (.double (.ofInt i))
  | .double d => some (.double d)
  | .text s => some (.text s)
  | _ => none

/-- A literal from a document. -/
def ofData? (d : Data) : Option Literal := d.settle.bind ofSettled?

/-- A literal in a document. -/
def toData : Literal → Data
  | .integer i => .integer i.toInt
  | .double d => .double d
  | .text s => .text s

end Literal

end FeatureAlignment
