import FeatureAlignment.Data.Basic

/-!
# Bare scalars

What a YAML scalar without quotes denotes under the core schema: null, a
boolean, an integer in four radices, a floating-point number, or else the text
itself.

* `Scalar.resolve` is the value of a bare scalar.
* `Scalar.looksTyped` tells which texts need quotes to stay texts.
-/

namespace FeatureAlignment

namespace Scalar

/-- The words for null. -/
def isNull (s : String) : Bool := s == "null" || s == "Null" || s == "NULL" || s == "~"

/-- The words for the two truth values. -/
def truth? (s : String) : Option Bool :=
  if s == "true" || s == "True" || s == "TRUE" then some true
  else if s == "false" || s == "False" || s == "FALSE" then some false
  else none

/-- The value of a digit in a radix. -/
def digit? (radix : Nat) (c : Char) : Option Nat :=
  let n :=
    if c.isDigit then c.toNat - '0'.toNat
    else if 'a' ≤ c ∧ c ≤ 'z' then c.toNat - 'a'.toNat + 10
    else if 'A' ≤ c ∧ c ≤ 'Z' then c.toNat - 'A'.toNat + 10
    else 99
  if n < radix then some n else none

/-- A nonempty run of digits, as a number. -/
def digits? (radix : Nat) (cs : List Char) : Option Nat :=
  if cs.isEmpty then none
  else cs.foldl (fun n c => do some ((← n) * radix + (← digit? radix c))) (some 0)

/-- Without one leading sign. -/
def dropSign : List Char → List Char
  | '-' :: cs => cs
  | '+' :: cs => cs
  | cs => cs

/-- Digits with a superfluous leading zero, such as `017`; they are text. -/
def isPadded (cs : List Char) : Bool :=
  match dropSign cs with
  | '0' :: c :: rest => (c :: rest).all Char.isDigit
  | _ => false

/-- The radix that a two-character mark announces, with the digits behind it. -/
def marked? : List Char → Option (Nat × List Char)
  | '0' :: 'x' :: rest => some (16, rest)
  | '0' :: 'o' :: rest => some (8, rest)
  | '0' :: 'b' :: rest => some (2, rest)
  | _ => none

/-- An integer without a minus sign. -/
def unsigned? (cs : List Char) : Option Nat :=
  let body :=
    match cs with
    | '+' :: rest => rest
    | _ => cs
  match marked? body with
  | some (radix, rest) => digits? radix rest
  | none => if isPadded cs then none else digits? 10 body

/-- An integer with a minus sign. -/
def negative? : List Char → Option Nat
  | '-' :: body =>
    match marked? body with
    | some (radix, rest) => digits? radix rest
    | none => if isPadded body then none else digits? 10 body
  | _ => none

/-- An integer scalar. -/
def integer? (cs : List Char) : Option Int :=
  match unsigned? cs with
  | some n => some n
  | none => (negative? cs).map (fun n => -(n : Int))

/-- A floating-point scalar; numerals beyond the range are no such scalar. -/
def float? (cs : List Char) : Option Double :=
  let s := String.ofList cs
  if s == ".inf" || s == ".Inf" || s == ".INF" || s == "+.inf" || s == "+.Inf" || s == "+.INF" then
    some (.infinite false)
  else if s == "-.inf" || s == "-.Inf" || s == "-.INF" then some (.infinite true)
  else if s == ".nan" || s == ".NaN" || s == ".NAN" then some .nan
  else do
    let n ← Numeral.read? cs
    let d := Double.ofNumeral n
    if d.isFinite then some d else none

/-- An integer as a tree. Those of 64 bits are integers; up to 128 bits they
cannot be used as numbers; beyond, they are read as floating-point numbers. -/
def ofInteger? (i : Int) : Option Data :=
  if -Int.pow 2 63 ≤ i ∧ i < Int.pow 2 64 then some (.integer i)
  else if -Int.pow 2 127 ≤ i ∧ i < Int.pow 2 128 then some .unreadable
  else none

/-- What a number-like scalar denotes. -/
def number? (cs : List Char) : Option Data :=
  match (integer? cs).bind ofInteger? with
  | some d => some d
  | none => if isPadded cs then none else (float? cs).map .double

/-- **The value of a bare scalar.** -/
def resolve (s : String) : Data :=
  if s.isEmpty || isNull s then .null
  else
    match truth? s with
    | some b => .flag b
    | none => (number? s.toList).getD (.text s)

/-- Whether a text, written bare, would be read as something other than text;
padded digits count as such for the sake of other readers. -/
def looksTyped (s : String) : Bool :=
  s.isEmpty || isNull s || (truth? s).isSome || (number? s.toList).isSome || isPadded s.toList

end Scalar

end FeatureAlignment
