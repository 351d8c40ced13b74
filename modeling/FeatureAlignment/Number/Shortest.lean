import FeatureAlignment.Number.Double

/-!
# The shortest digits of a double

A double is written with the fewest decimal digits that read back as the same
double, and among those with the digits nearest to its value. Two writers of
such digits differ only in three decisions, which `Shortest.Style` records: up to
where they write positionally, which way an exact tie goes, and whether a
positive exponent has a sign.

* `Shortest.digits` finds the digits, in exact natural-number arithmetic.
* `Shortest.render` writes them in a style.
* `Double.display` is the style of expressions and messages,
  `Double.jsonNumeral?` and `Double.yamlNumeral?` are those of data formats.
-/

namespace FeatureAlignment

namespace Shortest

/-- **Digits.** A coefficient without trailing zeros and its decimal exponent:
the value is `coefficient * 10 ^ exponent`. -/
structure Digits where
  coefficient : Nat
  exponent : Int
  deriving DecidableEq, Repr

/-- How digits become text: `lowest` is the smallest position of the decimal
point, counted from the first digit, that is written positionally;
`tieUp` tells where a tie between two equally near digits goes, and `plus`
whether a positive exponent has a sign. -/
structure Style where
  lowest : Int
  tieUp : Bool
  plus : Bool

/-- **The interval of a double**, scaled: with `unit = num / den`, all reals from
`low * unit` to `high * unit` round to the double `value * unit`, the ends
included if `closed`. -/
structure Interval where
  low : Nat
  value : Nat
  high : Nat
  num : Nat
  den : Nat
  closed : Bool

/-- The interval of the positive double `mantissa * 2 ^ exponent`. Below a power
of two the neighbouring doubles are twice as dense. -/
def interval (mantissa : Nat) (exponent : Int) : Interval :=
  let narrow := mantissa == Nat.pow 2 52 && exponent > -1074
  let e := exponent - 2
  { low := 4 * mantissa - (if narrow then 1 else 2)
    value := 4 * mantissa
    high := 4 * mantissa + 2
    num := if e ≥ 0 then Nat.pow 2 e.toNat else 1
    den := if e ≥ 0 then 1 else Nat.pow 2 (-e).toNat
    closed := mantissa % 2 == 0 }

/-- The position of the decimal point: `10 ^ (k - 1) ≤ a / b < 10 ^ k`. -/
def pointPosition (a b : Nat) : Int :=
  if a ≥ b then ((Nat.toDigits 10 (a / b)).length : Int)
  else
    let length : Int := (Nat.toDigits 10 (b / a)).length
    if a * Nat.pow 10 (length - 1).toNat ≥ b then 2 - length else 1 - length

/-- Whether the fraction `a / b` lies in the interval. -/
def Interval.holds (i : Interval) (a b : Nat) : Bool :=
  let x := a * i.den
  let unit := b * i.num
  if i.closed then i.low * unit ≤ x && x ≤ i.high * unit
  else i.low * unit < x && x < i.high * unit

/-- The best coefficient on the grid of multiples of `10 ^ exponent`, if one of
the value's two neighbours there lies in the interval. -/
def Interval.onGrid? (i : Interval) (tieUp : Bool) (exponent : Int) : Option Nat :=
  let up := if exponent ≥ 0 then Nat.pow 10 exponent.toNat else 1
  let down := if exponent ≥ 0 then 1 else Nat.pow 10 (-exponent).toNat
  let a := i.value * i.num * down
  let b := i.den * up
  let below := a / b
  let above := below + 1
  match i.holds (below * up) down, i.holds (above * up) down with
  | true, true =>
    let twice := 2 * (a % b)
    if twice < b then some below
    else if twice > b then some above
    else if tieUp || below % 2 == 1 then some above
    else some below
  | true, false => some below
  | false, true => some above
  | false, false => none

/-- Drop trailing zeros; `fuel` bounds their number. -/
def strip : Nat → Digits → Digits
  | 0, d => d
  | fuel + 1, d =>
    if d.coefficient ≠ 0 ∧ d.coefficient % 10 = 0 then
      strip fuel ⟨d.coefficient / 10, d.exponent + 1⟩
    else d

/-- Try grids of growing fineness, from `count` digits on. -/
def search (i : Interval) (tieUp : Bool) (position : Int) : Nat → Nat → Digits
  | 0, _ => ⟨0, 0⟩
  | fuel + 1, count =>
    let exponent := position - count
    match i.onGrid? tieUp exponent with
    | some c => if c = 0 then search i tieUp position fuel (count + 1) else strip 20 ⟨c, exponent⟩
    | none => search i tieUp position fuel (count + 1)

/-- **The shortest digits** of the positive double `mantissa * 2 ^ exponent`;
seventeen always suffice. -/
def digits (tieUp : Bool) (mantissa : Nat) (exponent : Int) : Digits :=
  let i := interval mantissa exponent
  search i tieUp (pointPosition (i.value * i.num) i.den) 18 1

/-- Write digits: positionally, always with a point, while the value is below
`10 ^ 16` and not too small, else with one digit before the point and an exponent. -/
def write (style : Style) (d : Digits) : String :=
  let ds := Nat.toDigits 10 d.coefficient
  let point : Int := ds.length + d.exponent
  if style.lowest ≤ point ∧ point ≤ 16 then
    if point ≤ 0 then "0." ++ Text.replicate (-point).toNat '0' ++ String.ofList ds
    else if (ds.length : Int) ≤ point then
      String.ofList ds ++ Text.replicate (point - ds.length).toNat '0' ++ ".0"
    else
      String.ofList (ds.take point.toNat) ++ "." ++ String.ofList (ds.drop point.toNat)
  else
    let rest := ds.drop 1
    let fraction := if rest.isEmpty then "" else "." ++ String.ofList rest
    let sign := if style.plus && 0 < point then "+" else ""
    String.ofList (ds.take 1) ++ fraction ++ "e" ++ sign ++ Text.integer (point - 1)

/-- The text of a finite double in a style. -/
def render (style : Style) (negative : Bool) (mantissa : Nat) (exponent : Int) : String :=
  let body := if mantissa = 0 then "0.0" else write style (digits style.tieUp mantissa exponent)
  if negative then "-" ++ body else body

end Shortest

namespace Double

/-- **The text of a double** in expressions and messages: positional from
`0.0001` on, ties away from zero, with words for what is not finite. -/
def display : Double → String
  | .nan => "NaN"
  | .infinite false => "inf"
  | .infinite true => "-inf"
  | .finite s m e => Shortest.render ⟨-3, true, false⟩ s m e

/-- The numeral of a finite double in a style of data formats: positional from
`0.00001` on, ties to the even digit. -/
def numeral? (plus : Bool) : Double → Option String
  | .finite s m e => some (Shortest.render ⟨-4, false, plus⟩ s m e)
  | _ => none

/-- **The numeral of a finite double in JSON**, where a positive exponent has a
sign. -/
def jsonNumeral? : Double → Option String := numeral? true

/-- **The numeral of a finite double in YAML.** -/
def yamlNumeral? : Double → Option String := numeral? false

end Double

end FeatureAlignment
