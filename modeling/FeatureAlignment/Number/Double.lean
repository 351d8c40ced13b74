import FeatureAlignment.Text

/-!
# Double-precision numbers

A number of the format binary64 as the mathematics it stands for: a sign and
`mantissa · 2 ^ exponent`. Decimal numerals are rounded to it exactly, in
natural-number arithmetic.

* `Double` is the type; `Double.same` compares by value, so that zero has one
  value under both signs and not-a-number differs from itself.
* `Numeral` is a decimal numeral, `coefficient · 10 ^ exponent` with a sign.
* `Double.ofNumeral` rounds a numeral to the nearest double, ties to the even
  mantissa, and beyond the largest finite double to infinity.
* `Double.scale` multiplies by a power of ten in binary64 arithmetic.
-/

namespace FeatureAlignment

/-- **A binary64 number.** In the finite case the value is
`mantissa * 2 ^ exponent`, negated if `negative`; the builders below keep
`mantissa < 2 ^ 53` and `-1074 ≤ exponent`, with `exponent = -1074` whenever
`mantissa < 2 ^ 52`. -/
inductive Double
  | nan
  | infinite (negative : Bool)
  | finite (negative : Bool) (mantissa : Nat) (exponent : Int)
  deriving DecidableEq, Repr, Inhabited

namespace Double

/-- Zero with a sign. -/
def zero (negative : Bool) : Double := .finite negative 0 (-1074)

/-- Equality by value: both zeros are equal, not-a-number equals nothing. -/
def same : Double → Double → Bool
  | .nan, _ => false
  | _, .nan => false
  | .infinite s, .infinite t => s == t
  | .finite s m e, .finite t n f => (m == 0 && n == 0) || (s == t && m == n && e == f)
  | _, _ => false

instance : BEq Double := ⟨same⟩

/-- Neither infinite nor not-a-number. -/
def isFinite : Double → Bool
  | .finite _ _ _ => true
  | _ => false

/-- Whether the value is zero, whatever its sign. -/
def isZero : Double → Bool
  | .finite _ m _ => m == 0
  | _ => false

/-- The quotient rounded to the nearest integer, a tie to the even one. -/
def divideToEven (a b : Nat) : Nat :=
  let q := a / b
  let twice := 2 * (a % b)
  if twice < b then q else if twice > b then q + 1 else if q % 2 = 0 then q else q + 1

/-- The integer part of the base-two logarithm of `a / b`, for positive `a`, `b`. -/
def log2Quotient (a b : Nat) : Int :=
  let guess : Int := (Nat.log2 a : Int) - (Nat.log2 b : Int)
  let reached :=
    if guess ≥ 0 then a ≥ b * Nat.pow 2 guess.toNat else a * Nat.pow 2 (-guess).toNat ≥ b
  if reached then guess else guess - 1

/-- **Rounding a positive fraction.** The double nearest to `a / b`, ties to the
even mantissa; values from `2 ^ 1024` on are infinite. -/
def ofFraction (negative : Bool) (a b : Nat) : Double :=
  let e : Int := max (log2Quotient a b - 52) (-1074)
  let m :=
    if e ≥ 0 then divideToEven a (b * Nat.pow 2 e.toNat) else divideToEven (a * Nat.pow 2 (-e).toNat) b
  let (m, e) := if m ≥ Nat.pow 2 53 then (m / 2, e + 1) else (m, e)
  if e > 971 then .infinite negative else .finite negative m e

end Double

/-- **A decimal numeral**: `coefficient * 10 ^ exponent`, negated if `negative`. -/
structure Numeral where
  negative : Bool
  coefficient : Nat
  exponent : Int
  deriving DecidableEq, Repr

namespace Numeral

/-- The exponent part of a numeral: nothing, or a letter E, an optional sign and digits. -/
def readExponent? : List Char → Option Int
  | [] => some 0
  | c :: cs =>
    if c = 'e' ∨ c = 'E' then
      let (negative, digits) :=
        match cs with
        | '-' :: rest => (true, rest)
        | '+' :: rest => (false, rest)
        | _ => (false, cs)
      if digits.isEmpty || !digits.all Char.isDigit then none
      else
        let n : Int := Text.valueOfDigits digits
        some (if negative then -n else n)
    else none

/-- The numeral with these digits before and after the point. -/
def ofDigits (negative : Bool) (whole fraction : List Char) (exponent : Int) : Numeral :=
  ⟨negative, Text.valueOfDigits (whole ++ fraction), exponent - fraction.length⟩

/-- An unsigned numeral: digits with at most one point, at least one digit, and
an optional exponent. -/
def readUnsigned? (negative : Bool) (cs : List Char) : Option Numeral := do
  let whole := cs.takeWhile Char.isDigit
  let rest := cs.dropWhile Char.isDigit
  let (fraction, rest) :=
    match rest with
    | '.' :: more => (more.takeWhile Char.isDigit, more.dropWhile Char.isDigit)
    | _ => ([], rest)
  if whole.isEmpty && fraction.isEmpty then none
  else
    let exponent ← readExponent? rest
    some (ofDigits negative whole fraction exponent)

/-- **Reading a numeral**: an optional sign, digits with at most one point among
or beside them, and an optional exponent. -/
def read? (cs : List Char) : Option Numeral :=
  match cs with
  | '-' :: rest => readUnsigned? true rest
  | '+' :: rest => readUnsigned? false rest
  | _ => readUnsigned? false cs

end Numeral

/-- **Rounding a numeral** to the nearest double. Numerals that are clearly
beyond the range on either side are settled without forming the power of ten. -/
def Double.ofNumeral (n : Numeral) : Double :=
  if n.coefficient = 0 then .zero n.negative
  else
    let size : Int := (Nat.toDigits 10 n.coefficient).length + n.exponent
    if size > 320 then .infinite n.negative
    else if size < -340 then .zero n.negative
    else if n.exponent ≥ 0 then
      .ofFraction n.negative (n.coefficient * Nat.pow 10 n.exponent.toNat) 1
    else .ofFraction n.negative n.coefficient (Nat.pow 10 (-n.exponent).toNat)

/-- The double nearest to an integer. -/
def Double.ofInt (i : Int) : Double := .ofNumeral ⟨i < 0, i.natAbs, 0⟩

namespace Double

/-- The absolute value of a finite double as a fraction of natural numbers. -/
def fraction (mantissa : Nat) (exponent : Int) : Nat × Nat :=
  if exponent ≥ 0 then (mantissa * Nat.pow 2 exponent.toNat, 1) else (mantissa, Nat.pow 2 (-exponent).toNat)

/-- The fraction rounded to a double; zero stays zero. -/
def round (negative : Bool) (a b : Nat) : Double :=
  if a = 0 then .zero negative else .ofFraction negative a b

/-- **Scaling by a power of ten** as binary64 arithmetic does it: the power is
rounded to a double first, then the product or the quotient is. -/
def scale : Double → Int → Double
  | .finite s m e, k =>
    let (a, b) := fraction m e
    match ofNumeral ⟨false, 1, k.natAbs⟩ with
    | .finite _ n f =>
      let (c, d) := fraction n f
      if k ≥ 0 then round s (a * c) (b * d) else round s (a * d) (b * c)
    | _ => .nan
  | d, _ => d

end Double

end FeatureAlignment
