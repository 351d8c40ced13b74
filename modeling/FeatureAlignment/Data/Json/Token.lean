import FeatureAlignment.Data.Basic

/-!
# JSON tokens

A JSON text is cut into tokens in one pass over its characters. A scalar token
already carries its value.

* `Json.number?` reads a number: a 64-bit integer, or else a double through a
  coefficient of at most 64 bits.
* `Json.Lexer.step` takes the lexer over one character, and `Json.tokens?` over
  a whole text.
-/

namespace FeatureAlignment

namespace Json

/-- **A token**: brackets, comma, colon, or a scalar with its value. -/
inductive Token
  | openList
  | closeList
  | openRecord
  | closeRecord
  | comma
  | colon
  | scalar (value : Data)

/-- Append a digit to a coefficient of 64 bits, if it still fits. -/
def append? (coefficient : Nat) (digit : Char) : Option Nat :=
  let n := coefficient * 10 + (digit.toNat - '0'.toNat)
  if n < Nat.pow 2 64 then some n else none

/-- Append digits as long as they fit; also how many were appended. -/
def absorb (coefficient : Nat) : List Char → Nat × Nat
  | [] => (coefficient, 0)
  | c :: cs =>
    match append? coefficient c with
    | some n =>
      let (m, count) := absorb n cs
      (m, count + 1)
    | none => (coefficient, 0)

/-- Scale by a power of ten of any size, in steps that binary64 can express.
`fuel` counts the steps; four bring every coefficient to zero. -/
def scaleBy? : Nat → Double → Int → Option Double
  | 0, _, _ => none
  | fuel + 1, d, k =>
    if k.natAbs ≤ 308 then
      let d := d.scale k
      if d.isFinite then some d else none
    else if d.isZero then some d
    else if k ≥ 0 then none
    else scaleBy? fuel (d.scale (-308)) (k + 308)

/-- **A number with a point, an exponent or too many digits.** The digits go into
a coefficient while it fits 64 bits; those of the whole part that do not fit
still count as places, those of the fraction do not. -/
def double? (negative : Bool) (whole fraction : List Char) (exponent : Int) : Option Double :=
  let (n, taken) := absorb 0 whole
  let (n, places) := absorb n fraction
  let k : Int := (whole.length - taken : Nat) - (places : Int) + exponent
  (scaleBy? 6 (.ofInt n) k).map (fun d =>
    match d with
    | .finite _ m e => .finite negative m e
    | other => other)

/-- The integer of 64 bits with this sign and these digits; a negative zero is
a double. -/
def integer? (negative : Bool) (whole : List Char) : Option Data :=
  let n := Text.valueOfDigits whole
  if negative then
    if n = 0 then some (.double (.zero true))
    else if n ≤ Nat.pow 2 63 then some (.integer (-(n : Int)))
    else if n < Nat.pow 2 64 then some (.double (.ofNumeral ⟨true, n, 0⟩))
    else none
  else if n < Nat.pow 2 64 then some (.integer n) else none

/-- **Numbers.** A minus sign or none, a whole part without superfluous zeros, a
fraction or none, an exponent or none. A number beyond the range of doubles
cannot be used. -/
def number? (cs : List Char) : Option Data := do
  let (negative, body) :=
    match cs with
    | '-' :: rest => (true, rest)
    | _ => (false, cs)
  let whole := body.takeWhile Char.isDigit
  let rest := body.dropWhile Char.isDigit
  let wellBegun :=
    match whole with
    | [] => false
    | ['0'] => true
    | c :: _ => c ≠ '0'
  if !wellBegun then none
  else
    let (pointed, fraction, rest) :=
      match rest with
      | '.' :: more => (true, more.takeWhile Char.isDigit, more.dropWhile Char.isDigit)
      | _ => (false, [], rest)
    if pointed && fraction.isEmpty then none
    else
      let exponent ← Numeral.readExponent? rest
      let asDouble : Data :=
        match double? negative whole fraction exponent with
        | some d => .double d
        | none => .unreadable
      if pointed || !rest.isEmpty then some asDouble
      else some ((integer? negative whole).getD asDouble)

/-- A word or number without quotes. -/
def bare? (cs : List Char) : Option Data :=
  if cs == ['n', 'u', 'l', 'l'] then some .null
  else if cs == ['t', 'r', 'u', 'e'] then some (.flag true)
  else if cs == ['f', 'a', 'l', 's', 'e'] then some (.flag false)
  else number? cs

/-- The characters of words and numbers. -/
def isBareChar (c : Char) : Bool := c.isAlphanum || c == '-' || c == '+' || c == '.'

/-- The white space between tokens. -/
def isSpace (c : Char) : Bool := c == ' ' || c == '\n' || c == '\t' || c == '\r'

/-- The value of a hexadecimal digit. -/
def hexDigit? (c : Char) : Option Nat :=
  if c.isDigit then some (c.toNat - '0'.toNat)
  else if 'a' ≤ c ∧ c ≤ 'f' then some (c.toNat - 'a'.toNat + 10)
  else if 'A' ≤ c ∧ c ≤ 'F' then some (c.toNat - 'A'.toNat + 10)
  else none

/-- The characters of a sequence of code units and code points: a high surrogate
and the low surrogate after it make one character, and no surrogate stands alone. -/
def characters? : List Nat → Option (List Char)
  | [] => some []
  | high :: rest =>
    if 0xD800 ≤ high ∧ high < 0xDC00 then
      match rest with
      | low :: rest =>
        if 0xDC00 ≤ low ∧ low < 0xE000 then
          (characters? rest).map
            (Char.ofNat (0x10000 + (high - 0xD800) * 0x400 + (low - 0xDC00)) :: ·)
        else none
      | [] => none
    else if 0xDC00 ≤ high ∧ high < 0xE000 then none
    else (characters? rest).map (Char.ofNat high :: ·)

/-- The value of a quoted text; lone surrogates make it unusable. -/
def quoted (codes : List Nat) : Data :=
  match characters? codes with
  | some cs => .text (String.ofList cs)
  | none => .unreadable

/-- The character that a one-letter escape stands for. -/
def escaped? (c : Char) : Option Char :=
  if c == '"' || c == '\\' || c == '/' then some c
  else if c == 'b' then some '\x08'
  else if c == 'f' then some '\x0c'
  else if c == 'n' then some '\n'
  else if c == 'r' then some '\r'
  else if c == 't' then some '\t'
  else none

/-- **Where the lexer stands**: between tokens, in a word or number, in a quoted
text, behind a backslash, or among the four digits of a code unit. Characters
are collected in reverse. -/
inductive Lexer.Place
  | between
  | bare (chars : List Char)
  | quoted (codes : List Nat)
  | escape (codes : List Nat)
  | unit (codes : List Nat) (digits : Nat) (value : Nat)

/-- **The lexer**: its place and the tokens so far, in reverse. -/
structure Lexer where
  place : Lexer.Place
  tokens : List Token

namespace Lexer

/-- End a word or number. -/
def settle? (l : Lexer) : Option Lexer :=
  match l.place with
  | .bare chars => do
    let value ← bare? chars.reverse
    some ⟨.between, .scalar value :: l.tokens⟩
  | _ => some l

/-- A character between tokens. -/
def open? (l : Lexer) (c : Char) : Option Lexer :=
  let push (t : Token) : Option Lexer := some ⟨.between, t :: l.tokens⟩
  if isSpace c then some l
  else if c == '[' then push .openList
  else if c == ']' then push .closeList
  else if c == '\x7b' then push .openRecord
  else if c == '\x7d' then push .closeRecord
  else if c == ',' then push .comma
  else if c == ':' then push .colon
  else if c == '"' then some ⟨.quoted [], l.tokens⟩
  else if isBareChar c then some ⟨.bare [c], l.tokens⟩
  else none

/-- **One character.** -/
def step (l : Lexer) (c : Char) : Option Lexer :=
  match l.place with
  | .between => l.open? c
  | .bare chars =>
    if isBareChar c then some { l with place := .bare (c :: chars) }
    else do
      let l ← l.settle?
      l.open? c
  | .quoted codes =>
    if c == '"' then some ⟨.between, .scalar (Json.quoted codes.reverse) :: l.tokens⟩
    else if c == '\\' then some { l with place := .escape codes }
    else if c.toNat < 0x20 then none
    else some { l with place := .quoted (c.toNat :: codes) }
  | .escape codes =>
    if c == 'u' then some { l with place := .unit codes 0 0 }
    else do
      let e ← escaped? c
      some { l with place := .quoted (e.toNat :: codes) }
  | .unit codes digits value => do
    let d ← hexDigit? c
    let value := value * 16 + d
    if digits = 3 then some { l with place := .quoted (value :: codes) }
    else some { l with place := .unit codes (digits + 1) value }

end Lexer

/-- **The tokens of a text**, if it is made of tokens. -/
def tokens? (s : String) : Option (List Token) := do
  let l ← s.toList.foldlM Lexer.step ⟨.between, []⟩
  let l ← l.settle?
  match l.place with
  | .between => some l.tokens.reverse
  | _ => none

end Json

end FeatureAlignment
