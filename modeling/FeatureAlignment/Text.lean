/-!
# Text

Character classes and the small operations on texts that the rest of the
library is written with. Everything here works on characters, never on bytes.

* `Text.isBlank` is the Unicode property White_Space, `Text.trim` drops such
  characters at both ends.
* `Text.join` puts a separator between texts; `Text.lines` cuts at line feeds.
* `Text.isPrefixName` decides which texts may serve as a namespace prefix.
-/

namespace FeatureAlignment

namespace Text

/-- **White space.** The characters with the Unicode property White_Space. -/
def isBlank (c : Char) : Bool :=
  let n := c.toNat
  (9 ≤ n && n ≤ 13) || n == 0x20 || n == 0x85 || n == 0xA0 || n == 0x1680 ||
    (0x2000 ≤ n && n ≤ 0x200A) || n == 0x2028 || n == 0x2029 || n == 0x202F ||
    n == 0x205F || n == 0x3000

/-- The list without its longest suffix of elements satisfying `p`. -/
def dropEndWhile (p : Char → Bool) (cs : List Char) : List Char :=
  (cs.reverse.dropWhile p).reverse

/-- Drop white space at both ends of a list of characters. -/
def trimList (cs : List Char) : List Char :=
  dropEndWhile isBlank (cs.dropWhile isBlank)

/-- Drop white space at both ends. -/
def trim (s : String) : String := String.ofList (trimList s.toList)

/-- Whether nothing but white space is there. -/
def isAllBlank (s : String) : Bool := s.toList.all isBlank

/-- The texts one after the other, with `separator` between neighbours. -/
def join (separator : String) : List String → String
  | [] => ""
  | [s] => s
  | s :: t :: rest => s ++ separator ++ join separator (t :: rest)

/-- The texts one after the other. -/
def concat : List String → String
  | [] => ""
  | s :: rest => s ++ concat rest

/-- `n` copies of a character. -/
def replicate (n : Nat) (c : Char) : String := String.ofList (List.replicate n c)

/-- Cut at each separator character; the result has one more piece than there
are separators. -/
def cutAt (separator : Char) : List Char → List (List Char)
  | [] => [[]]
  | c :: cs =>
    match cutAt separator cs with
    | [] => [[c]]
    | piece :: pieces =>
      if c = separator then [] :: piece :: pieces else (c :: piece) :: pieces

/-- Drop one carriage return at the end of a line. -/
def dropReturn (line : List Char) : List Char :=
  match line.reverse with
  | '\r' :: rest => rest.reverse
  | _ => line

/-- **Lines.** The pieces between line feeds. A last empty piece is no line,
and a carriage return just before a line feed belongs to the line's end. -/
def lines (s : String) : List String :=
  let pieces := cutAt '\n' s.toList
  let ended := pieces.dropLast.map (fun line => String.ofList (dropReturn line))
  match pieces.getLast? with
  | some (c :: cs) => ended ++ [String.ofList (c :: cs)]
  | _ => ended

/-- Two lists of characters agree up to the case of ASCII letters. -/
def sameAsciiList : List Char → List Char → Bool
  | [], [] => true
  | c :: cs, d :: ds => c.toLower == d.toLower && sameAsciiList cs ds
  | _, _ => false

/-- Two texts agree up to the case of ASCII letters. -/
def sameAscii (s t : String) : Bool := sameAsciiList s.toList t.toList

/-- What follows `start`, if the list begins with it. -/
def afterList? : List Char → List Char → Option (List Char)
  | [], cs => some cs
  | _ :: _, [] => none
  | d :: ds, c :: cs => if c = d then afterList? ds cs else none

/-- What follows `start`, if the text begins with it. -/
def after? (start s : String) : Option String :=
  (afterList? start.toList s.toList).map String.ofList

/-- A letter or underscore of ASCII: what a namespace prefix begins with. -/
def isNameStart (c : Char) : Bool := c.isAlpha || c == '_'

/-- What a namespace prefix goes on with. -/
def isNameRest (c : Char) : Bool := c.isAlphanum || c == '_' || c == '-' || c == '.'

/-- **Prefix names.** An ASCII letter or underscore, then ASCII letters, digits,
underscores, hyphens and full stops. -/
def isPrefixName (s : String) : Bool :=
  match s.toList with
  | [] => false
  | c :: cs => isNameStart c && cs.all isNameRest

/-- The decimal digits of a natural number. -/
def natural (n : Nat) : String := String.ofList (Nat.toDigits 10 n)

/-- Decimal digits, with a minus sign in front of a negative number. -/
def integer : Int → String
  | .ofNat n => natural n
  | .negSucc n => "-" ++ natural (n + 1)

/-- The value of a list of decimal digits. -/
def valueOfDigits (digits : List Char) : Nat :=
  digits.foldl (fun n c => n * 10 + (c.toNat - '0'.toNat)) 0

end Text

end FeatureAlignment
