import FeatureAlignment.Text.CaseTable

/-!
# Lower case

* `Text.lowercase` maps a text to lower case. The capital dotted I becomes two
  characters, and a capital sigma that ends a word becomes the final small sigma.
-/

namespace FeatureAlignment

namespace Text

namespace Lowercase

/-- Whether a character lies in one of the closed ranges. -/
def isWithin (table : List (Nat × Nat)) (c : Char) : Bool :=
  table.any (fun r => r.1 ≤ c.toNat && c.toNat ≤ r.2)

/-- The simple lower case of a character. -/
def ofChar (c : Char) : Char :=
  if c.toNat < 0x80 then c.toLower
  else
    let n := c.toNat
    match ranges.find? (fun r => r.1 ≤ n && n ≤ r.2.1 && (n - r.1) % r.2.2.1 == 0) with
    | some (first, _, _, lower) => Char.ofNat (lower + (n - first))
    | none => c

/-- Whether the characters begin with a cased one, those that case ignores set aside. -/
def startsCased (cs : List Char) : Bool :=
  match cs.dropWhile (isWithin ignorable) with
  | [] => false
  | c :: _ => isWithin cased c

/-- The lower case of a character between those before it, in reverse, and those
after it. -/
def between (before : List Char) (c : Char) (after : List Char) : List Char :=
  if c.toNat = 0x3A3 then
    if startsCased before && !startsCased after then [Char.ofNat 0x3C2] else [Char.ofNat 0x3C3]
  else if c.toNat = 0x130 then ['i', Char.ofNat 0x307]
  else [ofChar c]

/-- The lower case of characters behind others, given in reverse. -/
def behind (before : List Char) : List Char → List Char
  | [] => []
  | c :: cs => between before c cs ++ behind (c :: before) cs

end Lowercase

/-- **A text in lower case.** -/
def lowercase (s : String) : String := String.ofList (Lowercase.behind [] s.toList)

end Text

end FeatureAlignment
