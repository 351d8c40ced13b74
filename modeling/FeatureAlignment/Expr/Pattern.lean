import FeatureAlignment.Failure

/-!
# Format patterns

A pattern is text with placeholders in braces. It is cut into fragments, and the
fragments are composed into one expression.

* `Pattern.parse` finds the placeholders from left to right: a brace pair around
  a nonempty run without braces, its name trimmed. All other text stays.
* `Pattern.compose` concatenates the fragments, nested to the left.
-/

namespace FeatureAlignment

/-- **A fragment of a pattern.** -/
inductive Fragment
  | literal (text : String)
  | variable (name : String)
  deriving DecidableEq, Repr

/-- **A pattern**, as its fragments. -/
structure Pattern where
  fragments : List Fragment
  deriving DecidableEq, Repr

namespace Pattern

/-- A placeholder at the start of a list of characters: its name, untrimmed, and
what follows. -/
def placeholder? : List Char → Option (List Char × List Char)
  | '\x7b' :: cs =>
    let isInner (c : Char) : Bool := c ≠ '\x7b' && c ≠ '\x7d'
    match cs.takeWhile isInner, cs.dropWhile isInner with
    | c :: name, '\x7d' :: rest => some (c :: name, rest)
    | _, _ => none
  | _ => none

/-- The fragment of a stretch of text, collected in reverse; none if it is empty. -/
def literal : List Char → List Fragment
  | [] => []
  | pending => [.literal (String.ofList pending.reverse)]

/-- **Cutting a pattern**, with the text since the last placeholder in reverse.
The number bounds the characters left. -/
def cut : Nat → List Char → List Char → List Fragment
  | 0, pending, _ => literal pending
  | _, pending, [] => literal pending
  | fuel + 1, pending, c :: cs =>
    match placeholder? (c :: cs) with
    | some (name, rest) =>
      literal pending ++ .variable (String.ofList (Text.trimList name)) :: cut fuel [] rest
    | none => cut fuel (c :: pending) cs

/-- **The fragments of a pattern text.** -/
def parse (s : String) : Pattern := ⟨cut s.toList.length [] s.toList⟩

/-- The names of the placeholders, in order. -/
def placeholders (p : Pattern) : List String :=
  p.fragments.filterMap (fun f =>
    match f with
    | .variable name => some name
    | .literal _ => none)

/-- The expression of a fragment. -/
def piece (function : String) (bind : String → Option Expr) : Fragment → Except Failure Expr
  | .literal text => .ok (.text text)
  | .variable name =>
    match bind name with
    | some e => .ok e
    | none => .error (.invalidParameter function "pattern" (.unboundPlaceholder name))

/-- The concatenation of pieces, nested to the left; of none, the empty text. -/
def concatAll : List Expr → Expr
  | [] => .text ""
  | e :: es => es.foldl Expr.concat e

/-- **The expression of a pattern**, whose placeholders are bound by `bind`. The
first unbound one is a fault of the named function's parameter. -/
def compose (p : Pattern) (function : String) (bind : String → Option Expr) : Except Failure Expr :=
  (p.fragments.mapM (piece function bind)).map concatAll

end Pattern

end FeatureAlignment
