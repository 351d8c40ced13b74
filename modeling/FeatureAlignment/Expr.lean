import FeatureAlignment.Text

/-!
# Query expressions

Attributes of a mapping document are computed by query expressions. They are
built as trees and written once, so quoting and spacing are decided here.

* `Expr` is the tree; the constructors below it build the forms in use.
* `Expr.render` writes a tree, `Expr.quote` a text literal.
-/

namespace FeatureAlignment

/-- How the arguments of a call are separated. -/
inductive Spacing
  | wide
  | tight
  deriving DecidableEq, Repr

/-- **A query expression**: a source property, a text literal, a number, verbatim
text, no value, or a call. -/
inductive Expr
  | property (name : String)
  | text (value : String)
  | number (digits : String)
  | raw (verbatim : String)
  | nil
  | call (name : String) (spacing : Spacing) (arguments : List Expr)
  deriving BEq, Repr, Inhabited

namespace Expr

/-- What is written where there is no value. -/
def nilText : String := "Expression.NIL"

/-- The concatenation of two texts. -/
def concat (left right : Expr) : Expr := .call "strConcat" .wide [left, right]

/-- The conditional. -/
def ifThenElse (condition value otherwise : Expr) : Expr :=
  .call "if_then_else" .wide [condition, value, otherwise]

/-- The test for null. -/
def isNull (value : Expr) : Expr := .call "isNull" .wide [value]

/-- Membership in a list. -/
def isIn (value : Expr) (candidates : List Expr) : Expr := .call "in" .tight (value :: candidates)

/-- Recoding: the value paired with the first equal key. -/
def recode (value : Expr) (pairs : List (Expr × Expr)) : Expr :=
  .call "Recode" .tight (value :: pairs.flatMap (fun p => [p.1, p.2]))

/-- Reading a date in a format. -/
def dateParse (value : Expr) (format : String) : Expr := .call "dateParse" .wide [value, .text format]

/-- The expression where the condition holds, no value elsewhere. -/
def guarded (value condition : Expr) : Expr := ifThenElse condition value .nil

/-- The characters of a literal with every single quote doubled. -/
def doubleQuotes : List Char → List Char
  | [] => []
  | c :: cs => if c = '\'' then '\'' :: '\'' :: doubleQuotes cs else c :: doubleQuotes cs

/-- **A text literal**: in single quotes, with the quotes inside doubled. -/
def quote (value : String) : String := String.ofList ('\'' :: doubleQuotes value.toList ++ ['\''])

/-- What stands between two arguments. -/
def separator : Spacing → String
  | .wide => ", "
  | .tight => ","

mutual

/-- **The text of an expression.** -/
def render : Expr → String
  | .property name => name
  | .text value => quote value
  | .number digits => digits
  | .raw verbatim => verbatim
  | .nil => nilText
  | .call name spacing arguments =>
    name ++ "(" ++ Text.join (separator spacing) (renderAll arguments) ++ ")"

/-- The texts of several expressions. -/
def renderAll : List Expr → List String
  | [] => []
  | e :: es => e.render :: renderAll es

end

end Expr

end FeatureAlignment
