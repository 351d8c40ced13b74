import FeatureAlignment.Condition.Basic
import FeatureAlignment.Rule.Basic

/-!
# Conditions as formulas

* `Formula.ofCondition` is a condition as a formula, over variables named after the
  properties.

Numbers are compared by numeric predicates, texts by a function that gives -1, 0
or 1. The empty conjunction is true and the empty disjunction false.
-/

namespace FeatureAlignment

/-- **The variable of a property**: its name with underscores for all characters but
ASCII letters and digits. -/
def variableName (property : String) : String :=
  String.ofList (property.toList.map (fun c => if c.isAlphanum then c else '_'))

/-- The datatype of a literal; texts need none. -/
def Literal.datatype? : Literal → Option String
  | .integer _ => some "xs:integer"
  | .double _ => some "xs:double"
  | .text _ => none

/-- A literal as a constant. -/
def Literal.toTerm (l : Literal) : Term := .constant l.display l.datatype?

/-- An operand as a term. -/
def Operand.toTerm : Operand → Term
  | .property name => .variable (variableName name)
  | .literal l => l.toTerm

/-- **Whether a literal counts as false**: zero, the empty text, and `false` in any
case. -/
def Literal.isFalse : Literal → Bool
  | .integer i => i == 0
  | .double d => d.isZero
  | .text s => s.isEmpty || Text.sameAscii s "false"

namespace Formula

/-- A predicate of the format. -/
def predicate (name : String) (arguments : List Term) : Formula := .test ("pred:" ++ name) arguments

/-- The formula that two texts compare with this result. -/
def compares (left right : Term) (result : Int64) : Formula :=
  .equal (.call "func:compare" [left, right]) (Literal.integer result).toTerm

/-- The name of the numeric predicate of an operator. -/
def numericName : ComparisonOp → String
  | .equal => "numeric-equal"
  | .notEqual => "numeric-not-equal"
  | .lessThan => "numeric-less-than"
  | .lessOrEqual => "numeric-less-than-or-equal"
  | .greaterThan => "numeric-greater-than"
  | .greaterOrEqual => "numeric-greater-than-or-equal"
  | .contains => "contains"

/-- The comparison of two texts. -/
def ofTexts (op : ComparisonOp) (left right : Term) : Formula :=
  match op with
  | .equal => compares left right 0
  | .notEqual => .not (compares left right 0)
  | .lessThan => compares left right (-1)
  | .greaterThan => compares left right 1
  | .lessOrEqual => .not (compares left right 1)
  | .greaterOrEqual => .not (compares left right (-1))
  | .contains => predicate "contains" [left, right]

/-- **A comparison as a formula**: numeric if one of its operands is a number. -/
def ofComparison (c : Comparison) : Formula :=
  let left := c.left.toTerm
  let right := c.right.toTerm
  let positive : Formula :=
    if c.op ≠ .contains ∧ c.literals.any Literal.isNumeric then predicate (numericName c.op) [left, right]
    else ofTexts c.op left right
  if c.negated then .not positive else positive

/-- The negation of formulas taken together. -/
def negation : List Formula → Formula
  | [f] => .not f
  | fs => .not (.all fs)

mutual

/-- **A condition as a formula.** -/
def ofCondition : Condition → Formula
  | .logical .and children => .all (ofConditions children)
  | .logical .or children => .any (ofConditions children)
  | .logical .not children => negation (ofConditions children)
  | .comparison c => ofComparison c
  | .literal l => if l.isFalse then .any [] else .all []

/-- Conditions as formulas. -/
def ofConditions : List Condition → List Formula
  | [] => []
  | c :: cs => ofCondition c :: ofConditions cs

end

end Formula

end FeatureAlignment
