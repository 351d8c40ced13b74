import FeatureAlignment.Failure

/-!
# Conditions

A condition restricts where a rule applies. It is a tree of connectives over
comparisons and literals.

* `Condition` is the tree.
* `Condition.check` accepts the well-formed ones, and names what is wrong with
  the others.
* `Condition.properties` lists the source properties that a condition reads.
* `Condition.toExpr` is the condition as a query expression.
-/

namespace FeatureAlignment

/-- The connectives. -/
inductive Connective
  | and
  | or
  | not
  deriving DecidableEq, Repr

/-- The name of a connective in messages. -/
def Connective.symbol : Connective → String
  | .and => "And"
  | .or => "Or"
  | .not => "Not"

/-- The comparison operators. -/
inductive ComparisonOp
  | equal
  | notEqual
  | lessThan
  | lessOrEqual
  | greaterThan
  | greaterOrEqual
  | contains
  deriving DecidableEq, Repr

/-- The operator as it is commonly written. -/
def ComparisonOp.symbol : ComparisonOp → String
  | .equal => "=="
  | .notEqual => "!="
  | .lessThan => "<"
  | .lessOrEqual => "<="
  | .greaterThan => ">"
  | .greaterOrEqual => ">="
  | .contains => "contains"

/-- **An operand**: a source property or a literal. -/
inductive Operand
  | property (name : String)
  | literal (value : Literal)
  deriving BEq, Repr

namespace Operand

/-- The literal of an operand, if it is one. -/
def literal? : Operand → Option Literal
  | .literal l => some l
  | .property _ => none

/-- The property of an operand, if it is one. -/
def property? : Operand → Option String
  | .property name => some name
  | .literal _ => none

/-- The operand as an expression. -/
def toExpr : Operand → Expr
  | .property name => .property name
  | .literal l => l.toExpr

end Operand

/-- **A comparison** of two operands; `negated` stands for its opposite. -/
structure Comparison where
  left : Operand
  op : ComparisonOp
  right : Operand
  negated : Bool
  deriving BEq, Repr

namespace Comparison

/-- The literals among the operands, left before right. -/
def literals (c : Comparison) : List Literal := [c.left, c.right].filterMap Operand.literal?

/-- The properties among the operands, left before right. -/
def properties (c : Comparison) : List String := [c.left, c.right].filterMap Operand.property?

end Comparison

/-- **A condition.** -/
inductive Condition
  | logical (op : Connective) (children : List Condition)
  | comparison (c : Comparison)
  | literal (value : Literal)
  deriving BEq, Repr

namespace Condition

/-- The comparison of two operands, not negated. -/
def compare (left : Operand) (op : ComparisonOp) (right : Operand) : Condition :=
  .comparison ⟨left, op, right, false⟩

/-- The condition that a property equals a literal. -/
def propertyEquals (name : String) (value : Literal) : Condition :=
  compare (.property name) .equal (.literal value)

/-- Whether the condition is a connective over others. -/
def isLogical : Condition → Bool
  | .logical _ _ => true
  | _ => false

/-- The symbol at the top of a condition; literals have none. -/
def symbol? : Condition → Option String
  | .logical op _ => some op.symbol
  | .comparison c => some c.op.symbol
  | .literal _ => none

/-- Whether a connective may have this many children. -/
def checkArity (op : Connective) (children : Nat) : Except ConditionFault Unit :=
  match op with
  | .not => if children = 1 then .ok () else .error (.negatesMany children)
  | _ => if children = 0 then .error (.noChildren op.symbol) else .ok ()

/-- Whether a comparison is well-formed: its literals are finite, and
containment is a matter of texts. -/
def checkComparison (c : Comparison) : Except ConditionFault Unit :=
  match c.literals.find? (!·.isFinite) with
  | some l => .error (.notFinite l)
  | none =>
    if c.op = .contains ∧ c.literals.any Literal.isNumeric then .error .containsNumber else .ok ()

mutual

/-- **Checking a condition**: a negation has one child, the other connectives
have at least one, comparisons are well-formed, and literals finite. -/
def check : Condition → Except ConditionFault Unit
  | .logical op children =>
    match checkArity op children.length with
    | .error fault => .error fault
    | .ok () => checkAll children
  | .comparison c => checkComparison c
  | .literal l => if l.isFinite then .ok () else .error (.notFinite l)

/-- Check conditions one after the other. -/
def checkAll : List Condition → Except ConditionFault Unit
  | [] => .ok ()
  | c :: cs =>
    match c.check with
    | .error fault => .error fault
    | .ok () => checkAll cs

end

mutual

/-- Every occurrence of a property, from left to right. -/
def occurrences : Condition → List String
  | .logical _ children => occurrencesAll children
  | .comparison c => c.properties
  | .literal _ => []

/-- Every occurrence of a property in several conditions. -/
def occurrencesAll : List Condition → List String
  | [] => []
  | c :: cs => c.occurrences ++ occurrencesAll cs

end

/-- **The properties that a condition reads**, each at its first occurrence. -/
def properties (c : Condition) : List String := c.occurrences.eraseDups

/-- The binary function applied between expressions, nested to the left. -/
def nest (name : String) : List Expr → Expr
  | [] => .nil
  | e :: es => es.foldl (fun left right => .call name .wide [left, right]) e

/-- A comparison as an expression. -/
def comparisonExpr (c : Comparison) : Expr :=
  let l := c.left.toExpr
  let r := c.right.toExpr
  let positive : Expr :=
    match c.op with
    | .equal => .call "equalTo" .wide [l, r]
    | .notEqual => .call "notEqualTo" .wide [l, r]
    | .lessThan => .call "lessThan" .wide [l, r]
    | .lessOrEqual => .call "lessEqualThan" .wide [l, r]
    | .greaterThan => .call "greaterThan" .wide [l, r]
    | .greaterOrEqual => .call "greaterEqualThan" .wide [l, r]
    | .contains => .call "greaterEqualThan" .wide [.call "strIndexOf" .wide [l, r], .number "0"]
  if c.negated then .call "not" .wide [positive] else positive

mutual

/-- **A condition as a query expression.** A connective over one condition is
that condition, except for the negation. -/
def toExpr : Condition → Expr
  | .logical .not children => .call "not" .wide (toExprs children)
  | .logical .and children => nest "and" (toExprs children)
  | .logical .or children => nest "or" (toExprs children)
  | .comparison c => comparisonExpr c
  | .literal l => l.toExpr

/-- Several conditions as expressions. -/
def toExprs : List Condition → List Expr
  | [] => []
  | c :: cs => c.toExpr :: toExprs cs

end

end Condition

end FeatureAlignment
