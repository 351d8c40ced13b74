import FeatureAlignment.Cell.Classification
import FeatureAlignment.Expr.Pattern
import FeatureAlignment.Schema.Basic

/-!
# Expressions of cells

What a property cell computes, as an expression over source properties. The
source schema has to have every property that is read.

* `Entity.property` is a checked source property.
* `Cell.expression` is the expression of a cell under a function.
-/

namespace FeatureAlignment

/-- **A source property** as an expression, if the schema has it. -/
def Entity.property (source : SchemaIndex) (e : Entity) : Except Failure Expr := do
  let t ← source.require e.type
  let _ ← source.walk t e.names
  return .property e.expression

namespace Cell

/-- The property of the first source. -/
def primaryProperty (source : SchemaIndex) (c : Cell) : Except Failure Expr := do
  let e ← c.primarySource
  e.property source

/-- **Classification**: the source recoded by the lookup table. -/
def classification (source : SchemaIndex) (c : Cell) : Except Failure Expr := do
  let property ← c.primaryProperty source
  let table ← c.lookupTable
  let action ← c.unclassifiedAction
  match table.unwritable? with
  | some key => throw (.invalidParameter c.function lookupTableName (.keyNotFinite key))
  | none => return table.classify property action

/-- What the placeholders of a pattern may be bound to: sources by their path, or by
the last name of it. -/
structure Variable where
  path : String
  leaf : Option String
  value : Expr

/-- A source as a variable. -/
def variableOf (source : SchemaIndex) (e : Entity) : Except Failure Variable := do
  return ⟨e.expression, e.leaf?, ← e.property source⟩

/-- **The value of a placeholder**: the last variable with this path, where a path
overrides, or else the first with this leaf. -/
def bound? (bindings : List Variable) (name : String) : Option Expr :=
  ((bindings.reverse.find? (fun v => v.path == name)).or
    (bindings.find? (fun v => v.leaf == some name))).map Variable.value

/-- **A formatted text**: the pattern with its placeholders bound to the variables. -/
def formattedString (source : SchemaIndex) (c : Cell) : Except Failure Expr := do
  let pattern := Pattern.parse (← c.requireText "pattern")
  let bindings ← (c.roleSources "var").mapM (variableOf source)
  pattern.compose c.function (bound? bindings)

/-- **A date**: the source read in a format. -/
def dateExtraction (source : SchemaIndex) (c : Cell) : Except Failure Expr := do
  let format ← c.requireText "dateFormat"
  let property ← c.primaryProperty source
  return .dateParse property format

/-- **A computation**, taken verbatim. -/
def mathExpression (source : SchemaIndex) (c : Cell) : Except Failure Expr := do
  let text ← c.requireText "expression"
  if Text.isAllBlank text then
    throw (.invalidParameter c.function "expression" .emptyExpression)
  let _ ← (c.roleSources "var").mapM (Entity.property source)
  return .raw text

/-- The source to which a constant is bound: the one that plays the anchor, or for
the bound form the first one. -/
def anchor? (c : Cell) : Option Entity :=
  (c.sourcesWithRole "anchor").head?.or (if c.function = Function.boundAssign then c.source.head? else none)

/-- **A constant**, without value where the anchor is null. -/
def assign (source : SchemaIndex) (c : Cell) : Except Failure Expr := do
  let value : Expr := .text (← c.requireText "value")
  match c.anchor? with
  | some e =>
    let property ← e.property source
    return .ifThenElse (.isNull property) .nil value
  | none => return value

/-- **The expression of a property cell.** Retypes and joins have none. -/
def expression (source : SchemaIndex) (c : Cell) : Function → Except Failure Expr
  | .rename => c.primaryProperty source
  | .classification => c.classification source
  | .formattedString => c.formattedString source
  | .dateExtraction => c.dateExtraction source
  | .mathExpression => c.mathExpression source
  | .assign => c.assign source
  | f => .error (.unsupportedCapability f.name .propertyTransformation)

end Cell

end FeatureAlignment
