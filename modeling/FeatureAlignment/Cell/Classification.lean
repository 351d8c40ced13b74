import FeatureAlignment.Alignment.Basic

/-!
# Classification

A classification recodes a source value by a lookup table. What becomes of a
value that the table does not have is a choice of the cell.

* `UnclassifiedAction` is that choice, read by `UnclassifiedAction.ofName`.
* `LookupTable.classify` is the expression.
-/

namespace FeatureAlignment

/-- **What becomes of an unclassified value**: it is passed on, dropped, or replaced
by a constant. -/
inductive UnclassifiedAction
  | useSource
  | useNull
  | fixed (value : String)
  deriving DecidableEq, Repr

namespace UnclassifiedAction

/-- The parameter that holds the choice. -/
def parameterName : String := "notClassifiedAction"

/-- **A choice by its name**; a constant follows `fixed:`. -/
def ofName (s : String) : Except Failure UnclassifiedAction :=
  if s = "source" then .ok .useSource
  else if s = "null" then .ok .useNull
  else
    match Text.after? "fixed:" s with
    | some value => .ok (.fixed value)
    | none => .error (.invalidParameter "classification" parameterName (.unknownAction s))

/-- The name of a choice. -/
def name : UnclassifiedAction → String
  | .useSource => "source"
  | .useNull => "null"
  | .fixed value => "fixed:" ++ value

/-- The expression for an unclassified value of a source. -/
def fallback (source : Expr) : UnclassifiedAction → Expr
  | .useSource => source
  | .useNull => .nil
  | .fixed value => .text value

end UnclassifiedAction

namespace LookupTable

/-- **The classification of a source**: recoded where the table has its value. -/
def classify (t : LookupTable) (source : Expr) (action : UnclassifiedAction) : Expr :=
  .ifThenElse (.isIn source (t.entries.map (fun e => e.1.toExpr)))
    (.recode source (t.entries.map (fun e => (e.1.toExpr, .text e.2))))
    (action.fallback source)

/-- The first key that cannot be written. -/
def unwritable? (t : LookupTable) : Option Literal :=
  (t.entries.find? (fun e => !e.1.isFinite)).map Prod.fst

end LookupTable

namespace Cell

/-- The parameter that holds the lookup table. -/
def lookupTableName : String := "lookupTable"

/-- The lookup table of a cell, which has to be there and have entries. -/
def lookupTable (c : Cell) : Except Failure LookupTable :=
  match c.parameters.first? lookupTableName with
  | none => .error (.missingParameter c.function lookupTableName)
  | some value =>
    match value.lookup? with
    | none => .error (.invalidParameter c.function lookupTableName .notALookup)
    | some t =>
      if t.isEmpty then .error (.invalidParameter c.function lookupTableName .emptyLookup) else .ok t

/-- The choice of a cell for unclassified values, which are dropped by default. -/
def unclassifiedAction (c : Cell) : Except Failure UnclassifiedAction :=
  match c.text? UnclassifiedAction.parameterName with
  | some s => UnclassifiedAction.ofName s
  | none => .ok .useNull

end Cell

end FeatureAlignment
