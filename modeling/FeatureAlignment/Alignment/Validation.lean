import FeatureAlignment.Alignment.Basic

/-!
# Checking an alignment before use

* `Alignment.validate` lists what is wrong with an alignment as such, cell by
  cell: repeated identifiers, missing targets, unknown functions, malformed
  conditions, and targets beyond the first.
-/

namespace FeatureAlignment

/-- How serious an issue is. -/
inductive Severity
  | error
  | warning
  deriving DecidableEq, Repr

/-- The word for a severity. -/
def Severity.word : Severity → String
  | .error => "error"
  | .warning => "warning"

/-- **An issue** with an alignment, with its code and the cell concerned. -/
structure Issue where
  severity : Severity
  code : String
  message : String
  cell : Option String
  deriving DecidableEq, Repr

namespace Issue

/-- The identifier of the cell is taken by an earlier cell. -/
def duplicate (id : String) : Issue := ⟨.error, "E001", "Duplicate cell id '" ++ id ++ "'", some id⟩

/-- The cell has no target. -/
def noTarget (id : String) : Issue := ⟨.error, "E002", "Cell has no target", some id⟩

/-- The function of the cell is unknown. -/
def unknownFunction (id function : String) : Issue :=
  ⟨.error, "E003", "Unknown transformation function '" ++ function ++ "'", some id⟩

/-- A condition of the cell is malformed. -/
def malformed (id : String) (fault : ConditionFault) : Issue :=
  ⟨.error, "E004", (Failure.invalidCondition fault).message, some id⟩

/-- The cell has targets that are not compiled. -/
def manyTargets (id : String) (count : Nat) : Issue :=
  ⟨.warning, "W001", "Cell has " ++ Text.natural count ++ " targets; only the first is compiled", some id⟩

/-- An issue in a document. -/
def toData (i : Issue) : Data :=
  .object ([("severity", .text i.severity.word), ("code", .text i.code), ("message", .text i.message)] ++
    Data.field? "cell" (i.cell.map .text))

end Issue

/-- The issue with a condition, if there is one. -/
def Condition.issue? (cell : String) (c : Condition) : Option Issue :=
  match c.check with
  | .ok () => none
  | .error fault => some (.malformed cell fault)

/-- **The issues with a cell**, given whether its identifier is taken. -/
def Cell.issues (taken : Bool) (c : Cell) : List Issue :=
  (if taken then [.duplicate c.id] else []) ++
    (if c.target.isEmpty then [.noTarget c.id] else []) ++
    (if (Function.ofName? c.function).isNone then [.unknownFunction c.id c.function] else []) ++
    c.conditions.filterMap (Condition.issue? c.id) ++
    (if c.target.length > 1 then [.manyTargets c.id c.target.length] else [])

/-- The issues with cells behind cells with the given identifiers. -/
def Cell.issuesBehind (seen : List String) : List Cell → List Issue
  | [] => []
  | c :: cs => c.issues (seen.contains c.id) ++ issuesBehind (c.id :: seen) cs

/-- **The issues with an alignment.** -/
def Alignment.validate (a : Alignment) : List Issue := Cell.issuesBehind [] a.cells

end FeatureAlignment
