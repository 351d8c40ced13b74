import FeatureAlignment.Data.Decode
import FeatureAlignment.Failure

/-!
# Compilation reports

* `Report` lists the cells that compiled and those that failed, and the warnings.
* `Report.recordCompiled` and `Report.recordFailure` note a cell.
* `Report.render` is the report as text, `Report.toData` as data.
-/

namespace FeatureAlignment

/-- **A cell that failed**, with its function and the kind and text of the failure. -/
structure CellFailure where
  cell : String
  function : String
  kind : FailureKind
  message : String
  deriving DecidableEq, Repr

namespace CellFailure

/-- The kinds of failure by name. -/
def kindVariants : List (FailureKind × List String) := FailureKind.all.map (fun k => (k, [k.name]))

/-- A failed cell from a document. -/
def ofData? (d : Data) : Option CellFailure := do
  match ← d.fields? false ["cell_id", "function", "kind", "message"] with
  | [cell, function, kind, message] =>
    let cell ← Data.required? Data.text? cell
    let function ← Data.required? Data.text? function
    let kind ← Data.required? (Data.variant? kindVariants) kind
    let message ← Data.required? Data.text? message
    some ⟨cell, function, kind, message⟩
  | _ => none

/-- A failed cell in a document. -/
def toData (f : CellFailure) : Data :=
  .object [("cell_id", .text f.cell), ("function", .text f.function), ("kind", .text f.kind.name),
    ("message", .text f.message)]

/-- A failed cell on a line of a report. -/
def line (f : CellFailure) : String :=
  "  [" ++ f.kind.words ++ "] " ++ f.cell ++ " (" ++ f.function ++ "): " ++ f.message ++ "\n"

end CellFailure

/-- **A report**: whether it is a success, the cells that compiled, in the order in which they
were processed, the cells that failed, the warnings, and the fingerprint of the document. -/
structure Report where
  success : Bool
  compiled : List String
  failures : List CellFailure
  warnings : List String
  fingerprint : String
  deriving DecidableEq, Repr

namespace Report

/-- The report on nothing, which is a success. -/
def empty : Report := ⟨true, [], [], [], ""⟩

/-- Note a cell that compiled. -/
def recordCompiled (r : Report) (cell : String) : Report := { r with compiled := r.compiled ++ [cell] }

/-- **Note a cell that failed**: the report is no success any more. -/
def recordFailure (r : Report) (f : CellFailure) : Report :=
  { r with success := false, failures := r.failures ++ [f] }

/-- The failure of a cell. -/
def failure? (r : Report) (cell : String) : Option CellFailure := r.failures.find? (fun f => f.cell == cell)

/-- A headed list of lines, left out when it is empty. -/
def listing (heading : String) (lines : List String) : String :=
  if lines.isEmpty then "" else "\n" ++ heading ++ ":\n" ++ Text.concat lines

/-- **The report as text.** -/
def render (r : Report) : String :=
  "Compilation Report\n==================\n\n" ++
    "Status: " ++ (if r.success then "OK" else "FAILED") ++ "\n" ++
    "Compiled cells: " ++ Text.natural r.compiled.length ++ "\n" ++
    "Failed cells: " ++ Text.natural r.failures.length ++ "\n" ++
    (if r.fingerprint.isEmpty then "" else "Document: " ++ r.fingerprint ++ "\n") ++
    listing "Failures" (r.failures.map CellFailure.line) ++
    listing "Warnings" (r.warnings.map (fun w => "  - " ++ w ++ "\n"))

/-- The fields of a report but for its time. -/
def fields (r : Report) : List (String × Data) :=
  [("success", .flag r.success), ("compiled_cells", .texts r.compiled),
    ("failures", .list (r.failures.map CellFailure.toData)), ("warnings", .texts r.warnings),
    ("document_hash", .text r.fingerprint)]

/-- **The report as data**, made at a time in seconds. -/
def toData (r : Report) (time : Int) : Data := .object (r.fields ++ [("compiled_at", .integer time)])

end Report

end FeatureAlignment
