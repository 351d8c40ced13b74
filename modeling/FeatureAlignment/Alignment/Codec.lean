import FeatureAlignment.Alignment.Basic
import FeatureAlignment.Condition.Codec
import FeatureAlignment.Data.Json.Printer
import FeatureAlignment.Data.Json.Reader
import FeatureAlignment.Data.Yaml.Printer
import FeatureAlignment.Data.Yaml.Reader

/-!
# Alignments in documents

Each type of an alignment is read from a document tree by `ofData?` and written
to one by `toData`; fields that say nothing are left out.

* `Parameters.ofData?` tells literals, lookup tables and joins apart by their
  shape.
* `Alignment.ofJson` and `Alignment.ofYaml` read texts.
-/

namespace FeatureAlignment

/-- A qualified name from a document. -/
def QName.ofData? (d : Data) : Option QName := d.text?.map QName.mk

/-- A qualified name in a document. -/
def QName.toData (name : QName) : Data := .text name.text

namespace PathStep

/-- A step from a document. -/
def ofData? (d : Data) : Option PathStep := do
  match ← d.fields? false ["name", "index", "condition"] with
  | [name, index, condition] =>
    let name ← Data.required? QName.ofData? name
    let index ← Data.defaulted? none (Data.optional? Data.index?) index
    let condition ← Data.defaulted? none (Data.optional? Condition.ofData?) condition
    some ⟨name, index, condition⟩
  | _ => none

/-- A step in a document. -/
def toData (s : PathStep) : Data :=
  .object ([("name", s.name.toData)] ++
    Data.field? "index" (s.index.map (fun i => .integer i.toNat)) ++
    Data.field? "condition" (s.condition.map Condition.toData))

end PathStep

namespace Entity

/-- An entity from a document. -/
def ofData? (d : Data) : Option Entity := do
  match ← d.fields? false ["role", "type", "path", "condition"] with
  | [role, type, path, condition] =>
    let role ← Data.defaulted? none (Data.optional? Data.text?) role
    let type ← Data.required? QName.ofData? type
    let path ← Data.defaulted? [] (Data.list? PathStep.ofData?) path
    let condition ← Data.defaulted? none (Data.optional? Condition.ofData?) condition
    some ⟨role, type, path, condition⟩
  | _ => none

/-- An entity in a document. -/
def toData (e : Entity) : Data :=
  .object (Data.field? "role" (e.role.map .text) ++ [("type", e.type.toData)] ++
    (if e.path.isEmpty then [] else [("path", .list (e.path.map PathStep.toData))]) ++
    Data.field? "condition" (e.condition.map Condition.toData))

end Entity

namespace LookupTable

/-- A key from a document: a literal, where text is read as a number if it is
number-shaped. -/
def keyOfData? (d : Data) : Option Literal :=
  (Literal.ofData? d).map (fun l =>
    match l with
    | .text s => .ofText s
    | other => other)

/-- A lookup table from a document. Values may be literals of any kind. -/
def ofData? (d : Data) : Option LookupTable := do
  let entries ← d.entries?
  let pairs ← entries.mapM (fun e => do some (← keyOfData? e.1, (← Literal.ofData? e.2).display))
  some (.ofList pairs)

/-- A key in a document: integers as such, other keys as their text. -/
def keyToData : Literal → Data
  | .integer i => .integer i.toInt
  | l => .text l.display

/-- A lookup table in a document. -/
def toData (t : LookupTable) : Data :=
  .record (t.entries.map (fun e => (keyToData e.1, .text e.2)))

end LookupTable

namespace JoinCondition

/-- A key equality from a document. -/
def ofData? (d : Data) : Option JoinCondition := do
  match ← d.fields? false ["base", "join"] with
  | [base, join] =>
    let base ← Data.required? Entity.ofData? base
    let join ← Data.required? Entity.ofData? join
    some ⟨base, join⟩
  | _ => none

/-- A key equality in a document. -/
def toData (c : JoinCondition) : Data :=
  .object [("base", c.base.toData), ("join", c.join.toData)]

end JoinCondition

namespace JoinSpec

/-- A join specification from a document. -/
def ofData? (d : Data) : Option JoinSpec := do
  match ← d.fields? false ["types", "conditions"] with
  | [types, conditions] =>
    let types ← Data.required? (Data.list? QName.ofData?) types
    let conditions ← Data.required? (Data.list? JoinCondition.ofData?) conditions
    some ⟨types, conditions⟩
  | _ => none

/-- A join specification in a document. -/
def toData (j : JoinSpec) : Data :=
  .object [("types", .list (j.types.map QName.toData)),
    ("conditions", .list (j.conditions.map JoinCondition.toData))]

end JoinSpec

namespace ParameterValue

/-- A structured value from its tag and its content. -/
def ofTagged? (value : Data) : Option Nat → Option ParameterValue
  | some 0 => (LookupTable.ofData? value).map .lookup
  | some 1 => (JoinSpec.ofData? value).map .join
  | _ => none

/-- **A value from a settled tree**: a literal, or a record with the only key
`lookup` or `join`. -/
def ofSettled? (d : Data) : Option ParameterValue :=
  match Literal.ofSettled? d with
  | some l => some (.literal l)
  | none =>
    match d with
    | .record [(key, value)] => (key.position? ["lookup", "join"]).bind (ofTagged? value)
    | _ => none

/-- A value in a document; structured values carry a tag. -/
def toData : ParameterValue → Data
  | .literal l => l.toData
  | .lookup t => .tagged "lookup" t.toData
  | .join j => .tagged "join" j.toData

end ParameterValue

namespace Parameters

/-- The values of one name: a list of values, or a single one. -/
def valuesOfData? (d : Data) : Option (List ParameterValue) := do
  match ← d.settle with
  | .list items => items.mapM ParameterValue.ofSettled?
  | value => (ParameterValue.ofSettled? value).map (fun v => [v])

/-- Give a name its values; a repeated name keeps its place. -/
def assign (name : String) (values : List ParameterValue) :
    List (String × List ParameterValue) → List (String × List ParameterValue)
  | [] => [(name, values)]
  | (n, vs) :: rest => if n = name then (n, values) :: rest else (n, vs) :: assign name values rest

/-- **Parameters from a document.** -/
def ofData? (d : Data) : Option Parameters := do
  let entries ← d.map? valuesOfData?
  some ⟨entries.foldl (fun acc e => assign e.1 e.2 acc) []⟩

/-- The values of one name in a document: a single value stands alone. -/
def valuesToData : List ParameterValue → Data
  | [v] => v.toData
  | vs => .list (vs.map ParameterValue.toData)

/-- **Parameters in a document.** -/
def toData (p : Parameters) : Data :=
  .object (p.entries.map (fun e => (e.1, valuesToData e.2)))

end Parameters

namespace Cell

/-- A cell from a document. -/
def ofData? (d : Data) : Option Cell := do
  match ← d.fields? false ["id", "function", "source", "target", "parameters"] with
  | [id, function, source, target, parameters] =>
    let id ← Data.required? Data.text? id
    let function ← Data.required? Data.text? function
    let source ← Data.defaulted? [] (Data.list? Entity.ofData?) source
    let target ← Data.defaulted? [] (Data.list? Entity.ofData?) target
    let parameters ← Data.defaulted? .empty Parameters.ofData? parameters
    some ⟨id, function, source, target, parameters⟩
  | _ => none

/-- A cell in a document. -/
def toData (c : Cell) : Data :=
  .object ([("id", .text c.id), ("function", .text c.function)] ++
    (if c.source.isEmpty then [] else [("source", .list (c.source.map Entity.toData))]) ++
    [("target", .list (c.target.map Entity.toData))] ++
    (if c.parameters.isEmpty then [] else [("parameters", c.parameters.toData)]))

end Cell

namespace Alignment

/-- **An alignment from a document.** -/
def ofData? (d : Data) : Option Alignment := do
  match ← d.fields? false ["id", "cells"] with
  | [id, cells] =>
    let id ← Data.defaulted? none (Data.optional? Data.text?) id
    let cells ← Data.defaulted? [] (Data.list? Cell.ofData?) cells
    some ⟨id, cells⟩
  | _ => none

/-- **An alignment in a document.** -/
def toData (a : Alignment) : Data :=
  .object (Data.field? "id" (a.id.map .text) ++ [("cells", .list (a.cells.map Cell.toData))])

/-- An alignment from a JSON text. -/
def ofJson (text : String) : Except Failure Alignment :=
  match (Json.read? text).bind ofData? with
  | some a => .ok a
  | none => .error .json

/-- An alignment from a YAML text. -/
def ofYaml (text : String) : Except Failure Alignment :=
  match (Yaml.read? text).bind ofData? with
  | some a => .ok a
  | none => .error .yaml

end Alignment

end FeatureAlignment
