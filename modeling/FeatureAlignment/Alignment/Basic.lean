import FeatureAlignment.Condition.Basic

/-!
# Alignments

An alignment relates a source schema to a target schema by cells. A cell names
a transformation function, the source entities that it reads, the target
entities that it writes, and parameters.

* `Entity` is a whole type, or a property path within a type.
* `LookupTable`, `JoinSpec` and `Parameters` are what a cell is parametrised by.
* `Cell` and `Alignment` put these together.
-/

namespace FeatureAlignment

/-- **A step of a property path**: the child's name, which of its repetitions is
meant, counted from zero, and a guard. -/
structure PathStep where
  name : QName
  index : Option UInt64
  condition : Option Condition
  deriving BEq, Repr

/-- **An entity**: a type, or with steps a property within it. It may play a role
in its cell, and be restricted by a condition. -/
structure Entity where
  role : Option String
  type : QName
  path : List PathStep
  condition : Option Condition
  deriving BEq, Repr

namespace Entity

/-- The entity of a whole type. -/
def ofType (type : QName) : Entity := ⟨none, type, [], none⟩

/-- Whether the entity is a whole type. -/
def isType (e : Entity) : Bool := e.path.isEmpty

/-- Whether the entity plays a role. -/
def hasRole (e : Entity) (role : String) : Bool := e.role == some role

/-- The names along the path. -/
def names (e : Entity) : List QName := e.path.map PathStep.name

/-- **The source expression** of a property: the local names along its path. -/
def expression (e : Entity) : String := QName.path e.names

/-- The local name of the last step. -/
def leaf? (e : Entity) : Option String := e.names.getLast?.map QName.localName

/-- The conditions on the steps, in path order. -/
def stepConditions (e : Entity) : List Condition := e.path.filterMap PathStep.condition

end Entity

/-- **A lookup table**: pairs of a source literal and a target text, in the order
in which the keys were first inserted. -/
structure LookupTable where
  entries : List (Literal × String)
  deriving BEq, Repr

namespace LookupTable

/-- The table without entries. -/
def empty : LookupTable := ⟨[]⟩

/-- Insert into a list of entries; an equal key keeps its place. -/
def insertEntry (key : Literal) (value : String) : List (Literal × String) → List (Literal × String)
  | [] => [(key, value)]
  | (k, v) :: rest => if k == key then (k, value) :: rest else (k, v) :: insertEntry key value rest

/-- **Inserting**: a new key goes to the end, an equal key gets the new value. -/
def insert (t : LookupTable) (key : Literal) (value : String) : LookupTable :=
  ⟨insertEntry key value t.entries⟩

/-- The table made by inserting pairs one after the other. -/
def ofList (pairs : List (Literal × String)) : LookupTable :=
  pairs.foldl (fun t p => t.insert p.1 p.2) empty

/-- Whether the table has no entries. -/
def isEmpty (t : LookupTable) : Bool := t.entries.isEmpty

end LookupTable

/-- **A key equality of a join**: the property `base` equals the property `join`. -/
structure JoinCondition where
  base : Entity
  join : Entity
  deriving BEq, Repr

/-- **A join specification**: the types that take part, the base type first, and
the key equalities in the order in which they are planned. -/
structure JoinSpec where
  types : List QName
  conditions : List JoinCondition
  deriving BEq, Repr

/-- **The value of a parameter.** -/
inductive ParameterValue
  | literal (value : Literal)
  | lookup (table : LookupTable)
  | join (spec : JoinSpec)
  deriving BEq, Repr

namespace ParameterValue

/-- The value as a literal. -/
def literal? : ParameterValue → Option Literal
  | .literal l => some l
  | _ => none

/-- The value as a lookup table. -/
def lookup? : ParameterValue → Option LookupTable
  | .lookup t => some t
  | _ => none

/-- The value as a join specification. -/
def join? : ParameterValue → Option JoinSpec
  | .join j => some j
  | _ => none

end ParameterValue

/-- **Parameters**: names with their values, both in the order of insertion. -/
structure Parameters where
  entries : List (String × List ParameterValue)
  deriving BEq, Repr

namespace Parameters

/-- No parameters. -/
def empty : Parameters := ⟨[]⟩

/-- Whether there are no parameters. -/
def isEmpty (p : Parameters) : Bool := p.entries.isEmpty

/-- Add a value to the values of a name. -/
def insertEntry (name : String) (value : ParameterValue) :
    List (String × List ParameterValue) → List (String × List ParameterValue)
  | [] => [(name, [value])]
  | (n, vs) :: rest =>
    if n = name then (n, vs ++ [value]) :: rest else (n, vs) :: insertEntry name value rest

/-- **Adding a value**: a repeated name collects its values. -/
def insert (p : Parameters) (name : String) (value : ParameterValue) : Parameters :=
  ⟨insertEntry name value p.entries⟩

/-- The values of a name. -/
def values (p : Parameters) (name : String) : List ParameterValue :=
  (p.entries.lookup name).getD []

/-- The first value of a name. -/
def first? (p : Parameters) (name : String) : Option ParameterValue := (p.values name).head?

/-- All values that are literals, in order. -/
def literals (p : Parameters) : List Literal :=
  p.entries.flatMap (fun e => e.2.filterMap ParameterValue.literal?)

end Parameters

/-- **A cell**: one rule of an alignment. -/
structure Cell where
  id : String
  function : String
  source : List Entity
  target : List Entity
  parameters : Parameters
  deriving BEq, Repr

namespace Cell

/-- Whether the cell establishes types: it has targets, and all are whole types. -/
def isTypeCell (c : Cell) : Bool := !c.target.isEmpty && c.target.all Entity.isType

/-- **The target of a cell**: the first of its targets. -/
def targetEntity (c : Cell) : Except Failure Entity :=
  match c.target with
  | e :: _ => .ok e
  | [] => .error (.invalidCell c.id .noTarget)

/-- **The primary source of a cell**: the first of its sources. -/
def primarySource (c : Cell) : Except Failure Entity :=
  match c.source with
  | e :: _ => .ok e
  | [] => .error (.invalidCell c.id .noSource)

/-- The sources that play a role. -/
def sourcesWithRole (c : Cell) (role : String) : List Entity := c.source.filter (·.hasRole role)

/-- The sources that play a role, or all sources when none does. -/
def roleSources (c : Cell) (role : String) : List Entity :=
  let playing := c.sourcesWithRole role
  if playing.isEmpty then c.source else playing

/-- The types of the sources, each at its first appearance. -/
def sourceTypes (c : Cell) : List QName := (c.source.map Entity.type).eraseDups

/-- The text of a parameter that is a literal. -/
def text? (c : Cell) (name : String) : Option String :=
  ((c.parameters.first? name).bind ParameterValue.literal?).map Literal.display

/-- The text of a parameter that has to be there. -/
def requireText (c : Cell) (name : String) : Except Failure String :=
  match c.text? name with
  | some s => .ok s
  | none => .error (.missingParameter c.function name)

/-- **The conditions of a cell**, entity by entity, sources before targets: the
entity's own condition, then those on its steps. -/
def conditions (c : Cell) : List Condition :=
  (c.source ++ c.target).flatMap (fun e => e.condition.toList ++ e.stepConditions)

end Cell

/-- **An alignment**: cells in the order of the document. -/
structure Alignment where
  id : Option String
  cells : List Cell
  deriving BEq, Repr

namespace Alignment

/-- The first cell with an identifier. -/
def cell? (a : Alignment) (id : String) : Option Cell := a.cells.find? (·.id == id)

end Alignment

end FeatureAlignment
