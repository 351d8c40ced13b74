import FeatureAlignment.Join.Search
import FeatureAlignment.Path.Resolution
import FeatureAlignment.Registry.Basic

/-!
# Planning joins

A join relates a base source type to further source types by key equalities.
Each equality becomes a link between two target types: the container, and the
type nested in it. Where the nested type belongs in the container is found out
from the other cells, or else from the target schema.

* `Nesting` is the place of a nested type, `Environment.nesting?` finds it.
* `Cell.plan` makes one `JoinPlan` for each key equality, and writes nothing.
-/

namespace FeatureAlignment

/-- **The place of a nested type** in a container: the segments to the property
that holds it, and whether it is only referred to from there. -/
structure Nesting where
  segments : List Segment
  type : QName
  isReference : Bool
  deriving DecidableEq, Repr

/-- **A planned link**: container and nested type with their source types, the
place of the nested type in the container, and the keys of both sides. -/
structure JoinPlan where
  containerType : QName
  containerSource : QName
  nestedType : QName
  nestedSource : QName
  segments : List Segment
  baseKey : String
  foreignKey : String
  isReference : Bool
  deriving DecidableEq, Repr

namespace Cell

/-- The join specification of a cell. -/
def joinSpec (c : Cell) : Except Failure JoinSpec :=
  match c.parameters.first? "join" with
  | none => .error (.missingParameter c.function "join")
  | some value =>
    match value.join? with
    | some spec => .ok spec
    | none => .error (.invalidParameter c.function "join" .notAJoin)

/-- Whether a cell reads a source type; a cell without sources reads all of them. -/
def reads (c : Cell) (type : QName) : Bool :=
  c.source.isEmpty || c.source.any (fun e => e.type = type)

/-- Whether a cell retypes a source type. -/
def retypes (c : Cell) (type : QName) : Bool :=
  Function.ofName? c.function == some .retype && c.source.any (fun e => e.type = type)

end Cell

namespace Nesting

/-- The place of the first crossing of a path. -/
def ofCrossing? (r : ResolvedPath) : Option Nesting :=
  r.crossings.head?.map (fun c => ⟨c.segments, c.nested, false⟩)

/-- Whether a path ends at an XLink attribute. -/
def isLink (r : ResolvedPath) : Bool :=
  match r.placement with
  | .clientProperty name => name.uri == QName.xlink
  | _ => false

/-- The place of the feature contained in the last element of a path. -/
def ofLastElement? (target : SchemaIndex) (container : QName) (r : ResolvedPath) : Option Nesting :=
  (r.lastElement.bind (fun last => target.containedFeature? last container)).map
    (fun found => ⟨r.segments, found.2.name, isLink r⟩)

/-- **The place that a cell tells**: it maps a property of the container from the
joined type, and its path crosses into a nested type or ends around one. -/
def ofCell? (target : SchemaIndex) (container joined : QName) (c : Cell) : Option Nesting :=
  if c.isTypeCell then none
  else
    match c.target with
    | [] => none
    | e :: _ =>
      if e.type = container ∧ c.reads joined then
        match target.resolve container e.path with
        | .ok r => (ofCrossing? r).or (ofLastElement? target container r)
        | .error _ => none
      else none

/-- The target type to which a source type is retyped by the first cell that does so
and targets another type than the container. -/
def retyped? (a : Alignment) (container joined : QName) : Option QName :=
  ((a.cells.filter (·.retypes joined)).filterMap (fun c => c.target.head?.map Entity.type)).find?
    (fun type => type ≠ container)

/-- **The place that the schema tells**: where the container holds an element of the
type to which the joined type is retyped. -/
def ofSchema? (target : SchemaIndex) (a : Alignment) (container joined : QName) : Option Nesting := do
  let type ← retyped? a container joined
  let t ← target.get? container
  let segments ← target.featurePath? t type
  some ⟨segments, type, false⟩

end Nesting

/-- **Where the type for a joined source type is nested** in a container: what the
first telling cell says, or else the schema. -/
def Environment.nesting? (env : Environment) (container joined : QName) : Option Nesting := do
  let a ← env.alignment
  (a.cells.findSome? (Nesting.ofCell? env.target container joined)).or
    (Nesting.ofSchema? env.target a container joined)

namespace Cell

/-- Check that a key is a property of its source type. -/
def checkKey (c : Cell) (source : SchemaIndex) (key : Entity) : Except Failure Unit :=
  match source.get? key.type with
  | none => .error (.unresolvedJoinKey c.id (.unknownType key.type))
  | some t =>
    match source.walk t key.names with
    | .ok _ => .ok ()
    | .error (.unresolvedPath type path step) =>
      .error (.unresolvedJoinKey c.id (.unresolved type path step))
    | .error failure => .error failure

/-- The plan of one key equality, with the target types known so far for source
types. -/
def planCondition (env : Environment) (c : Cell) (spec : JoinSpec) (targets : List (QName × QName))
    (condition : JoinCondition) : Except Failure JoinPlan := do
  c.checkKey env.source condition.base
  c.checkKey env.source condition.join
  let base := condition.base.type
  let joined := condition.join.type
  if !spec.types.contains joined then
    throw (.unresolvedJoinKey c.id (.notJoined joined))
  match targets.lookup base with
  | none => throw (.unresolvedJoinKey c.id (.notInChain base))
  | some container =>
    match env.nesting? container joined with
    | none => throw (.unresolvedJoinKey c.id (.notNested joined container))
    | some nesting =>
      return ⟨container, base, nesting.type, joined, nesting.segments,
        condition.base.expression, condition.join.expression, nesting.isReference⟩

/-- The plans of key equalities, each of which adds the target type of its joined
type to those known, the latest first. -/
def planConditions (env : Environment) (c : Cell) (spec : JoinSpec) (targets : List (QName × QName)) :
    List JoinCondition → Except Failure (List JoinPlan)
  | [] => .ok []
  | condition :: rest => do
    let p ← planCondition env c spec targets condition
    let ps ← planConditions env c spec ((p.nestedSource, p.nestedType) :: targets) rest
    return p :: ps

/-- **Planning a join cell**: one plan for each key equality, in order. The first of
the joined types stands for the target type of the cell. -/
def plan (env : Environment) (c : Cell) : Except Failure (List JoinPlan) := do
  let spec ← c.joinSpec
  let target ← c.targetEntity
  match spec.types with
  | [] => throw (.invalidParameter c.function "join" .joinWithoutTypes)
  | base :: _ => planConditions env c spec [(base, target.type)] spec.conditions

end Cell

end FeatureAlignment
