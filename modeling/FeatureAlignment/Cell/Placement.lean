import FeatureAlignment.Cell.Expression
import FeatureAlignment.Join.Install

/-!
# Placing expressions

The expression of a property cell goes to the place where its target path ends.

* `Cell.guardCondition` is the condition under which the expression applies.
* `Cell.destination` is the place of an expression; every crossing on the path has to
  be linked by a join. `Cell.place` puts the expression into the attribute there.
* `Cell.establish` and `Cell.fill` are what a function does with a type cell and
  with a property cell.
-/

namespace FeatureAlignment

namespace Cell

/-- The conditions on a cell: those on the steps of its resolved target path, then
source by source those on its steps and its own. -/
def guards (c : Cell) (onPath : List Condition) : List Condition :=
  onPath ++ c.source.flatMap (fun e => e.stepConditions ++ e.condition.toList)

/-- **The condition under which a cell applies**: the conjunction of all that there
are. -/
def guardCondition (c : Cell) (onPath : List Condition) : Option Condition :=
  match c.guards onPath with
  | [] => none
  | [g] => some g
  | gs => some (.logical .and gs)

/-- The expression restricted to where the cell applies. -/
def guarded (c : Cell) (onPath : List Condition) (e : Expr) : Except Failure Expr :=
  match c.guardCondition onPath with
  | none => .ok e
  | some g =>
    match g.check with
    | .ok () => .ok (e.guarded g.toExpr)
    | .error fault => .error (.invalidCondition fault)

/-- The source type of the mapping that a type cell establishes. -/
def rootSource (typeCell : Cell) : Except Failure QName :=
  match typeCell.sourceTypes with
  | type :: _ => .ok type
  | [] => .error (.invalidCell typeCell.id .noSourceType)

/-- The first crossing that no join has linked. -/
def unlinked? (r : Registry) (crossings : List Crossing) : Option Crossing :=
  crossings.find? (fun x => (r.link? x.container x.nested).isNone)

/-- **The key of the attribute** at a place: its rendered segments, or the element of
the owner type when there are none. -/
def ownerKey (env : Environment) (place : ResolvedPath) : Build String :=
  if place.segments.isEmpty then Registry.renderElement env place.owner
  else Registry.renderPath env place.segments

/-- The name of a client property, rendered. -/
def clientName (env : Environment) : Placement → Build (Option String)
  | .clientProperty name => do return some (← Registry.renderName env name)
  | _ => return none

/-- The node of a place, rendered. -/
def nodeName (env : Environment) : Option QName → Build (Option String)
  | some name => do return some (← Registry.renderName env name)
  | none => return none

/-- The warning about a geometry without a reference system. -/
def nativeCrsWarning (c : Cell) (key : String) : String :=
  c.id ++ ": no target CRS configured for geometry " ++ key ++ ", using native CRS"

/-- **The reference system of a geometry value**; a warning when none is configured. -/
def referenceSystem (env : Environment) (c : Cell) (place : ResolvedPath) (key : String) :
    Build (Option String) := do
  if place.geometry && place.placement == .element then
    match env.config.targetCrs with
    | some crs => return some (Expr.quote crs)
    | none =>
      Registry.warn (c.nativeCrsWarning key)
      return none
  else return none

/-- **Writing an expression** into an attribute, as its value, its identifier or a
client property. -/
def write (place : ResolvedPath) (text : String) (node client crs : Option String)
    (a : AttributeMapping) : AttributeMapping :=
  let a := { a with isMultiple := a.isMultiple || place.isMultiple }
  match place.placement with
  | .element =>
    let valued := { a with sourceExpression := some text, targetNode := node }
    match crs with
    | some crs => valued.setClientProperty "srsName" crs
    | none => valued
  | .identifier => { a with idExpression := some text }
  | .clientProperty _ => a.setClientProperty (client.getD "") text

/-- **The destination of an expression**: the place that a target path resolves to, whose
crossings all have to be linked, and the guarded expression. -/
def destination (env : Environment) (r : Registry) (c : Cell) (target : Entity) (e : Expr) :
    Except Failure (ResolvedPath × Expr) := do
  let place ← env.target.resolve target.type target.path
  match unlinked? r place.crossings with
  | some x => throw (.unlinkedFeatureType x.container x.nested)
  | none => pure ()
  if place.endsAtFeature then throw (.invalidCell c.id .endsAtFeature)
  let restricted ← c.guarded place.guards e
  return (place, restricted)

/-- Writing an expression into the attribute of its place. -/
def deposit (env : Environment) (c : Cell) (place : ResolvedPath) (text : String) :
    Build AttributeMapping := do
  let key ← ownerKey env place
  let node ← nodeName env place.node
  let client ← clientName env place.placement
  let crs ← referenceSystem env c place key
  Registry.upsert place.owner key (write place text node client crs)

/-- **Placing an expression**: the type cell's mapping exists or is created, and the
guarded expression is written into the attribute of its place. -/
def place (env : Environment) (c typeCell : Cell) (e : Expr) : Build AttributeMapping := do
  let target ← c.targetEntity
  let typeTarget ← typeCell.targetEntity
  if target.type ≠ typeTarget.type then
    throw (.invalidCell c.id (.otherTypeCell target.type typeCell.id typeTarget.type))
  let source ← typeCell.rootSource
  let _ ← Registry.ensureMapping env target.type source
  let (place, restricted) ← c.destination env (← get) target e
  c.deposit env place restricted.render

/-- **Retyping**: the source type gets a mapping onto the target type. -/
def retype (env : Environment) (c : Cell) : Build TypeMapping := do
  let source ← c.primarySource
  let target ← c.targetEntity
  if !source.isType || !target.isType then throw (.invalidCell c.id .notWholeTypes)
  let _ ← env.source.require source.type
  Registry.ensureMapping env target.type source.type

/-- The source type of the container of a join: that of its first plan. -/
def joinBase (c : Cell) : List JoinPlan → Except Failure QName
  | p :: _ => .ok p.containerSource
  | [] => c.primarySource.map Entity.type

/-- **Joining types**: the links are installed, and the target type has a mapping. -/
def joinTypes (env : Environment) (c : Cell) : Build TypeMapping := do
  let plans ← c.link env
  let target ← c.targetEntity
  let base ← c.joinBase plans
  Registry.ensureMapping env target.type base

/-- **Joining at a property**: the links are installed; the answer is the attribute
of the container of the first one. -/
def joinProperty (env : Environment) (c : Cell) : Build AttributeMapping := do
  let plans ← c.link env
  match plans with
  | [] => throw (.invalidParameter c.function "join" .joinWithoutConditions)
  | p :: _ =>
    let key ← Registry.renderPath env p.segments
    match (← get).attribute? p.containerType key with
    | some a => return a
    | none => throw (.noLinkAttribute key)

/-- **What a function does with a type cell.** -/
def establish (env : Environment) (c : Cell) : Function → Build TypeMapping
  | .retype => c.retype env
  | .join => c.joinTypes env
  | f => throw (.unsupportedCapability f.name .typeTransformation)

/-- **What a function does with a property cell** of a type cell. -/
def fill (env : Environment) (c typeCell : Cell) (f : Function) : Build AttributeMapping :=
  if f = .join then c.joinProperty env
  else do
    let e ← c.expression env.source f
    c.place env typeCell e

end Cell

end FeatureAlignment
