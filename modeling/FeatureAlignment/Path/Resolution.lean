import FeatureAlignment.Path.Basic

/-!
# Resolving target paths

A path is followed step by step; `Position` is how far it has come.

* `Child.locate?` finds the child that a step names. Groups may be named or
  skipped.
* `Position.step?` takes one step, by what the child is: a group is entered
  without a segment, an element with one, an element of another feature type
  starts a new path there, an XML attribute ends the path.
* `SchemaIndex.resolve` follows all steps from a type. The first step that cannot
  be taken is named in the failure.
-/

namespace FeatureAlignment

/-- **A child found by name**, with the substitution head and the repetition of
the groups skipped on the way. -/
structure Located where
  child : Child
  head : Option QName
  repeatable : Bool
  deriving Repr

namespace Located

/-- A child found without skipping a group. -/
def direct (c : Child) : Located := ⟨c, none, false⟩

/-- A child found inside a skipped group; the innermost head counts. -/
def inside (header : GroupHeader) (found : Located) : Located :=
  ⟨found.child, found.head.or header.substitutionHead, found.repeatable || header.repeatable⟩

end Located

namespace Child

mutual

/-- The child with a name inside a group. -/
def locateIn? (name : QName) : Child → Option Located
  | .property _ => none
  | .group header children =>
    (match find? children name with
      | some c => some (Located.direct c)
      | none => locateAmong? name children).map (Located.inside header)

/-- The child with a name inside the first group that has one. -/
def locateAmong? (name : QName) : List Child → Option Located
  | [] => none
  | c :: cs =>
    match locateIn? name c with
    | some found => some found
    | none => locateAmong? name cs

end

/-- **The child that a step names**: a direct child, or else a child inside the
first group, searched in order and in depth, that has one. -/
def locate? (children : List Child) (name : QName) : Option Located :=
  match find? children name with
  | some c => some (.direct c)
  | none => locateAmong? name children

end Child

/-- **How far a path has come**: the feature type it is in, the children among
which the next step looks, and what has been collected so far. A substitution
head waits for the element that stands for it, and an XML attribute allows no
further step. -/
structure Position where
  owner : QName
  children : List Child
  segments : List Segment
  crossings : List Crossing
  guards : List Condition
  node : Option QName
  isMultiple : Bool
  geometry : Bool
  substituted : Bool
  head : Option QName
  parent : Option PropertyDefinition
  ending : Option PropertyDefinition
  deriving Repr

namespace Position

/-- The root of a type. -/
def start (t : TypeDefinition) : Position :=
  ⟨t.name, t.children, [], [], [], none, false, false, false, none, none, none⟩

/-- Collect the condition of a step. -/
def guard (p : Position) (condition : Option Condition) : Position :=
  { p with guards := p.guards ++ condition.toList }

/-- Note that the value may repeat. -/
def repeating (p : Position) (repeats : Bool) : Position :=
  { p with isMultiple := p.isMultiple || repeats }

/-- **Entering a group** that a step names. -/
def enterGroup (p : Position) (header : GroupHeader) (children : List Child)
    (skippedHead : Option QName) : Position :=
  { p with head := (header.substitutionHead.or skippedHead).or p.head, children := children }

/-- **Ending at an XML attribute.** -/
def endAt (p : Position) (a : PropertyDefinition) : Position := { p with ending := some a }

/-- **Crossing** into another feature type, where a new path starts. -/
def cross (p : Position) (nested : TypeDefinition) : Position :=
  { start nested with
    crossings := p.crossings ++ [⟨p.owner, p.segments, nested.name, nested.elementName⟩]
    guards := p.guards }

/-- Whether the position is inside a property of a GML type, which takes the
geometry in place of the substituted element. -/
def isFolded (p : Position) : Bool :=
  match p.parent.bind PropertyDefinition.type with
  | some type => QName.isGml type.uri
  | none => false

/-- Append a segment. -/
def push (p : Position) (s : Segment) : Position := { p with segments := p.segments ++ [s] }

/-- **Entering an element** of the same feature type. A geometry that stands for
an abstract element is rendered as that element, or folded into the property
around it, and its type is kept as the node. -/
def enterElement (p : Position) (element : PropertyDefinition) (type : Option TypeDefinition)
    (children : List Child) (skippedHead : Option QName) (index : Option UInt64) : Position :=
  let isGeometry := (type.map TypeDefinition.geometry).getD false
  let placed : Position :=
    match skippedHead.or p.head with
    | some head =>
      if isGeometry then
        { (if p.isFolded then p else p.push ⟨head, index⟩) with node := element.type, substituted := true }
      else { p.push ⟨element.name, index⟩ with node := none, substituted := false }
    | none => { p.push ⟨element.name, index⟩ with node := none, substituted := false }
  { placed with
    geometry := isGeometry
    isMultiple := p.isMultiple || (element.repeatable && index.isNone)
    parent := some element
    children := children
    head := none }

/-- Entering the child that was found. -/
def enter (index : SchemaIndex) (p : Position) (found : Located) (repetition : Option UInt64) : Position :=
  match found.child with
  | .group header children =>
    (p.repeating (header.repeatable && repetition.isNone)).enterGroup header children found.head
  | .property q =>
    if q.isAttribute then p.endAt q
    else
      let type := index.propertyType? q
      match type.filter (fun t => t.feature && t.name ≠ p.owner) with
      | some nested => p.cross nested
      | none => p.enterElement q type (index.propertyChildren q) found.head repetition

/-- **One step.** There is none behind an XML attribute, and none to a name that
is not found. -/
def step? (index : SchemaIndex) (p : Position) (s : PathStep) : Option Position :=
  match p.ending with
  | some _ => none
  | none =>
    (Child.locate? p.children s.name).map (fun found =>
      ((p.guard s.condition).repeating (found.repeatable && s.index.isNone)).enter index found s.index)

/-- What a value becomes here: an XML attribute is a client property, except for
the identifier of a feature or of a substituted geometry. -/
def placement (p : Position) : Placement :=
  match p.ending with
  | none => .element
  | some a =>
    if a.name.isGmlId && (p.segments.isEmpty || p.substituted) then .identifier
    else .clientProperty a.name

/-- The place reached. -/
def place (p : Position) : ResolvedPath :=
  ⟨p.owner, p.segments, p.node, p.placement, p.isMultiple, p.guards, p.geometry, p.crossings, p.parent⟩

end Position

namespace SchemaIndex

/-- Follow steps from a position, after the steps `done` from `root`. -/
def follow (index : SchemaIndex) (root : QName) (done : List PathStep) (p : Position) :
    List PathStep → Except Failure Position
  | [] => .ok p
  | s :: steps =>
    match p.step? index s with
    | some q => follow index root (done ++ [s]) q steps
    | none => .error (.unresolvedPath root.text (QName.path (done.map PathStep.name)) s.name.text)

/-- **Resolving a path** from a type. -/
def resolve (index : SchemaIndex) (root : QName) (steps : List PathStep) : Except Failure ResolvedPath := do
  let t ← index.require root
  if steps.isEmpty then throw (.unresolvedPath root.text "" "(empty)")
  let p ← index.follow root [] (.start t) steps
  return p.place

end SchemaIndex

end FeatureAlignment
