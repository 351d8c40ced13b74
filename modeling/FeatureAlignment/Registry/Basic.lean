import FeatureAlignment.Config.Basic
import FeatureAlignment.Document.Basic
import FeatureAlignment.Path.Basic

/-!
# The registry of a compilation

While cells are compiled, a registry grows: prefixes of namespaces, mappings of
target types with their attributes, and links between feature types. Nothing is
ever removed from it.

* `Environment` is what a compilation reads, `Registry` what it writes, `Build`
  a computation that may fail and writes on the way. What was written before a
  failure stays.
* `Registry.label` gives a namespace its one prefix; `Registry.renderName` and
  `Registry.renderPath` write names with it.
* `Registry.ensureMapping`, `Registry.upsert` and `Registry.registerLink` create
  an entry once and find it again. Mappings are found by the position that
  `Registry.slots` has for their target type, attributes by the position that
  `MappingEntry.owners` has for their owner key.
-/

namespace FeatureAlignment

/-- **What a compilation reads**: the schemas, the configuration, and the
alignment that is compiled, if there is one. -/
structure Environment where
  source : SchemaIndex
  target : SchemaIndex
  config : Config
  alignment : Option Alignment

/-- **The mapping of a target type**, with the positions of its attributes by owner
key. The owner key of an attribute is the target path under which it was created. -/
structure MappingEntry where
  targetType : QName
  mapping : TypeMapping
  owners : List (String × Nat)
  deriving DecidableEq, Repr

/-- **A link** from a container type to a type nested in it: the element of the
nested type, and the key field that both sides share. -/
structure FeatureLink where
  container : QName
  nested : QName
  linkElement : String
  linkField : String
  deriving DecidableEq, Repr

/-- **The registry.** `slots` has the positions of the mappings by target type. -/
structure Registry where
  namespaces : List Namespace
  entries : List MappingEntry
  slots : List (QName × Nat)
  links : List FeatureLink
  warnings : List String
  deriving DecidableEq, Repr

/-- **A computation on the registry** that may fail. -/
abbrev Build (α : Type) : Type := ExceptT Failure (StateM Registry) α

namespace MappingEntry

/-- The attribute with an owner key. -/
def attribute? (e : MappingEntry) (key : String) : Option AttributeMapping :=
  (e.owners.lookup key).bind (fun i => e.mapping.attributes[i]?)

/-- **Changing the attribute with an owner key**; a key that has none gets a new one at
the end. -/
def upsert (key : String) (change : AttributeMapping → AttributeMapping) (e : MappingEntry) :
    MappingEntry :=
  match e.owners.lookup key with
  | some i => { e with mapping := { e.mapping with attributes := e.mapping.attributes.modify i change } }
  | none =>
    { e with
      mapping := { e.mapping with attributes := e.mapping.attributes ++ [change (.ofTarget key)] }
      owners := (key, e.mapping.attributes.length) :: e.owners }

end MappingEntry

namespace Registry

/-- The registry at the start. -/
def empty : Registry := ⟨[], [], [], [], []⟩

/-- Whether a prefix is taken. -/
def isTaken (r : Registry) (label : String) : Bool := r.namespaces.any (fun n => n.label == label)

/-- **A generated prefix**: `ns` with the least positive number that is not taken. -/
def generatedLabel (r : Registry) : String :=
  (((List.range (r.namespaces.length + 1)).map (fun n => "ns" ++ Text.natural (n + 1))).find?
    (fun label => !r.isTaken label)).getD ""

/-- The prefix for a namespace that has none yet: the first candidate that can be a
prefix and is not taken, else a generated one. -/
def chooseLabel (env : Environment) (r : Registry) (uri : String) (preferred : Option String) : String :=
  let candidates :=
    [preferred, env.config.preferredPrefix? uri, env.target.hint? uri, env.source.hint? uri].filterMap id
  (candidates.find? (fun label => Text.isPrefixName label && !r.isTaken label)).getD r.generatedLabel

/-- **The prefix of a namespace**, chosen when it is first asked for; no namespace
has the empty prefix. -/
def label (env : Environment) (uri : String) (preferred : Option String) : StateM Registry String := do
  if uri.isEmpty then return ""
  let r ← get
  match r.namespaces.find? (fun n => n.uri == uri) with
  | some n => return n.label
  | none =>
    let chosen := chooseLabel env r uri preferred
    set { r with namespaces := r.namespaces ++ [Namespace.mk chosen uri] }
    return chosen

/-- **A rendered name**: prefix, colon and local part, or the local part alone. -/
def renderName (env : Environment) (name : QName) : StateM Registry String := do
  let label ← label env name.uri none
  return if label.isEmpty then name.localName else label ++ ":" ++ name.localName

/-- A rendered segment; repetitions are counted from one. -/
def renderSegment (env : Environment) (s : Segment) : StateM Registry String := do
  let name ← renderName env s.name
  return match s.index with
    | some i => name ++ "[" ++ Text.natural (i + 1).toNat ++ "]"
    | none => name

/-- **A rendered path**: its segments with slashes between them. -/
def renderPath (env : Environment) (segments : List Segment) : StateM Registry String := do
  let rendered ← segments.mapM (renderSegment env)
  return Text.join "/" rendered

/-- The rendered element of a target type. -/
def renderElement (env : Environment) (type : QName) : Build String := do
  let t ← env.target.require type
  renderName env t.elementName

/-- The entry of a target type. -/
def held? (r : Registry) (type : QName) : Option MappingEntry :=
  (r.slots.lookup type).bind (fun i => r.entries[i]?)

/-- The mapping of a target type. -/
def mapping? (r : Registry) (type : QName) : Option TypeMapping := (r.held? type).map MappingEntry.mapping

/-- Add a mapping for a target type. -/
def addMapping (type : QName) (m : TypeMapping) (r : Registry) : Registry :=
  { r with entries := r.entries ++ [⟨type, m, []⟩], slots := (type, r.entries.length) :: r.slots }

/-- **The mapping of a target type**, created for a source type when it is first
asked for. -/
def ensureMapping (env : Environment) (type source : QName) : Build TypeMapping := do
  match (← get).mapping? type with
  | some m => return m
  | none =>
    let element ← renderElement env type
    let m : TypeMapping := ⟨source.localName, element, []⟩
    modify (addMapping type m)
    return m

/-- The attribute of a target type with an owner key. -/
def attribute? (r : Registry) (type : QName) (key : String) : Option AttributeMapping :=
  (r.held? type).bind (·.attribute? key)

/-- Change an attribute in the mapping at a position. -/
def changeAt (slot : Nat) (key : String) (change : AttributeMapping → AttributeMapping) (r : Registry) :
    Registry :=
  { r with entries := r.entries.modify slot (MappingEntry.upsert key change) }

/-- **Changing an attribute** of a mapped type, created when it is first asked for. -/
def upsert (type : QName) (key : String) (change : AttributeMapping → AttributeMapping) :
    Build AttributeMapping := do
  let r ← get
  match r.slots.lookup type with
  | none => throw (.noMapping type)
  | some slot =>
    set (r.changeAt slot key change)
    return change ((r.attribute? type key).getD (.ofTarget key))

/-- The link between two types. -/
def link? (r : Registry) (container nested : QName) : Option FeatureLink :=
  r.links.find? (fun l => l.container = container && l.nested = nested)

/-- Add a link. -/
def addLink (l : FeatureLink) (r : Registry) : Registry := { r with links := r.links ++ [l] }

/-- **The link between two types**, created with the next link field when it is
first asked for. -/
def registerLink (env : Environment) (container nested : QName) : Build FeatureLink := do
  match (← get).link? container nested with
  | some l => return l
  | none =>
    let element ← renderElement env nested
    let r ← get
    let l : FeatureLink := ⟨container, nested, element, env.config.linkField (r.links.length + 1)⟩
    set (r.addLink l)
    return l

/-- Note a warning. -/
def warn (message : String) : StateM Registry Unit :=
  modify (fun r => { r with warnings := r.warnings ++ [message] })

/-- **The document** built so far. -/
def document (r : Registry) : MappingDocument := ⟨r.namespaces, r.entries.map MappingEntry.mapping⟩

/-- The mapped types, in the order in which they were first asked for. -/
def mappedTypes (r : Registry) : List QName := r.entries.map MappingEntry.targetType

end Registry

end FeatureAlignment
