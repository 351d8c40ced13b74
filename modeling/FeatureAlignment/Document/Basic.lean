/-!
# Mapping documents

The result of a compilation: a table of namespaces, and for each target feature
type a mapping that says how its attributes are computed.

* `AttributeMapping.setClientProperty` keeps the names of client properties
  distinct.
* `TypeMapping.attribute?` and `MappingDocument.mapping?` find what was mapped.
-/

namespace FeatureAlignment

/-- **A namespace** under its prefix. -/
structure Namespace where
  label : String
  uri : String
  deriving DecidableEq, Repr, Inhabited

/-- **A client property**: an XML attribute on a target element. -/
structure ClientProperty where
  name : String
  value : String
  deriving DecidableEq, Repr

/-- **An attribute mapping**: a target path, with the type substituted for an
abstract element on it, the expressions for its value and its identifier,
whether it repeats, the link to a nested feature, and client properties. -/
structure AttributeMapping where
  targetAttribute : String
  targetNode : Option String
  sourceExpression : Option String
  idExpression : Option String
  isMultiple : Bool
  linkElement : Option String
  linkField : Option String
  clientProperties : List ClientProperty
  deriving DecidableEq, Repr

namespace AttributeMapping

/-- The mapping of a path that nothing is known about yet. -/
def ofTarget (targetAttribute : String) : AttributeMapping :=
  ⟨targetAttribute, none, none, none, false, none, none, []⟩

/-- The value of a client property. -/
def clientProperty? (a : AttributeMapping) (name : String) : Option String :=
  (a.clientProperties.find? (fun p => p.name == name)).map ClientProperty.value

/-- Set the value of a name among client properties; a new name goes to the end. -/
def setAmong (name value : String) : List ClientProperty → List ClientProperty
  | [] => [⟨name, value⟩]
  | p :: ps => if p.name = name then ⟨p.name, value⟩ :: ps else p :: setAmong name value ps

/-- **Setting a client property**; one of the same name keeps its place. -/
def setClientProperty (name value : String) (a : AttributeMapping) : AttributeMapping :=
  { a with clientProperties := setAmong name value a.clientProperties }

/-- Whether the attribute is linked to a nested feature. -/
def isLinked (a : AttributeMapping) : Bool := a.linkField.isSome

end AttributeMapping

/-- **The mapping of a source type** onto a target element. -/
structure TypeMapping where
  sourceType : String
  targetElement : String
  attributes : List AttributeMapping
  deriving DecidableEq, Repr

/-- The attribute mapping of a target path. -/
def TypeMapping.attribute? (m : TypeMapping) (targetAttribute : String) : Option AttributeMapping :=
  m.attributes.find? (fun a => a.targetAttribute == targetAttribute)

/-- **A mapping document.** -/
structure MappingDocument where
  namespaces : List Namespace
  mappings : List TypeMapping
  deriving DecidableEq, Repr

namespace MappingDocument

/-- The mapping of a target element. -/
def mapping? (d : MappingDocument) (targetElement : String) : Option TypeMapping :=
  d.mappings.find? (fun m => m.targetElement == targetElement)

/-- The prefix of a namespace. -/
def prefixFor? (d : MappingDocument) (uri : String) : Option String :=
  (d.namespaces.find? (fun n => n.uri == uri)).map Namespace.label

/-- Change the first attribute mapping of a target path. -/
def updateAttribute (key : String) (change : AttributeMapping → AttributeMapping) :
    List AttributeMapping → List AttributeMapping
  | [] => []
  | a :: rest => if a.targetAttribute = key then change a :: rest else a :: updateAttribute key change rest

/-- Change an attribute mapping in the first mapping of a target element. -/
def updateMapping (element key : String) (change : AttributeMapping → AttributeMapping) :
    List TypeMapping → List TypeMapping
  | [] => []
  | m :: rest =>
    if m.targetElement = element then { m with attributes := updateAttribute key change m.attributes } :: rest
    else m :: updateMapping element key change rest

/-- **Changing an attribute mapping** of a target element, if it is there. -/
def update (d : MappingDocument) (element key : String)
    (change : AttributeMapping → AttributeMapping) : MappingDocument :=
  { d with mappings := updateMapping element key change d.mappings }

end MappingDocument

end FeatureAlignment
