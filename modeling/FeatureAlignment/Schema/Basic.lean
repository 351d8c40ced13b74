import FeatureAlignment.Failure
import FeatureAlignment.TextMap

/-!
# Schemas

A schema is a list of types. A type owns children in document order; a child is
a property, an element or an XML attribute of some type, or a group of further
children. Groups are inlined: they do not appear in instances.

* `Schema` is the document, `SchemaIndex` the same types addressed by name.
* `Child.find?` finds a direct child by name.
* `SchemaIndex.walk` follows names through the children of a type.
* `SchemaIndex.containedFeature?` finds a feature directly inside a property.
-/

namespace FeatureAlignment

/-- **A property**: an element, or an XML attribute, with its type if it is not
of simple content. -/
structure PropertyDefinition where
  name : QName
  type : Option QName
  repeatable : Bool
  isAttribute : Bool
  deriving DecidableEq, Repr, Inhabited

/-- **What a group says about itself**: whether it is a choice, whether it
repeats, and the abstract element that its choices substitute. -/
structure GroupHeader where
  name : QName
  choice : Bool
  repeatable : Bool
  substitutionHead : Option QName
  deriving DecidableEq, Repr

/-- **A child** of a type or group. -/
inductive Child
  | property (definition : PropertyDefinition)
  | group (header : GroupHeader) (children : List Child)
  deriving Repr

namespace Child

/-- The name of a child. -/
def name : Child → QName
  | .property p => p.name
  | .group header _ => header.name

/-- **A direct child by name.** The same name goes first; a name without
namespace also stands for the first child with that local name. -/
def find? (children : List Child) (name : QName) : Option Child :=
  match children.find? (fun c => c.name = name) with
  | some c => some c
  | none =>
    if name.isQualified then none
    else children.find? (fun c => c.name.localName = name.localName)

end Child

/-- **A type** with its children. A feature type gets a type mapping of its own. -/
structure TypeDefinition where
  name : QName
  element : Option QName
  feature : Bool
  geometry : Bool
  children : List Child
  deriving Repr

namespace TypeDefinition

/-- A type without anything but its name. -/
def ofName (name : QName) : TypeDefinition := ⟨name, none, false, false, []⟩

/-- The element in which instances of the type come. -/
def elementName (t : TypeDefinition) : QName := t.element.getD t.name

end TypeDefinition

/-- **A schema**: prefixes with the namespaces they suggest, and types. -/
structure Schema where
  prefixes : TextMap
  types : List TypeDefinition
  deriving Repr

/-- **The types of a schema by name**, each name once, and the prefix suggested
for a namespace. -/
structure SchemaIndex where
  types : List TypeDefinition
  hints : TextMap
  deriving Repr

namespace SchemaIndex

/-- The index of nothing. -/
def empty : SchemaIndex := ⟨[], .empty⟩

/-- Add a type; one of the same name is replaced where it stands. -/
def insertType (t : TypeDefinition) : List TypeDefinition → List TypeDefinition
  | [] => [t]
  | u :: us => if u.name = t.name then t :: us else u :: insertType t us

/-- **The index of a schema.** The last definition of a name counts, at the place
of the first; of several prefixes for a namespace the last one counts. -/
def ofSchema (s : Schema) : SchemaIndex :=
  ⟨s.types.foldl (fun types t => insertType t types) [],
    .ofList (s.prefixes.entries.map (fun e => (e.2, e.1)))⟩

/-- The type with a name. -/
def get? (index : SchemaIndex) (name : QName) : Option TypeDefinition :=
  index.types.find? (fun t => t.name = name)

/-- The type with a name that has to be there. -/
def require (index : SchemaIndex) (name : QName) : Except Failure TypeDefinition :=
  match index.get? name with
  | some t => .ok t
  | none => .error (.unknownType name)

/-- The prefix that the schema suggests for a namespace. -/
def hint? (index : SchemaIndex) (uri : String) : Option String := index.hints.get? uri

/-- The type of a property, if it has one that is known. -/
def propertyType? (index : SchemaIndex) (p : PropertyDefinition) : Option TypeDefinition :=
  p.type.bind index.get?

/-- The children below a property. -/
def propertyChildren (index : SchemaIndex) (p : PropertyDefinition) : List Child :=
  ((index.propertyType? p).map TypeDefinition.children).getD []

mutual

/-- The feature that a child holds directly, if its type is not `exclude`. -/
def featureOf? (index : SchemaIndex) (exclude : QName) :
    Child → Option (PropertyDefinition × TypeDefinition)
  | .property p =>
    if p.isAttribute then none
    else ((index.propertyType? p).filter (fun t => t.feature && t.name ≠ exclude)).map (p, ·)
  | .group _ children => featureAmong? index exclude children

/-- The first feature that children hold directly. -/
def featureAmong? (index : SchemaIndex) (exclude : QName) :
    List Child → Option (PropertyDefinition × TypeDefinition)
  | [] => none
  | c :: cs =>
    match featureOf? index exclude c with
    | some found => some found
    | none => featureAmong? index exclude cs

end

/-- **The feature contained in a property**: its first element, groups inlined,
whose type is a feature type other than `exclude`. -/
def containedFeature? (index : SchemaIndex) (p : PropertyDefinition) (exclude : QName) :
    Option (PropertyDefinition × TypeDefinition) :=
  featureAmong? index exclude (index.propertyChildren p)

/-- **Walking names** through children, after the names `done`, with the last
property found so far. Groups are entered by their own name. -/
def walkFrom (index : SchemaIndex) (root : QName) (found : Option PropertyDefinition)
    (done : List QName) (children : List Child) : List QName → Except Failure PropertyDefinition
  | [] =>
    match found with
    | some p => .ok p
    | none => .error (.unresolvedPath root.text "" "(empty)")
  | name :: names =>
    match Child.find? children name with
    | some (.property p) => walkFrom index root (some p) (done ++ [name]) (index.propertyChildren p) names
    | some (.group _ inner) => walkFrom index root found (done ++ [name]) inner names
    | none => .error (.unresolvedPath root.text (QName.path done) name.text)

/-- **The property at the end of a list of names**, from a type. -/
def walk (index : SchemaIndex) (t : TypeDefinition) (names : List QName) :
    Except Failure PropertyDefinition :=
  walkFrom index t.name none [] t.children names

end SchemaIndex

end FeatureAlignment
