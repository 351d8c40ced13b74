import FeatureAlignment.Alignment.Codec
import FeatureAlignment.Schema.Basic

/-!
# Schemas in documents

* `Schema.ofData?` reads a schema, `Schema.toData` writes one.
* `Child.ofSettled?` reads a child by its `kind`; the other fields are those of a
  property or of a group.
* `Schema.ofJson` and `Schema.ofYaml` read texts.
-/

namespace FeatureAlignment

/-- A map of texts from a document; the last value of a key counts. -/
def TextMap.ofData? (d : Data) : Option TextMap := (d.map? Data.text?).map .ofList

/-- A map of texts in a document. -/
def TextMap.toData (m : TextMap) : Data := .object (m.entries.map (fun e => (e.1, .text e.2)))

namespace PropertyDefinition

/-- A property from a document. -/
def ofData? (d : Data) : Option PropertyDefinition := do
  match ← d.fields? false ["name", "type", "repeatable", "attribute"] with
  | [name, type, repeatable, isAttribute] =>
    let name ← Data.required? QName.ofData? name
    let type ← Data.defaulted? none (Data.optional? QName.ofData?) type
    let repeatable ← Data.defaulted? false Data.flag? repeatable
    let isAttribute ← Data.defaulted? false Data.flag? isAttribute
    some ⟨name, type, repeatable, isAttribute⟩
  | _ => none

/-- The fields of a property. -/
def fields (p : PropertyDefinition) : List (String × Data) :=
  [("name", p.name.toData)] ++ Data.field? "type" (p.type.map QName.toData) ++
    [("repeatable", .flag p.repeatable), ("attribute", .flag p.isAttribute)]

/-- A property in a document. -/
def toData (p : PropertyDefinition) : Data := .object p.fields

end PropertyDefinition

namespace Child

/-- The two kinds of children. -/
inductive Kind
  | property
  | group
  deriving DecidableEq, Repr

/-- The kinds by name. -/
def Kind.variants : List (Kind × List String) := [(.property, ["property"]), (.group, ["group"])]

/-- A kind by its name, or by its position among the kinds. -/
def Kind.ofSettled? : Data → Option Kind
  | .text s => Data.named? Kind.variants s
  | .integer (.ofNat n) => (Kind.variants[n]?).map Prod.fst
  | _ => none

/-- Whether a key is the one that tells the kind. -/
def isKindKey : Data → Bool
  | .text s => s == "kind"
  | _ => false

/-- The fields of a group before its children, and the tree of the children. -/
def groupParts? (d : Data) : Option (GroupHeader × Option Data) := do
  match ← d.fields? false ["name", "choice", "repeatable", "substitution_head", "children"] with
  | [name, choice, repeatable, head, children] =>
    let name ← Data.required? QName.ofData? name
    let choice ← Data.defaulted? false Data.flag? choice
    let repeatable ← Data.defaulted? false Data.flag? repeatable
    let head ← Data.defaulted? none (Data.optional? QName.ofData?) head
    some (⟨name, choice, repeatable, head⟩, children)
  | _ => none

/-- A child of a known kind from the tree of its other fields, whose own children
are read by `child?`. -/
def ofKind? (child? : Data → Option Child) (kind : Kind) (content : Data) : Option Child :=
  match kind with
  | .property => (PropertyDefinition.ofData? content).map .property
  | .group => do
    let (header, children) ← groupParts? content
    let children ← Data.defaulted? [] (Data.list? child?) children
    some (.group header children)

/-- **The kind of a child and its other fields.** A record has the kind as one of
its fields, exactly once; a list has it as its first item. -/
def parts? (kindOf? : Data → Option Kind) : Data → Option (Kind × Data)
  | .record entries =>
    match entries.filter (fun e => isKindKey e.1) with
    | [(_, value)] => do
      let kind ← kindOf? value
      some (kind, .record (entries.filter (fun e => !isKindKey e.1)))
    | _ => none
  | .list (first :: rest) => (kindOf? first).map (·, .list rest)
  | _ => none

/-- A child from a settled tree whose groups nest less deep than the number. -/
def ofSettledWithin? : Nat → Data → Option Child
  | 0, _ => none
  | depth + 1, d => do
    let (kind, content) ← parts? Kind.ofSettled? d
    ofKind? (ofSettledWithin? depth) kind content

/-- **A child from a settled tree.** -/
def ofSettled? (d : Data) : Option Child := ofSettledWithin? (d.height + 1) d

/-- A kind by its name. -/
def Kind.ofData? (d : Data) : Option Kind := d.text?.bind (Data.named? Kind.variants)

/-- The tree of a child with the keys of a record settled. -/
def settleKeys? : Data → Option Data
  | .record entries => (entries.mapM (fun (e : Data × Data) => e.1.settle.map (·, e.2))).map .record
  | .list items => some (.list items)
  | .sequence items => some (.list items)
  | _ => none

/-- **A child from a document.** All but the kind is settled first. -/
def ofData? (d : Data) : Option Child := do
  let (kind, content) ← parts? Kind.ofData? (← settleKeys? d)
  ofKind? ofSettled? kind (← content.settle)

mutual

/-- **A child in a document**, its kind first. -/
def toData : Child → Data
  | .property p => .object (("kind", .text "property") :: p.fields)
  | .group header children =>
    .object ([("kind", .text "group"), ("name", header.name.toData),
        ("choice", .flag header.choice), ("repeatable", .flag header.repeatable)] ++
      Data.field? "substitution_head" (header.substitutionHead.map QName.toData) ++
      [("children", .list (toDatas children))])

/-- Several children in a document. -/
def toDatas : List Child → List Data
  | [] => []
  | c :: cs => c.toData :: toDatas cs

end

end Child

namespace TypeDefinition

/-- A type from a document. -/
def ofData? (d : Data) : Option TypeDefinition := do
  match ← d.fields? false ["name", "element", "feature_type", "geometry", "children"] with
  | [name, element, feature, geometry, children] =>
    let name ← Data.required? QName.ofData? name
    let element ← Data.defaulted? none (Data.optional? QName.ofData?) element
    let feature ← Data.defaulted? false Data.flag? feature
    let geometry ← Data.defaulted? false Data.flag? geometry
    let children ← Data.defaulted? [] (Data.list? Child.ofData?) children
    some ⟨name, element, feature, geometry, children⟩
  | _ => none

/-- A type in a document. -/
def toData (t : TypeDefinition) : Data :=
  .object ([("name", t.name.toData)] ++ Data.field? "element" (t.element.map QName.toData) ++
    [("feature_type", .flag t.feature), ("geometry", .flag t.geometry),
      ("children", .list (Child.toDatas t.children))])

end TypeDefinition

namespace Schema

/-- **A schema from a document.** -/
def ofData? (d : Data) : Option Schema := do
  match ← d.fields? false ["prefixes", "types"] with
  | [prefixes, types] =>
    let prefixes ← Data.defaulted? .empty TextMap.ofData? prefixes
    let types ← Data.defaulted? [] (Data.list? TypeDefinition.ofData?) types
    some ⟨prefixes, types⟩
  | _ => none

/-- **A schema in a document.** -/
def toData (s : Schema) : Data :=
  .object ((if s.prefixes.entries.isEmpty then [] else [("prefixes", s.prefixes.toData)]) ++
    [("types", .list (s.types.map TypeDefinition.toData))])

/-- A schema from a JSON text. -/
def ofJson (text : String) : Except Failure Schema :=
  match (Json.read? text).bind ofData? with
  | some s => .ok s
  | none => .error .json

/-- A schema from a YAML text. -/
def ofYaml (text : String) : Except Failure Schema :=
  match (Yaml.read? text).bind ofData? with
  | some s => .ok s
  | none => .error .yaml

end Schema

end FeatureAlignment
