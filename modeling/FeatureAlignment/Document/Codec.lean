import FeatureAlignment.Data.Json.Printer
import FeatureAlignment.Data.Json.Reader
import FeatureAlignment.Data.Yaml.Printer
import FeatureAlignment.Data.Yaml.Reader
import FeatureAlignment.Digest
import FeatureAlignment.Document.Basic
import FeatureAlignment.Failure

/-!
# Mapping documents as data

* `MappingDocument.toData` and `MappingDocument.ofData?` are the form of a mapping
  document in JSON and YAML.
* `MappingDocument.fingerprint` identifies a document by its compact JSON text.
-/

namespace FeatureAlignment

namespace Namespace

/-- A namespace from a document. -/
def ofData? (d : Data) : Option Namespace := do
  match ← d.fields? false ["prefix", "uri"] with
  | [label, uri] => some ⟨← Data.required? Data.text? label, ← Data.required? Data.text? uri⟩
  | _ => none

/-- A namespace in a document. -/
def toData (n : Namespace) : Data := .object [("prefix", .text n.label), ("uri", .text n.uri)]

end Namespace

namespace ClientProperty

/-- A client property from a document. -/
def ofData? (d : Data) : Option ClientProperty := do
  match ← d.fields? false ["name", "value"] with
  | [name, value] => some ⟨← Data.required? Data.text? name, ← Data.required? Data.text? value⟩
  | _ => none

/-- A client property in a document. -/
def toData (p : ClientProperty) : Data := .object [("name", .text p.name), ("value", .text p.value)]

end ClientProperty

namespace AttributeMapping

/-- The names of the fields of an attribute mapping. -/
def fieldNames : List String :=
  ["targetAttribute", "targetAttributeNode", "sourceExpression", "idExpression", "isMultiple",
    "linkElement", "linkField", "clientProperties"]

/-- An attribute mapping from a document. -/
def ofData? (d : Data) : Option AttributeMapping := do
  let text? := Data.defaulted? none (Data.optional? Data.text?)
  match ← d.fields? false fieldNames with
  | [targetAttribute, node, source, id, isMultiple, linkElement, linkField, properties] =>
    let targetAttribute ← Data.required? Data.text? targetAttribute
    let node ← text? node
    let source ← text? source
    let id ← text? id
    let isMultiple ← Data.defaulted? false Data.flag? isMultiple
    let linkElement ← text? linkElement
    let linkField ← text? linkField
    let properties ← Data.defaulted? [] (Data.list? ClientProperty.ofData?) properties
    some ⟨targetAttribute, node, source, id, isMultiple, linkElement, linkField, properties⟩
  | _ => none

/-- An attribute mapping in a document. -/
def toData (a : AttributeMapping) : Data :=
  .object ([("targetAttribute", .text a.targetAttribute)] ++
    Data.field? "targetAttributeNode" (a.targetNode.map .text) ++
    Data.field? "sourceExpression" (a.sourceExpression.map .text) ++
    Data.field? "idExpression" (a.idExpression.map .text) ++
    [("isMultiple", .flag a.isMultiple)] ++
    Data.field? "linkElement" (a.linkElement.map .text) ++
    Data.field? "linkField" (a.linkField.map .text) ++
    (if a.clientProperties.isEmpty then []
      else [("clientProperties", .list (a.clientProperties.map ClientProperty.toData))]))

end AttributeMapping

namespace TypeMapping

/-- A type mapping from a document. -/
def ofData? (d : Data) : Option TypeMapping := do
  match ← d.fields? false ["sourceType", "targetElement", "attributeMappings"] with
  | [sourceType, targetElement, attributes] =>
    let sourceType ← Data.required? Data.text? sourceType
    let targetElement ← Data.required? Data.text? targetElement
    let attributes ← Data.defaulted? [] (Data.list? AttributeMapping.ofData?) attributes
    some ⟨sourceType, targetElement, attributes⟩
  | _ => none

/-- A type mapping in a document. -/
def toData (m : TypeMapping) : Data :=
  .object [("sourceType", .text m.sourceType), ("targetElement", .text m.targetElement),
    ("attributeMappings", .list (m.attributes.map AttributeMapping.toData))]

end TypeMapping

namespace MappingDocument

/-- **A mapping document from data.** -/
def ofData? (d : Data) : Option MappingDocument := do
  match ← d.fields? false ["namespaces", "typeMappings"] with
  | [namespaces, mappings] =>
    let namespaces ← Data.required? (Data.list? Namespace.ofData?) namespaces
    let mappings ← Data.required? (Data.list? TypeMapping.ofData?) mappings
    some ⟨namespaces, mappings⟩
  | _ => none

/-- **A mapping document as data.** -/
def toData (d : MappingDocument) : Data :=
  .object [("namespaces", .list (d.namespaces.map Namespace.toData)),
    ("typeMappings", .list (d.mappings.map TypeMapping.toData))]

/-- A mapping document from a JSON text. -/
def ofJson (text : String) : Except Failure MappingDocument :=
  match (Json.read? text).bind ofData? with
  | some d => .ok d
  | none => .error .json

/-- A mapping document from a YAML text. -/
def ofYaml (text : String) : Except Failure MappingDocument :=
  match (Yaml.read? text).bind ofData? with
  | some d => .ok d
  | none => .error .yaml

/-- **The fingerprint** of a document: the first eight bytes of the SHA-256 digest
of its compact JSON text, in hexadecimal. -/
def fingerprint (d : MappingDocument) : String :=
  "sha256:" ++ Digest.hex ((Digest.sha256 (Json.compact d.toData).toUTF8.toList).take 8)

end MappingDocument

end FeatureAlignment
