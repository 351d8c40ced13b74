import FeatureAlignment.Compilation.Report
import FeatureAlignment.Config.Codec
import FeatureAlignment.JsonSchema.Alignment

/-!
# Schemas of the other documents

* `JsonSchema.schema`, `JsonSchema.config`, `JsonSchema.mappingDocument` and
  `JsonSchema.report` are the schemas.
-/

namespace FeatureAlignment

namespace JsonSchema

/-- A flag that is not set by default. -/
def flagOff : Keywords := withDefault (.flag false) boolean

/-- Properties. -/
def propertyDefinition : String × Keywords :=
  ("PropertyDefinition", described "An element or XML attribute"
    (recordType
      [("attribute", described "XML attribute rather than element" flagOff),
        ("name", ref "QName"),
        ("repeatable", described "maxOccurs > 1" flagOff),
        ("type", described "Property type; absent for simple content" (optionalRef "QName"))] ["name"]))

/-- Groups. -/
def groupDefinition : String × Keywords :=
  ("GroupDefinition", described "A sequence or choice group"
    (recordType
      [("children", listOrNone (ref "ChildDefinition")), ("choice", flagOff), ("name", ref "QName"),
        ("repeatable", flagOff),
        ("substitution_head",
          described "Abstract head element this choice substitutes (e.g. gml:AbstractGeometry)"
            (optionalRef "QName"))] ["name"]))

/-- A child of a kind, with the fields of a definition. -/
def childOfKind (kind definition : String) : Keywords :=
  [("type", .text "object"),
    ("properties", .object [("kind", .object [("type", .text "string"), ("const", .text kind)])])] ++
    ref definition ++ required ["kind"]

/-- Children. -/
def childDefinition : String × Keywords :=
  ("ChildDefinition", described "A child of a type or group"
    (oneOf [childOfKind "property" "PropertyDefinition", childOfKind "group" "GroupDefinition"]))

/-- Types. -/
def typeDefinition : String × Keywords :=
  ("TypeDefinition", described "A named type with its ordered children"
    (recordType
      [("children", described "Child definitions in document order" (listOrNone (ref "ChildDefinition"))),
        ("element", described "Global element declared with this type" (optionalRef "QName")),
        ("feature_type",
          described "Whether this is a feature type (a type-mapping boundary)" flagOff),
        ("geometry", described "Whether this is a geometry type" flagOff),
        ("name", described "Type name" (ref "QName"))] ["name"]))

/-- **The schema of schemas.** -/
def schema : Data :=
  document "Schema"
    (described "A complete schema as produced by a schema reader"
      (recordType
        [("prefixes", described "Prefix hints (prefix -> namespace URI)" (mapOf string)),
          ("types", described "Type definitions" (listOrNone (ref "TypeDefinition")))] []))
    [childDefinition, groupDefinition, propertyDefinition, qname, typeDefinition]

/-- Output formats. -/
def outputFormat : String × Keywords :=
  ("OutputFormat", described "Output format of the mapping document" (enumeration ["xml", "json", "yaml"]))

/-- **The schema of configurations.** -/
def config : Data :=
  document "CompilerConfig"
    (described "Compiler settings"
      (recordType
        [("fail_fast", described "Stop at the first failing cell" flagOff),
          ("format", described "Default output format"
            (withDefault (.text FeatureAlignment.Config.standard.format.name) (ref "OutputFormat"))),
          ("link_field_prefix", described "Link fields are named `<prefix>[n]`"
            (withDefault (.text FeatureAlignment.Config.standardLinkStem) string)),
          ("namespaces", described "Preferred prefixes (namespace URI -> prefix)"
            (withDefault FeatureAlignment.Config.standardNamespaces.toData (mapOf string))),
          ("target_crs", described "CRS for geometry mappings; native CRS is used when absent"
            (nullable "string"))] []))
    [outputFormat]

/-- Attribute mappings. -/
def attributeMapping : String × Keywords :=
  ("AttributeMapping", described "One target attribute and how to compute it"
    (recordType
      [("clientProperties", listOf (ref "ClientProperty")), ("idExpression", nullable "string"),
        ("isMultiple", flagOff), ("linkElement", nullable "string"), ("linkField", nullable "string"),
        ("sourceExpression", nullable "string"), ("targetAttribute", string),
        ("targetAttributeNode",
          described "Concrete substitution type when the path goes through an abstract element"
            (nullable "string"))] ["targetAttribute"]))

/-- Client properties. -/
def clientProperty : String × Keywords :=
  ("ClientProperty", described "XML-attribute decoration on a target element"
    (recordType [("name", string), ("value", string)] ["name", "value"]))

/-- Type mappings. -/
def typeMapping : String × Keywords :=
  ("FeatureTypeMapping", described "Mapping of one source type onto one target element"
    (recordType
      [("attributeMappings", listOrNone (ref "AttributeMapping")), ("sourceType", string),
        ("targetElement", string)] ["sourceType", "targetElement"]))

/-- Namespaces. -/
def namespaceEntry : String × Keywords :=
  ("Namespace", recordType [("prefix", string), ("uri", string)] ["prefix", "uri"])

/-- **The schema of mapping documents.** -/
def mappingDocument : Data :=
  document "MappingDocument"
    (described "The compiled mapping document"
      (recordType
        [("namespaces", described "Prefix table, each prefix unique" (listOf (ref "Namespace"))),
          ("typeMappings", described "Type mappings in creation order" (listOf (ref "FeatureTypeMapping")))]
        ["namespaces", "typeMappings"]))
    [attributeMapping, clientProperty, typeMapping, namespaceEntry]

/-- Failed cells. -/
def cellFailure : String × Keywords :=
  ("CellFailure", described "A cell that failed to compile"
    (recordType
      [("cell_id", string), ("function", string), ("kind", ref "FailureKind"), ("message", string)]
      ["cell_id", "function", "kind", "message"]))

/-- Kinds of failure. -/
def failureKind : String × Keywords :=
  ("FailureKind", described "Failure classification" (enumeration (FailureKind.all.map FailureKind.name)))

/-- **The schema of reports.** -/
def report : Data :=
  document "CompileReport"
    (described "Result summary of one compilation"
      (recordType
        [("compiled_at", string),
          ("compiled_cells", described "Ids of cells compiled without error, in processing order"
            (listOf string)),
          ("document_hash", described "Fingerprint of the produced document" string),
          ("failures", listOf (ref "CellFailure")),
          ("success", described "No cell failed" boolean),
          ("warnings", described "Non-fatal diagnostics (e.g. CRS fallback)" (listOrNone string))]
        ["success", "compiled_cells", "failures", "document_hash", "compiled_at"]))
    [cellFailure, failureKind]

/-- **The schemas by name.** -/
def named? (name : String) : Option Data :=
  [("alignment", alignment), ("schema", schema), ("config", config), ("document", mappingDocument),
    ("report", report), ("condition", condition), ("operand", operand), ("parameters", parameters),
    ("lookup", lookupTable)].lookup name

end JsonSchema

end FeatureAlignment
