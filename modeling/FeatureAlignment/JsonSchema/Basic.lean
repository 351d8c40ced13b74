import FeatureAlignment.Data.Basic

/-!
# JSON Schemas

The shapes of the documents that the program reads and writes can be published
as JSON Schemas. A schema is a record of keywords.

* `JsonSchema.recordType` is the schema of a record type.
* `JsonSchema.document` is a whole schema with its definitions.
-/

namespace FeatureAlignment

namespace JsonSchema

/-- **The keywords of a schema**, in the order in which they are written. -/
abbrev Keywords : Type := List (String × Data)

/-- The schema defined under a name. -/
def ref (name : String) : Keywords := [("$ref", .text ("#/$defs/" ++ name))]

/-- The schema of the whole document. -/
def whole : Keywords := [("$ref", .text "#")]

/-- Values of a basic type. -/
def typed (type : String) : Keywords := [("type", .text type)]

/-- Texts. -/
def string : Keywords := typed "string"

/-- Truth values. -/
def boolean : Keywords := typed "boolean"

/-- Values of a basic type, or null. -/
def nullable (type : String) : Keywords := [("type", .texts [type, "null"])]

/-- One of several schemas. -/
def anyOf (schemas : List Keywords) : Keywords := [("anyOf", .list (schemas.map .object))]

/-- Exactly one of several schemas. -/
def oneOf (schemas : List Keywords) : Keywords := [("oneOf", .list (schemas.map .object))]

/-- The schema defined under a name, or null. -/
def optionalRef (name : String) : Keywords := anyOf [ref name, typed "null"]

/-- A schema with a description. -/
def described (description : String) (schema : Keywords) : Keywords :=
  ("description", .text description) :: schema

/-- A schema with a default. -/
def withDefault (default : Data) (schema : Keywords) : Keywords := schema ++ [("default", default)]

/-- Lists with items of a schema. -/
def listOf (item : Keywords) : Keywords := [("type", .text "array"), ("items", .object item)]

/-- Lists that are empty by default. -/
def listOrNone (item : Keywords) : Keywords :=
  [("type", .text "array"), ("default", .list []), ("items", .object item)]

/-- Maps from texts to values of a schema. -/
def mapOf (value : Keywords) : Keywords :=
  [("type", .text "object"), ("additionalProperties", .object value)]

/-- Texts out of a list. -/
def enumeration (values : List String) : Keywords :=
  [("type", .text "string"), ("enum", .texts values)]

/-- The names of required properties, left out when there are none. -/
def required (names : List String) : Keywords :=
  if names.isEmpty then [] else [("required", .texts names)]

/-- **Records** with these properties, of which some are required. -/
def recordType (properties : List (String × Keywords)) (requiredNames : List String) : Keywords :=
  [("type", .text "object"), ("properties", .object (properties.map (fun p => (p.1, .object p.2))))] ++
    required requiredNames

/-- **Records** with these properties and no others. -/
def closed (properties : List (String × Keywords)) (requiredNames : List String) : Keywords :=
  [("type", .text "object"), ("properties", .object (properties.map (fun p => (p.1, .object p.2)))),
    ("additionalProperties", .flag false)] ++ required requiredNames

/-- **A whole schema** with its title and the definitions that it refers to. -/
def document (title : String) (root : Keywords) (definitions : List (String × Keywords)) : Data :=
  .object ([("$schema", .text "https://json-schema.org/draft/2020-12/schema"), ("title", .text title)] ++
    root ++
    (if definitions.isEmpty then []
      else [("$defs", .object (definitions.map (fun d => (d.1, .object d.2))))]))

end JsonSchema

end FeatureAlignment
