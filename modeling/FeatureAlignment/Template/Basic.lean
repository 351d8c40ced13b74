import FeatureAlignment.Document.Xml

/-!
# Templates

A template is text with outputs, loops and branches over a value, by which the
text of a mapping document can be laid out otherwise.

* `Template.Value` is what a template sees, `MappingDocument.templateFields` what it
  sees of a document.
* `Template.Part` is a piece of a template, `Template.Query` an expression in it.
-/

namespace FeatureAlignment

namespace Template

/-- **A value in a template**; `missing` is what a name stands for that is not there. -/
inductive Value
  | missing
  | none
  | flag (b : Bool)
  | text (s : String)
  | list (items : List Value)
  | record (fields : List (String × Value))
  deriving BEq, Repr, Inhabited

namespace Value

/-- A text that may be absent. -/
def optional : Option String → Value
  | some s => .text s
  | Option.none => .none

/-- **Truth**: what is missing, absent or empty is false. -/
def isTrue : Value → Bool
  | .missing => false
  | .none => false
  | .flag b => b
  | .text s => !s.isEmpty
  | .list items => !items.isEmpty
  | .record fields => !fields.isEmpty

/-- The field of a value; only what is missing cannot be asked for one. -/
def field? (name : String) : Value → Option Value
  | .missing => Option.none
  | .record fields => some ((fields.lookup name).getD .missing)
  | _ => some .missing

/-- The items over which a loop runs. -/
def items? : Value → Option (List Value)
  | .missing => some []
  | .none => some []
  | .flag _ => Option.none
  | .text s => some (s.toList.map (fun c => .text (String.singleton c)))
  | .list items => some items
  | .record fields => some (fields.map (fun f => .text f.1))

/-- A character inside a quoted text. -/
def quoteChar (c : Char) : String :=
  if c == '"' then "\\\""
  else if c == '\\' then "\\\\"
  else if c == '\n' then "\\n"
  else if c == '\r' then "\\r"
  else if c == '\t' then "\\t"
  else String.singleton c

/-- A text inside a list or record. -/
def quote (s : String) : String := "\"" ++ Text.concat (s.toList.map quoteChar) ++ "\""

mutual

/-- A value inside a list or record. -/
def inner : Value → String
  | .missing => "undefined"
  | .none => "none"
  | .flag b => if b then "true" else "false"
  | .text s => quote s
  | .list items => "[" ++ Text.join ", " (innerItems items) ++ "]"
  | .record fields => "\x7b" ++ Text.join ", " (innerFields fields) ++ "\x7d"

/-- The items of a list. -/
def innerItems : List Value → List String
  | [] => []
  | v :: vs => v.inner :: innerItems vs

/-- The fields of a record. -/
def innerFields : List (String × Value) → List String
  | [] => []
  | (name, v) :: rest => (quote name ++ ": " ++ v.inner) :: innerFields rest

end

/-- **The text of a value**: nothing for what is missing, a text as it is. -/
def display : Value → String
  | .missing => ""
  | .text s => s
  | v => v.inner

end Value

/-- **An expression in a template**: a name with fields, a filtered value, or the
first of two values that is true. -/
inductive Query
  | path (name : String) (fields : List String)
  | filtered (filter : String) (value : Query)
  | either (first second : Query)
  deriving DecidableEq, Repr

/-- **A piece of a template**: text, the output of a value, a loop over the items of
a value, or a branch on its truth. -/
inductive Part
  | text (s : String)
  | output (value : Query)
  | loop (name : String) (range : Query) (body : List Part)
  | branch (condition : Query) (body : List Part)
  deriving Repr

end Template

/-- What a template sees of a namespace. -/
def Namespace.templateValue (n : Namespace) : Template.Value :=
  .record [("prefix", .text n.label), ("uri", .text n.uri)]

/-- What a template sees of a client property. -/
def ClientProperty.templateValue (p : ClientProperty) : Template.Value :=
  .record [("name", .text p.name), ("value", .text p.value)]

/-- What a template sees of an attribute mapping; the two parts of a link are only
seen together. -/
def AttributeMapping.templateValue (a : AttributeMapping) : Template.Value :=
  let linked := a.linkElement.isSome && a.linkField.isSome
  .record [("client_properties", .list (a.clientProperties.map ClientProperty.templateValue)),
    ("id_expression", .optional a.idExpression),
    ("is_multiple", .flag a.isMultiple),
    ("link_element", .optional (if linked then a.linkElement else none)),
    ("link_field", .optional (if linked then a.linkField else none)),
    ("source_expression", .optional a.sourceExpression),
    ("target_attribute", .text a.targetAttribute),
    ("target_attribute_node", .optional a.targetNode)]

/-- What a template sees of a type mapping. -/
def TypeMapping.templateValue (m : TypeMapping) : Template.Value :=
  .record [("attributes", .list (m.attributes.map AttributeMapping.templateValue)),
    ("source_type", .text m.sourceType), ("target_element", .text m.targetElement)]

/-- **What a template sees of a document**: its namespaces and type mappings. -/
def MappingDocument.templateFields (d : MappingDocument) : List (String × Template.Value) :=
  [("namespaces", .list (d.namespaces.map Namespace.templateValue)),
    ("type_mappings", .list (d.mappings.map TypeMapping.templateValue))]

end FeatureAlignment
