import FeatureAlignment.Document.Basic
import FeatureAlignment.Text

/-!
# Mapping documents in XML

* `Xml.escape` writes text as character data.
* `MappingDocument.toXml` is the XML form of a mapping document: one line for each
  tag or short element, indented by four spaces a level.

What is absent or empty gets no element. A link is written when both its element
and its field are there.
-/

namespace FeatureAlignment

namespace Xml

/-- A character as character data. -/
def escapeChar (c : Char) : String :=
  if c == '&' then "&amp;"
  else if c == '<' then "&lt;"
  else if c == '>' then "&gt;"
  else if c == '"' then "&quot;"
  else if c == '\'' then "&apos;"
  else String.singleton c

/-- **Text as character data.** -/
def escape (s : String) : String := Text.concat (s.toList.map escapeChar)

/-- The blanks before a line at a level. -/
def indent (level : Nat) : String := Text.replicate (4 * level) ' '

/-- An opening tag on a line. -/
def opening (level : Nat) (tag : String) : String := indent level ++ "<" ++ tag ++ ">"

/-- A closing tag on a line. -/
def closing (level : Nat) (tag : String) : String := indent level ++ "</" ++ tag ++ ">"

/-- An element with text on a line. -/
def leaf (level : Nat) (tag text : String) : String :=
  indent level ++ "<" ++ tag ++ ">" ++ escape text ++ "</" ++ tag ++ ">"

/-- Lines inside an element. -/
def element (level : Nat) (tag : String) (content : List String) : List String :=
  opening level tag :: content ++ [closing level tag]

/-- A text that is there and not empty. -/
def present (text : Option String) : Option String := text.filter (fun s => !s.isEmpty)

/-- The lines for a text that is there and not empty. -/
def ifPresent (lines : String → List String) (text : Option String) : List String :=
  ((present text).map lines).getD []

end Xml

open Xml

/-- The lines of a namespace. -/
def Namespace.xmlLines (n : Namespace) : List String :=
  element 2 "Namespace" [leaf 3 "prefix" n.label, leaf 3 "uri" n.uri]

/-- The lines of a client property. -/
def ClientProperty.xmlLines (p : ClientProperty) : List String :=
  element 5 "ClientProperty" [leaf 6 "name" p.name, leaf 6 "value" p.value]

namespace AttributeMapping

/-- The link of an attribute: its element, unless it is empty, and its field. -/
def link? (a : AttributeMapping) : Option (String × String) :=
  match a.linkElement, a.linkField with
  | some linkElement, some linkField => if linkElement.isEmpty then none else some (linkElement, linkField)
  | _, _ => none

/-- The lines of a link. -/
def linkLines (a : AttributeMapping) : List String :=
  match a.link? with
  | some (linkElement, linkField) => [leaf 6 "linkElement" linkElement, leaf 6 "linkField" linkField]
  | none => []

/-- The lines of the value: its expression, and its link. -/
def valueLines (a : AttributeMapping) : List String :=
  if (present a.sourceExpression).isNone && a.link?.isNone then []
  else
    element 5 "sourceExpression" (ifPresent (fun s => [leaf 6 "OCQL" s]) a.sourceExpression ++ a.linkLines)

/-- The lines of an attribute mapping. -/
def xmlLines (a : AttributeMapping) : List String :=
  element 4 "AttributeMapping" (
    [leaf 5 "targetAttribute" a.targetAttribute] ++
      ifPresent (fun s => [leaf 5 "targetAttributeNode" s]) a.targetNode ++
      ifPresent (fun s => element 5 "idExpression" [leaf 6 "OCQL" s]) a.idExpression ++
      a.valueLines ++
      (if a.isMultiple then [leaf 5 "isMultiple" "true"] else []) ++
      a.clientProperties.flatMap ClientProperty.xmlLines)

end AttributeMapping

/-- The lines of a type mapping. -/
def TypeMapping.xmlLines (m : TypeMapping) : List String :=
  element 2 "FeatureTypeMapping" (
    [leaf 3 "sourceType" m.sourceType, leaf 3 "targetElement" m.targetElement] ++
      (if m.attributes.isEmpty then []
        else element 3 "attributeMappings" (m.attributes.flatMap AttributeMapping.xmlLines)))

namespace MappingDocument

/-- The lines of a document. -/
def xmlLines (d : MappingDocument) : List String :=
  ["<?xml version=\"1.0\" encoding=\"UTF-8\"?>",
    "<as:AppSchemaDataAccess xmlns:as=\"http://www.geotools.org/app-schema\">"] ++
    element 1 "namespaces" (d.namespaces.flatMap Namespace.xmlLines) ++
    element 1 "typeMappings" (d.mappings.flatMap TypeMapping.xmlLines) ++
    ["</as:AppSchemaDataAccess>"]

/-- **A mapping document in XML.** -/
def toXml (d : MappingDocument) : String := Text.join "\n" d.xmlLines

end MappingDocument

end FeatureAlignment
