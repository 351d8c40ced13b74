import FeatureAlignment.Text

/-!
# Qualified names

Names of types and properties are written in Clark notation: the namespace in
braces, then the local name; without braces the name has no namespace.

* `QName.uri` and `QName.localName` are the two parts of a name.
* `QName.isGmlId` recognises the identifier attribute of GML features.
-/

namespace FeatureAlignment

/-- **A qualified name**, as it is written. Two names are equal when they are
written alike. -/
structure QName where
  text : String
  deriving DecidableEq, Repr, Inhabited

namespace QName

/-- The namespace of GML 3.2. -/
def gml32 : String := "http://www.opengis.net/gml/3.2"

/-- The namespace of GML 3.1. -/
def gml31 : String := "http://www.opengis.net/gml"

/-- The namespace of XLink. -/
def xlink : String := "http://www.w3.org/1999/xlink"

/-- The name with this namespace and local part. -/
def qualified (uri localName : String) : QName :=
  if uri.isEmpty then ⟨localName⟩ else ⟨"\x7b" ++ uri ++ "\x7d" ++ localName⟩

/-- The characters before and after the first closing brace. -/
def atBrace? : List Char → Option (List Char × List Char)
  | [] => none
  | c :: cs =>
    if c = '\x7d' then some ([], cs)
    else (atBrace? cs).map (fun p => (c :: p.1, p.2))

/-- The two parts of a name that has braces. -/
def parts? (name : QName) : Option (List Char × List Char) :=
  match name.text.toList with
  | '\x7b' :: cs => atBrace? cs
  | _ => none

/-- **The namespace** of a name, empty when it has none. -/
def uri (name : QName) : String :=
  match name.parts? with
  | some (uri, _) => String.ofList uri
  | none => ""

/-- **The local part** of a name. -/
def localName (name : QName) : String :=
  match name.parts? with
  | some (_, rest) => String.ofList rest
  | none => name.text

/-- Whether a name has a namespace. -/
def isQualified (name : QName) : Bool := !name.uri.isEmpty

/-- Whether a namespace belongs to GML. -/
def isGml (uri : String) : Bool := uri == gml32 || uri == gml31

/-- **The identifier attribute** of features in any version of GML. -/
def isGmlId (name : QName) : Bool := name.localName == "id" && isGml name.uri

/-- The local parts of names as a path. -/
def path (names : List QName) : String := Text.join "/" (names.map localName)

end QName

end FeatureAlignment
