import FeatureAlignment.Failure
import FeatureAlignment.Text.Lowercase
import FeatureAlignment.TextMap

/-!
# Configuration

* `Config` holds the settings of a compilation; `Config.standard` are the
  defaults.
* `Config.check` refuses settings that cannot be used.
* `OutputFormat.ofName` reads the name of a format in any case.
-/

namespace FeatureAlignment

/-- The formats of a mapping document. -/
inductive OutputFormat
  | xml
  | json
  | yaml
  deriving DecidableEq, Repr

namespace OutputFormat

/-- The name of a format. -/
def name : OutputFormat → String
  | .xml => "xml"
  | .json => "json"
  | .yaml => "yaml"

/-- **A format by its name**, in any case; `yml` is `yaml`. -/
def ofName (s : String) : Except Failure OutputFormat :=
  let lower := Text.lowercase s
  if lower = "xml" then .ok .xml
  else if lower = "json" then .ok .json
  else if lower = "yaml" ∨ lower = "yml" then .ok .yaml
  else .error (.config (.unknownFormat lower))

end OutputFormat

/-- **Configuration**: preferred prefixes by namespace, the stem of link fields,
the reference system of target geometries, whether the first failing cell ends a
compilation, and the format of documents. -/
structure Config where
  namespaces : TextMap
  linkStem : String
  targetCrs : Option String
  failFast : Bool
  format : OutputFormat
  deriving DecidableEq, Repr

namespace Config

/-- The prefixes preferred by default. -/
def standardNamespaces : TextMap :=
  .ofList [(QName.gml32, "gml"), (QName.gml31, "gml"), (QName.xlink, "xlink"),
    ("http://www.isotc211.org/2005/gmd", "gmd"), ("http://www.isotc211.org/2005/gco", "gco"),
    ("http://inspire.ec.europa.eu/schemas/base/3.3", "base"),
    ("http://inspire.ec.europa.eu/schemas/lcv/3.0", "lcv")]

/-- The stem of link fields by default. -/
def standardLinkStem : String := "FEATURE_LINK"

/-- **The defaults.** -/
def standard : Config := ⟨standardNamespaces, standardLinkStem, none, false, .xml⟩

/-- The prefix preferred for a namespace. -/
def preferredPrefix? (c : Config) (uri : String) : Option String := c.namespaces.get? uri

/-- **The link field with a number**: the stem and the number in brackets. -/
def linkField (c : Config) (n : Nat) : String := c.linkStem ++ "[" ++ Text.natural n ++ "]"

/-- **Checking**: the stem of link fields is not blank, and every preferred prefix
can be a prefix. -/
def check (c : Config) : Except Failure Unit :=
  if Text.isAllBlank c.linkStem then .error (.config .emptyLinkField)
  else
    match c.namespaces.entries.find? (fun e => !Text.isPrefixName e.2) with
    | some (uri, _) => .error (.config (.invalidPrefix uri))
    | none => .ok ()

end Config

end FeatureAlignment
