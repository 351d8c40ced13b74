import FeatureAlignment.Config.Basic
import FeatureAlignment.Schema.Codec

/-!
# Configuration in documents

* `Config.ofYaml` reads and checks a configuration; blank text is the default.
* `Config.toData` writes one.
-/

namespace FeatureAlignment

/-- The formats by name. -/
def OutputFormat.variants : List (OutputFormat × List String) :=
  [(.xml, ["xml"]), (.json, ["json"]), (.yaml, ["yaml"])]

namespace Config

/-- **A configuration from a document.** Every field has a default. -/
def ofData? (d : Data) : Option Config := do
  match ← d.fields? false ["namespaces", "link_field_prefix", "target_crs", "fail_fast", "format"] with
  | [namespaces, linkStem, targetCrs, failFast, format] =>
    let namespaces ← Data.defaulted? standardNamespaces TextMap.ofData? namespaces
    let linkStem ← Data.defaulted? standardLinkStem Data.text? linkStem
    let targetCrs ← Data.defaulted? none (Data.optional? Data.text?) targetCrs
    let failFast ← Data.defaulted? false Data.flag? failFast
    let format ← Data.defaulted? .xml (Data.variant? OutputFormat.variants) format
    some ⟨namespaces, linkStem, targetCrs, failFast, format⟩
  | _ => none

/-- **A configuration in a document.** -/
def toData (c : Config) : Data :=
  .object ([("namespaces", c.namespaces.toData), ("link_field_prefix", .text c.linkStem)] ++
    Data.field? "target_crs" (c.targetCrs.map .text) ++
    [("fail_fast", .flag c.failFast), ("format", .text c.format.name)])

/-- **A configuration from a YAML text.** -/
def ofYaml (text : String) : Except Failure Config :=
  if Text.isAllBlank text then .ok standard
  else
    match (Yaml.read? text).bind ofData? with
    | none => .error (.config .unreadable)
    | some c => c.check.map (fun _ => c)

end Config

end FeatureAlignment
