import FeatureAlignment.Config.Basic
import FeatureAlignment.Document.Codec
import FeatureAlignment.Document.Xml

/-!
# Mapping documents as text

* `MappingDocument.render` writes a document in a format.
-/

namespace FeatureAlignment

/-- **A mapping document in a format.** -/
def MappingDocument.render (d : MappingDocument) : OutputFormat → String
  | .xml => d.toXml
  | .json => Json.pretty d.toData
  | .yaml => Yaml.print d.toData

end FeatureAlignment
