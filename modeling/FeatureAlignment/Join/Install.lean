import FeatureAlignment.Join.Plan

/-!
# Installing joins

A planned link is installed on both sides: the property of the container gets
the base key and the link to the nested element, and the nested type gets an
attribute with the link field that holds the foreign key.

* `JoinPlan.install` installs one plan; doing so again changes nothing.
* `Cell.link` plans a join cell and installs all its plans.
-/

namespace FeatureAlignment

namespace JoinPlan

/-- The attribute of the container, linked. A reference gets the foreign key as its
target unless it has one already. -/
def linkContainer (p : JoinPlan) (link : FeatureLink) (href : String) (a : AttributeMapping) :
    AttributeMapping :=
  let linked : AttributeMapping :=
    { a with
      sourceExpression := some p.baseKey
      linkElement := some link.linkElement
      linkField := some link.linkField
      isMultiple := true }
  if p.isReference && (linked.clientProperty? href).isNone then linked.setClientProperty href p.foreignKey
  else linked

/-- The attribute of the nested type that holds the foreign key. -/
def linkNested (p : JoinPlan) (a : AttributeMapping) : AttributeMapping :=
  { a with sourceExpression := some p.foreignKey }

/-- The name of the attribute that refers to a feature. -/
def hrefName : QName := .qualified QName.xlink "href"

/-- **Installing a plan.** -/
def install (env : Environment) (p : JoinPlan) : Build Unit := do
  let link ← Registry.registerLink env p.containerType p.nestedType
  let _ ← Registry.ensureMapping env p.containerType p.containerSource
  let _ ← Registry.ensureMapping env p.nestedType p.nestedSource
  let key ← Registry.renderPath env p.segments
  let href ← Registry.renderName env hrefName
  let _ ← Registry.upsert p.containerType key (p.linkContainer link href)
  let _ ← Registry.upsert p.nestedType link.linkField p.linkNested

/-- Installing plans one after the other. -/
def installAll (env : Environment) : List JoinPlan → Build Unit
  | [] => return ()
  | p :: ps => do
    p.install env
    installAll env ps

end JoinPlan

/-- **Planning and installing** a join cell. -/
def Cell.link (env : Environment) (c : Cell) : Build (List JoinPlan) := do
  let plans ← c.plan env
  JoinPlan.installAll env plans
  return plans

end FeatureAlignment
