import FeatureAlignment.Proofs.Registry.Naming

/-!
# Operations of the registry as they run

Each operation as an equation: what it answers, and the registry afterwards.

* `renderElement_on`, `ensureMapping_on`, `registerLink_on`, `upsert_on`.
* `renderElement_renamed`: rendering an element only names, also when it fails.
-/

namespace FeatureAlignment

namespace Registry

/-- Rendering an element fails only if its type is unknown. -/
theorem renderElement_on (env : Environment) (type : QName) (r : Registry) :
    (renderElement env type).on r =
      match env.target.get? type with
      | some t => (.ok ((renderName env t.elementName).run r).1, ((renderName env t.elementName).run r).2)
      | none => (.error (.unknownType type), r) := by
  unfold renderElement
  rw [Build.on_except_bind]
  unfold SchemaIndex.require
  cases env.target.get? type <;> rfl

theorem renderElement_renamed {type : QName} {r s : Registry} {result : Except Failure String}
    (h : (renderElement env type).on r = (result, s)) : Renamed r s := by
  rw [renderElement_on] at h
  cases ht : env.target.get? type with
  | none => rw [ht] at h; cases h; exact .refl r
  | some t => rw [ht] at h; cases h; exact (naming_renderName env t.elementName).renamed r

/-- A mapping is found, or created once its element is rendered. -/
theorem ensureMapping_on (env : Environment) (type source : QName) (r : Registry) :
    (ensureMapping env type source).on r =
      match r.mapping? type with
      | some m => (.ok m, r)
      | none =>
        match (renderElement env type).on r with
        | (.ok element, s) =>
          (.ok ⟨source.localName, element, []⟩, s.addMapping type ⟨source.localName, element, []⟩)
        | (.error e, s) => (.error e, s) := by
  unfold ensureMapping
  rw [Build.on_get_bind]
  cases r.mapping? type with
  | some m => rfl
  | none =>
    simp only [Build.on_bind]
    rcases (renderElement env type).on r with ⟨e | element, s⟩ <;> rfl

/-- A link is found, or created once its element is rendered. -/
theorem registerLink_on (env : Environment) (container nested : QName) (r : Registry) :
    (registerLink env container nested).on r =
      match r.link? container nested with
      | some l => (.ok l, r)
      | none =>
        match (renderElement env nested).on r with
        | (.ok element, s) =>
          let l : FeatureLink := ⟨container, nested, element, env.config.linkField (s.links.length + 1)⟩
          (.ok l, s.addLink l)
        | (.error e, s) => (.error e, s) := by
  unfold registerLink
  rw [Build.on_get_bind]
  cases r.link? container nested with
  | some m => rfl
  | none =>
    simp only [Build.on_bind]
    rcases (renderElement env nested).on r with ⟨e | element, s⟩ <;> rfl

/-- An attribute is changed if its type has a mapping. -/
theorem upsert_on (type : QName) (key : String) (f : AttributeMapping → AttributeMapping) (r : Registry) :
    (upsert type key f).on r =
      match r.slots.lookup type with
      | none => (.error (.noMapping type), r)
      | some slot => (.ok (f ((r.attribute? type key).getD (.ofTarget key))), r.changeAt slot key f) := by
  unfold upsert
  rw [Build.on_get_bind]
  cases r.slots.lookup type <;> rfl

end Registry

end FeatureAlignment
