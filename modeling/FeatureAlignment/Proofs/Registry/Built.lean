import FeatureAlignment.Proofs.Registry.Calm

/-!
# Registries built by their own operations

Whoever holds a registry can only use its operations, but may do to an attribute whatever they like. A
registry that has come about in this way finds mappings and attributes by keys.

* `Registry.Built env r`: the registry `r` is what operations have made of the empty one.
* `Built.keyed`: it finds by keys.
-/

namespace FeatureAlignment

namespace Registry

/-- **A registry built by operations**, in any number and order, whether they succeed or fail. An attribute
may be changed in any way. -/
inductive Built (env : Environment) : Registry → Prop
  | empty : Built env .empty
  | label {r : Registry} (uri : String) (preferred : Option String) :
      Built env r → Built env ((Registry.label env uri preferred).run r).2
  | renderName {r : Registry} (name : QName) :
      Built env r → Built env ((Registry.renderName env name).run r).2
  | renderPath {r : Registry} (segments : List Segment) :
      Built env r → Built env ((Registry.renderPath env segments).run r).2
  | renderElement {r : Registry} (type : QName) :
      Built env r → Built env ((Registry.renderElement env type).on r).2
  | ensureMapping {r : Registry} (type source : QName) :
      Built env r → Built env ((Registry.ensureMapping env type source).on r).2
  | upsert {r : Registry} (type : QName) (key : String) (change : AttributeMapping → AttributeMapping) :
      Built env r → Built env ((Registry.upsert type key change).on r).2
  | registerLink {r : Registry} (container nested : QName) :
      Built env r → Built env ((Registry.registerLink env container nested).on r).2
  | warn {r : Registry} (message : String) : Built env r → Built env ((Registry.warn message).run r).2

variable {env : Environment} {r : Registry}

/-- A new mapping keeps the keys, also when it fails. -/
theorem Keyed.on_ensureMapping (h : r.Keyed) (env : Environment) (type source : QName) :
    ((Registry.ensureMapping env type source).on r).2.Keyed := by
  rcases hm : (Registry.ensureMapping env type source).on r with ⟨e | m, s⟩
  · rw [ensureMapping_error hm]
    exact h
  · exact (h.ensureMapping_ok hm).1.keyed

theorem Keyed.on_renderElement (h : r.Keyed) (env : Environment) (type : QName) :
    ((Registry.renderElement env type).on r).2.Keyed := h.renamed (renderElement_renamed rfl)

theorem Keyed.on_upsert (h : r.Keyed) (type : QName) (key : String)
    (change : AttributeMapping → AttributeMapping) : ((Registry.upsert type key change).on r).2.Keyed := by
  rw [upsert_on]
  cases r.slots.lookup type with
  | none => exact h
  | some slot => exact h.changeAt slot key change

theorem Keyed.on_registerLink (h : r.Keyed) (env : Environment) (container nested : QName) :
    ((Registry.registerLink env container nested).on r).2.Keyed := by
  rw [registerLink_on]
  cases r.link? container nested with
  | some l => exact h
  | none =>
    have hkeyed := h.on_renderElement env nested
    rcases hs : (Registry.renderElement env nested).on r with ⟨e | element, s⟩
    · rw [hs] at hkeyed
      exact hkeyed
    · rw [hs] at hkeyed
      exact ⟨hkeyed.slots, hkeyed.entries⟩

/-- **A registry built by operations finds by keys.** -/
theorem Built.keyed (h : Built env r) : r.Keyed := by
  induction h with
  | empty => exact keyed_empty
  | @label r uri preferred _ ih => exact ih.renamed ((naming_label env uri preferred).renamed r)
  | @renderName r name _ ih => exact ih.renamed ((naming_renderName env name).renamed r)
  | @renderPath r segments _ ih => exact ih.renamed ((naming_renderPath env segments).renamed r)
  | renderElement type _ ih => exact ih.on_renderElement env type
  | ensureMapping type source _ ih => exact ih.on_ensureMapping env type source
  | upsert type key change _ ih => exact ih.on_upsert type key change
  | registerLink container nested _ ih => exact ih.on_registerLink env container nested
  | warn message _ ih => exact ⟨ih.slots, ih.entries⟩

end Registry

end FeatureAlignment
