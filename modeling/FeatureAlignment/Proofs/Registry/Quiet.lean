import FeatureAlignment.Proofs.Compilation.Elementary
import FeatureAlignment.Proofs.Registry.Calm

/-!
# Steps that leave the attributes alone

Naming, warnings and new mappings change no attribute that is there, and no link. The tables of a registry
stay right on the way, as they do in every operation.

* `Registry.Quiet env r s`: from `r` to `s` such steps were taken, and the tables are right.
* `elementary_tables`: every elementary step keeps the tables right.
* `Tables.ensureMapping`, `Tables.upsert`: operations on known types succeed.
-/

namespace FeatureAlignment

namespace Registry

variable {env : Environment} {r s t : Registry} {type source container nested : QName}

/-- **Quiet steps**: the registry grows, its tables are right, and attributes and links are
the same. -/
structure Quiet (env : Environment) (r s : Registry) : Prop where
  tables : Tables env s
  grows : r.Extends s
  attributes : s.attribute? = r.attribute?
  links : s.links = r.links

theorem Tables.quiet (h : Tables env r) : Quiet env r r := ⟨h, .refl r, rfl, rfl⟩

theorem Quiet.trans (h : Quiet env r s) (h' : Quiet env s t) : Quiet env r t :=
  ⟨h'.tables, h.grows.trans h'.grows, h'.attributes.trans h.attributes, h'.links.trans h.links⟩

theorem Quiet.link? (h : Quiet env r s) (container nested : QName) :
    s.link? container nested = r.link? container nested := by
  unfold Registry.link?; rw [h.links]

/-- **A sound registry stays sound** as it grows, if its tables are right and no link is new. -/
theorem Sound.grow (h : Sound env r) (ht : Tables env s) (hg : r.Extends s) (hl : s.links = r.links) :
    Sound env s := by
  refine ⟨ht, fun l hmem => ?_⟩
  rw [hl] at hmem
  obtain ⟨hc, hn⟩ := h.ends l hmem
  exact ⟨hg.maps h.keyed ht.keyed hc, hg.maps h.keyed ht.keyed hn⟩

theorem Sound.quiet (h : Sound env r) (hq : Quiet env r s) : Sound env s :=
  h.grow hq.tables hq.grows hq.links

theorem Renamed.quiet (h : Renamed r s) (hr : Tables env r) : Quiet env r s :=
  ⟨hr.renamed h, h.extends, funext fun t => funext fun k => h.attribute? t k, h.links⟩

theorem Tables.quiet_warned (h : Tables env r) (messages : List String) :
    Quiet env r { r with warnings := r.warnings ++ messages } :=
  ⟨⟨h.slots, h.entries, h.pairs, h.fields⟩, extends_warned r messages, rfl, rfl⟩

/-! ## Operations on known types -/

/-- **The elementary steps keep the tables right.** -/
theorem elementary_tables (env : Environment) :
    Elementary env (fun r s => Tables env r → Tables env s) where
  refl _ h := h
  trans h h' hr := h' (h hr)
  label uri preferred r h := h.renamed ((naming_label env uri preferred).renamed r)
  newMapping hm source element h := h.addMapping hm source element
  change _ hf key h := h.changeAt hf _ key
  newLink hl element h := h.addLink hl element
  warning _ _ h := ⟨h.slots, h.entries, h.pairs, h.fields⟩

/-- Calm steps that keep the tables right are quiet. -/
theorem Calm.quiet (h : Calm r s) (ht : Tables env s) : Quiet env r s := ⟨ht, h.grows, h.attributes, h.links⟩

/-- **A type that has a mapping afterwards** has it quietly. -/
theorem Tables.ensureMapping_ok (h : Tables env r) {m : TypeMapping}
    (hm : (ensureMapping env type source).on r = (.ok m, s)) : Quiet env r s ∧ s.mapping? type = some m := by
  obtain ⟨hc, hs⟩ := h.keyed.ensureMapping_ok hm
  have hkeeps := (elementary_tables env).ensureMapping type source
  exact ⟨hc.quiet (hkeeps.of_on hm h), hs⟩

/-- **A known type gets a mapping.** -/
theorem Tables.ensureMapping (h : Tables env r) (hk : env.target.Knows type) (source : QName) :
    ∃ m s, (ensureMapping env type source).on r = (.ok m, s) ∧ Quiet env r s ∧ s.mapping? type = some m := by
  obtain ⟨m, s, hm, -⟩ := h.keyed.ensureMapping hk source
  exact ⟨m, s, hm, h.ensureMapping_ok hm⟩

/-- The attribute of a mapped type is changed. -/
theorem Tables.upsert (h : Tables env r) {f : AttributeMapping → AttributeMapping}
    (hf : AttributeMapping.Change f) (hm : r.Maps type) (key : String) :
    ∃ a s, (upsert type key f).on r = (.ok a, s) ∧ Tables env s ∧ r.Extends s ∧
      s.attribute? = changed r.attribute? type key f ∧ s.attribute? type key = some a ∧ s.links = r.links := by
  obtain ⟨a, s, hs, -, hrest⟩ := h.keyed.upsert hf hm key
  have hkeeps := (elementary_tables env).upsert hf type key
  exact ⟨a, s, hs, hkeeps.of_on hs h, hrest⟩

end Registry

end FeatureAlignment
