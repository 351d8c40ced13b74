import FeatureAlignment.Proofs.Path.Crossings
import FeatureAlignment.Proofs.Registry.Growth
import FeatureAlignment.Proofs.Registry.Operations

/-!
# Operations on registries with keys

Naming, warnings and new mappings change no attribute that is there, and no link. What was named, mapped or
linked once is found again by the same operation, which writes nothing then.

* `Registry.Calm r s`: from `r` to `s` only such steps were taken.
* `Names m r a`: from the registry `r` on, the naming computation `m` answers `a` and writes
  nothing. `nameText` and `pathText` are such answers, read off a registry.
* `Keyed.ensureMapping`, `Keyed.registerLink`, `Keyed.upsert`: operations on known types succeed.
* `Keyed.ensureMapping_again`: a mapping is asked for a second time.
-/

namespace FeatureAlignment

namespace Registry

variable {env : Environment} {r s t : Registry} {type source container nested : QName}

/-- **Calm steps**: the registry grows and finds by keys, and attributes and links are the same. -/
structure Calm (r s : Registry) : Prop where
  keyed : s.Keyed
  grows : r.Extends s
  attributes : s.attribute? = r.attribute?
  links : s.links = r.links

theorem Keyed.calm (h : r.Keyed) : Calm r r := ⟨h, .refl r, rfl, rfl⟩

theorem Calm.trans (h : Calm r s) (h' : Calm s t) : Calm r t :=
  ⟨h'.keyed, h.grows.trans h'.grows, h'.attributes.trans h.attributes, h'.links.trans h.links⟩

theorem Calm.maps (h : Calm r s) (hr : r.Keyed) (hm : r.Maps type) : s.Maps type :=
  h.grows.maps hr h.keyed hm

theorem Renamed.calm (h : Renamed r s) (hr : r.Keyed) : Calm r s :=
  ⟨hr.renamed h, h.extends, funext fun t => funext fun k => h.attribute? t k, h.links⟩

theorem Keyed.calm_addMapping (h : r.Keyed) (hm : r.mapping? type = none) (source element : String) :
    Calm r (r.addMapping type ⟨source, element, []⟩) :=
  ⟨h.addMapping hm source element, extends_addMapping _ _ _,
    funext fun t => funext fun k => h.attribute?_addMapping hm source element t k, rfl⟩

/-! ## Settled names -/

/-- **A settled name.** The computation answers it, now and later, and writes nothing. -/
def Names {α : Type} (m : StateM Registry α) (r : Registry) (a : α) : Prop := m.run r = (a, r)

/-- What was named once is settled. -/
theorem Naming.names {α : Type} {m : StateM Registry α} (h : Naming m) (r : Registry) :
    Names m (m.run r).2 (m.run r).1 := h.stable (List.prefix_refl _)

/-- A settled name stays. -/
theorem Names.grow {α : Type} {m : StateM Registry α} {a : α} (h : Names m r a) (hm : Naming m)
    (hg : r.Extends s) : Names m s a := by
  have hr : m.run r = (a, r) := h
  have hp : (m.run r).2.namespaces <+: s.namespaces := by rw [hr]; exact hg.namespaces
  have hs := hm.stable hp
  rw [hr] at hs
  exact hs

/-- **A name as text**, with the prefixes of a registry. -/
def nameText (env : Environment) (r : Registry) (name : QName) : String := ((renderName env name).run r).1

/-- **A path as text**, with the prefixes of a registry. -/
def pathText (env : Environment) (r : Registry) (segments : List Segment) : String :=
  ((renderPath env segments).run r).1

/-- A settled name is its text. -/
theorem nameText_eq {name : QName} {text : String} (h : Names (renderName env name) r text) :
    r.nameText env name = text := by
  unfold nameText
  rw [show (renderName env name).run r = (text, r) from h]

/-- A settled path is its text. -/
theorem pathText_eq {segments : List Segment} {key : String} (h : Names (renderPath env segments) r key) :
    r.pathText env segments = key := by
  unfold pathText
  rw [show (renderPath env segments).run r = (key, r) from h]

/-! ## Mappings -/

/-- A known element is rendered. -/
theorem renderElement_ok (hk : env.target.Knows type) (r : Registry) :
    ∃ element s, (renderElement env type).on r = (.ok element, s) ∧ Renamed r s := by
  obtain ⟨d, hd⟩ := hk.exists_type
  have hn := (naming_renderName env d.elementName).renamed r
  refine ⟨((renderName env d.elementName).run r).1, _, ?_, hn⟩
  rw [renderElement_on, hd]

/-- A mapped type keeps its mapping. -/
theorem Maps.ensureMapping (h : r.Maps type) (env : Environment) (source : QName) :
    ∃ m, r.mapping? type = some m ∧ (ensureMapping env type source).on r = (.ok m, r) := by
  obtain ⟨m, hm⟩ := Option.isSome_iff_exists.1 h
  refine ⟨m, hm, ?_⟩
  rw [ensureMapping_on, hm]

/-- A new mapping fails only before anything is written. -/
theorem ensureMapping_error {e : Failure} (h : (ensureMapping env type source).on r = (.error e, s)) :
    s = r := by
  rw [ensureMapping_on] at h
  cases hm : r.mapping? type with
  | some m => rw [hm] at h; cases h
  | none =>
    rw [hm, renderElement_on] at h
    cases ht : env.target.get? type with
    | none => rw [ht] at h; cases h; rfl
    | some d => rw [ht] at h; cases h

/-- **A mapping that is answered** is there already, or it is new and comes to the end, after its element has
been rendered. -/
theorem ensureMapping_ok {m : TypeMapping} (h : (ensureMapping env type source).on r = (.ok m, s)) :
    (r.mapping? type = some m ∧ s = r) ∨
      ∃ u, r.mapping? type = none ∧ (renderElement env type).on r = (.ok m.targetElement, u) ∧
        m = ⟨source.localName, m.targetElement, []⟩ ∧
        s = u.addMapping type ⟨source.localName, m.targetElement, []⟩ := by
  rw [ensureMapping_on] at h
  cases hr : r.mapping? type with
  | some m' =>
    rw [hr] at h
    cases h
    exact .inl ⟨rfl, rfl⟩
  | none =>
    rw [hr] at h
    cases he : (renderElement env type).on r with
    | mk result u =>
      rw [he] at h
      cases result with
      | error e => cases h
      | ok element =>
        cases h
        exact .inr ⟨u, rfl, rfl, rfl, rfl⟩

/-- Nothing is warned about when a mapping is asked for. -/
theorem ensureMapping_warnings {m : TypeMapping} (h : (ensureMapping env type source).on r = (.ok m, s)) :
    s.warnings = r.warnings := by
  rcases ensureMapping_ok h with ⟨-, rfl⟩ | ⟨u, -, hrendered, -, rfl⟩
  · rfl
  · exact (renderElement_renamed hrendered).warnings

/-- **A type that has a mapping afterwards** has it calmly. -/
theorem Keyed.ensureMapping_ok (h : r.Keyed) {m : TypeMapping}
    (hm : (ensureMapping env type source).on r = (.ok m, s)) : Calm r s ∧ s.mapping? type = some m := by
  rcases Registry.ensureMapping_ok hm with ⟨hr, rfl⟩ | ⟨u, hr, hrendered, hmapping, rfl⟩
  · exact ⟨h.calm, hr⟩
  · -- rendering the element gives no type a mapping
    have hn := renderElement_renamed hrendered
    have hu : u.mapping? type = none := by rw [hn.mapping?, hr]
    have hc := (hn.calm h).trans ((h.renamed hn).calm_addMapping hu source.localName m.targetElement)
    refine ⟨hc, ?_⟩
    unfold Registry.mapping?
    rw [(h.renamed hn).held?_addMapping, if_pos rfl, Option.map_some, ← hmapping]

/-- **Asking for a mapping again** comes to the same, and writes nothing. -/
theorem Keyed.ensureMapping_again (h : r.Keyed) {result : Except Failure TypeMapping}
    (hm : (ensureMapping env type source).on r = (result, s)) :
    (ensureMapping env type source).on s = (result, s) := by
  cases result with
  | error e =>
    have hsame := ensureMapping_error hm
    subst hsame
    exact hm
  | ok m =>
    have hs := (h.ensureMapping_ok hm).2
    rw [ensureMapping_on, hs]

/-- **A known type gets a mapping.** -/
theorem Keyed.ensureMapping (h : r.Keyed) (hk : env.target.Knows type) (source : QName) :
    ∃ m s, (ensureMapping env type source).on r = (.ok m, s) ∧ Calm r s ∧ s.mapping? type = some m := by
  cases he : (Registry.ensureMapping env type source).on r with
  | mk result s =>
    cases result with
    | ok m => exact ⟨m, s, rfl, h.ensureMapping_ok he⟩
    | error e =>
      -- only the rendering of an unknown element fails
      exfalso
      rw [ensureMapping_on] at he
      obtain ⟨element, s', hel, -⟩ := renderElement_ok hk r
      rw [hel] at he
      cases hr : r.mapping? type with
      | some m => rw [hr] at he; cases he
      | none => rw [hr] at he; cases he

/-! ## Links and attributes -/

/-- A new link is a link of its types. -/
theorem link?_addLink {l : FeatureLink} (h : r.link? l.container l.nested = none) :
    (r.addLink l).link? l.container l.nested = some l := by
  unfold link? at h
  unfold link? addLink
  rw [List.find?_append, h]
  simp

/-- **Known types get a link.** -/
theorem Keyed.registerLink (h : r.Keyed) (hk : env.target.Knows nested) (container : QName) :
    ∃ l s, (registerLink env container nested).on r = (.ok l, s) ∧ s.Keyed ∧ r.Extends s ∧
      s.attribute? = r.attribute? ∧ s.link? container nested = some l ∧
      (s.links = r.links ∨ s.links = r.links ++ [l]) := by
  rw [registerLink_on]
  cases hr : r.link? container nested with
  | some l => exact ⟨l, r, rfl, h, .refl r, rfl, hr, .inl rfl⟩
  | none =>
    obtain ⟨element, s, he, hn⟩ := renderElement_ok hk r
    rw [he]
    -- the element is rendered first, which leaves the links as they are
    let l : FeatureLink := ⟨container, nested, element, env.config.linkField (s.links.length + 1)⟩
    have hs : s.link? l.container l.nested = none := by rw [hn.link?, hr]
    have hc := hn.calm h
    refine ⟨l, s.addLink l, rfl, ⟨hc.keyed.slots, hc.keyed.entries⟩, hc.grows.trans (extends_addLink _ _),
      hc.attributes, link?_addLink hs, .inr ?_⟩
    simp only [Registry.addLink, hn.links]

/-- **A link is found again.** -/
theorem registerLink_again {l : FeatureLink} (h : r.link? container nested = some l) (env : Environment) :
    (registerLink env container nested).on r = (.ok l, r) := by
  rw [registerLink_on, h]

/-- The attribute of a mapped type is changed. -/
theorem Keyed.upsert (h : r.Keyed) {f : AttributeMapping → AttributeMapping}
    (hf : AttributeMapping.Change f) (hm : r.Maps type) (key : String) :
    ∃ a s, (upsert type key f).on r = (.ok a, s) ∧ s.Keyed ∧ r.Extends s ∧
      s.attribute? = changed r.attribute? type key f ∧ s.attribute? type key = some a ∧ s.links = r.links := by
  obtain ⟨slot, hs⟩ := hm.slot
  have hc : (r.changeAt slot key f).attribute? = changed r.attribute? type key f := h.attribute?_changeAt hs key
  rw [upsert_on, hs]
  refine ⟨_, _, rfl, h.changeAt slot key f, extends_changeAt hf r slot key, hc, ?_, rfl⟩
  rw [hc, changed_self]

end Registry

end FeatureAlignment
