import FeatureAlignment.Proofs.Registry.Sound

/-!
# Registries only grow

`Registry.Extends r s`: everything of `r` is still at its place in `s`, with the same
names; only what an attribute says about its value may be different, and what repeats
goes on repeating.

* `extends_addMapping`, `extends_changeAt`, `extends_addLink`: the elementary changes
  extend a registry.
* `Extends.maps`, `Extends.attribute?`, `Extends.link?`: what was found is found again.
-/

namespace FeatureAlignment

open AttributeMapping (Change)

variable {f : AttributeMapping → AttributeMapping}

/-- **A grown attribute**: it has the same target, and it repeats if it did before. -/
structure AttributeMapping.Extends (a b : AttributeMapping) : Prop where
  target : b.targetAttribute = a.targetAttribute
  multiple : a.isMultiple = true → b.isMultiple = true

/-- **A grown mapping**: it is of the same types, and its attributes are where they were. -/
structure MappingEntry.Extends (e e' : MappingEntry) : Prop where
  target : e'.targetType = e.targetType
  source : e'.mapping.sourceType = e.mapping.sourceType
  element : e'.mapping.targetElement = e.mapping.targetElement
  attributes : ∀ (i : Nat) (a : AttributeMapping), e.mapping.attributes[i]? = some a →
    ∃ b, e'.mapping.attributes[i]? = some b ∧ a.Extends b

/-- **A grown registry**: mappings, attributes, links, namespaces and warnings are where they
were, and new ones come after them. -/
structure Registry.Extends (r s : Registry) : Prop where
  namespaces : r.namespaces <+: s.namespaces
  entries : ∀ (i : Nat) (e : MappingEntry), r.entries[i]? = some e → ∃ e', s.entries[i]? = some e' ∧ e.Extends e'
  links : r.links <+: s.links
  warnings : r.warnings <+: s.warnings

namespace AttributeMapping

theorem Extends.refl (a : AttributeMapping) : a.Extends a := ⟨rfl, fun h => h⟩

theorem Extends.trans {a b c : AttributeMapping} (h : a.Extends b) (h' : b.Extends c) : a.Extends c :=
  ⟨h'.target.trans h.target, fun hm => h'.multiple (h.multiple hm)⟩

end AttributeMapping

namespace MappingEntry

theorem Extends.refl (e : MappingEntry) : e.Extends e := ⟨rfl, rfl, rfl, fun _ a h => ⟨a, h, .refl a⟩⟩

theorem Extends.trans {e e' e'' : MappingEntry} (h : e.Extends e') (h' : e'.Extends e'') : e.Extends e'' := by
  refine ⟨h'.target.trans h.target, h'.source.trans h.source, h'.element.trans h.element, fun i a ha => ?_⟩
  obtain ⟨b, hb, hab⟩ := h.attributes i a ha
  obtain ⟨c, hc, hbc⟩ := h'.attributes i b hb
  exact ⟨c, hc, hab.trans hbc⟩

/-- **A changed attribute extends its mapping.** -/
theorem extends_upsert (hf : Change f) (e : MappingEntry) (key : String) : e.Extends (e.upsert key f) := by
  unfold upsert
  split
  · rename_i i _
    refine ⟨rfl, rfl, rfl, fun j a ha => ?_⟩
    simp only [List.getElem?_modify, ha]
    by_cases hij : i = j
    · exact ⟨f a, by simp [hij], hf.target a, hf.multiple a⟩
    · exact ⟨a, by simp [hij], .refl a⟩
  · -- a new attribute comes after the others
    refine ⟨rfl, rfl, rfl, fun j a ha => ⟨a, ?_, .refl a⟩⟩
    have hj := (List.getElem?_eq_some_iff.1 ha).1
    simp only [List.getElem?_append_left hj, ha]

end MappingEntry

namespace Registry

variable {r s t : Registry} {type : QName}

theorem Extends.refl (r : Registry) : r.Extends r :=
  ⟨List.prefix_refl _, fun _ e h => ⟨e, h, .refl e⟩, List.prefix_refl _, List.prefix_refl _⟩

theorem Extends.trans (h : r.Extends s) (h' : s.Extends t) : r.Extends t := by
  refine ⟨h.namespaces.trans h'.namespaces, fun i e he => ?_, h.links.trans h'.links,
    h.warnings.trans h'.warnings⟩
  obtain ⟨e', he', hee'⟩ := h.entries i e he
  obtain ⟨e'', he'', hee''⟩ := h'.entries i e' he'
  exact ⟨e'', he'', hee'.trans hee''⟩

theorem Renamed.extends (h : Renamed r s) : r.Extends s :=
  ⟨h.namespaces, fun i e he => ⟨e, by rw [h.entries]; exact he, .refl e⟩,
    ⟨[], by rw [List.append_nil, h.links]⟩, ⟨[], by rw [List.append_nil, h.warnings]⟩⟩

theorem extends_addMapping (r : Registry) (type : QName) (m : TypeMapping) :
    r.Extends (r.addMapping type m) := by
  refine ⟨List.prefix_refl _, fun i e he => ⟨e, ?_, .refl e⟩, List.prefix_refl _, List.prefix_refl _⟩
  have hi := (List.getElem?_eq_some_iff.1 he).1
  simp only [addMapping, List.getElem?_append_left hi, he]

theorem extends_changeAt (hf : Change f) (r : Registry) (slot : Nat) (key : String) :
    r.Extends (r.changeAt slot key f) := by
  refine ⟨List.prefix_refl _, fun i e he => ?_, List.prefix_refl _, List.prefix_refl _⟩
  simp only [changeAt, List.getElem?_modify, he]
  by_cases hi : slot = i
  · exact ⟨e.upsert key f, by simp [hi], e.extends_upsert hf key⟩
  · exact ⟨e, by simp [hi], .refl e⟩

theorem extends_addLink (r : Registry) (l : FeatureLink) : r.Extends (r.addLink l) :=
  ⟨List.prefix_refl _, fun _ e he => ⟨e, he, .refl e⟩, List.prefix_append _ _, List.prefix_refl _⟩

theorem extends_warned (r : Registry) (messages : List String) :
    r.Extends { r with warnings := r.warnings ++ messages } :=
  ⟨List.prefix_refl _, fun _ e he => ⟨e, he, .refl e⟩, List.prefix_refl _, List.prefix_append _ _⟩

variable {env : Environment}

/-- **A mapped type stays mapped.** -/
theorem Extends.maps (h : r.Extends s) (hr : r.Keyed) (hs : s.Keyed) (hm : r.Maps type) :
    s.Maps type := by
  rw [hr.maps_iff] at hm
  rw [hs.maps_iff]
  obtain ⟨i, hi⟩ := List.mem_iff_getElem?.1 hm
  rw [mappedTypes_getElem?, Option.map_eq_some_iff] at hi
  obtain ⟨e, he, rfl⟩ := hi
  obtain ⟨e', he', hee'⟩ := h.entries i e he
  exact List.mem_map.2 ⟨e', List.mem_of_getElem? he', hee'.target⟩

/-- **An attribute that is found stays**, with the same target. -/
theorem Extends.attribute? (h : r.Extends s) (hr : Tables env r) (hs : Tables env s) {key : String}
    {a : AttributeMapping} (ha : r.attribute? type key = some a) :
    ∃ b, s.attribute? type key = some b ∧ a.Extends b := by
  obtain ⟨e, he, hae⟩ := Option.bind_eq_some_iff.1 ha
  obtain ⟨hmem, rfl⟩ := hr.keyed.held?_eq_some.1 he
  obtain ⟨i, hi⟩ := List.mem_iff_getElem?.1 hmem
  obtain ⟨e', he', hee'⟩ := h.entries i e hi
  have hmem' := List.mem_of_getElem? he'
  -- the position of the key is the same in both entries
  obtain ⟨j, hj, haj⟩ := Option.bind_eq_some_iff.1 hae
  obtain ⟨a', ha', htarget⟩ := (hr.entries e hmem).owner_at hj
  rw [haj] at ha'; cases ha'
  obtain ⟨b, hb, hab⟩ := hee'.attributes j a haj
  have hj' : e'.owners.lookup key = some j := by
    rw [(hs.entries e' hmem').owners.positions, MappingEntry.targets_getElem?, hb, Option.map_some,
      hab.target, htarget]
  refine ⟨b, ?_, hab⟩
  unfold Registry.attribute? MappingEntry.attribute?
  rw [hs.keyed.held?_eq_some.2 ⟨hmem', hee'.target⟩, Option.bind_some, hj', Option.bind_some, hb]

/-- **A link stays the link of its types.** -/
theorem Extends.link? (h : r.Extends s) {container nested : QName} {l : FeatureLink}
    (hl : r.link? container nested = some l) : s.link? container nested = some l := by
  obtain ⟨more, hs⟩ := h.links
  unfold Registry.link? at hl ⊢
  rw [← hs, List.find?_append, hl]; rfl

end Registry

end FeatureAlignment
