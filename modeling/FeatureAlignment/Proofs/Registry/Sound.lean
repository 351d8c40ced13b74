import FeatureAlignment.Proofs.Registry.Change
import FeatureAlignment.Proofs.Registry.Keyed
import FeatureAlignment.Proofs.Text

/-!
# Sound registries

A registry finds mappings and attributes by tables of positions. `Registry.Sound` says
that these tables, the attributes and the links are as they should be. The keys of a sound registry are the
target paths of its attributes.

* `MappingEntry.Sound`, `Registry.Tables`, `Registry.Sound`: the invariants of one
  mapping, of the registry but for the ends of its links, and of the registry.
* `Tables.keyed`: such a registry finds by keys.
* `Tables.renamed`, `Tables.addMapping`, `Tables.changeAt`, `Tables.addLink`: the
  elementary changes keep the tables.
-/

namespace FeatureAlignment

open AttributeMapping (Change)

/-! ## One mapping -/

namespace MappingEntry

variable {e : MappingEntry} {f : AttributeMapping → AttributeMapping} {key : String}

/-- The target paths of the attributes, in order. -/
def targets (e : MappingEntry) : List String := e.mapping.attributes.map AttributeMapping.targetAttribute

/-- **A sound entry**: owner keys are the target paths of the attributes at their positions. -/
structure Sound (e : MappingEntry) : Prop where
  owners : Indexes e.owners e.targets
  attributes : ∀ a ∈ e.mapping.attributes, a.Sound

theorem targets_getElem? (e : MappingEntry) (i : Nat) :
    e.targets[i]? = (e.mapping.attributes[i]?).map AttributeMapping.targetAttribute := List.getElem?_map

/-- The target paths of a sound entry are its keys. -/
theorem Sound.keyed (h : e.Sound) : e.Keyed := ⟨e.targets, h.owners, List.length_map _⟩

/-- An owner key leads to the attribute with this target path. -/
theorem Sound.owner_at (h : e.Sound) {i : Nat} (hi : e.owners.lookup key = some i) :
    ∃ a, e.mapping.attributes[i]? = some a ∧ a.targetAttribute = key := by
  have := (h.owners.positions key i).1 hi
  rw [targets_getElem?, Option.map_eq_some_iff] at this
  exact this

theorem upsert_targets (hf : Change f) (e : MappingEntry) (key : String) :
    (e.upsert key f).targets = if (e.owners.lookup key).isSome then e.targets else e.targets ++ [key] := by
  unfold upsert
  cases e.owners.lookup key with
  | none => simp [targets, hf.target, AttributeMapping.ofTarget]
  | some i =>
    -- the attribute that is changed keeps its target
    refine List.ext_getElem? fun j => ?_
    simp only [targets, List.getElem?_map, List.getElem?_modify, Option.isSome_some, if_true]
    cases e.mapping.attributes[j]? with
    | none => rfl
    | some a => by_cases hij : i = j <;> simp [hij, hf.target]

/-- **Changing an attribute keeps an entry sound.** -/
theorem Sound.upsert (h : e.Sound) (hf : Change f) (key : String) : (e.upsert key f).Sound := by
  constructor
  · rw [upsert_targets hf]
    unfold MappingEntry.upsert
    cases hl : e.owners.lookup key with
    | none =>
      have := h.owners.push hl
      simpa [targets] using this
    | some i => exact h.owners
  · intro a ha
    unfold MappingEntry.upsert at ha
    cases hl : e.owners.lookup key with
    | none =>
      rw [hl] at ha
      rcases List.mem_append.1 ha with ha | ha
      · exact h.attributes a ha
      · rw [List.mem_singleton] at ha
        subst ha
        exact hf.sound (AttributeMapping.sound_ofTarget key)
    | some i =>
      rw [hl] at ha
      obtain ⟨j, hj⟩ := List.mem_iff_getElem?.1 ha
      rw [List.getElem?_modify, Option.map_eq_map, Option.map_eq_some_iff] at hj
      obtain ⟨b, hb, rfl⟩ := hj
      have hsb := h.attributes b (List.mem_of_getElem? hb)
      split
      · exact hf.sound hsb
      · exact hsb

/-- The owner keys find what the target paths do. -/
theorem Sound.attribute?_eq (h : e.Sound) (key : String) : e.attribute? key = e.mapping.attribute? key := by
  unfold attribute? TypeMapping.attribute?
  cases hl : e.owners.lookup key with
  | none =>
    have hn := h.owners.not_mem hl
    symm
    rw [Option.bind_none, List.find?_eq_none]
    intro a ha hat
    exact hn (List.mem_map.2 ⟨a, ha, by simpa using hat⟩)
  | some i =>
    obtain ⟨a, ha, hat⟩ := h.owner_at hl
    rw [Option.bind_some, ha]
    cases hf : e.mapping.attributes.find? (fun a => a.targetAttribute == key) with
    | none =>
      rw [List.find?_eq_none] at hf
      exact absurd (by simpa using hat) (hf a (List.mem_of_getElem? ha))
    | some b =>
      -- the first attribute with the target is the only one, so it stands at the position
      have hb : b.targetAttribute = key := by simpa using List.find?_some hf
      obtain ⟨j, hj⟩ := List.mem_iff_getElem?.1 (List.mem_of_find?_eq_some hf)
      have := (h.owners.positions key j).2 (by rw [targets_getElem?, hj, Option.map_some, hb])
      rw [hl] at this
      cases this
      rw [ha] at hj; exact hj

end MappingEntry

/-! ## The registry -/

namespace Registry

variable {env : Environment} {r s : Registry} {type : QName} {f : AttributeMapping → AttributeMapping}

/-- **Sound tables**: mapped types have their positions, entries are sound, links are between
different pairs of types, and the link field of each has its number. -/
structure Tables (env : Environment) (r : Registry) : Prop where
  slots : Indexes r.slots r.mappedTypes
  entries : ∀ e ∈ r.entries, e.Sound
  pairs : r.links.Pairwise (fun l l' => (l.container, l.nested) ≠ (l'.container, l'.nested))
  fields : ∀ n l, r.links[n]? = some l → l.linkField = env.config.linkField (n + 1)

/-- **A sound registry**: its tables are, and both ends of its links have mappings. -/
structure Sound (env : Environment) (r : Registry) : Prop extends Tables env r where
  ends : ∀ l ∈ r.links, r.Maps l.container ∧ r.Maps l.nested

theorem Tables.keyed (h : Tables env r) : r.Keyed := ⟨h.slots, fun e he => (h.entries e he).keyed⟩

theorem tables_empty (env : Environment) : Tables env .empty :=
  ⟨Indexes.nil, by simp [empty], List.Pairwise.nil, by simp [empty]⟩

theorem sound_empty (env : Environment) : Sound env .empty := ⟨tables_empty env, by simp [empty]⟩

/-! ### New mappings -/

theorem Tables.renamed (h : Tables env r) (hs : Renamed r s) : Tables env s := by
  refine ⟨?_, ?_, ?_, ?_⟩
  · unfold mappedTypes; rw [hs.slots, hs.entries]; exact h.slots
  · rw [hs.entries]; exact h.entries
  · rw [hs.links]; exact h.pairs
  · rw [hs.links]; exact h.fields

/-- **A new mapping keeps the tables.** -/
theorem Tables.addMapping (h : Tables env r) (hm : r.mapping? type = none) (source element : String) :
    Tables env (r.addMapping type ⟨source, element, []⟩) := by
  refine ⟨(h.keyed.addMapping hm source element).slots, ?_, h.pairs, h.fields⟩
  · intro e he
    rcases List.mem_append.1 he with he | he
    · exact h.entries e he
    · rw [List.mem_singleton] at he
      subst he
      exact ⟨Indexes.nil, by simp⟩

/-! ### Changed attributes -/

/-- **A changed attribute keeps the tables.** -/
theorem Tables.changeAt (h : Tables env r) (hf : Change f) (slot : Nat) (key : String) :
    Tables env (r.changeAt slot key f) := by
  refine ⟨(h.keyed.changeAt slot key f).slots, ?_, h.pairs, h.fields⟩
  · intro e he
    obtain ⟨j, hj⟩ := List.mem_iff_getElem?.1 he
    simp only [Registry.changeAt, List.getElem?_modify] at hj
    obtain ⟨e', he', rfl⟩ := Option.map_eq_some_iff.1 hj
    have hse := h.entries e' (List.mem_of_getElem? he')
    split
    · exact hse.upsert hf key
    · exact hse

/-! ### New links -/

theorem link?_eq_some {container nested : QName} {l : FeatureLink} (h : r.link? container nested = some l) :
    l ∈ r.links ∧ l.container = container ∧ l.nested = nested := by
  unfold link? at h
  have := List.find?_some h
  simp only [Bool.and_eq_true, decide_eq_true_eq] at this
  exact ⟨List.mem_of_find?_eq_some h, this⟩

/-- **A new link keeps the tables.** -/
theorem Tables.addLink (h : Tables env r) {container nested : QName} (hl : r.link? container nested = none)
    (element : String) :
    Tables env (r.addLink ⟨container, nested, element, env.config.linkField (r.links.length + 1)⟩) := by
  refine ⟨h.slots, h.entries, ?_, ?_⟩
  · refine List.pairwise_append.2 ⟨h.pairs, List.pairwise_singleton _ _, fun l hm l' hm' heq => ?_⟩
    rw [List.mem_singleton] at hm'
    subst hm'
    simp only [Prod.mk.injEq] at heq
    unfold link? at hl
    rw [List.find?_eq_none] at hl
    exact hl l hm (by simp [heq.1, heq.2])
  · intro n l hn
    simp only [Registry.addLink] at hn
    -- fields count from one, and the new link stands at the end
    rcases Nat.lt_trichotomy n r.links.length with hlt | rfl | hgt
    · rw [List.getElem?_append_left hlt] at hn
      exact h.fields n l hn
    · simp at hn; subst hn; rfl
    · rw [List.getElem?_eq_none (by simp; omega)] at hn; cases hn

/-- Link fields have different numbers. -/
theorem linkField_inj {c : Config} {m n : Nat} (h : c.linkField m = c.linkField n) : m = n := by
  have hs := congrArg String.toList h
  simp only [Config.linkField, String.toList_append, List.append_cancel_left_eq,
    List.append_cancel_right_eq] at hs
  -- stem and brackets have gone, and the digits tell the number
  exact Text.natural_inj (String.toList_inj.1 hs)

/-- **A link is known by its field.** -/
theorem Tables.link_eq (h : Tables env r) {l l' : FeatureLink} (hl : l ∈ r.links) (hl' : l' ∈ r.links)
    (hf : l.linkField = l'.linkField) : l = l' := by
  obtain ⟨n, hn⟩ := List.mem_iff_getElem?.1 hl
  obtain ⟨m, hm⟩ := List.mem_iff_getElem?.1 hl'
  rw [h.fields n l hn, h.fields m l' hm] at hf
  have hnm : n = m := Nat.succ_inj.1 (linkField_inj hf)
  subst hnm
  rw [hn] at hm
  exact Option.some.inj hm

/-! ### Documents -/

/-- **The mapping of a type is in the document**, with the attributes that the registry finds. -/
theorem Tables.document (h : Tables env r) (hm : r.Maps type) :
    ∃ m ∈ r.document.mappings, r.mapping? type = some m ∧ ∀ key, m.attribute? key = r.attribute? type key := by
  obtain ⟨e, he⟩ := hm.entry
  obtain ⟨hmem, -⟩ := h.keyed.held?_eq_some.1 he
  refine ⟨e.mapping, List.mem_map.2 ⟨e, hmem, rfl⟩, by rw [mapping?, he]; rfl, fun key => ?_⟩
  rw [attribute?, he, Option.bind_some, (h.entries e hmem).attribute?_eq]

end Registry

end FeatureAlignment
