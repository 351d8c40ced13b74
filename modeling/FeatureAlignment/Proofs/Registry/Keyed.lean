import FeatureAlignment.Proofs.Registry.Naming
import FeatureAlignment.Proofs.Registry.Positions

/-!
# Registries that find by keys

Mappings are found by their target types and attributes by their owner keys. That this goes well needs only
that the tables of positions are right; what the attributes hold does not matter, not even their targets.

* `MappingEntry.Keyed`, `Registry.Keyed`: the tables of positions are right, in one mapping and in all.
* `held?_addMapping`, `attribute?_changeAt`: what is found after a mapping is added, and after an attribute
  is changed in whatever way.
* `Keyed.attributes_eq`, `Keyed.entries_eq`: registries of one shape that find the same attributes are equal.
-/

namespace FeatureAlignment

variable {f : AttributeMapping → AttributeMapping} {key : String}

/-! ## One mapping -/

namespace MappingEntry

variable {e e' : MappingEntry}

/-- **The keys of an entry**, one for each attribute, in order. -/
structure Keys (e : MappingEntry) (keys : List String) : Prop where
  owners : Indexes e.owners keys
  length : keys.length = e.mapping.attributes.length

/-- **An entry with keys.** -/
def Keyed (e : MappingEntry) : Prop := ∃ keys, e.Keys keys

/-- A key leads to an attribute. -/
theorem Keyed.attribute_at (h : e.Keyed) {i : Nat} (hi : e.owners.lookup key = some i) :
    ∃ a, e.mapping.attributes[i]? = some a := by
  obtain ⟨keys, hkeys⟩ := h
  have hat := (hkeys.owners.positions key i).1 hi
  have hlt : i < e.mapping.attributes.length := by
    rw [← hkeys.length]
    exact (List.getElem?_eq_some_iff.1 hat).1
  exact ⟨_, List.getElem?_eq_getElem hlt⟩

/-- Different keys lead to different attributes. -/
theorem Keyed.position_inj (h : e.Keyed) {i : Nat} {k : String} (hi : e.owners.lookup key = some i)
    (hk : e.owners.lookup k = some i) : k = key := by
  obtain ⟨keys, hkeys⟩ := h
  have hkey := (hkeys.owners.positions key i).1 hi
  rw [(hkeys.owners.positions k i).1 hk] at hkey
  exact Option.some.inj hkey

/-- **Every attribute has a key.** -/
theorem Keyed.key_at (h : e.Keyed) {i : Nat} (hi : i < e.mapping.attributes.length) :
    ∃ k, e.owners.lookup k = some i := by
  obtain ⟨keys, hkeys⟩ := h
  have hlt : i < keys.length := by
    rw [hkeys.length]
    exact hi
  exact ⟨keys[i], (hkeys.owners.positions _ i).2 (List.getElem?_eq_getElem hlt)⟩

/-- **Any change of an attribute keeps the keys.** -/
theorem Keyed.upsert (h : e.Keyed) (key : String) (f : AttributeMapping → AttributeMapping) :
    (e.upsert key f).Keyed := by
  obtain ⟨keys, hkeys⟩ := h
  unfold MappingEntry.upsert
  cases hl : e.owners.lookup key with
  | some i =>
    refine ⟨keys, hkeys.owners, ?_⟩
    rw [List.length_modify]
    exact hkeys.length
  | none =>
    have howners := hkeys.owners.push hl
    rw [hkeys.length] at howners
    refine ⟨keys ++ [key], howners, ?_⟩
    simp [hkeys.length]

/-- **What is found after a change**: the changed attribute under its key, and the others as
they were. -/
theorem Keyed.attribute?_upsert (h : e.Keyed) (key k : String) :
    (e.upsert key f).attribute? k =
      if k = key then some (f ((e.attribute? key).getD (.ofTarget key))) else e.attribute? k := by
  cases hl : e.owners.lookup key with
  | none =>
    -- the new attribute stands at the end, after all that have a position
    simp only [MappingEntry.upsert, attribute?, hl, Option.bind_none, Option.getD_none, List.lookup_cons]
    by_cases hk : k = key
    · subst hk; simp
    · have hb : (k == key) = false := by simpa using hk
      simp only [hb, if_neg hk]
      cases hk' : e.owners.lookup k with
      | none => rfl
      | some j =>
        obtain ⟨a, ha⟩ := h.attribute_at hk'
        have hj : j < e.mapping.attributes.length := (List.getElem?_eq_some_iff.1 ha).1
        simp [List.getElem?_append_left hj]
  | some i =>
    obtain ⟨a, ha⟩ := h.attribute_at hl
    simp only [MappingEntry.upsert, attribute?, hl, Option.bind_some, List.getElem?_modify]
    by_cases hk : k = key
    · subst hk; simp [hl, ha]
    · rw [if_neg hk]
      cases hk' : e.owners.lookup k with
      | none => rfl
      | some j =>
        have hij : i ≠ j := by
          rintro rfl
          exact hk (h.position_inj hl hk')
        simp [hij]

/-- **Entries of one shape** that find the same attributes have the same ones. -/
theorem Keyed.attributes_eq (h : e.Keyed) (howners : e'.owners = e.owners)
    (hlength : e'.mapping.attributes.length = e.mapping.attributes.length)
    (hfound : ∀ k, e'.attribute? k = e.attribute? k) : e'.mapping.attributes = e.mapping.attributes := by
  refine List.ext_getElem? fun i => ?_
  by_cases hi : i < e.mapping.attributes.length
  · obtain ⟨k, hk⟩ := h.key_at hi
    have hsame := hfound k
    unfold attribute? at hsame
    rw [howners, hk] at hsame
    exact hsame
  · rw [List.getElem?_eq_none (by omega), List.getElem?_eq_none (by omega)]

end MappingEntry

/-! ## The registry -/

namespace Registry

variable {r s : Registry} {type : QName}

/-- **A registry with keys**: mapped types have their positions, and all entries have keys. -/
structure Keyed (r : Registry) : Prop where
  slots : Indexes r.slots r.mappedTypes
  entries : ∀ e ∈ r.entries, e.Keyed

/-- Whether a target type has a mapping. -/
def Maps (r : Registry) (type : QName) : Prop := (r.mapping? type).isSome

theorem keyed_empty : Keyed .empty := ⟨Indexes.nil, fun e he => by cases he⟩

/-! ### What is found -/

theorem mappedTypes_getElem? (r : Registry) (i : Nat) :
    r.mappedTypes[i]? = (r.entries[i]?).map MappingEntry.targetType := List.getElem?_map

/-- The position of a type is that of its entry. -/
theorem Keyed.slot_at (h : r.Keyed) {i : Nat} (hi : r.slots.lookup type = some i) :
    ∃ e, r.entries[i]? = some e ∧ e.targetType = type := by
  have := (h.slots.positions type i).1 hi
  rw [mappedTypes_getElem?, Option.map_eq_some_iff] at this
  exact this

/-- **The entry that is found** is the one of the type. -/
theorem Keyed.held?_eq_some (h : r.Keyed) {e : MappingEntry} :
    r.held? type = some e ↔ e ∈ r.entries ∧ e.targetType = type := by
  unfold held?
  constructor
  · intro he
    obtain ⟨i, hi, he⟩ := Option.bind_eq_some_iff.1 he
    obtain ⟨e', he', ht⟩ := h.slot_at hi
    rw [he] at he'; cases he'
    exact ⟨List.mem_of_getElem? he, ht⟩
  · -- an entry of the type stands at some position, which is the one in the table
    rintro ⟨he, rfl⟩
    obtain ⟨i, hi⟩ := List.mem_iff_getElem?.1 he
    rw [(h.slots.positions _ i).2 (by rw [mappedTypes_getElem?, hi, Option.map_some])]
    exact hi

/-- A type without mapping has no position. -/
theorem Keyed.slot_none (h : r.Keyed) (hm : r.mapping? type = none) : r.slots.lookup type = none := by
  cases hs : r.slots.lookup type with
  | none => rfl
  | some i =>
    obtain ⟨e, he, -⟩ := h.slot_at hs
    simp [mapping?, held?, hs, he] at hm

/-- A mapped type has a position. -/
theorem Maps.slot (h : r.Maps type) : ∃ i, r.slots.lookup type = some i := by
  cases hs : r.slots.lookup type with
  | none => simp [Maps, mapping?, held?, hs] at h
  | some i => exact ⟨i, rfl⟩

/-- A type with a position is mapped. -/
theorem Keyed.maps_of_slot (h : r.Keyed) {i : Nat} (hi : r.slots.lookup type = some i) : r.Maps type := by
  obtain ⟨e, he, -⟩ := h.slot_at hi
  simp [Maps, mapping?, held?, hi, he]

theorem Maps.entry (h : r.Maps type) : ∃ e, r.held? type = some e := by
  cases he : r.held? type with
  | none => simp [Maps, mapping?, he] at h
  | some e => exact ⟨e, rfl⟩

theorem maps_of_attribute? {a : AttributeMapping} (h : r.attribute? type key = some a) : r.Maps type := by
  obtain ⟨e, he, -⟩ := Option.bind_eq_some_iff.1 h
  simp [Maps, mapping?, he]

theorem Keyed.maps_iff (h : r.Keyed) : r.Maps type ↔ type ∈ r.mappedTypes := by
  constructor
  · intro hm
    obtain ⟨e, he⟩ := hm.entry
    obtain ⟨hmem, ht⟩ := h.held?_eq_some.1 he
    exact List.mem_map.2 ⟨e, hmem, ht⟩
  · intro hm
    obtain ⟨e, hmem, ht⟩ := List.mem_map.1 hm
    simp [Maps, mapping?, h.held?_eq_some.2 ⟨hmem, ht⟩]

/-! ### New mappings -/

theorem Keyed.renamed (h : r.Keyed) (hs : Renamed r s) : s.Keyed := by
  constructor
  · unfold mappedTypes; rw [hs.slots, hs.entries]; exact h.slots
  · rw [hs.entries]; exact h.entries

/-- **A new mapping has its position.** -/
theorem Keyed.addMapping (h : r.Keyed) (hm : r.mapping? type = none) (source element : String) :
    (r.addMapping type ⟨source, element, []⟩).Keyed := by
  have hn := h.slot_none hm
  constructor
  · have := h.slots.push hn
    simpa [mappedTypes, Registry.addMapping] using this
  · intro e he
    rcases List.mem_append.1 he with he | he
    · exact h.entries e he
    · rw [List.mem_singleton] at he
      subst he
      exact ⟨[], Indexes.nil, rfl⟩

/-- The new entry is found, and the others as before. -/
theorem Keyed.held?_addMapping (h : r.Keyed) (t : QName) (m : TypeMapping) :
    (r.addMapping type m).held? t = if t = type then some ⟨type, m, []⟩ else r.held? t := by
  unfold held? Registry.addMapping
  simp only [List.lookup_cons]
  by_cases ht : t = type
  · subst ht; simp
  · have hb : (t == type) = false := by simpa using ht
    simp only [hb, if_neg ht]
    cases hs : r.slots.lookup t with
    | none => rfl
    | some i =>
      obtain ⟨e, he, -⟩ := h.slot_at hs
      have hi : i < r.entries.length := (List.getElem?_eq_some_iff.1 he).1
      simp [List.getElem?_append_left hi]

/-- No attribute comes with a new mapping. -/
theorem Keyed.attribute?_addMapping (h : r.Keyed) (hm : r.mapping? type = none) (source element : String)
    (t : QName) (key : String) :
    (r.addMapping type ⟨source, element, []⟩).attribute? t key = r.attribute? t key := by
  unfold attribute?
  rw [h.held?_addMapping]
  split
  · rename_i ht
    subst ht
    have : r.held? t = none := by simpa [mapping?] using hm
    rw [this]; rfl
  · rfl

/-! ### Changed attributes -/

theorem changeAt_mappedTypes (slot : Nat) (key : String) (r : Registry) :
    (r.changeAt slot key f).mappedTypes = r.mappedTypes := by
  refine List.ext_getElem? fun j => ?_
  simp only [mappedTypes_getElem?, changeAt, List.getElem?_modify]
  cases r.entries[j]? with
  | none => rfl
  | some e =>
    by_cases hij : slot = j
    · simp only [hij, if_true, Option.map_eq_map, Option.map_some, MappingEntry.upsert]
      split <;> rfl
    · simp [hij]

/-- **A changed attribute keeps the keys**, in whatever way it is changed. -/
theorem Keyed.changeAt (h : r.Keyed) (slot : Nat) (key : String) (f : AttributeMapping → AttributeMapping) :
    (r.changeAt slot key f).Keyed := by
  constructor
  · rw [changeAt_mappedTypes]; exact h.slots
  · intro e he
    obtain ⟨j, hj⟩ := List.mem_iff_getElem?.1 he
    simp only [Registry.changeAt, List.getElem?_modify] at hj
    obtain ⟨e', he', rfl⟩ := Option.map_eq_some_iff.1 hj
    have hke := h.entries e' (List.mem_of_getElem? he')
    split
    · exact hke.upsert key f
    · exact hke

/-- The entry of the type is changed, and the others are as before. -/
theorem Keyed.held?_changeAt (h : r.Keyed) {slot : Nat} (hs : r.slots.lookup type = some slot)
    (key : String) (t : QName) :
    (r.changeAt slot key f).held? t =
      if t = type then (r.held? type).map (MappingEntry.upsert key f) else r.held? t := by
  unfold held? Registry.changeAt
  by_cases ht : t = type
  · subst ht; simp [hs]
  · rw [if_neg ht]
    cases hs' : r.slots.lookup t with
    | none => rfl
    | some j =>
      -- another type has another position
      have hij : slot ≠ j := by
        rintro rfl
        obtain ⟨e, he, het⟩ := h.slot_at hs
        obtain ⟨e', he', het'⟩ := h.slot_at hs'
        rw [he] at he'; cases he'
        exact ht (het'.symm.trans het)
      simp [hij]

/-- The view of the attributes with one of them changed. -/
def changed (view : QName → String → Option AttributeMapping) (type : QName) (key : String)
    (f : AttributeMapping → AttributeMapping) : QName → String → Option AttributeMapping :=
  fun t k => if t = type ∧ k = key then some (f ((view type key).getD (.ofTarget key))) else view t k

theorem changed_self (view : QName → String → Option AttributeMapping) (type : QName) (key : String)
    (f : AttributeMapping → AttributeMapping) :
    changed view type key f type key = some (f ((view type key).getD (.ofTarget key))) := if_pos ⟨rfl, rfl⟩

theorem changed_other (view : QName → String → Option AttributeMapping) {t : QName} {k : String}
    (h : ¬ (t = type ∧ k = key)) : changed view type key f t k = view t k := if_neg h

/-- **What is found after a change**: the changed attribute, and all others as before. -/
theorem Keyed.attribute?_changeAt (h : r.Keyed) {slot : Nat} (hs : r.slots.lookup type = some slot)
    (key : String) :
    (r.changeAt slot key f).attribute? = changed r.attribute? type key f := by
  funext t k
  unfold attribute? changed
  rw [h.held?_changeAt hs]
  by_cases ht : t = type
  · subst ht
    obtain ⟨e, he, het⟩ := h.slot_at hs
    have hre : r.held? t = some e := h.held?_eq_some.2 ⟨List.mem_of_getElem? he, het⟩
    simp only [if_true, hre, Option.map_some, Option.bind_some, true_and]
    exact (h.entries e (List.mem_of_getElem? he)).attribute?_upsert key k
  · simp [ht]

/-! ### Registries of one shape -/

/-- **Registries of one shape**: they have the same mappings with the same keys, and differ at most in what
the attributes hold. -/
structure Shaped (r s : Registry) : Prop where
  slots : s.slots = r.slots
  length : s.entries.length = r.entries.length
  entries : ∀ (i : Nat) (e e' : MappingEntry), r.entries[i]? = some e → s.entries[i]? = some e' →
    e'.targetType = e.targetType ∧ e'.mapping.sourceType = e.mapping.sourceType ∧
      e'.mapping.targetElement = e.mapping.targetElement ∧ e'.owners = e.owners ∧
        e'.mapping.attributes.length = e.mapping.attributes.length

theorem Shaped.refl (r : Registry) : Shaped r r := by
  refine ⟨rfl, rfl, fun i e e' he he' => ?_⟩
  rw [he] at he'
  cases he'
  exact ⟨rfl, rfl, rfl, rfl, rfl⟩

theorem Shaped.trans {t : Registry} (h : Shaped r s) (h' : Shaped s t) : Shaped r t := by
  refine ⟨h'.slots.trans h.slots, h'.length.trans h.length, fun i e e'' he he'' => ?_⟩
  have hi : i < s.entries.length := by
    rw [h.length]
    exact (List.getElem?_eq_some_iff.1 he).1
  obtain ⟨h1, h2, h3, h4, h5⟩ := h.entries i e _ he (List.getElem?_eq_getElem hi)
  obtain ⟨h1', h2', h3', h4', h5'⟩ := h'.entries i _ e'' (List.getElem?_eq_getElem hi) he''
  exact ⟨h1'.trans h1, h2'.trans h2, h3'.trans h3, h4'.trans h4, h5'.trans h5⟩

/-- **Changing an attribute that is there** keeps the shape. -/
theorem shaped_changeAt {slot : Nat} (hs : r.slots.lookup type = some slot)
    {a : AttributeMapping} (ha : r.attribute? type key = some a) : Shaped r (r.changeAt slot key f) := by
  refine ⟨rfl, List.length_modify .., fun i e e' he he' => ?_⟩
  simp only [changeAt, List.getElem?_modify, he, Option.map_eq_map, Option.map_some, Option.some.injEq] at he'
  by_cases hi : slot = i
  · subst hi
    -- the entry at the position is the one that has the attribute
    have hheld : r.held? type = some e := by
      unfold held?
      rw [hs]
      exact he
    unfold attribute? at ha
    rw [hheld, Option.bind_some] at ha
    obtain ⟨j, hj, -⟩ := Option.bind_eq_some_iff.1 ha
    rw [if_pos rfl] at he'
    subst he'
    unfold MappingEntry.upsert
    rw [hj]
    exact ⟨rfl, rfl, rfl, rfl, List.length_modify ..⟩
  · rw [if_neg hi] at he'
    subst he'
    exact ⟨rfl, rfl, rfl, rfl, rfl⟩

/-- **Registries of one shape that find the same attributes** have the same entries. -/
theorem Keyed.entries_eq (h : r.Keyed) (hs : Shaped r s) (hfound : s.attribute? = r.attribute?) :
    s.entries = r.entries := by
  refine List.ext_getElem? fun i => ?_
  cases he : r.entries[i]? with
  | none =>
    have hi := List.getElem?_eq_none_iff.1 he
    exact List.getElem?_eq_none (by rw [hs.length]; exact hi)
  | some e =>
    have hi : i < s.entries.length := by
      rw [hs.length]
      exact (List.getElem?_eq_some_iff.1 he).1
    rw [List.getElem?_eq_getElem hi]
    obtain ⟨htype, hsource, helement, howners, hlength⟩ := hs.entries i e _ he (List.getElem?_eq_getElem hi)
    -- both entries are found by the type, so they find the same attributes
    have hslot : r.slots.lookup e.targetType = some i :=
      (h.slots.positions _ i).2 (by rw [mappedTypes_getElem?, he, Option.map_some])
    have hsame : ∀ k, (s.entries[i]).attribute? k = e.attribute? k := by
      intro k
      have hk := congrFun (congrFun hfound e.targetType) k
      unfold attribute? held? at hk
      rw [hs.slots, hslot, Option.bind_some, Option.bind_some, he, List.getElem?_eq_getElem hi] at hk
      exact hk
    have hattributes := (h.entries e (List.mem_of_getElem? he)).attributes_eq howners hlength hsame
    rcases hnew : s.entries[i] with ⟨type, ⟨source, element, attributes⟩, owners⟩
    rw [hnew] at htype hsource helement howners hattributes
    cases e
    simp only at htype hsource helement howners hattributes
    subst htype hsource helement howners hattributes
    rfl

end Registry

end FeatureAlignment
