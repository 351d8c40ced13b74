import FeatureAlignment.Document.Basic
import FeatureAlignment.Proofs.Registry.Keyed

/-!
# Frames of single changes

What a single change leaves as it was, told without the functions that make it: a client property that is
set, an attribute of a mapping that is written, and a mapping of a registry with such an attribute.

* `ClientSet`: one client property is set, in its place or at the end (`set_setAmong`).
* `MappingEntry.Writes`: one attribute of a mapping is written, in its place or at the end.
* `WritesAmong`: one mapping has an attribute written, and the others are as they were
  (`Registry.Keyed.writes_changeAt`).
-/

namespace FeatureAlignment

/-! ## Client properties -/

/-- **One client property is set.** The first one of the name has the value now and stands where it stood; or
there was none, and it is new at the end. -/
inductive ClientSet (name value : String) : List ClientProperty → List ClientProperty → Prop
  | replaced (before after : List ClientProperty) (p : ClientProperty) :
      (∀ q ∈ before, q.name ≠ name) → p.name = name →
      ClientSet name value (before ++ p :: after) (before ++ ⟨name, value⟩ :: after)
  | added (ps : List ClientProperty) : (∀ q ∈ ps, q.name ≠ name) → ClientSet name value ps (ps ++ [⟨name, value⟩])

theorem AttributeMapping.set_setAmong (name value : String) (ps : List ClientProperty) :
    ClientSet name value ps (setAmong name value ps) := by
  induction ps with
  | nil => exact .added [] fun q hq => by cases hq
  | cons p ps ih =>
    unfold setAmong
    by_cases hp : p.name = name
    · rw [if_pos hp, hp]
      exact .replaced [] ps p (fun q hq => by cases hq) hp
    · -- a property of another name stays in front
      have hfront : ∀ qs : List ClientProperty, (∀ q ∈ qs, q.name ≠ name) → ∀ q ∈ p :: qs, q.name ≠ name := by
        intro qs hqs q hq
        rcases List.mem_cons.1 hq with rfl | hq
        · exact hp
        · exact hqs q hq
      rw [if_neg hp]
      generalize setAmong name value ps = qs at ih
      cases ih with
      | replaced before after q hbefore hq => exact .replaced (p :: before) after q (hfront before hbefore) hq
      | added _ hps => exact .added (p :: ps) (hfront ps hps)

/-- A client property that was set is found with its value. -/
theorem ClientSet.found {name value : String} {ps qs : List ClientProperty} (h : ClientSet name value ps qs) :
    (qs.find? (fun p => p.name == name)).map ClientProperty.value = some value := by
  have hpassed : ∀ ps : List ClientProperty, (∀ q ∈ ps, q.name ≠ name) →
      ps.find? (fun p => p.name == name) = none := by
    intro ps hps
    refine List.find?_eq_none.2 fun q hq => ?_
    simpa using hps q hq
  cases h with
  | replaced before after p hbefore hp => simp [List.find?_append, hpassed before hbefore]
  | added _ hps => simp [List.find?_append, hpassed ps hps]

/-! ## Attributes -/

/-- A list with the element at a position changed. -/
theorem split_modify {α : Type} {l : List α} {i : Nat} {x : α} (h : l[i]? = some x) (f : α → α) :
    ∃ before after, l = before ++ x :: after ∧ before.length = i ∧ l.modify i f = before ++ f x :: after := by
  obtain ⟨hi, rfl⟩ := List.getElem?_eq_some_iff.1 h
  refine ⟨l.take i, l.drop (i + 1), ?_, ?_, List.modify_eq_take_cons_drop hi⟩
  · rw [List.getElem_cons_drop, List.take_append_drop]
  · rw [List.length_take]
    omega

namespace MappingEntry

variable {e : MappingEntry} {key : String}

/-- **One attribute of an entry is written**: the one with the key, where it stands, or a new one at the end.
All else in the entry is as it was. -/
inductive Writes (key : String) (old new : AttributeMapping) (e : MappingEntry) : MappingEntry → Prop
  | replaced (before after : List AttributeMapping) :
      e.owners.lookup key = some before.length → e.mapping.attributes = before ++ old :: after →
      Writes key old new e { e with mapping := { e.mapping with attributes := before ++ new :: after } }
  | added : e.owners.lookup key = none → old = .ofTarget key →
      Writes key old new e { e with
        mapping := { e.mapping with attributes := e.mapping.attributes ++ [new] }
        owners := (key, e.mapping.attributes.length) :: e.owners }

/-- **A change of an attribute writes it** and nothing else. -/
theorem Keyed.writes_upsert (h : e.Keyed) (key : String) (f : AttributeMapping → AttributeMapping) :
    e.Writes key ((e.attribute? key).getD (.ofTarget key)) (f ((e.attribute? key).getD (.ofTarget key)))
      (e.upsert key f) := by
  unfold MappingEntry.upsert
  cases hl : e.owners.lookup key with
  | none =>
    have hnone : e.attribute? key = none := by
      unfold attribute?
      rw [hl, Option.bind_none]
    rw [hnone]
    exact .added hl rfl
  | some i =>
    obtain ⟨a, ha⟩ := h.attribute_at hl
    have hsome : e.attribute? key = some a := by
      unfold attribute?
      rw [hl, Option.bind_some, ha]
    obtain ⟨before, after, hsplit, hlength, hmodify⟩ := split_modify ha f
    rw [hsome, Option.getD_some]
    simp only [hmodify]
    exact .replaced before after (by rw [hl, hlength]) hsplit

end MappingEntry

/-- **One attribute of one mapping is written**, and all other mappings are as they were. -/
def WritesAmong (type : QName) (key : String) (old new : AttributeMapping)
    (entries entries' : List MappingEntry) : Prop :=
  ∃ before e after e', entries = before ++ e :: after ∧ e.targetType = type ∧ e.Writes key old new e' ∧
    entries' = before ++ e' :: after

/-- **Changing an attribute writes it** and nothing else in the registry. -/
theorem Registry.Keyed.writes_changeAt {r : Registry} (h : r.Keyed) {type : QName} {slot : Nat}
    (hs : r.slots.lookup type = some slot) (key : String) (f : AttributeMapping → AttributeMapping) :
    WritesAmong type key ((r.attribute? type key).getD (.ofTarget key))
      (f ((r.attribute? type key).getD (.ofTarget key))) r.entries (r.changeAt slot key f).entries := by
  obtain ⟨e, he, htype⟩ := h.slot_at hs
  have hmem := List.mem_of_getElem? he
  have hfound : r.attribute? type key = e.attribute? key := by
    unfold Registry.attribute?
    rw [h.held?_eq_some.2 ⟨hmem, htype⟩, Option.bind_some]
  obtain ⟨before, after, hsplit, -, hmodify⟩ := split_modify he (MappingEntry.upsert key f)
  rw [hfound]
  exact ⟨before, e, after, e.upsert key f, hsplit, htype, (h.entries e hmem).writes_upsert key f, hmodify⟩

end FeatureAlignment
