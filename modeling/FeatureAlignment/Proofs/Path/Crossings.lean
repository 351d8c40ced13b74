import FeatureAlignment.Path.Resolution
import FeatureAlignment.Proofs.Build

/-!
# Crossings of a resolved path

A path that resolves starts at a known type. Each crossing leaves the type in which the path
is for another one, a feature type of the schema, and the last one ends at the owner.

* `SchemaIndex.Leads index root xs owner`: the crossings `xs` lead from `root` to `owner`.
* `Position.leads_step`, `SchemaIndex.leads_follow`: each step keeps that the crossings so far
  lead to the owner of the position.
* `SchemaIndex.leads_resolve`: the crossings of a resolved path lead to its owner.
-/

namespace FeatureAlignment

namespace SchemaIndex

variable {index : SchemaIndex} {root owner : QName} {xs : List Crossing}

/-- The schema has a type of this name. -/
def Knows (index : SchemaIndex) (name : QName) : Prop := (index.get? name).isSome

/-- **Crossings that lead from a type to another**, through feature types of the schema. -/
inductive Leads (index : SchemaIndex) (root : QName) : List Crossing → QName → Prop
  | stay : index.Knows root → Leads index root [] root
  | cross (xs : List Crossing) (owner : QName) (segments : List Segment) (nested : TypeDefinition) :
      Leads index root xs owner → index.get? nested.name = some nested → nested.feature = true →
      nested.name ≠ owner →
      Leads index root (xs ++ [⟨owner, segments, nested.name, nested.elementName⟩]) nested.name

theorem get?_name {name : QName} {t : TypeDefinition} (h : index.get? name = some t) : t.name = name := by
  have := List.find?_some h
  simpa using this

theorem knows_of_get? {name : QName} {t : TypeDefinition} (h : index.get? name = some t) :
    index.Knows name := by
  unfold Knows; rw [h]; rfl

theorem Knows.exists_type {name : QName} (h : index.Knows name) : ∃ t, index.get? name = some t :=
  Option.isSome_iff_exists.1 h

theorem require_ok {name : QName} {t : TypeDefinition} (h : index.require name = .ok t) :
    index.get? name = some t := by
  unfold require at h
  cases hg : index.get? name with
  | none => rw [hg] at h; cases h
  | some u => rw [hg] at h; cases h; rfl

/-- The type of a property is found by its own name. -/
theorem propertyType?_get? {p : PropertyDefinition} {t : TypeDefinition}
    (h : index.propertyType? p = some t) : index.get? t.name = some t := by
  unfold propertyType? at h
  obtain ⟨name, -, ht⟩ := Option.bind_eq_some_iff.1 h
  rw [get?_name ht]; exact ht

theorem Leads.knows_owner (h : Leads index root xs owner) : index.Knows owner := by
  cases h with
  | stay hk => exact hk
  | cross xs owner segments nested _ hn _ _ => exact knows_of_get? hn

/-- Both types of a crossing are known, and the crossing leaves its container. -/
theorem Leads.knows (h : Leads index root xs owner) :
    ∀ x ∈ xs, index.Knows x.container ∧ index.Knows x.nested ∧ x.nested ≠ x.container := by
  induction h with
  | stay hk => intro x hx; cases hx
  | cross xs owner segments nested h hn _ hne ih =>
    intro x hx
    rcases List.mem_append.1 hx with hx | hx
    · exact ih x hx
    · rw [List.mem_singleton] at hx
      subst hx
      exact ⟨h.knows_owner, knows_of_get? hn, hne⟩

/-- **The owner is the last nested type**, or the root if nothing is crossed. -/
theorem Leads.owner_eq (h : Leads index root xs owner) :
    owner = (xs.getLast?.map Crossing.nested).getD root := by
  cases h with
  | stay _ => rfl
  | cross xs owner segments nested _ _ _ _ => simp

/-- The first crossing leaves the root. -/
theorem Leads.head (h : Leads index root xs owner) : ∀ x, xs.head? = some x → x.container = root := by
  induction h with
  | stay _ => intro x hx; cases hx
  | cross xs owner segments nested h _ _ _ ih =>
    intro x hx
    cases xs with
    | cons y ys => exact ih x hx
    | nil => cases hx; exact h.owner_eq

/-- A property of all nested types and of the root is one of the owner. -/
theorem Leads.owner_of {P : QName → Prop} (h : Leads index root xs owner) (hr : P root)
    (hx : ∀ x ∈ xs, P x.nested) : P owner := by
  cases h with
  | stay _ => exact hr
  | cross xs owner segments nested _ _ _ _ => exact hx _ (List.mem_append_right _ (List.mem_singleton.2 rfl))

end SchemaIndex

/-! ## Following steps -/

namespace Position

open SchemaIndex (Leads)

variable {index : SchemaIndex} {root : QName} {p q : Position}

/-- Inside a type, neither owner nor crossings change. -/
theorem enterElement_crossings (p : Position) (element : PropertyDefinition) (type : Option TypeDefinition)
    (children : List Child) (head : Option QName) (i : Option UInt64) :
    (p.enterElement element type children head i).owner = p.owner ∧
      (p.enterElement element type children head i).crossings = p.crossings := by
  unfold enterElement
  simp only
  cases head.or p.head with
  | none => exact ⟨rfl, rfl⟩
  | some name =>
    simp only
    split
    · split <;> exact ⟨rfl, rfl⟩
    · exact ⟨rfl, rfl⟩

theorem leads_enter (h : Leads index root p.crossings p.owner) (found : Located) (i : Option UInt64) :
    Leads index root (enter index p found i).crossings (enter index p found i).owner := by
  unfold enter
  split
  · exact h
  · rename_i q _
    split
    · exact h
    · simp only
      split
      · -- an element of another feature type is crossed into
        rename_i nested hn
        obtain ⟨ht, hf⟩ := Option.filter_eq_some_iff.1 hn
        simp only [Bool.and_eq_true, decide_eq_true_eq] at hf
        exact .cross _ _ p.segments nested h (SchemaIndex.propertyType?_get? ht) hf.1 hf.2
      · -- any other element is entered within the owner
        obtain ⟨ho, hc⟩ := p.enterElement_crossings q (index.propertyType? q) (index.propertyChildren q)
          found.head i
        rw [ho, hc]; exact h

/-- **A step leads on.** -/
theorem leads_step (h : Leads index root p.crossings p.owner) {s : PathStep} (hs : p.step? index s = some q) :
    Leads index root q.crossings q.owner := by
  unfold step? at hs
  split at hs
  · cases hs
  · obtain ⟨found, -, rfl⟩ := Option.map_eq_some_iff.1 hs
    -- guards and repetitions leave owner and crossings as they are
    have hg : Leads index root ((p.guard s.condition).repeating (found.repeatable && s.index.isNone)).crossings
        ((p.guard s.condition).repeating (found.repeatable && s.index.isNone)).owner := h
    exact leads_enter hg found s.index

end Position

namespace SchemaIndex

variable {index : SchemaIndex} {root : QName}

theorem leads_follow {p q : Position} (h : Leads index root p.crossings p.owner) {name : QName}
    {steps done : List PathStep} (hf : index.follow name done p steps = .ok q) :
    Leads index root q.crossings q.owner := by
  induction steps generalizing p done with
  | nil => cases hf; exact h
  | cons s steps ih =>
    unfold follow at hf
    cases hs : p.step? index s with
    | none => rw [hs] at hf; cases hf
    | some p' =>
      rw [hs] at hf
      exact ih (Position.leads_step h hs) hf

/-- A path that resolves has steps that can be followed from its root. -/
theorem resolve_ok {steps : List PathStep} {place : ResolvedPath} (h : index.resolve root steps = .ok place) :
    ∃ t p, index.get? root = some t ∧ index.follow root [] (.start t) steps = .ok p ∧ p.place = place := by
  unfold resolve at h
  obtain ⟨t, ht, h⟩ := Build.except_bind_ok.1 h
  split at h
  · cases h
  · obtain ⟨p, hp, h⟩ := Build.except_bind_ok.1 h
    cases h
    exact ⟨t, p, require_ok ht, hp, rfl⟩

/-- **The crossings of a resolved path lead from its root to its owner.** -/
theorem leads_resolve {steps : List PathStep} {place : ResolvedPath}
    (h : index.resolve root steps = .ok place) : Leads index root place.crossings place.owner := by
  obtain ⟨t, p, ht, hp, rfl⟩ := resolve_ok h
  have hs : Leads index root (Position.start t).crossings (Position.start t).owner := by
    have hstay := Leads.stay (knows_of_get? ht)
    rw [← get?_name ht] at hstay ⊢
    exact hstay
  exact leads_follow hs hp

end SchemaIndex

end FeatureAlignment
