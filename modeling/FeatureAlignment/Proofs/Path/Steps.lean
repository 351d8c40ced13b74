import FeatureAlignment.Proofs.Path.Crossings

/-!
# Steps of a path

A step goes to the child that it names: into a group, to an XML attribute, across to another
feature type, or into an element of the same one. Nothing else happens on a path.

* `Position.Taken index p s q`: the four ways in which a step `s` leads from `p` to `q`;
  `step?_eq_some` has them for every step.
* `SchemaIndex.follow_ok`, `SchemaIndex.resolve_eq_ok`: a path is its steps, one after the other.
* `SchemaIndex.resolve_guards`: the conditions that a path collects.
-/

namespace FeatureAlignment

variable {index : SchemaIndex} {root : QName} {p q : Position} {s : PathStep}

theorem SchemaIndex.mem_of_get? {name : QName} {t : TypeDefinition} (h : index.get? name = some t) :
    t ∈ index.types := List.mem_of_find?_eq_some h

/-- **An element that stays in a feature type**: it is of no other one. -/
def SchemaIndex.StaysIn (index : SchemaIndex) (owner : QName) (e : PropertyDefinition) : Prop :=
  ∀ t, index.propertyType? e = some t → t.feature = true → t.name = owner

namespace Position

/-- The child that a step finds. There is none behind an XML attribute. -/
def Finds (p : Position) (s : PathStep) (found : Located) : Prop :=
  p.ending = none ∧ Child.locate? p.children s.name = some found

/-- What a step notes before it enters the child that it finds: its condition, and whether a group
on the way repeats. -/
def noted (p : Position) (s : PathStep) (found : Located) : Position :=
  (p.guard s.condition).repeating (found.repeatable && s.index.isNone)

@[simp] theorem noted_owner (found : Located) : (p.noted s found).owner = p.owner := rfl

/-- **What a step does**, by the child that it finds. -/
inductive Taken (index : SchemaIndex) (p : Position) (s : PathStep) : Position → Prop
  | group (found : Located) (header : GroupHeader) (children : List Child) :
      p.Finds s found → found.child = .group header children →
      Taken index p s (((p.noted s found).repeating (header.repeatable && s.index.isNone)).enterGroup
        header children found.head)
  | ending (found : Located) (a : PropertyDefinition) :
      p.Finds s found → found.child = .property a → a.isAttribute = true →
      Taken index p s ((p.noted s found).endAt a)
  | crossing (found : Located) (e : PropertyDefinition) (nested : TypeDefinition) :
      p.Finds s found → found.child = .property e → e.isAttribute = false →
      index.propertyType? e = some nested → nested.feature = true → nested.name ≠ p.owner →
      Taken index p s ((p.noted s found).cross nested)
  | element (found : Located) (e : PropertyDefinition) :
      p.Finds s found → found.child = .property e → e.isAttribute = false → index.StaysIn p.owner e →
      Taken index p s ((p.noted s found).enterElement e (index.propertyType? e) (index.propertyChildren e)
        found.head s.index)

/-- The element of another feature type, if it is one. -/
theorem filter_other {owner : QName} {e : PropertyDefinition} :
    (index.propertyType? e).filter (fun t => t.feature && t.name ≠ owner) = none ↔ index.StaysIn owner e := by
  rw [Option.filter_eq_none_iff]
  constructor
  · intro h t ht hf
    have := h t ht
    simpa [hf] using this
  · intro h t ht
    simp only [Bool.and_eq_true, decide_eq_true_eq, not_and, Decidable.not_not]
    exact h t ht

theorem enter_taken {found : Located} (h : p.Finds s found) :
    Taken index p s (enter index (p.noted s found) found s.index) := by
  unfold enter
  cases hc : found.child with
  | group header children => exact .group found header children h hc
  | property e =>
    cases ha : e.isAttribute with
    | true => simp only [ha, if_true]; exact .ending found e h hc ha
    | false =>
      simp only [ha, Bool.false_eq_true, if_false]
      cases hf : (index.propertyType? e).filter (fun t => t.feature && t.name ≠ (p.noted s found).owner) with
      | none => exact .element found e h hc ha (filter_other.1 hf)
      | some nested =>
        obtain ⟨ht, hf⟩ := Option.filter_eq_some_iff.1 hf
        simp only [Bool.and_eq_true, decide_eq_true_eq] at hf
        exact .crossing found e nested h hc ha ht hf.1 hf.2

/-- **A step leads on as `Taken` says.** -/
theorem step?_eq_some : p.step? index s = some q ↔ Taken index p s q := by
  have hstep : p.step? index s = some q ↔
      ∃ found, p.Finds s found ∧ enter index (p.noted s found) found s.index = q := by
    unfold step? Finds
    cases p.ending with
    | some a => simp
    | none => simp [Option.map_eq_some_iff, noted]
  rw [hstep]
  constructor
  · rintro ⟨found, hfound, rfl⟩
    exact enter_taken hfound
  · -- the child determines which way is taken
    intro h
    cases h with
    | group found header children hfound hc => exact ⟨found, hfound, by unfold enter; rw [hc]⟩
    | ending found a hfound hc ha =>
      refine ⟨found, hfound, ?_⟩
      unfold enter
      simp only [hc, ha, if_true]
    | crossing found e nested hfound hc ha ht hf hne =>
      refine ⟨found, hfound, ?_⟩
      have hother : (index.propertyType? e).filter (fun t => t.feature && t.name ≠ (p.noted s found).owner) =
          some nested := Option.filter_eq_some_iff.2 ⟨ht, by simp [hf, hne]⟩
      unfold enter
      simp only [hc, ha, Bool.false_eq_true, if_false, hother]
    | element found e hfound hc ha hstays =>
      refine ⟨found, hfound, ?_⟩
      have hother : (index.propertyType? e).filter (fun t => t.feature && t.name ≠ (p.noted s found).owner) =
          none := filter_other.2 hstays
      unfold enter
      simp only [hc, ha, Bool.false_eq_true, if_false, hother]

/-- **What each step keeps, a path keeps.** -/
theorem foldlM_keeps {P : Position → Prop}
    (hstep : ∀ {p q : Position} {s : PathStep}, P p → p.step? index s = some q → P q) (h : P p)
    {steps : List PathStep} (hs : steps.foldlM (step? index) p = some q) : P q := by
  induction steps generalizing p with
  | nil => cases hs; exact h
  | cons s steps ih =>
    rw [List.foldlM_cons] at hs
    obtain ⟨p', hp', hs⟩ := Option.bind_eq_some_iff.1 hs
    exact ih (hstep h hp') hs

/-- Entering an element collects no condition. -/
theorem enterElement_guards (p : Position) (element : PropertyDefinition) (type : Option TypeDefinition)
    (children : List Child) (head : Option QName) (i : Option UInt64) :
    (p.enterElement element type children head i).guards = p.guards := by
  unfold enterElement
  simp only
  split
  · split
    · split <;> rfl
    · rfl
  · rfl

/-- **A step collects its condition**, whatever it finds. -/
theorem step?_guards (h : p.step? index s = some q) : q.guards = p.guards ++ s.condition.toList := by
  cases step?_eq_some.1 h with
  | group found header children hfound hc => rfl
  | ending found a hfound hc ha => rfl
  | crossing found e nested hfound hc ha ht hf hne => rfl
  | element found e hfound hc ha hstays => exact enterElement_guards (p.noted s found) e _ _ found.head s.index

/-- One step more. -/
theorem foldlM_concat {steps : List PathStep} (h : steps.foldlM (step? index) p = some q) (s : PathStep) :
    (steps ++ [s]).foldlM (step? index) p = q.step? index s := by
  rw [List.foldlM_append, h]
  simp

end Position

namespace SchemaIndex

/-- **A path is its steps**, one after the other. -/
theorem follow_ok {done steps : List PathStep} :
    index.follow root done p steps = .ok q ↔ steps.foldlM (Position.step? index) p = some q := by
  induction steps generalizing p done with
  | nil => simp [follow]
  | cons s steps ih =>
    unfold follow
    rw [List.foldlM_cons]
    cases p.step? index s with
    | none => simp
    | some p' => exact ih

/-- **A path that resolves**, from its root to its place. -/
theorem resolve_eq_ok {steps : List PathStep} {place : ResolvedPath} :
    index.resolve root steps = .ok place ↔ steps ≠ [] ∧ ∃ t p, index.get? root = some t ∧
      steps.foldlM (Position.step? index) (.start t) = some p ∧ p.place = place := by
  constructor
  · intro h
    obtain ⟨t, p, ht, hp, hplace⟩ := resolve_ok h
    refine ⟨?_, t, p, ht, follow_ok.1 hp, hplace⟩
    rintro rfl
    unfold resolve at h
    obtain ⟨t', -, h⟩ := Build.except_bind_ok.1 h
    cases h
  · rintro ⟨hne, t, p, ht, hp, rfl⟩
    have hnonempty : steps.isEmpty = false := by simpa using hne
    have hrequire : index.require root = .ok t := by unfold require; rw [ht]
    unfold resolve
    refine Build.except_bind_ok.2 ⟨t, hrequire, ?_⟩
    simp only [hnonempty, Bool.false_eq_true, if_false]
    exact Build.except_bind_ok.2 ⟨p, follow_ok.2 hp, rfl⟩

/-- **The conditions on the way** are those on the steps, in path order. -/
theorem resolve_guards {steps : List PathStep} {place : ResolvedPath}
    (h : index.resolve root steps = .ok place) : place.guards = steps.filterMap PathStep.condition := by
  obtain ⟨-, t, p, -, hp, rfl⟩ := resolve_eq_ok.1 h
  have hcollect : ∀ (steps : List PathStep) {p q : Position},
      steps.foldlM (Position.step? index) p = some q →
        q.guards = p.guards ++ steps.filterMap PathStep.condition := by
    intro steps
    induction steps with
    | nil =>
      intro p q hq
      cases hq
      simp
    | cons s steps ih =>
      intro p q hq
      rw [List.foldlM_cons] at hq
      obtain ⟨p', hp', hq⟩ := Option.bind_eq_some_iff.1 hq
      rw [ih hq, Position.step?_guards hp', List.append_assoc]
      cases hc : s.condition <;> simp [hc]
  have hguards := hcollect steps hp
  rw [show (Position.start t).guards = [] from rfl, List.nil_append] at hguards
  exact hguards

end SchemaIndex

end FeatureAlignment
