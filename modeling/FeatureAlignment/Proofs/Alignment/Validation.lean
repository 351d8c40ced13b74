import FeatureAlignment.Alignment.Validation
import FeatureAlignment.Proofs.Condition.Check
import FeatureAlignment.Proofs.Path.Steps

/-!
# What the check of an alignment finds

The check goes through the cells once and remembers the identifiers behind it. It finds no error just when
the alignment is well-formed: that is a matter of each cell alone, but for the identifiers, which have to
differ.

* `Cell.WellFormed`, `Alignment.WellFormed`: what the check is about, without the check.
* `Cell.clean_issues`, `Cell.clean_issuesBehind`: when it finds no error with a cell, and with the cells
  behind others.
* `Alignment.clean_validate`: when it finds no error at all.
* `Cell.WellFormed.guarded`: no guard of a well-formed cell is refused, wherever its path leads.
-/

namespace FeatureAlignment

/-- **Clean issues**: none of them is an error. -/
def Issue.Clean (issues : List Issue) : Prop := ∀ i ∈ issues, i.severity ≠ .error

/-- **A condition on an entity**: its own, or one on a step of its path. -/
def Entity.HasCondition (e : Entity) (t : Condition) : Prop :=
  e.condition = some t ∨ ∃ s ∈ e.path, s.condition = some t

/-- **A well-formed cell**: it has a target and a known function, and all conditions on its entities and on
their steps pass their check. -/
structure Cell.WellFormed (c : Cell) : Prop where
  target : c.target ≠ []
  function : ∃ f, Function.ofName? c.function = some f
  conditions : ∀ e ∈ c.source ++ c.target, ∀ t, e.HasCondition t → t.check = .ok ()

/-- **A well-formed alignment**: its cells are, and no two of them have one identifier. -/
structure Alignment.WellFormed (a : Alignment) : Prop where
  ids : (a.cells.map Cell.id).Nodup
  cells : ∀ c ∈ a.cells, c.WellFormed

namespace Issue

variable {issues more : List Issue}

theorem clean_nil : Clean [] := fun i hi => by cases hi

@[simp] theorem clean_append : Clean (issues ++ more) ↔ Clean issues ∧ Clean more := by
  unfold Clean
  rw [List.forall_mem_append]

/-- An error that is found under a condition is not found where the condition fails. -/
theorem clean_if {p : Prop} [Decidable p] {i : Issue} (hi : i.severity = .error) :
    Clean (if p then [i] else []) ↔ ¬ p := by
  unfold Clean
  split <;> simp [*]

/-- A warning is no error. -/
theorem clean_warning {p : Prop} [Decidable p] {i : Issue} (hi : i.severity = .warning) :
    Clean (if p then [i] else []) := by
  unfold Clean
  split <;> simp [hi]

end Issue

open Issue (Clean clean_nil clean_append clean_if clean_warning)

theorem Entity.mem_stepConditions {e : Entity} {t : Condition} :
    t ∈ e.stepConditions ↔ ∃ s ∈ e.path, s.condition = some t := List.mem_filterMap

namespace Cell

variable {c : Cell} {t : Condition}

/-- The conditions that are checked are those on the entities. -/
theorem mem_conditions : t ∈ c.conditions ↔ ∃ e ∈ c.source ++ c.target, e.HasCondition t := by
  unfold conditions Entity.HasCondition
  simp only [List.mem_flatMap, List.mem_append, Option.mem_toList, Entity.mem_stepConditions]

/-- No issue with a condition means that it passes. -/
theorem clean_conditions (id : String) (ts : List Condition) :
    Clean (ts.filterMap (Condition.issue? id)) ↔ ∀ t ∈ ts, t.check = .ok () := by
  induction ts with
  | nil => simp [clean_nil]
  | cons t ts ih =>
    rw [List.forall_mem_cons, ← ih, List.filterMap_cons]
    unfold Condition.issue?
    cases hc : t.check with
    | ok u => simp
    | error fault => simp [Clean, Issue.malformed]

/-- **What is found with a cell.** There is no error just when its identifier is free and the cell is
well-formed. -/
theorem clean_issues (taken : Bool) (c : Cell) :
    Clean (c.issues taken) ↔ taken = false ∧ c.WellFormed := by
  have hconditions : Clean (c.conditions.filterMap (Condition.issue? c.id)) ↔
      ∀ e ∈ c.source ++ c.target, ∀ t, e.HasCondition t → t.check = .ok () := by
    rw [clean_conditions]
    constructor
    · intro h e he t ht
      exact h t (mem_conditions.2 ⟨e, he, ht⟩)
    · intro h t ht
      obtain ⟨e, he, ht⟩ := mem_conditions.1 ht
      exact h e he t ht
  have hmany : Clean (if c.target.length > 1 then [.manyTargets c.id c.target.length] else []) :=
    clean_warning rfl
  unfold issues
  rw [clean_append, clean_append, clean_append, clean_append, hconditions, clean_if rfl, clean_if rfl,
    clean_if rfl]
  simp only [Bool.not_eq_true, Option.isNone_eq_false_iff, Option.isSome_iff_exists,
    List.isEmpty_eq_false_iff]
  constructor
  · rintro ⟨⟨⟨⟨hfree, htarget⟩, hfunction⟩, hall⟩, -⟩
    exact ⟨hfree, htarget, hfunction, hall⟩
  · rintro ⟨hfree, htarget, hfunction, hall⟩
    exact ⟨⟨⟨⟨hfree, htarget⟩, hfunction⟩, hall⟩, hmany⟩

/-- **What is found with cells behind others.** Besides each cell alone, the identifiers have to differ from
each other and from those seen before. -/
theorem clean_issuesBehind (seen : List String) (cells : List Cell) :
    Clean (issuesBehind seen cells) ↔
      (∀ c ∈ cells, c.id ∉ seen) ∧ (cells.map Cell.id).Nodup ∧ ∀ c ∈ cells, c.WellFormed := by
  induction cells generalizing seen with
  | nil => simp [issuesBehind, clean_nil]
  | cons c cells ih =>
    have hfree : seen.contains c.id = false ↔ c.id ∉ seen := by simp
    -- a later cell differs from what was seen before, and from this cell
    have hlater : (∀ x ∈ cells, x.id ∉ c.id :: seen) ↔
        (∀ x ∈ cells, x.id ∉ seen) ∧ c.id ∉ cells.map Cell.id := by
      simp only [List.mem_cons, not_or, List.mem_map, not_exists, not_and]
      constructor
      · intro h
        exact ⟨fun x hx => (h x hx).2, fun x hx => (h x hx).1⟩
      · rintro ⟨hseen, hid⟩ x hx
        exact ⟨hid x hx, hseen x hx⟩
    rw [issuesBehind, clean_append, clean_issues, ih, hfree, hlater, List.map_cons, List.nodup_cons,
      List.forall_mem_cons, List.forall_mem_cons]
    constructor
    · rintro ⟨⟨hc, hwell⟩, ⟨hseen, hid⟩, hnodup, hall⟩
      exact ⟨⟨hc, hseen⟩, ⟨hid, hnodup⟩, hwell, hall⟩
    · rintro ⟨⟨hc, hseen⟩, ⟨hid, hnodup⟩, hwell, hall⟩
      exact ⟨⟨hc, hwell⟩, ⟨hseen, hid⟩, hnodup, hall⟩

end Cell

/-- **No error is found just in well-formed alignments.** -/
theorem Alignment.clean_validate (a : Alignment) : Clean a.validate ↔ a.WellFormed := by
  unfold validate
  rw [Cell.clean_issuesBehind]
  constructor
  · rintro ⟨-, hids, hcells⟩
    exact ⟨hids, hcells⟩
  · rintro ⟨hids, hcells⟩
    exact ⟨fun _ _ => List.not_mem_nil, hids, hcells⟩

/-! ## Guards of well-formed cells -/

namespace Cell

variable {c : Cell} {index : SchemaIndex}

/-- A well-formed cell has a target. -/
theorem WellFormed.targetEntity (h : c.WellFormed) : ∃ e, e ∈ c.target ∧ c.targetEntity = .ok e := by
  unfold Cell.targetEntity
  cases ht : c.target with
  | nil => exact absurd ht h.target
  | cons e es => exact ⟨e, List.mem_cons_self .., rfl⟩

/-- **No guard of a well-formed cell is refused.** Where the path of its target resolves, the conditions on
the way are those on its steps, and all of them were checked. -/
theorem WellFormed.guarded (h : c.WellFormed) {target : Entity} (ht : target ∈ c.target) {place : ResolvedPath}
    (hplace : index.resolve target.type target.path = .ok place) (e : Expr) :
    ∃ restricted, c.guarded place.guards e = .ok restricted := by
  have hchecked : ∀ t ∈ c.guards place.guards, t.check = .ok () := by
    intro t hmem
    unfold guards at hmem
    rw [SchemaIndex.resolve_guards hplace] at hmem
    rcases List.mem_append.1 hmem with hstep | hsource
    · have hon : target.HasCondition t := .inr (Entity.mem_stepConditions.1 hstep)
      exact h.conditions target (List.mem_append_right _ ht) t hon
    · obtain ⟨e, he, hmem⟩ := List.mem_flatMap.1 hsource
      have hon : e.HasCondition t := by
        rcases List.mem_append.1 hmem with hstep | hown
        · exact .inr (Entity.mem_stepConditions.1 hstep)
        · exact .inl (Option.mem_toList.1 hown)
      exact h.conditions e (List.mem_append_left _ he) t hon
  cases hg : c.guardCondition place.guards with
  | none => exact ⟨e, guarded_ok.2 (.inl ⟨guardCondition_none.1 hg, rfl⟩)⟩
  | some g =>
    have hcheck := (check_guardCondition hg).2 hchecked
    exact ⟨e.guarded g.toExpr, guarded_ok.2 (.inr ⟨g, hg, hcheck, rfl⟩)⟩

end Cell

end FeatureAlignment
