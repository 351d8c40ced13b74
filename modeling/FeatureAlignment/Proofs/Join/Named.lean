import FeatureAlignment.Proofs.Join.Reached
import FeatureAlignment.Proofs.Path.Named

/-!
# Names of planned places

The place of a nested type takes its names from the schema, whether a crossing, the last element of a path
or the search of the schema has told it.

* `SchemaIndex.named_crossings`: names on the crossings of a resolved path.
* `SchemaIndex.Along.named`: names on a way within a type.
* `Cell.plan_named`: names of planned places.
-/

namespace FeatureAlignment

open SchemaIndex (Along)

variable {index : SchemaIndex} {p q : Position} {s : PathStep} {t : TypeDefinition}

namespace Position

/-- Crossings with names of the schema. -/
def CrossesNamed (index : SchemaIndex) (p : Position) : Prop :=
  ∀ x ∈ p.crossings, ∀ s ∈ x.segments, s.name ∈ index.names

/-- A step crosses from what it has come by, or not at all. -/
theorem CrossesNamed.step (h : p.CrossesNamed index) (hp : p.Named index) (hs : p.step? index s = some q) :
    q.CrossesNamed index := by
  cases step?_eq_some.1 hs with
  | group found header cs _ _ => exact h
  | ending found a _ _ _ => exact h
  | crossing found e nested _ _ _ _ _ _ =>
    intro x hx
    rcases List.mem_append.1 hx with hx | hx
    · exact h x hx
    · rw [List.mem_singleton.1 hx]
      exact hp.segments
  | element found e _ _ _ _ =>
    unfold CrossesNamed
    rw [(enterElement_crossings ..).2]
    exact h

end Position

namespace SchemaIndex

/-- **The crossings of a resolved path have names of the schema.** -/
theorem named_crossings {root : QName} {steps : List PathStep} {place : ResolvedPath}
    (h : index.resolve root steps = .ok place) :
    ∀ x ∈ place.crossings, ∀ s ∈ x.segments, s.name ∈ index.names := by
  obtain ⟨-, t, p, ht, hp, rfl⟩ := resolve_eq_ok.1 h
  have hstart : (Position.start t).CrossesNamed index := fun _ hx => by cases hx
  exact (Position.foldlM_keeps (P := fun p => p.Named index ∧ p.CrossesNamed index)
    (fun h hs => ⟨h.1.step hs, h.2.step h.1 hs⟩) ⟨Position.named_start (mem_of_get? ht), hstart⟩ hp).2

/-- **A way within a type has names of the schema**, and so have the nodes behind it. -/
theorem Along.named {segments : List Segment} {children : List Child} (ht : t ∈ index.types)
    (h : Along index t segments children) : (∀ s ∈ segments, s.name ∈ index.names) ∧
      ∀ c ∈ Child.nodesAmong children, c.mentions ⊆ index.names := by
  induction h with
  | here => exact ⟨fun _ hs => (List.not_mem_nil hs).elim, fun _ hc => mentions_subset ht hc⟩
  | element segments children e i _ he _ _ ih =>
    refine ⟨fun s hs => ?_, propertyChildren_subset e⟩
    rcases List.mem_append.1 hs with hs | hs
    · exact ih.1 s hs
    · rw [List.mem_singleton.1 hs]
      exact ih.2 _ he List.mem_cons_self

end SchemaIndex

variable {env : Environment} {container joined : QName} {n : Nesting}

/-- **Every place that is found has names of the schema.** -/
theorem Environment.nesting?_named (h : env.nesting? container joined = some n) :
    ∀ s ∈ n.segments, s.name ∈ env.target.names := by
  unfold nesting? at h
  obtain ⟨a, -, h⟩ := Option.bind_eq_some_iff.1 h
  rcases Option.or_eq_some_iff.1 h with h | ⟨-, h⟩
  · obtain ⟨c, -, h⟩ := List.exists_of_findSome?_eq_some h
    cases Nesting.ofCell?_eq_some.1 h with
    | crossing place x hasked hx =>
      obtain ⟨e, -, -, hplace⟩ := hasked.path
      exact SchemaIndex.named_crossings hplace x (List.mem_of_head? hx)
    | around place last element nested hasked _ _ _ =>
      obtain ⟨e, -, -, hplace⟩ := hasked.path
      exact (SchemaIndex.named_resolve hplace).segments
  · unfold Nesting.ofSchema? at h
    obtain ⟨type, -, h⟩ := Option.bind_eq_some_iff.1 h
    obtain ⟨t, ht, h⟩ := Option.bind_eq_some_iff.1 h
    obtain ⟨segments, hs, h⟩ := Option.bind_eq_some_iff.1 h
    cases h
    obtain ⟨children, e, nested, halong, -, -, -, -⟩ :=
      Search.keeps_within env.target t type Search.room [] t.children [t.name] segments .here hs
    exact (halong.named (SchemaIndex.mem_of_get? ht)).1

namespace Cell

variable {c : Cell}

/-- **Planned places have names of the schema.** -/
theorem plan_named {plans : List JoinPlan} (h : c.plan env = .ok plans) :
    ∀ p ∈ plans, ∀ s ∈ p.segments, s.name ∈ env.target.names := by
  obtain ⟨spec, target, base, types, -, -, -, hp⟩ := plan_ok h
  have hconditions : ∀ (conditions : List JoinCondition) (targets : List (QName × QName)) (plans : List JoinPlan),
      planConditions env c spec targets conditions = .ok plans →
        ∀ p ∈ plans, ∀ s ∈ p.segments, s.name ∈ env.target.names := by
    intro conditions
    induction conditions with
    | nil => intro targets plans h p hp; cases h; cases hp
    | cons condition rest ih =>
      intro targets plans h q hq
      obtain ⟨p, ps, rfl, hp, hps⟩ := planConditions_cons h
      rcases List.mem_cons.1 hq with rfl | hq
      · exact Environment.nesting?_named (planCondition_ok hp).2
      · exact ih _ ps hps q hq
  exact hconditions _ _ plans hp

end Cell

end FeatureAlignment
