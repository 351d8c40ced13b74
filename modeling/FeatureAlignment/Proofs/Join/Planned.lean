import FeatureAlignment.Join.Plan
import FeatureAlignment.Proofs.Path.Crossings

/-!
# Planned joins

Planning looks up all types that installing will need, so that nothing can be missing then.

* `Search.inChildren_found`, `Search.within_found`: a search that finds a path has found an
  element of a known type.
* `Environment.Nests`: what the place of a nested type says about the two types;
  `nests_of_nesting?` has it for every place found.
* `Cell.plan_nests`, `Cell.plan_head`: all plans of a join are of this kind, and the first
  one is about the target type of the cell.
-/

namespace FeatureAlignment

open SchemaIndex (Knows)

namespace Search

variable {index : SchemaIndex} {wanted : QName} {enter : Enter}

mutual

theorem inChild_found (henter : ∀ cs ss vs path, (enter cs ss vs).found = some path → index.Knows wanted) :
    ∀ (c : Child) (segments path : List Segment) (visited : List QName),
      (inChild index wanted enter segments visited c).found = some path → index.Knows wanted
  | .group _ children, segments, path, visited, h => by
    unfold inChild at h
    exact inChildren_found henter children segments path visited h
  | .property p, segments, path, visited, h => by
    unfold inChild at h
    split at h
    · cases h
    · split at h
      · cases h
      · rename_i t ht
        split at h
        · rename_i hw
          rw [← hw]
          exact SchemaIndex.knows_of_get? (SchemaIndex.propertyType?_get? ht)
        · split at h
          · cases h
          · exact henter _ _ _ _ h

/-- **A search that finds a path has found the wanted type.** -/
theorem inChildren_found (henter : ∀ cs ss vs path, (enter cs ss vs).found = some path → index.Knows wanted) :
    ∀ (cs : List Child) (segments path : List Segment) (visited : List QName),
      (inChildren index wanted enter segments visited cs).found = some path → index.Knows wanted
  | [], _, _, _, h => by unfold inChildren at h; cases h
  | c :: cs, segments, path, visited, h => by
    unfold inChildren at h
    simp only at h
    split at h
    · exact inChild_found henter c segments path visited h
    · exact inChildren_found henter cs segments path _ h

end

theorem within_found (n : Nat) : ∀ (cs : List Child) (segments : List Segment) (visited : List QName)
    (path : List Segment), (within index wanted n cs segments visited).found = some path →
      index.Knows wanted := by
  induction n with
  | zero => intro cs segments visited path h; cases h
  | succ n ih => intro cs segments visited path h; exact inChildren_found ih cs segments path visited h

end Search

namespace SchemaIndex

variable {index : SchemaIndex} {exclude : QName} {found : PropertyDefinition × TypeDefinition}

mutual

theorem featureOf?_some : ∀ c : Child, index.featureOf? exclude c = some found →
    index.get? found.2.name = some found.2 ∧ found.2.name ≠ exclude
  | .property p, h => by
    unfold featureOf? at h
    split at h
    · cases h
    · obtain ⟨t, ht, rfl⟩ := Option.map_eq_some_iff.1 h
      obtain ⟨ht, hf⟩ := Option.filter_eq_some_iff.1 ht
      simp only [Bool.and_eq_true, decide_eq_true_eq] at hf
      exact ⟨propertyType?_get? ht, hf.2⟩
  | .group _ children, h => by
    unfold featureOf? at h
    exact featureAmong?_some children h

/-- **A feature found among children** is a known type other than the excluded one. -/
theorem featureAmong?_some : ∀ cs : List Child, index.featureAmong? exclude cs = some found →
    index.get? found.2.name = some found.2 ∧ found.2.name ≠ exclude
  | [], h => by unfold featureAmong? at h; cases h
  | c :: cs, h => by
    unfold featureAmong? at h
    split at h
    · rename_i found' hc
      cases h
      exact featureOf?_some c hc
    · exact featureAmong?_some cs h

end

end SchemaIndex

/-! ## Places of nested types -/

/-- **A place for a type in a container**: both types are known, and they differ. -/
structure Environment.Nests (env : Environment) (container nested : QName) : Prop where
  outer : env.target.Knows container
  inner : env.target.Knows nested
  ne : nested ≠ container

variable {env : Environment} {container joined : QName} {n : Nesting}

theorem Nesting.nests_ofCell? {c : Cell} (h : Nesting.ofCell? env.target container joined c = some n) :
    env.Nests container n.type := by
  unfold Nesting.ofCell? at h
  split at h
  · cases h
  split at h
  · cases h
  split at h
  · split at h
    · rename_i place hplace
      have hl := SchemaIndex.leads_resolve hplace
      obtain ⟨t, p, ht, -, -⟩ := SchemaIndex.resolve_ok hplace
      have hc := SchemaIndex.knows_of_get? ht
      rcases Option.or_eq_some_iff.1 h with h | ⟨-, h⟩
      · -- the path crosses into the nested type
        obtain ⟨x, hx, rfl⟩ := Option.map_eq_some_iff.1 h
        have hk := hl.knows x (List.mem_of_head? hx)
        rw [hl.head x hx] at hk
        exact ⟨hc, hk.2.1, hk.2.2⟩
      · -- the path ends around it
        unfold Nesting.ofLastElement? at h
        obtain ⟨found, hfound, rfl⟩ := Option.map_eq_some_iff.1 h
        obtain ⟨last, -, hfound⟩ := Option.bind_eq_some_iff.1 hfound
        obtain ⟨hg, hne⟩ := SchemaIndex.featureAmong?_some _ hfound
        exact ⟨hc, SchemaIndex.knows_of_get? hg, hne⟩
    · cases h
  · cases h

theorem Nesting.nests_ofSchema? {a : Alignment}
    (h : Nesting.ofSchema? env.target a container joined = some n) : env.Nests container n.type := by
  unfold Nesting.ofSchema? at h
  obtain ⟨type, htype, h⟩ := Option.bind_eq_some_iff.1 h
  obtain ⟨t, ht, h⟩ := Option.bind_eq_some_iff.1 h
  obtain ⟨segments, hs, h⟩ := Option.bind_eq_some_iff.1 h
  cases h
  have hne : type ≠ container := by simpa using List.find?_some htype
  exact ⟨SchemaIndex.knows_of_get? ht, Search.within_found _ _ _ _ _ hs, hne⟩

/-- **Every place that is found is one**: what cells tell as well as what the schema tells. -/
theorem Environment.nests_of_nesting? (h : env.nesting? container joined = some n) :
    env.Nests container n.type := by
  unfold Environment.nesting? at h
  obtain ⟨a, -, h⟩ := Option.bind_eq_some_iff.1 h
  rcases Option.or_eq_some_iff.1 h with h | ⟨-, h⟩
  · obtain ⟨c, -, h⟩ := List.exists_of_findSome?_eq_some h
    exact Nesting.nests_ofCell? h
  · exact Nesting.nests_ofSchema? h

/-! ## Plans -/

namespace Cell

variable {c : Cell} {spec : JoinSpec} {targets : List (QName × QName)}

/-- What the plan of one key equality says. -/
theorem planCondition_ok {condition : JoinCondition} {p : JoinPlan}
    (h : planCondition env c spec targets condition = .ok p) :
    targets.lookup condition.base.type = some p.containerType ∧
      env.nesting? p.containerType p.nestedSource = some ⟨p.segments, p.nestedType, p.isReference⟩ := by
  unfold planCondition at h
  obtain ⟨_, -, h⟩ := Build.except_bind_ok.1 h
  obtain ⟨_, -, h⟩ := Build.except_bind_ok.1 h
  simp only at h
  split at h
  · cases h
  · split at h
    · cases h
    · rename_i container hcontainer
      split at h
      · cases h
      · rename_i nesting hnesting
        cases h
        exact ⟨hcontainer, hnesting⟩

theorem planConditions_cons {condition : JoinCondition} {rest : List JoinCondition} {plans : List JoinPlan}
    (h : planConditions env c spec targets (condition :: rest) = .ok plans) :
    ∃ p ps, plans = p :: ps ∧ planCondition env c spec targets condition = .ok p ∧
      planConditions env c spec ((p.nestedSource, p.nestedType) :: targets) rest = .ok ps := by
  unfold planConditions at h
  obtain ⟨p, hp, h⟩ := Build.except_bind_ok.1 h
  obtain ⟨ps, hps, h⟩ := Build.except_bind_ok.1 h
  cases h
  exact ⟨p, ps, rfl, hp, hps⟩

theorem planConditions_nests {conditions : List JoinCondition} {plans : List JoinPlan}
    (h : planConditions env c spec targets conditions = .ok plans) :
    ∀ p ∈ plans, env.Nests p.containerType p.nestedType := by
  -- each plan enters its nested type among the targets of the later ones
  induction conditions generalizing targets plans with
  | nil => cases h; intro p hp; cases hp
  | cons condition rest ih =>
    obtain ⟨p, ps, rfl, hp, hps⟩ := planConditions_cons h
    intro q hq
    rcases List.mem_cons.1 hq with rfl | hq
    · exact Environment.nests_of_nesting? (planCondition_ok hp).2
    · exact ih hps q hq

theorem plan_ok {plans : List JoinPlan} (h : c.plan env = .ok plans) :
    ∃ spec target base types, c.joinSpec = .ok spec ∧ c.targetEntity = .ok target ∧
      spec.types = base :: types ∧
      planConditions env c spec [(base, target.type)] spec.conditions = .ok plans := by
  unfold plan at h
  obtain ⟨spec, hspec, h⟩ := Build.except_bind_ok.1 h
  obtain ⟨target, htarget, h⟩ := Build.except_bind_ok.1 h
  split at h
  · cases h
  · rename_i base types hbase
    exact ⟨spec, target, base, types, hspec, htarget, hbase, h⟩

/-- **All types of a plan are known**, and the two types of each plan differ. -/
theorem plan_nests {plans : List JoinPlan} (h : c.plan env = .ok plans) :
    ∀ p ∈ plans, env.Nests p.containerType p.nestedType := by
  obtain ⟨spec, target, base, types, -, -, -, hp⟩ := plan_ok h
  exact planConditions_nests hp

/-- The container of the first plan is the target type of the cell. -/
theorem plan_head {p : JoinPlan} {ps : List JoinPlan} (h : c.plan env = .ok (p :: ps)) :
    ∃ target, c.targetEntity = .ok target ∧ p.containerType = target.type := by
  obtain ⟨spec, target, base, types, -, ht, -, hp⟩ := plan_ok h
  refine ⟨target, ht, ?_⟩
  cases hc : spec.conditions with
  | nil => rw [hc] at hp; cases hp
  | cons condition rest =>
    rw [hc] at hp
    obtain ⟨q, qs, heq, hq, -⟩ := planConditions_cons hp
    cases heq
    have hl := (planCondition_ok hq).1
    -- the only target that the first condition can be about is that of the base type
    rw [List.lookup_cons] at hl
    split at hl
    · exact (Option.some.inj hl).symm
    · cases hl

end Cell

end FeatureAlignment
