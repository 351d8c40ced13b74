import FeatureAlignment.Proofs.Cell.Explained
import Mathlib.Data.List.Induction

/-!
# Joins are planned as chains

A join begins at its first type, which stands for the target type of the cell, and each key equality adds a
type to the chain. So the container of a plan is where the chain has last put the base type of its key equality.
A key equality that is about no type of the chain stops the whole join, and so does one about a type that is
not joined, or with a key that does not resolve.

* `JoinPlan.ChainTarget`: the target type that a chain of plans has for a source type;
  `lookup_chainTargets` has it for the planner.
* `JoinPlan.Follows`: what the plan of a key equality is, behind the plans before it.
* `JoinCondition.Breaks`: key equalities that no chain can go on with.
* `Cell.plan_chained`: the plans of a join are the chain of its key equalities, and a key equality that breaks
  the chain is refused with the whole join.
-/

namespace FeatureAlignment

section

variable {env : Environment} {base target type container : QName} {earlier plans : List JoinPlan}
  {spec : JoinSpec} {condition : JoinCondition} {conditions : List JoinCondition} {p : JoinPlan}

/-- **A key that resolves**: its type is known, and its names lead to a property. -/
def SchemaIndex.Resolves (source : SchemaIndex) (key : Entity) : Prop :=
  ∃ t property, source.get? key.type = some t ∧ source.walk t key.names = .ok property

namespace JoinPlan

/-! ## Chains -/

/-- **The target type that a chain has for a source type.** It is the nested type of the latest plan in which
the source type is nested. If there is none, the first type of the join stands for the target of the join. -/
inductive ChainTarget (base target : QName) (earlier : List JoinPlan) (type : QName) : QName → Prop
  | nested (before : List JoinPlan) (latest : JoinPlan) (after : List JoinPlan) :
      earlier = before ++ latest :: after → latest.nestedSource = type → (∀ q ∈ after, q.nestedSource ≠ type) →
      ChainTarget base target earlier type latest.nestedType
  | first : type = base → (∀ q ∈ earlier, q.nestedSource ≠ type) → ChainTarget base target earlier type target

/-- **A plan that follows others**, for a key equality: it goes on with the chain of the earlier plans. The
place of the nested type is known, both types are in the target schema, and both keys resolve. -/
structure Follows (env : Environment) (spec : JoinSpec) (base target : QName) (earlier : List JoinPlan)
    (condition : JoinCondition) (p : JoinPlan) : Prop where
  nestedSource : p.nestedSource = condition.join.type
  listed : p.nestedSource ∈ spec.types
  containerSource : p.containerSource = condition.base.type
  container : ChainTarget base target earlier p.containerSource p.containerType
  nesting : env.nesting? p.containerType p.nestedSource = some ⟨p.segments, p.nestedType, p.isReference⟩
  nests : env.Nests p.containerType p.nestedType
  baseKey : p.baseKey = condition.base.expression
  foreignKey : p.foreignKey = condition.join.expression
  baseResolves : env.source.Resolves condition.base
  foreignResolves : env.source.Resolves condition.join

/-- The target types of a chain, the latest first. -/
def chainTargets (base target : QName) (earlier : List JoinPlan) : List (QName × QName) :=
  (earlier.map (fun q => (q.nestedSource, q.nestedType))).reverse ++ [(base, target)]

theorem chainTargets_concat (base target : QName) (earlier : List JoinPlan) (q : JoinPlan) :
    chainTargets base target (earlier ++ [q]) =
      (q.nestedSource, q.nestedType) :: chainTargets base target earlier := by
  simp [chainTargets]

/-- A chain that goes on with the type itself has it where the last plan put it. -/
theorem chainTarget_concat_self {q : JoinPlan} (hq : q.nestedSource = type) :
    ChainTarget base target (earlier ++ [q]) type container ↔ q.nestedType = container := by
  constructor
  · intro h
    cases h with
    | nested before latest after hsplit hlatest hafter =>
      rcases List.eq_nil_or_concat after with rfl | ⟨after, r, rfl⟩
      · have := List.append_inj_right' hsplit rfl
        cases this
        rfl
      · -- the last plan is the latest one
        have hlast : earlier ++ [q] = (before ++ latest :: after) ++ [r] := by simpa using hsplit
        cases List.append_inj_right' hlast rfl
        exact absurd hq (hafter q (by simp))
    | first _ hnone => exact absurd hq (hnone q (by simp))
  · rintro rfl
    exact .nested earlier q [] rfl hq fun r hr => (List.not_mem_nil hr).elim

/-- A chain that goes on with another type has this one where it was. -/
theorem chainTarget_concat_other {q : JoinPlan} (hq : q.nestedSource ≠ type) :
    ChainTarget base target (earlier ++ [q]) type container ↔ ChainTarget base target earlier type container := by
  constructor
  · intro h
    cases h with
    | nested before latest after hsplit hlatest hafter =>
      rcases List.eq_nil_or_concat after with rfl | ⟨after, r, rfl⟩
      · cases List.append_inj_right' hsplit rfl
        exact absurd hlatest hq
      · have hlast : earlier ++ [q] = (before ++ latest :: after) ++ [r] := by simpa using hsplit
        exact .nested before latest after (List.append_inj_left' hlast rfl) hlatest
          fun r hr => hafter r (by simp [hr])
    | first hbase hnone => exact .first hbase fun r hr => hnone r (by simp [hr])
  · intro h
    have hkept : ∀ rs : List JoinPlan, (∀ r ∈ rs, r.nestedSource ≠ type) →
        ∀ r ∈ rs ++ [q], r.nestedSource ≠ type := by
      intro rs hrs r hr
      rcases List.mem_append.1 hr with hr | hr
      · exact hrs r hr
      · rw [List.mem_singleton.1 hr]
        exact hq
    cases h with
    | nested before latest after hsplit hlatest hafter =>
      exact .nested before latest (after ++ [q]) (by simp [hsplit]) hlatest (hkept after hafter)
    | first hbase hnone => exact .first hbase (hkept earlier hnone)

/-- **The planner looks up the target types of the chain.** -/
theorem lookup_chainTargets :
    (chainTargets base target earlier).lookup type = some container ↔
      ChainTarget base target earlier type container := by
  induction earlier using List.reverseRecOn with
  | nil =>
    have hempty : chainTargets base target [] = [(base, target)] := rfl
    rw [hempty]
    constructor
    · intro h
      rw [List.lookup_cons] at h
      split at h
      · rename_i hbase
        cases h
        exact .first (by simpa using hbase) fun q hq => (List.not_mem_nil hq).elim
      · cases h
    · intro h
      cases h with
      | nested before latest after hsplit _ _ => simp at hsplit
      | first hbase _ => simp [hbase]
  | append_singleton earlier q ih =>
    rw [chainTargets_concat, List.lookup_cons]
    by_cases hq : q.nestedSource = type
    · rw [chainTarget_concat_self hq, hq]
      simp
    · rw [chainTarget_concat_other hq, ← ih]
      have hne : (type == q.nestedSource) = false := by simpa using Ne.symm hq
      rw [hne]

end JoinPlan

open JoinPlan (ChainTarget Follows chainTargets)

namespace Cell

variable {c : Cell} {targets : List (QName × QName)}

/-! ## One key equality -/

theorem checkKey_ok {source : SchemaIndex} {key : Entity} :
    c.checkKey source key = .ok () ↔ source.Resolves key := by
  unfold checkKey SchemaIndex.Resolves
  cases ht : source.get? key.type with
  | none => simp
  | some t =>
    cases hw : source.walk t key.names with
    | ok property => simp [hw]
    | error failure =>
      obtain ⟨type, path, step, rfl⟩ := SchemaIndex.walkFrom_error hw
      simp [hw]

theorem checkCondition_ok :
    checkCondition env c spec condition = .ok () ↔
      env.source.Resolves condition.base ∧ env.source.Resolves condition.join ∧
        condition.join.type ∈ spec.types := by
  rw [← checkKey_ok (c := c), ← checkKey_ok (c := c)]
  unfold checkCondition
  cases c.checkKey env.source condition.base with
  | error failure => simp [bind, Except.bind]
  | ok _ =>
    cases c.checkKey env.source condition.join with
    | error failure => simp [bind, Except.bind]
    | ok _ => by_cases hm : condition.join.type ∈ spec.types <;> simp [bind, Except.bind, pure, Except.pure, hm]

/-- **A key equality is planned** exactly if it goes on with the chain, and then the plan follows the others. -/
theorem planCondition_follows :
    planCondition env c spec (chainTargets base target earlier) condition = .ok p ↔
      Follows env spec base target earlier condition p := by
  constructor
  · intro h
    obtain ⟨hlookup, -⟩ := planCondition_ok h
    generalize p.containerType = container at hlookup
    rw [planCondition_eq hlookup] at h
    obtain ⟨⟨⟩, hcheck, h⟩ := Build.except_bind_ok.1 h
    obtain ⟨hbase, hjoin, hlisted⟩ := checkCondition_ok.1 hcheck
    split at h
    · rename_i n hn
      obtain rfl := Except.ok.inj h
      exact ⟨rfl, hlisted, rfl, JoinPlan.lookup_chainTargets.1 hlookup, hn, Environment.nests_of_nesting? hn,
        rfl, rfl, hbase, hjoin⟩
    · cases h
  · rintro ⟨hnested, hlisted, hsource, htarget, hnesting, -, hbaseKey, hforeignKey, hbase, hjoin⟩
    rw [hsource] at htarget
    rw [hnested] at hlisted hnesting
    rw [planCondition_eq (JoinPlan.lookup_chainTargets.2 htarget),
      checkCondition_ok.2 ⟨hbase, hjoin, hlisted⟩, Build.except_ok_bind, hnesting]
    -- all parts of the plan are told
    cases p
    simp only at hnested hsource hbaseKey hforeignKey
    subst hnested hsource hbaseKey hforeignKey
    rfl

/-- **Key equalities are refused as unresolved**, if they are not planned. -/
theorem planCondition_refused (c : Cell) (spec : JoinSpec) (targets : List (QName × QName))
    (condition : JoinCondition) :
    Fails (fun failure => ∃ fault, failure = .unresolvedJoinKey c.id fault)
      (planCondition env c spec targets condition) := by
  have hkey : ∀ key, Fails (fun failure => ∃ fault, failure = .unresolvedJoinKey c.id fault)
      (c.checkKey env.source key) := by
    intro key failure h
    obtain ⟨fault, rfl, -⟩ := checkKey_error h
    exact ⟨fault, rfl⟩
  unfold planCondition
  refine (hkey _).bind fun _ => (hkey _).bind fun _ => ?_
  simp only
  split
  · exact .error ⟨_, rfl⟩
  · split
    · exact .error ⟨_, rfl⟩
    · split
      · exact .error ⟨_, rfl⟩
      · exact .ok _

/-! ## All key equalities -/

/-- **Key equalities are planned in order**, one plan for each, which follows the earlier ones. -/
theorem planConditions_follow :
    planConditions env c spec (chainTargets base target earlier) conditions = .ok plans ↔
      plans.length = conditions.length ∧ ∀ i condition p, conditions[i]? = some condition → plans[i]? = some p →
        Follows env spec base target (earlier ++ plans.take i) condition p := by
  induction conditions generalizing earlier plans with
  | nil =>
    unfold planConditions
    constructor
    · intro h
      cases h
      exact ⟨rfl, fun i condition p hcondition => by simp at hcondition⟩
    · rintro ⟨hlength, -⟩
      rw [List.eq_nil_of_length_eq_zero hlength]
  | cons condition rest ih =>
    constructor
    · intro h
      obtain ⟨p, ps, rfl, hp, hps⟩ := planConditions_cons h
      have hfirst := planCondition_follows.1 hp
      rw [← JoinPlan.chainTargets_concat] at hps
      obtain ⟨hlength, hrest⟩ := ih.1 hps
      refine ⟨by rw [List.length_cons, List.length_cons, hlength], fun i condition' q hcondition hq => ?_⟩
      cases i with
      | zero =>
        cases hcondition
        cases hq
        simpa using hfirst
      | succ i => simpa using hrest i condition' q hcondition hq
    · rintro ⟨hlength, hall⟩
      obtain ⟨p, ps, rfl⟩ := List.exists_cons_of_length_eq_add_one hlength
      have hfirst : Follows env spec base target earlier condition p := by
        simpa using hall 0 condition p rfl rfl
      have hrest : ∀ i condition' q, rest[i]? = some condition' → ps[i]? = some q →
          Follows env spec base target ((earlier ++ [p]) ++ ps.take i) condition' q := by
        intro i condition' q hcondition hq
        simpa using hall (i + 1) condition' q hcondition hq
      have hps := ih.2 ⟨by simpa using hlength, hrest⟩
      rw [JoinPlan.chainTargets_concat] at hps
      unfold planConditions
      rw [planCondition_follows.2 hfirst, Build.except_ok_bind, hps]
      rfl

theorem planConditions_refused (c : Cell) (spec : JoinSpec) (targets : List (QName × QName))
    (conditions : List JoinCondition) :
    Fails (fun failure => ∃ fault, failure = .unresolvedJoinKey c.id fault)
      (planConditions env c spec targets conditions) := by
  induction conditions generalizing targets with
  | nil => exact .ok []
  | cons condition rest ih =>
    unfold planConditions
    exact (planCondition_refused c spec targets condition).bind fun p => (ih _).bind fun ps => .ok _

end Cell

/-- **A key equality that breaks the chain** of those before it: its base type is neither the first type of the
join nor joined by then, its joined type is not listed, or a key does not resolve. -/
inductive JoinCondition.Breaks (source : SchemaIndex) (spec : JoinSpec) (base : QName)
    (before : List JoinCondition) (condition : JoinCondition) : Prop
  | outside : condition.base.type ≠ base → (∀ earlier ∈ before, earlier.join.type ≠ condition.base.type) →
      Breaks source spec base before condition
  | unlisted : condition.join.type ∉ spec.types → Breaks source spec base before condition
  | baseKey : ¬ source.Resolves condition.base → Breaks source spec base before condition
  | foreignKey : ¬ source.Resolves condition.join → Breaks source spec base before condition

/-- No plan follows behind a broken chain. -/
theorem JoinPlan.Follows.not_breaks {before : List JoinCondition}
    (h : Follows env spec base target earlier condition p)
    (hsources : earlier.map JoinPlan.nestedSource = before.map (fun e => e.join.type)) :
    ¬ condition.Breaks env.source spec base before := by
  intro hbreaks
  cases hbreaks with
  | outside hbase hbefore =>
    have hcontainer := h.container
    rw [h.containerSource] at hcontainer
    generalize p.containerType = container at hcontainer
    cases hcontainer with
    | nested plans latest after hsplit hlatest _ =>
      have hjoined : latest.nestedSource ∈ before.map (fun e => e.join.type) := by
        rw [← hsources, hsplit]
        simp
      obtain ⟨e, he, hsource⟩ := List.mem_map.1 hjoined
      exact hbefore e he (hsource.trans hlatest)
    | first heq _ => exact hbase heq
  | unlisted hnot => exact hnot (h.nestedSource ▸ h.listed)
  | baseKey hnot => exact hnot h.baseResolves
  | foreignKey hnot => exact hnot h.foreignResolves

namespace Cell

variable {c : Cell} {e : Entity} {types : List QName}

/-- Planning a join that names types is planning its key equalities. -/
theorem plan_eq (hspec : c.joinSpec = .ok spec) (htarget : c.targetEntity = .ok e)
    (htypes : spec.types = base :: types) :
    c.plan env = planConditions env c spec (chainTargets base e.type []) spec.conditions := by
  unfold plan
  rw [hspec, Build.except_ok_bind, htarget, Build.except_ok_bind, htypes]
  rfl

/-- **A join is planned as a chain.** It is planned exactly if there is one plan for each key equality, in
order, and each plan follows those before it. A key equality that breaks the chain of those before it is refused
as unresolved with the whole join, which writes nothing then. -/
theorem plan_chained (env : Environment) (c : Cell) :
    (∀ plans, c.plan env = .ok plans ↔
      ∃ spec e base types, c.joinSpec = .ok spec ∧ c.targetEntity = .ok e ∧ spec.types = base :: types ∧
        plans.length = spec.conditions.length ∧ ∀ i condition p, spec.conditions[i]? = some condition →
          plans[i]? = some p → Follows env spec base e.type (plans.take i) condition p) ∧
    ∀ spec e base types before condition after, c.joinSpec = .ok spec → c.targetEntity = .ok e →
      spec.types = base :: types → spec.conditions = before ++ condition :: after →
      condition.Breaks env.source spec base before →
      ∃ fault, c.plan env = .error (.unresolvedJoinKey c.id fault) ∧
        ∀ r, (c.link env).on r = (.error (.unresolvedJoinKey c.id fault), r) := by
  refine ⟨fun plans => ⟨fun h => ?_, ?_⟩, ?_⟩
  · obtain ⟨spec, e, base, types, hspec, htarget, htypes, hplans⟩ := plan_ok h
    have hchain : [(base, e.type)] = chainTargets base e.type [] := rfl
    rw [hchain] at hplans
    obtain ⟨hlength, hall⟩ := planConditions_follow.1 hplans
    exact ⟨spec, e, base, types, hspec, htarget, htypes, hlength, hall⟩
  · rintro ⟨spec, e, base, types, hspec, htarget, htypes, hlength, hall⟩
    rw [plan_eq hspec htarget htypes]
    exact planConditions_follow.2 ⟨hlength, hall⟩
  · intro spec e base types before condition after hspec htarget htypes hconditions hbreaks
    have hplan : c.plan env = planConditions env c spec (chainTargets base e.type []) spec.conditions :=
      plan_eq hspec htarget htypes
    cases hresult : c.plan env with
    | error failure =>
      rw [hresult] at hplan
      obtain ⟨fault, rfl⟩ := planConditions_refused c spec _ spec.conditions failure hplan.symm
      refine ⟨fault, rfl, fun r => ?_⟩
      unfold link
      rw [Build.on_except_bind, hresult]
    | ok plans =>
      -- the broken key equality would have a plan, behind the plans of those before it
      exfalso
      rw [hresult] at hplan
      obtain ⟨hlength, hall⟩ := planConditions_follow.1 hplan.symm
      have hsources : plans.map JoinPlan.nestedSource = spec.conditions.map (fun e => e.join.type) := by
        refine List.ext_getElem (by simp [hlength]) fun i hi hi' => ?_
        rw [List.getElem_map, List.getElem_map]
        rw [List.length_map] at hi hi'
        exact (hall i _ _ (List.getElem?_eq_getElem hi') (List.getElem?_eq_getElem hi)).nestedSource
      have hlt : before.length < plans.length := by
        rw [hlength, hconditions]
        simp
      have hfollows := hall before.length condition _ (by simp [hconditions]) (List.getElem?_eq_getElem hlt)
      refine hfollows.not_breaks ?_ hbreaks
      rw [List.nil_append, List.map_take, hsources, ← List.map_take, hconditions, List.take_left]

end Cell

end

/-! ## Chains of rivers, banks and trees -/

namespace Rivers

/-- What compiling reads when a cell of the bank tells where its trees are. -/
def grown : Environment :=
  { environment with alignment := some ⟨none, [join, rename "left" "BankRow" "id" ["left", "Bank", "height"],
      ⟨"trees", "rename", [property "TreeRow" ["height"]], [property "Bank" ["growth", "Tree", "height"]],
        .empty⟩]⟩ }

/-- The plan for banks in their rivers. -/
def bankPlan : JoinPlan :=
  ⟨⟨"River"⟩, ⟨"RiverRow"⟩, ⟨"Bank"⟩, ⟨"BankRow"⟩, [⟨⟨"left"⟩, none⟩], "id", "river", false⟩

/-- The plan for trees on their banks. -/
def treePlan : JoinPlan :=
  ⟨⟨"Bank"⟩, ⟨"BankRow"⟩, ⟨"Tree"⟩, ⟨"TreeRow"⟩, [⟨⟨"growth"⟩, none⟩], "id", "bank", false⟩

/-- The same joins, with the trees first. -/
def hasty : Cell :=
  { join with parameters := ⟨[("join", [.join { spec with conditions := [treeCondition, bankCondition] }])]⟩ }

/-- **Trees follow banks** in a chain. Before the banks are joined there is nothing that trees can follow, and
the banks are not joined either then. -/
theorem trees_follow_banks :
    join.plan grown = .ok [bankPlan, treePlan] ∧
      JoinPlan.Follows grown spec ⟨"RiverRow"⟩ ⟨"River"⟩ [bankPlan] treeCondition treePlan ∧
      treeCondition.Breaks source spec ⟨"RiverRow"⟩ [] ∧
      ∃ fault, hasty.plan grown = .error (.unresolvedJoinKey "join" fault) ∧
        ∀ r, (hasty.link grown).on r = (.error (.unresolvedJoinKey "join" fault), r) := by
  have hplan : join.plan grown = .ok [bankPlan, treePlan] := rfl
  have hbreaks : ∀ conditions, treeCondition.Breaks source { spec with conditions } ⟨"RiverRow"⟩ [] :=
    fun conditions => .outside (by decide) fun e he => by cases he
  refine ⟨hplan, ?_, hbreaks _, ?_⟩
  · obtain ⟨spec', e, base, types, hspec, htarget, htypes, -, hall⟩ :=
      ((Cell.plan_chained grown join).1 [bankPlan, treePlan]).1 hplan
    obtain rfl := Except.ok.inj (show Except.ok spec = Except.ok spec' from hspec)
    obtain rfl := Except.ok.inj (show Except.ok (Entity.ofType ⟨"River"⟩) = Except.ok e from htarget)
    obtain ⟨rfl, -⟩ := List.cons.inj (show [⟨"RiverRow"⟩, ⟨"BankRow"⟩, ⟨"TreeRow"⟩] = base :: types from htypes)
    exact hall 1 treeCondition treePlan rfl rfl
  · exact (Cell.plan_chained grown hasty).2 { spec with conditions := [treeCondition, bankCondition] }
      (.ofType ⟨"River"⟩) ⟨"RiverRow"⟩ [⟨"BankRow"⟩, ⟨"TreeRow"⟩] [] treeCondition [bankCondition] rfl rfl rfl rfl
      (hbreaks _)

end Rivers

end FeatureAlignment
