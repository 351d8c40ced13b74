import FeatureAlignment.Proofs.Join.Repeated
import FeatureAlignment.Proofs.Join.Told
import FeatureAlignment.Proofs.Registry.Built
import Mathlib.Data.List.Induction

/-!
# What installing joins leaves alone

A plan is installed in two attributes, that of the container under the rendered path and that of the nested type
under the link field. Several plans may meet on one attribute, on either side. The last expression and the last
link written there stay, and so does the first reference; whatever else the attribute holds is kept, and so is a
reference that was there before.

* `JoinPlan.OuterAt`, `JoinPlan.InnerAt`: the two attributes of a plan.
* `JoinPlan.Linked`: what plans do to an attribute, field by field (`JoinPlan.linked_writeAll`).
* `JoinPlan.Stands`: a plan that is installed as planned on both sides.
* `JoinPlan.Framed`: what installing plans does to a registry, and all that it leaves as it was.
* `Cell.plans_framed`: all plans of a join are installed, in every registry built by its operations, and do that.
-/

namespace FeatureAlignment

open Registry (Built Names changed)

variable {env : Environment} {r s : Registry} {type : QName} {key href : String}

/-! ## References -/

/-- **A reference comes to client properties.** It is new at the end, unless there is one. -/
inductive Referred (href : String) : Option String → List ClientProperty → List ClientProperty → Prop
  | none (ps : List ClientProperty) : Referred href none ps ps
  | kept (value : String) (ps : List ClientProperty) : (∃ p ∈ ps, p.name = href) → Referred href (some value) ps ps
  | added (value : String) (ps : List ClientProperty) : (∀ p ∈ ps, p.name ≠ href) →
      Referred href (some value) ps (ps ++ [⟨href, value⟩])

theorem AttributeMapping.setAmong_new (name value : String) {ps : List ClientProperty}
    (h : ∀ p ∈ ps, p.name ≠ name) : setAmong name value ps = ps ++ [⟨name, value⟩] := by
  induction ps with
  | nil => rfl
  | cons p ps ih =>
    unfold setAmong
    rw [if_neg (h p List.mem_cons_self), ih fun q hq => h q (List.mem_cons_of_mem _ hq)]
    rfl

/-- **What is referred to** is what joins write. -/
theorem referred_iff {reference : Option String} {ps qs : List ClientProperty} :
    Referred href reference ps qs ↔ qs = LinkChange.refer href reference ps := by
  have hpresent : (∃ p ∈ ps, p.name = href) → (ps.find? (fun p => p.name == href)).isSome = true := by
    rintro ⟨p, hp, hname⟩
    exact List.find?_isSome.2 ⟨p, hp, by simpa using hname⟩
  have habsent : (∀ p ∈ ps, p.name ≠ href) → ps.find? (fun p => p.name == href) = none :=
    fun h => List.find?_eq_none.2 fun p hp => by simpa using h p hp
  constructor
  · intro h
    cases h with
    | none => rfl
    | kept value _ hp => exact (LinkChange.refer_present (hpresent hp) _).symm
    | added value _ hp =>
      unfold LinkChange.refer
      simp only [habsent hp, Option.isNone_none, if_true]
      exact (AttributeMapping.setAmong_new href value hp).symm
  · rintro rfl
    cases reference with
    | none => exact .none ps
    | some value =>
      by_cases hp : ∃ p ∈ ps, p.name = href
      · rw [LinkChange.refer_present (hpresent hp)]
        exact .kept value ps hp
      · have hnew : ∀ p ∈ ps, p.name ≠ href := fun p hmem hname => hp ⟨p, hmem, hname⟩
        unfold LinkChange.refer
        simp only [habsent hnew, Option.isNone_none, if_true]
        rw [AttributeMapping.setAmong_new href value hnew]
        exact .added value ps hnew

/-- A reference that has come is there. -/
theorem Referred.found {value : String} {ps qs : List ClientProperty} (h : Referred href (some value) ps qs) :
    ∃ q ∈ qs, q.name = href := by
  cases h with
  | kept _ _ hp => exact hp
  | added _ _ _ => exact ⟨⟨href, value⟩, by simp, rfl⟩

namespace JoinPlan

variable {p : JoinPlan} {plans : List JoinPlan} {old mid new : AttributeMapping}

/-! ## Plans on one attribute -/

/-- **The attribute of the container**, under the rendered path. -/
def OuterAt (env : Environment) (s : Registry) (type : QName) (key : String) (p : JoinPlan) : Prop :=
  p.containerType = type ∧ s.pathText env p.segments = key

/-- **The attribute of the nested type**, under the link field. -/
def InnerAt (s : Registry) (type : QName) (key : String) (p : JoinPlan) : Prop :=
  p.nestedType = type ∧ (s.link? p.containerType p.nestedType).map FeatureLink.linkField = some key

instance : DecidablePred (OuterAt env s type key) := fun _ => inferInstanceAs (Decidable (_ ∧ _))

instance : DecidablePred (InnerAt s type key) := fun _ => inferInstanceAs (Decidable (_ ∧ _))

/-- The expression that a plan has for an attribute. -/
def expressionAt (env : Environment) (s : Registry) (type : QName) (key : String) (p : JoinPlan) : Option String :=
  if p.OuterAt env s type key then some p.baseKey
  else if p.InnerAt s type key then some p.foreignKey
  else none

/-- The link that a plan has for an attribute, if it is that of the container. -/
def linkAt (env : Environment) (s : Registry) (type : QName) (key : String) (p : JoinPlan) : Option FeatureLink :=
  if p.OuterAt env s type key then s.link? p.containerType p.nestedType else none

/-- The reference that a plan has for an attribute, if it is that of the container. -/
def referenceAt (env : Environment) (s : Registry) (type : QName) (key : String) (p : JoinPlan) : Option String :=
  if p.OuterAt env s type key ∧ p.isReference = true then some p.foreignKey else none

/-- **What plans do to an attribute**, field by field. The last expression and the last link stay, and the first
reference; a link makes the attribute repeat. Nothing else is changed. -/
structure Linked (env : Environment) (s : Registry) (plans : List JoinPlan) (type : QName) (key : String)
    (old new : AttributeMapping) : Prop where
  target : new.targetAttribute = old.targetAttribute
  node : new.targetNode = old.targetNode
  identifier : new.idExpression = old.idExpression
  expression : new.sourceExpression =
    (plans.filterMap (expressionAt env s type key)).getLast?.or old.sourceExpression
  linkElement : new.linkElement =
    ((plans.filterMap (linkAt env s type key)).getLast?.map FeatureLink.linkElement).or old.linkElement
  linkField : new.linkField =
    ((plans.filterMap (linkAt env s type key)).getLast?.map FeatureLink.linkField).or old.linkField
  multiple : new.isMultiple = (old.isMultiple || (plans.filterMap (linkAt env s type key)).getLast?.isSome)
  clients : Referred (s.nameText env hrefName) (plans.filterMap (referenceAt env s type key)).head?
    old.clientProperties new.clientProperties

/-- What a single plan does to an attribute. -/
def revise (env : Environment) (s : Registry) (type : QName) (key : String) (p : JoinPlan)
    (a : AttributeMapping) : AttributeMapping :=
  { a with
    sourceExpression := (p.expressionAt env s type key).or a.sourceExpression
    linkElement := ((p.linkAt env s type key).map FeatureLink.linkElement).or a.linkElement
    linkField := ((p.linkAt env s type key).map FeatureLink.linkField).or a.linkField
    isMultiple := a.isMultiple || (p.linkAt env s type key).isSome
    clientProperties :=
      LinkChange.refer (s.nameText env hrefName) (p.referenceAt env s type key) a.clientProperties }

theorem linked_nil (a : AttributeMapping) : Linked env s [] type key a a :=
  ⟨rfl, rfl, rfl, rfl, rfl, rfl, (Bool.or_false _).symm, .none _⟩

/-- **One plan more.** -/
theorem Linked.concat (h : Linked env s plans type key old mid) (p : JoinPlan) :
    Linked env s (plans ++ [p]) type key old (p.revise env s type key mid) := by
  have hone : ∀ {α : Type} (f : JoinPlan → Option α),
      (plans ++ [p]).filterMap f = plans.filterMap f ++ (f p).toList := by
    intro α f
    rw [List.filterMap_append]
    cases hf : f p <;> simp [hf]
  have hlast : ∀ {α : Type} (f : JoinPlan → Option α),
      ((plans ++ [p]).filterMap f).getLast? = (f p).or (plans.filterMap f).getLast? := by
    intro α f
    rw [hone]
    cases f p <;> simp
  have hhead : ∀ {α : Type} (f : JoinPlan → Option α),
      ((plans ++ [p]).filterMap f).head? = (plans.filterMap f).head?.or (f p) := by
    intro α f
    rw [hone]
    cases f p <;> simp
  refine ⟨h.target, h.node, h.identifier, ?_, ?_, ?_, ?_, ?_⟩
  · rw [hlast, Option.or_assoc, ← h.expression]
    rfl
  · rw [hlast, Option.map_or, Option.or_assoc, ← h.linkElement]
    rfl
  · rw [hlast, Option.map_or, Option.or_assoc, ← h.linkField]
    rfl
  · rw [hlast, Option.isSome_or, Bool.or_comm (Option.isSome _), ← Bool.or_assoc, ← h.multiple]
    rfl
  · rw [hhead, referred_iff, ← LinkChange.refer_refer, ← referred_iff.1 h.clients]
    rfl

/-- **What a plan writes into an attribute** is its revision, if it is one of the two attributes of the plan. -/
theorem writes_at (hp : InPlace env s p) (hne : p.nestedType ≠ p.containerType)
    (view : QName → String → Option AttributeMapping) (type : QName) (key : String) :
    writeAll (s.nameText env hrefName) (p.linkWrites env s) view type key =
      if p.OuterAt env s type key ∨ p.InnerAt s type key then
        some (p.revise env s type key ((view type key).getD (.ofTarget key)))
      else view type key := by
  obtain ⟨l, hl⟩ := hp.link
  have hinner : p.InnerAt s type key ↔ type = p.nestedType ∧ key = l.linkField := by
    unfold InnerAt
    rw [hl, Option.map_some, Option.some.injEq]
    exact and_congr eq_comm eq_comm
  have houter : p.OuterAt env s type key ↔ type = p.containerType ∧ key = s.pathText env p.segments :=
    and_congr eq_comm eq_comm
  rw [linkWrites_eq hl, writeAll_cons, writeAll_cons]
  change changed (changed view _ _ _) _ _ _ type key = _
  by_cases ho : p.OuterAt env s type key
  · -- the types differ, so the other attribute is elsewhere
    have hi : ¬ (type = p.nestedType ∧ key = l.linkField) := fun h => hne (h.1.symm.trans (houter.1 ho).1)
    rw [Registry.changed_other _ hi, if_pos (.inl ho)]
    obtain ⟨rfl, rfl⟩ := houter.1 ho
    rw [Registry.changed_self]
    unfold revise expressionAt linkAt referenceAt LinkChange.apply containerChange
    simp only [ho, true_and, if_true, hl]
    rfl
  · have hother := Registry.changed_other view (f := (p.containerChange l).apply (s.nameText env hrefName))
      (fun h => ho (houter.2 h))
    by_cases hi : p.InnerAt s type key
    · rw [if_pos (.inr hi)]
      obtain ⟨rfl, rfl⟩ := hinner.1 hi
      rw [Registry.changed_self, hother]
      unfold revise expressionAt linkAt referenceAt LinkChange.apply nestedChange
      simp only [ho, hi, false_and, if_true, if_false]
      rfl
    · rw [Registry.changed_other _ (fun h => hi (hinner.2 h)), hother, if_neg (not_or.2 ⟨ho, hi⟩)]

/-- A plan does nothing to other attributes. -/
theorem revise_elsewhere (ho : ¬ p.OuterAt env s type key) (hi : ¬ p.InnerAt s type key) (a : AttributeMapping) :
    p.revise env s type key a = a := by
  unfold revise expressionAt linkAt referenceAt
  simp only [ho, hi, false_and, if_false, Option.none_or, Option.map_none, Option.isSome_none, Bool.or_false]
  rfl

/-- **What plans in place write** comes to what they do to each attribute. -/
theorem linked_writeAll (hp : ∀ p ∈ plans, InPlace env s p)
    (hne : ∀ p ∈ plans, p.nestedType ≠ p.containerType) (view : QName → String → Option AttributeMapping)
    (type : QName) (key : String) :
    ((∀ p ∈ plans, ¬ p.OuterAt env s type key ∧ ¬ p.InnerAt s type key) →
      writeAll (s.nameText env hrefName) (plans.flatMap (linkWrites env s)) view type key = view type key) ∧
    Linked env s plans type key ((view type key).getD (.ofTarget key))
      ((writeAll (s.nameText env hrefName) (plans.flatMap (linkWrites env s)) view type key).getD
        (.ofTarget key)) := by
  induction plans using List.reverseRecOn with
  | nil => exact ⟨fun _ => rfl, linked_nil _⟩
  | append_singleton plans p ih =>
    obtain ⟨hother, hlinked⟩ := ih (fun q hq => hp q (by simp [hq])) (fun q hq => hne q (by simp [hq]))
    rw [List.flatMap_append, writeAll_append, List.flatMap_singleton,
      writes_at (hp p (by simp)) (hne p (by simp))]
    have hnext := hlinked.concat p
    by_cases ht : p.OuterAt env s type key ∨ p.InnerAt s type key
    · rw [if_pos ht]
      refine ⟨fun hnone => ?_, hnext⟩
      obtain ⟨ho, hi⟩ := hnone p (by simp)
      exact absurd ht (not_or.2 ⟨ho, hi⟩)
    · obtain ⟨ho, hi⟩ := not_or.1 ht
      rw [if_neg ht]
      rw [revise_elsewhere ho hi] at hnext
      exact ⟨fun hnone => hother fun q hq => hnone q (by simp [hq]), hnext⟩

/-! ## Plans on both sides -/

/-- **A plan that stands on both sides as planned.** The container has the base key and the link under the
rendered path, and refers if the plan does, and the nested type has the foreign key under the link field. -/
structure Stands (env : Environment) (s : Registry) (p : JoinPlan) (l : FeatureLink)
    (outer inner : AttributeMapping) : Prop where
  link : s.link? p.containerType p.nestedType = some l
  container : s.attribute? p.containerType (s.pathText env p.segments) = some outer
  baseKey : outer.sourceExpression = some p.baseKey
  linkElement : outer.linkElement = some l.linkElement
  linkField : outer.linkField = some l.linkField
  multiple : outer.isMultiple = true
  reference : p.isReference = true → ∃ q ∈ outer.clientProperties, q.name = s.nameText env hrefName
  nested : s.attribute? p.nestedType l.linkField = some inner
  foreignKey : inner.sourceExpression = some p.foreignKey

/-- **What installing plans does to a registry.** It grows. All plans are in place in it: their types are linked
and mapped, and their names are settled. No attribute is changed but those of the plans, and those as `Linked`
says. An attribute that is of nested types only has another expression and is otherwise as it was. The last plan
stands on both sides. -/
structure Framed (env : Environment) (plans : List JoinPlan) (r s : Registry) : Prop where
  grows : r.Extends s
  places : ∀ p ∈ plans, InPlace env s p
  others : ∀ type key, (∀ p ∈ plans, ¬ p.OuterAt env s type key ∧ ¬ p.InnerAt s type key) →
    s.attribute? type key = r.attribute? type key
  linked : ∀ type key, ∀ p ∈ plans, p.OuterAt env s type key ∨ p.InnerAt s type key →
    ∃ new, s.attribute? type key = some new ∧
      Linked env s plans type key ((r.attribute? type key).getD (.ofTarget key)) new
  nested : ∀ type key, ∀ p ∈ plans, p.InnerAt s type key → (∀ q ∈ plans, ¬ q.OuterAt env s type key) →
    ∃ q ∈ plans, q.InnerAt s type key ∧ s.attribute? type key =
      some { (r.attribute? type key).getD (.ofTarget key) with sourceExpression := some q.foreignKey }
  last : ∀ before p, plans = before ++ [p] → ∃ l outer inner, Stands env s p l outer inner

theorem innerAt_self {l : FeatureLink} (hl : s.link? p.containerType p.nestedType = some l) :
    p.InnerAt s p.nestedType l.linkField := ⟨rfl, by rw [hl, Option.map_some]⟩

/-- An attribute of a plan in place is there once all plans have been written. -/
theorem Laid.isSome (h : Laid env plans r s) (hp : p ∈ plans)
    (ht : p.OuterAt env s type key ∨ p.InnerAt s type key) : (s.attribute? type key).isSome = true := by
  obtain ⟨l, hl⟩ := (h.places p hp).link
  have hwritten : ∀ w ∈ p.linkWrites env s, (s.attribute? w.type w.key).isSome = true := by
    intro w hw
    rw [h.attributes]
    exact writeAll_isSome (List.mem_flatMap.2 ⟨p, hp, hw⟩) _
  rw [linkWrites_eq hl] at hwritten
  rcases ht with ⟨rfl, rfl⟩ | ⟨rfl, hkey⟩
  · exact hwritten _ (List.mem_cons_self ..)
  · rw [hl, Option.map_some] at hkey
    cases hkey
    exact hwritten _ (List.mem_cons_of_mem _ (List.mem_cons_self ..))

/-- **An attribute that is of nested types only** gets the last of their foreign keys, and nothing else. -/
theorem Linked.nested (h : Linked env s plans type key old new) (hp : p ∈ plans) (hi : p.InnerAt s type key)
    (hnone : ∀ q ∈ plans, ¬ q.OuterAt env s type key) :
    ∃ q ∈ plans, q.InnerAt s type key ∧ new = { old with sourceExpression := some q.foreignKey } := by
  have hlinks : plans.filterMap (linkAt env s type key) = [] := by
    refine List.filterMap_eq_nil_iff.2 fun q hq => ?_
    unfold linkAt
    rw [if_neg (hnone q hq)]
  have hreferences : plans.filterMap (referenceAt env s type key) = [] := by
    refine List.filterMap_eq_nil_iff.2 fun q hq => ?_
    unfold referenceAt
    rw [if_neg fun hand => hnone q hq hand.1]
  have hexpression : ∀ q ∈ plans, ∀ e, q.expressionAt env s type key = some e →
      q.InnerAt s type key ∧ e = q.foreignKey := by
    intro q hq e he
    unfold expressionAt at he
    rw [if_neg (hnone q hq)] at he
    split at he
    · rename_i hqi
      exact ⟨hqi, (Option.some.inj he).symm⟩
    · cases he
  -- there is a last expression, as there is one at all
  have hone : p.foreignKey ∈ plans.filterMap (expressionAt env s type key) := by
    refine List.mem_filterMap.2 ⟨p, hp, ?_⟩
    unfold expressionAt
    rw [if_neg (hnone p hp), if_pos hi]
  obtain ⟨e, he⟩ := Option.isSome_iff_exists.1
    (List.getLast?_isSome.2 (List.ne_nil_of_mem hone))
  obtain ⟨q, hq, hqe⟩ := List.mem_filterMap.1 (List.mem_of_getLast? he)
  obtain ⟨hqi, rfl⟩ := hexpression q hq e hqe
  have hsource := h.expression
  have helement := h.linkElement
  have hfield := h.linkField
  have hmultiple := h.multiple
  have hclients := referred_iff.1 h.clients
  rw [he] at hsource
  rw [hlinks] at helement hfield hmultiple
  rw [hreferences] at hclients
  refine ⟨q, hq, hqi, ?_⟩
  cases new
  simp only [AttributeMapping.mk.injEq]
  exact ⟨h.target, h.node, hsource, h.identifier, hmultiple.trans (Bool.or_false _), helement, hfield, hclients⟩

/-- **Every attribute of a plan is linked** once all plans have been written. -/
theorem Laid.linked (h : Laid env plans r s) (hne : ∀ q ∈ plans, q.nestedType ≠ q.containerType) (hp : p ∈ plans)
    (ht : p.OuterAt env s type key ∨ p.InnerAt s type key) :
    ∃ new, s.attribute? type key = some new ∧
      Linked env s plans type key ((r.attribute? type key).getD (.ofTarget key)) new := by
  obtain ⟨new, hnew⟩ := Option.isSome_iff_exists.1 (h.isSome hp ht)
  have hlinked := (linked_writeAll h.places hne r.attribute? type key).2
  rw [← h.attributes, hnew, Option.getD_some] at hlinked
  exact ⟨new, hnew, hlinked⟩

/-- **The last plan stands** on both sides. -/
theorem Laid.stands (h : Laid env (plans ++ [p]) r s)
    (hne : ∀ q ∈ plans ++ [p], q.nestedType ≠ q.containerType) :
    ∃ l outer inner, Stands env s p l outer inner := by
  have hp : p ∈ plans ++ [p] := by simp
  obtain ⟨l, hl⟩ := (h.places p hp).link
  have houterAt : p.OuterAt env s p.containerType (s.pathText env p.segments) := ⟨rfl, rfl⟩
  obtain ⟨outer, houter, hcontainer⟩ := h.linked hne hp (.inl houterAt)
  obtain ⟨inner, hinner, hnested⟩ := h.linked hne hp (.inr (innerAt_self hl))
  -- on both sides the last expression is that of the plan
  have hbase : p.expressionAt env s p.containerType (s.pathText env p.segments) = some p.baseKey := if_pos houterAt
  have hforeign : p.expressionAt env s p.nestedType l.linkField = some p.foreignKey := by
    unfold expressionAt
    rw [if_neg fun hat => hne p hp hat.1.symm, if_pos (innerAt_self hl)]
  have hlink : p.linkAt env s p.containerType (s.pathText env p.segments) = some l := (if_pos houterAt).trans hl
  have hlast : ∀ {α : Type} (f : JoinPlan → Option α) (x : α), f p = some x →
      ((plans ++ [p]).filterMap f).getLast? = some x := by
    intro α f x hx
    simp [hx]
  have hlinks := hlast _ l hlink
  refine ⟨l, outer, inner, hl, houter, ?_, ?_, ?_, ?_, fun hreference => ?_, hinner, ?_⟩
  · rw [hcontainer.expression, hlast _ _ hbase, Option.some_or]
  · rw [hcontainer.linkElement, hlinks, Option.map_some, Option.some_or]
  · rw [hcontainer.linkField, hlinks, Option.map_some, Option.some_or]
  · rw [hcontainer.multiple, hlinks, Option.isSome_some, Bool.or_true]
  · -- some plan refers, if not this one then an earlier one
    have hrefers : p.foreignKey ∈ (plans ++ [p]).filterMap
        (referenceAt env s p.containerType (s.pathText env p.segments)) :=
      List.mem_filterMap.2 ⟨p, hp, if_pos ⟨houterAt, hreference⟩⟩
    obtain ⟨value, hvalue⟩ := Option.isSome_iff_exists.1 (List.isSome_head?.2 (List.ne_nil_of_mem hrefers))
    have hclients := hcontainer.clients
    rw [hvalue] at hclients
    exact hclients.found
  · rw [hnested.expression, hlast _ _ hforeign, Option.some_or]

end JoinPlan

/-- **Planned joins are installed in full, and leave all else alone**, in every registry built by its
operations. -/
theorem Cell.plans_framed {c : Cell} {plans : List JoinPlan} (hr : r.Built env) (hp : c.plan env = .ok plans) :
    ∃ s, (JoinPlan.installAll env plans).on r = (.ok (), s) ∧ JoinPlan.Framed env plans r s := by
  have hnests := plan_nests hp
  have hne : ∀ p ∈ plans, p.nestedType ≠ p.containerType := fun p hp => (hnests p hp).ne
  obtain ⟨s, hs, -⟩ := JoinPlan.installAll_keyed hr.keyed hnests
  have hlaid := JoinPlan.installAll_laid hr.keyed hnests hs
  refine ⟨s, hs, hlaid.grows, hlaid.places, fun type key hnone => ?_, fun type key p hp ht => hlaid.linked hne hp ht,
    fun type key p hp hi hnone => ?_, ?_⟩
  · have hother := (JoinPlan.linked_writeAll hlaid.places hne r.attribute? type key).1 hnone
    rw [hlaid.attributes]
    exact hother
  · obtain ⟨new, hnew, hlinked⟩ := hlaid.linked hne hp (.inr hi)
    obtain ⟨q, hq, hqi, rfl⟩ := hlinked.nested hp hi hnone
    exact ⟨q, hq, hqi, hnew⟩
  · rintro before p rfl
    exact hlaid.stands hne

/-! ## A bank that is referred to -/

namespace Rivers

/-- Banks are joined to their river by two equalities. Both refer to the bank on the right. -/
def twice : Cell :=
  { join with parameters := ⟨[("join", [.join { spec with
      conditions := [bankCondition, ⟨property "RiverRow" ["id"], property "BankRow" ["id"]⟩] }])]⟩ }

/-- A plan for banks on the right, with the keys of one equality. -/
def rightPlan (foreignKey : String) : JoinPlan :=
  ⟨⟨"River"⟩, ⟨"RiverRow"⟩, ⟨"Bank"⟩, ⟨"BankRow"⟩, [⟨⟨"right"⟩, none⟩], "id", foreignKey, true⟩

/-- A registry in which the right side refers to its bank already. -/
def referring : Registry :=
  ((Registry.upsert ⟨"River"⟩ "right" (fun a => a.setClientProperty "xlink:href" "'#bank'")).on
    ((Registry.ensureMapping environment ⟨"River"⟩ ⟨"RiverRow"⟩).on
      ((Registry.label environment QName.xlink (some "xlink")).run .empty).2).2).2

theorem referring_built : referring.Built environment :=
  .upsert _ _ _ (.ensureMapping _ _ (.label _ _ .empty))

/-- **A reference survives** two plans that would refer, and the second one has the last word on the key. -/
theorem right_reference_survives :
    referring.Built environment ∧ twice.plan environment = .ok [rightPlan "river", rightPlan "id"] ∧
      ∃ s, (JoinPlan.installAll environment [rightPlan "river", rightPlan "id"]).on referring = (.ok (), s) ∧
        JoinPlan.Framed environment [rightPlan "river", rightPlan "id"] referring s ∧
        s.attribute? ⟨"River"⟩ "right" = some ⟨"right", none, some "id", none, true, some "Bank", some "LINK[1]",
          [⟨"xlink:href", "'#bank'"⟩]⟩ := by
  have hplan : twice.plan environment = .ok [rightPlan "river", rightPlan "id"] := rfl
  obtain ⟨s, hs, hframed⟩ := Cell.plans_framed referring_built hplan
  refine ⟨referring_built, hplan, s, hs, hframed, ?_⟩
  have hsecond := congrArg Prod.snd hs
  simp only at hsecond
  rw [← hsecond]
  rfl

end Rivers

end FeatureAlignment
