import Mathlib.Data.List.Induction
import FeatureAlignment.Proofs.Rule.Written

/-!
# Rules are closed

A rule lists its variables, each once, and all that it uses. Whatever a formula of the body reads has been
bound before it: a subject by its membership, a value by the frame of the step that leads to it, a property
by a frame on the subject. So each variable but that of the target is bound in the body, and the frames of
a path lead on from the subject of their entity.

* `Clause.Ready`: clauses of which each reads what clauses before it bind.
* `Clause.split_layAll`: what stands before a formula of the body.
* `Alignment.rules_closed`: the rules of an alignment are closed.
-/

namespace FeatureAlignment

/-! ## Variables, each once -/

namespace Draft

variable {known names : List String}

theorem mem_listed {v : String} : v ∈ listed known names ↔ v ∈ known ∨ v ∈ names := by
  induction names generalizing known with
  | nil => simp [listed]
  | cons name names ih =>
    rw [listed, List.foldl_cons, ← listed, ih]
    split
    · rename_i hthere
      rw [List.contains_iff_mem] at hthere
      exact ⟨fun h => h.imp_right (List.mem_cons_of_mem _), fun h => h.elim .inl fun h =>
        (List.mem_cons.1 h).elim (fun heq => .inl (heq ▸ hthere)) .inr⟩
    · rw [List.mem_append, List.mem_singleton, List.mem_cons, or_assoc]

theorem nodup_listed (h : known.Nodup) : (listed known names).Nodup := by
  induction names generalizing known with
  | nil => exact h
  | cons name names ih =>
    rw [listed, List.foldl_cons, ← listed]
    split
    · exact ih h
    · rename_i hnew
      rw [List.contains_iff_mem] at hnew
      refine ih (List.nodup_append.2 ⟨h, List.nodup_singleton name, fun v hv w hw => ?_⟩)
      rw [List.mem_singleton.1 hw]
      exact fun heq => hnew (heq ▸ hv)

end Draft

/-! ## Bound before it is read -/

namespace Clause

variable {known known' : List Referent} {ks ks' : List Clause} {k : Clause} {number : Nat}

/-- **What a clause reads**: it speaks of this, but does not bind it. -/
def reads : Clause → List Referent
  | .member _ _ => []
  | .step number walked _ => [.reached number walked]
  | .property number _ => [.subject number]
  | .condition number c => c.occurrences.map (.property number)

theorem referents_eq (k : Clause) : k.referents = k.reads ++ k.binder?.toList := by
  cases k with
  | member _ _ => rfl
  | step _ _ _ => rfl
  | property _ _ => rfl
  | condition _ _ => exact (List.append_nil _).symm

/-- **Ready**: each clause reads only what is known or what clauses before it bind. -/
def Ready (known : List Referent) : List Clause → Prop
  | [] => True
  | k :: ks => (∀ o ∈ k.reads, o ∈ known) ∧ Ready (known ++ k.binder?.toList) ks

theorem Ready.mono (h : Ready known ks) (hsub : known ⊆ known') : Ready known' ks := by
  induction ks generalizing known known' with
  | nil => trivial
  | cons k ks ih =>
    refine ⟨fun o ho => hsub (h.1 o ho), ih h.2 (List.append_subset.2 ⟨?_, ?_⟩)⟩
    · exact List.subset_append_of_subset_left _ hsub
    · exact List.subset_append_right _ _

theorem binders_cons (k : Clause) (ks : List Clause) :
    (k :: ks).filterMap binder? = k.binder?.toList ++ ks.filterMap binder? := by
  cases h : k.binder? <;> simp [h]

theorem ready_append : Ready known (ks ++ ks') ↔ Ready known ks ∧ Ready (known ++ ks.filterMap binder?) ks' := by
  induction ks generalizing known with
  | nil => simp [Ready]
  | cons k ks ih => simp only [List.cons_append, Ready, ih, binders_cons, List.append_assoc, and_assoc]

/-- What a clause reads is bound before it. -/
theorem Ready.reads_bound (h : Ready [] (ks ++ k :: ks')) : ∀ o ∈ k.reads, ∃ j ∈ ks, j.binder? = some o := by
  intro o ho
  have hmem := (ready_append.1 h).2.1 o ho
  rw [List.nil_append] at hmem
  exact List.mem_filterMap.1 hmem

theorem ready_ofCondition? (hs : .subject number ∈ known) (c? : Option Condition) :
    Ready known (ofCondition? number c?) := by
  cases c? with
  | none => trivial
  | some c =>
    refine ready_append.2 ⟨?_, fun o ho => ?_, trivial⟩
    · generalize c.properties = ps
      induction ps generalizing known with
      | nil => trivial
      | cons p ps ih =>
        refine ⟨fun o ho => ?_, ih (List.mem_append_left _ hs)⟩
        rw [List.mem_singleton.1 ho]
        exact hs
    · -- each property that the condition reads has a clause before it
      obtain ⟨p, hp, rfl⟩ := List.mem_map.1 ho
      refine List.mem_append_right _ (List.mem_filterMap.2 ⟨.property number p, ?_, rfl⟩)
      exact List.mem_map_of_mem (List.mem_eraseDups.2 hp)

theorem ready_ofSteps (steps : List PathStep) : ∀ {known : List Referent} {walked : List QName},
    .subject number ∈ known → .reached number walked ∈ known → Ready known (ofSteps number walked steps) := by
  induction steps with
  | nil => exact fun _ _ => trivial
  | cons s steps ih =>
    intro known walked hs hreached
    refine ⟨fun o ho => ?_, ready_append.2 ⟨ready_ofCondition? (List.mem_append_left _ hs) _, ih ?_ ?_⟩⟩
    · rw [List.mem_singleton.1 ho]
      exact hreached
    · exact List.mem_append_left _ (List.mem_append_left _ hs)
    · refine List.mem_append_left _ (List.mem_append_right _ ?_)
      unfold Referent.reached
      rw [if_neg (by simp)]
      exact List.mem_singleton.2 rfl

/-- The clauses of one source entity. -/
def ofSource (number : Nat) (e : Entity) : List Clause :=
  .member number e.type :: (ofSteps number [] e.path ++ ofCondition? number e.condition)

theorem ofSources_cons (number : Nat) (e : Entity) (es : List Entity) :
    ofSources number (e :: es) = ofSource number e ++ ofSources (number + 1) es := rfl

theorem ready_ofSource (e : Entity) : Ready known (ofSource number e) := by
  have hsubject : Referent.subject number ∈ known ++ [.subject number] :=
    List.mem_append_right _ (List.mem_singleton.2 rfl)
  refine ⟨fun _ ho => (List.not_mem_nil ho).elim, ready_append.2 ⟨ready_ofSteps e.path hsubject hsubject, ?_⟩⟩
  exact ready_ofCondition? (List.mem_append_left _ hsubject) _

/-- **The clauses of source entities are ready.** -/
theorem ready_ofSources (es : List Entity) : ∀ (known : List Referent) (number : Nat),
    Ready known (ofSources number es) := by
  induction es with
  | nil => exact fun _ _ => trivial
  | cons e es ih => exact fun known number => ready_append.2 ⟨ready_ofSource e, ih _ _⟩

/-! ## Which entity a clause is about -/

/-- A clause of source entities is that of one of them. -/
theorem mem_ofSources (es : List Entity) : ∀ {number : Nat}, k ∈ ofSources number es →
    ∃ i e, es[i]? = some e ∧ k ∈ ofSource (number + i) e := by
  induction es with
  | nil => exact fun h => (List.not_mem_nil h).elim
  | cons e es ih =>
    intro number h
    rw [ofSources_cons] at h
    rcases List.mem_append.1 h with h | h
    · exact ⟨0, e, rfl, h⟩
    · obtain ⟨i, e', hi, h⟩ := ih h
      exact ⟨i + 1, e', hi, by rwa [Nat.add_assoc, Nat.add_comm 1 i] at h⟩

theorem condition_of_mem_ofCondition? {n : Nat} {c : Condition} {c? : Option Condition}
    (h : .condition n c ∈ ofCondition? number c?) : c ∈ c?.toList ∧ n = number := by
  cases c? with
  | none => cases h
  | some d =>
    rcases List.mem_append.1 h with h | h
    · obtain ⟨p, -, hp⟩ := List.mem_map.1 h
      cases hp
    · cases List.mem_singleton.1 h
      exact ⟨List.mem_singleton.2 rfl, rfl⟩

theorem condition_of_mem_ofSteps {n : Nat} {c : Condition} (steps : List PathStep) :
    ∀ {walked : List QName}, .condition n c ∈ ofSteps number walked steps →
      c ∈ steps.filterMap PathStep.condition ∧ n = number := by
  induction steps with
  | nil => exact fun h => (List.not_mem_nil h).elim
  | cons s steps ih =>
    intro walked h
    rcases List.mem_append.1 ((List.mem_cons.1 h).resolve_left (by simp)) with h | h
    · obtain ⟨hc, hn⟩ := condition_of_mem_ofCondition? h
      exact ⟨List.mem_filterMap.2 ⟨s, List.mem_cons_self, Option.mem_toList.1 hc⟩, hn⟩
    · obtain ⟨hc, hn⟩ := ih h
      refine ⟨?_, hn⟩
      obtain ⟨t, ht, hc⟩ := List.mem_filterMap.1 hc
      exact List.mem_filterMap.2 ⟨t, List.mem_cons_of_mem _ ht, hc⟩

/-- A condition among the clauses is one of its entity. -/
theorem condition_of_mem_ofSource {n : Nat} {c : Condition} {e : Entity} (h : .condition n c ∈ ofSource number e) :
    c ∈ e.stepConditions ++ e.condition.toList ∧ n = number := by
  rcases List.mem_append.1 ((List.mem_cons.1 h).resolve_left (by simp)) with h | h
  · obtain ⟨hc, hn⟩ := condition_of_mem_ofSteps e.path h
    exact ⟨List.mem_append_left _ hc, hn⟩
  · obtain ⟨hc, hn⟩ := condition_of_mem_ofCondition? h
    exact ⟨List.mem_append_right _ hc, hn⟩

/-! ## The clauses of a path -/

/-- The clauses of the steps along names alone. -/
def along (number : Nat) (walked : List QName) : List QName → List Clause
  | [] => []
  | name :: names => .step number walked name :: along number (walked ++ [name]) names

theorem along_sublist_ofSteps (steps : List PathStep) : ∀ walked : List QName,
    (along number walked (steps.map PathStep.name)).Sublist (ofSteps number walked steps) := by
  induction steps with
  | nil => exact fun _ => .slnil
  | cons s steps ih => exact fun walked => ((ih _).trans (List.sublist_append_right _ _)).cons_cons _

/-- The steps of a source entity are among its clauses, in their order. -/
theorem along_sublist_ofSources (es : List Entity) : ∀ (number : Nat) {i : Nat} {e : Entity}, es[i]? = some e →
    (along (number + i) [] e.names).Sublist (ofSources number es) := by
  induction es with
  | nil => exact fun _ _ _ h => by simp at h
  | cons e es ih =>
    intro number i e' h
    rw [ofSources_cons]
    cases i with
    | zero =>
      cases h
      exact (((along_sublist_ofSteps e.path []).trans (List.sublist_append_left _ _)).cons _).trans
        (List.sublist_append_left _ _)
    | succ i =>
      have hrest := ih (number + 1) h
      rw [Nat.add_assoc, Nat.add_comm 1 i] at hrest
      exact hrest.trans (List.sublist_append_right _ _)

theorem isProperty_along (names : List QName) : ∀ {walked : List QName},
    ∀ j ∈ along number walked names, j.isProperty = false := by
  induction names with
  | nil => exact fun _ hj => (List.not_mem_nil hj).elim
  | cons name names ih =>
    intro walked j hj
    rcases List.mem_cons.1 hj with rfl | hj
    · rfl
    · exact ih j hj

/-! ## Clauses in a body -/

variable {spell : QName → String} {body before after : List Formula} {f : Formula}

/-- **What stands before a formula of a body**: it is the formula of a clause, and what stands before it is
the body that the clauses before make. -/
theorem split_layAll (ks : List Clause) (h : layAll spell [] ks = before ++ f :: after) :
    ∃ ks₁ k ks₂, ks = ks₁ ++ k :: ks₂ ∧ before = layAll spell [] ks₁ ∧ f = k.formula spell := by
  induction ks using List.reverseRecOn generalizing after with
  | nil => simp [layAll] at h
  | append_singleton ks k ih =>
    have earlier : ∀ {after : List Formula}, layAll spell [] ks = before ++ f :: after →
        ∃ ks₁ j ks₂, ks ++ [k] = ks₁ ++ j :: ks₂ ∧ before = layAll spell [] ks₁ ∧ f = j.formula spell := by
      intro after h
      obtain ⟨ks₁, j, ks₂, rfl, hbefore, hf⟩ := ih h
      exact ⟨ks₁, j, ks₂ ++ [k], by simp, hbefore, hf⟩
    rw [layAll_concat, lay] at h
    split at h
    · exact earlier h
    · -- the formula is the new one at the end, or an earlier one
      rcases List.eq_nil_or_concat after with rfl | ⟨rest, last, rfl⟩
      · obtain ⟨hbefore, hf⟩ := List.append_inj' h rfl
        exact ⟨ks, k, [], rfl, hbefore.symm, (List.singleton_inj.1 hf).symm⟩
      · rw [List.concat_eq_append, ← List.cons_append, ← List.append_assoc] at h
        exact earlier (List.append_inj' h rfl).1

/-- Clauses that bind no property for a condition have their formulas in the body, in their order. -/
theorem sublist_layAll (spell : QName → String) {js : List Clause} (h : js.Sublist ks)
    (hjs : ∀ j ∈ js, j.isProperty = false) : ∀ body, ∃ rest, layAll spell body ks = body ++ rest ∧ (js.map (formula spell)).Sublist rest := by
  induction h with
  | slnil => exact fun body => ⟨[], (List.append_nil _).symm, .slnil⟩
  | @cons js ks k _ ih =>
    intro body
    obtain ⟨rest, hrest, hsub⟩ := ih hjs (lay spell body k)
    rw [layAll, List.foldl_cons, ← layAll, hrest, lay]
    split
    · exact ⟨rest, rfl, hsub⟩
    · exact ⟨k.formula spell :: rest, by simp, hsub.cons _⟩
  | @cons_cons js ks k _ ih =>
    intro body
    obtain ⟨rest, hrest, hsub⟩ := ih (fun j hj => hjs j (List.mem_cons_of_mem _ hj)) (lay spell body k)
    rw [layAll, List.foldl_cons, ← layAll, hrest, lay, hjs k List.mem_cons_self]
    exact ⟨k.formula spell :: rest, by simp, hsub.cons_cons _⟩

end Clause

/-! ## Closed rules -/

namespace Formula

/-- **Binding a variable**: as the object of a membership, or as the value of a frame. -/
inductive Binds (v : String) : Formula → Prop
  | member {kind : Term} : Binds v (.member (.variable v) kind)
  | frame {object slot : Term} : Binds v (.frame object slot (.variable v))

/-- Neither a membership nor a frame: such a formula states a condition. -/
def IsCondition : Formula → Prop
  | .member _ _ => False
  | .frame _ _ _ => False
  | _ => True

/-- **A chain of frames** along names, from an object to a value: the value of each is the object of the
next. -/
inductive Chain : Term → List QName → List Formula → Term → Prop
  | nil {object : Term} : Chain object [] [] object
  | cons {object last : Term} {name : QName} {names : List QName} {symbol v : String} {frames : List Formula} :
      name.Spells symbol → Chain (.variable v) names frames last →
      Chain object (name :: names) (.frame object (.symbol symbol) (.variable v) :: frames) last

end Formula

/-- **A closed rule** for a cell, `parts` being the formulas of its body. The variables are listed once,
with all that occur; each but that of the target is bound in the body; each path has a chain of frames from
the subject of its source entity; and each condition comes from a source entity, behind frames on its
subject that bind the variables of the condition. -/
structure Rule.Closed (c : Cell) (rule : Rule) (parts : List Formula) : Prop where
  body : rule.body = .all parts
  nodup : rule.quantified.Nodup
  listed : ∀ v, v ∈ rule.head.variableNames ∨ v ∈ rule.body.variableNames → v ∈ rule.quantified
  bound : ∀ v ∈ rule.quantified, v ≠ "t" → ∃ f ∈ parts, f.Binds v
  chains : ∀ number e, c.source[number]? = some e → ∃ frames, frames.Sublist parts ∧
    Formula.Chain (Referent.subject number).term e.names frames (Referent.reached number e.names).term
  conditions : ∀ before f after, parts = before ++ f :: after → f.IsCondition →
    ∃ number e k, c.source[number]? = some e ∧ k ∈ e.stepConditions ++ e.condition.toList ∧
      f = .ofCondition k ∧ ∀ v ∈ f.variableNames, ∃ symbol,
        .frame (Referent.subject number).term (.symbol symbol) (.variable v) ∈ before

namespace Clause

variable {spell : QName → String} {k : Clause} {o : Referent}

/-- What a clause binds, its formula binds. -/
theorem binds_formula (h : k.binder? = some o) : (k.formula spell).Binds o.name := by
  cases k with
  | member _ _ => cases h; exact .member
  | step _ _ _ => cases h; exact .frame
  | property _ _ => cases h; exact .frame
  | condition _ _ => cases h

/-- The frames of steps form a chain. -/
theorem chain_along (hspell : ∀ name : QName, name.Spells (spell name)) (number : Nat) (names : List QName) :
    ∀ walked : List QName, Formula.Chain (Referent.reached number walked).term names
      ((along number walked names).map (formula spell)) (Referent.reached number (walked ++ names)).term := by
  induction names with
  | nil => exact fun walked => by rw [List.append_nil]; exact .nil
  | cons name names ih =>
    intro walked
    have hrest := ih (walked ++ [name])
    have hvalue : Referent.reached number (walked ++ [name]) = .value number (walked ++ [name]) := by
      unfold Referent.reached
      rw [if_neg (by simp)]
    rw [List.append_assoc, hvalue] at hrest
    exact .cons (hspell name) hrest

/-- Only conditions have formulas that state one. -/
theorem condition_of_isCondition (h : (k.formula spell).IsCondition) : ∃ n c, k = .condition n c := by
  cases k with
  | member _ _ => cases h
  | step _ _ _ => cases h
  | property _ _ => cases h
  | condition n c => exact ⟨n, c, rfl⟩

/-- Where steps lead is bound by the last of them. -/
theorem binder_ofSteps (number : Nat) (steps : List PathStep) : ∀ walked : List QName, steps ≠ [] →
    ∃ k ∈ ofSteps number walked steps, k.binder? = some (.value number (walked ++ steps.map PathStep.name)) := by
  induction steps with
  | nil => exact fun _ h => absurd rfl h
  | cons s steps ih =>
    intro walked _
    cases steps with
    | nil => exact ⟨.step number walked s.name, List.mem_cons_self, rfl⟩
    | cons next steps =>
      obtain ⟨k, hk, hb⟩ := ih (walked ++ [s.name]) (List.cons_ne_nil _ _)
      rw [List.append_assoc] at hb
      exact ⟨k, List.mem_cons_of_mem _ (List.mem_append_right _ hk), hb⟩

/-- The value of a source entity is bound by one of its clauses. -/
theorem binder_ofSources (es : List Entity) : ∀ number, ∀ o ∈ Referent.ofSources number es,
    ∃ k ∈ ofSources number es, k.binder? = some o := by
  induction es with
  | nil => exact fun _ o ho => (List.not_mem_nil ho).elim
  | cons e es ih =>
    intro number o ho
    rw [ofSources_cons]
    rcases List.mem_cons.1 ho with rfl | ho
    · -- the subject itself, or where the last step leads
      by_cases hpath : e.path = []
      · refine ⟨.member number e.type, List.mem_append_left _ List.mem_cons_self, ?_⟩
        simp [Entity.names, hpath, Referent.reached, binder?]
      · obtain ⟨k, hk, hb⟩ := binder_ofSteps number e.path [] hpath
        refine ⟨k, List.mem_append_left _ (List.mem_cons_of_mem _ (List.mem_append_left _ hk)), ?_⟩
        unfold Referent.reached
        rw [hb, if_neg (by simpa [Entity.names] using hpath)]
        rfl
    · obtain ⟨k, hk, hb⟩ := ih (number + 1) o ho
      exact ⟨k, List.mem_append_right _ hk, hb⟩

end Clause

/-! ## The rules of an alignment -/

theorem TextMap.spells_spell (table : TextMap) (name : QName) : name.Spells (table.spell name) := by
  unfold QName.Spells spell
  split
  · exact ⟨_, rfl⟩
  · rfl

namespace Cell

variable {spell : QName → String}

/-- The head with its names spelled is the head of the rule. -/
theorem heads_headIn (hspell : ∀ name : QName, name.Spells (spell name)) (c : Cell) : c.Heads (c.headIn spell) := by
  unfold headIn
  split
  · rename_i h
    exact .none h
  · rename_i e rest h
    split
    · rename_i htype
      exact .member h htype (hspell e.type)
    · rename_i htype
      refine .slot h (by simpa using htype) ?_
      exact List.forall₂_map_right_iff.2 (List.forall₂_same.2 fun name _ => hspell name)

/-- What a clause of a cell binds has its variable used. -/
theorem binder_used {c : Cell} {k : Clause} {o : Referent} (hk : k ∈ c.clauses) (hb : k.binder? = some o) :
    o.name ∈ c.used :=
  List.mem_append_left _ (List.mem_map_of_mem (List.mem_filterMap.2 ⟨k, hk, hb⟩))

/-- What a clause of a cell speaks of is bound by a clause. -/
theorem binder_of_referent {c : Cell} {k : Clause} {o : Referent} (hk : k ∈ c.clauses) (ho : o ∈ k.referents) :
    ∃ j ∈ c.clauses, j.binder? = some o := by
  rw [Clause.referents_eq, List.mem_append] at ho
  rcases ho with ho | ho
  · obtain ⟨ks, ks', hsplit⟩ := List.append_of_mem hk
    have hready : Clause.Ready [] (ks ++ k :: ks') := hsplit ▸ Clause.ready_ofSources c.source [] 0
    obtain ⟨j, hj, hb⟩ := hready.reads_bound o ho
    exact ⟨j, hsplit ▸ List.mem_append_left _ hj, hb⟩
  · exact ⟨k, hk, Option.mem_toList.1 ho⟩

/-- All variables of the rule are used. -/
theorem mem_used_of_mem (hspell : ∀ name : QName, name.Spells (spell name)) {c : Cell} {v : String}
    (h : v ∈ (c.headIn spell).variableNames ∨ v ∈ (c.ruleIn spell).body.variableNames) : v ∈ c.used := by
  rcases h with h | h
  · rw [(heads_headIn hspell c).variableNames] at h
    obtain ⟨o, ho, rfl⟩ := List.mem_map.1 h
    have htarget : Referent.target.name ∈ c.used := List.mem_append_right _ (List.mem_singleton.2 rfl)
    have hvalue : ∀ o ∈ Referent.ofSources 0 c.source, o.name ∈ c.used := fun o ho =>
      let ⟨_, hk, hb⟩ := Clause.binder_ofSources c.source 0 o ho
      binder_used hk hb
    unfold headReferents at ho
    split at ho
    · cases ho
    · split at ho
      · rw [List.mem_singleton.1 ho]
        exact htarget
      · rcases List.mem_cons.1 ho with rfl | ho
        · exact htarget
        · exact hvalue o ho
  · obtain ⟨f, hf, hv⟩ := Formula.mem_variableNamesAll.1 h
    obtain ⟨k, hk, rfl⟩ := (Clause.mem_layAll c.clauses).1 hf
    rw [(Clause.states_formula hspell k).variableNames] at hv
    obtain ⟨o, ho, rfl⟩ := List.mem_map.1 hv
    obtain ⟨j, hj, hb⟩ := binder_of_referent hk ho
    exact binder_used hj hb

/-- What stands before a condition of the body: frames on its subject for the variables that it has. -/
theorem condition_behind {c : Cell} {before after : List Formula} {f : Formula}
    (h : Clause.layAll spell [] c.clauses = before ++ f :: after) (hf : f.IsCondition) :
    ∃ number e k, c.source[number]? = some e ∧ k ∈ e.stepConditions ++ e.condition.toList ∧ f = .ofCondition k ∧
      ∀ v ∈ f.variableNames, ∃ symbol,
        .frame (Referent.subject number).term (.symbol symbol) (.variable v) ∈ before := by
  obtain ⟨ks, k, ks', hsplit, rfl, rfl⟩ := Clause.split_layAll c.clauses h
  obtain ⟨number, d, rfl⟩ := Clause.condition_of_isCondition hf
  have hmem : Clause.condition number d ∈ Clause.ofSources 0 c.source := by
    rw [← clauses, hsplit]
    exact List.mem_append_right _ List.mem_cons_self
  obtain ⟨i, e, hi, hmem⟩ := Clause.mem_ofSources c.source hmem
  obtain ⟨hd, rfl⟩ := Clause.condition_of_mem_ofSource hmem
  rw [Nat.zero_add] at *
  refine ⟨i, e, d, hi, hd, rfl, fun v hv => ?_⟩
  have hready : Clause.Ready [] (ks ++ .condition i d :: ks') := hsplit ▸ Clause.ready_ofSources c.source [] 0
  rw [Clause.formula, Formula.variableNames_ofCondition] at hv
  obtain ⟨p, hp, rfl⟩ := List.mem_map.1 hv
  obtain ⟨j, hj, hb⟩ := hready.reads_bound (.property i p) (List.mem_map_of_mem hp)
  cases j with
  | property n q =>
    cases hb
    exact ⟨spell ⟨p⟩, (Clause.mem_layAll ks).2 ⟨_, hj, rfl⟩⟩
  | member _ _ => cases hb
  | step _ _ _ => cases hb
  | condition _ _ => cases hb

/-- **The rule of a cell is closed**, however its names are spelled. -/
theorem closed_ruleIn (hspell : ∀ name : QName, name.Spells (spell name)) (c : Cell) :
    (c.ruleIn spell).Closed c (Clause.layAll spell [] c.clauses) where
  body := rfl
  nodup := Draft.nodup_listed List.nodup_nil
  listed v hv := Draft.mem_listed.2 (.inr (mem_used_of_mem hspell hv))
  bound v hv ht := by
    have hused := (Draft.mem_listed.1 hv).resolve_left List.not_mem_nil
    rcases List.mem_append.1 hused with hused | hused
    · obtain ⟨o, ho, rfl⟩ := List.mem_map.1 hused
      obtain ⟨k, hk, hb⟩ := List.mem_filterMap.1 ho
      exact ⟨k.formula spell, (Clause.mem_layAll c.clauses).2 ⟨k, hk, rfl⟩, Clause.binds_formula hb⟩
    · exact absurd (List.mem_singleton.1 hused) ht
  chains number e he := by
    have halong := Clause.along_sublist_ofSources c.source 0 he
    rw [Nat.zero_add] at halong
    obtain ⟨rest, hrest, hsub⟩ := Clause.sublist_layAll spell halong (Clause.isProperty_along e.names) []
    rw [List.nil_append] at hrest
    refine ⟨_, ?_, Clause.chain_along hspell number e.names []⟩
    rw [clauses, hrest]
    exact hsub
  conditions _ _ _ h hf := condition_behind h hf

end Cell

/-- **The rules of an alignment are closed**, whatever the configuration prefers: there is one for each
cell, in their order. -/
theorem Alignment.rules_closed (config : Config) (a : Alignment) :
    List.Forall₂ (fun c rule => ∃ parts, rule.Closed c parts) a.cells (a.toRules config).rules := by
  obtain ⟨hlast, -, hrules⟩ := Cell.rulesFrom_written a.cells _ (Draft.table_standard config)
  refine (hrules _ hlast.toOneToOne (List.Subset.refl _)).imp fun c rule h => ?_
  rw [h.2]
  exact ⟨_, c.closed_ruleIn (TextMap.spells_spell _)⟩

end FeatureAlignment
