import FeatureAlignment.Proofs.Rule.Clauses

/-!
# Shared variables

In the rule of a cell a variable stands for one subject, for the target, or for columns whose paths are the
same up to characters that are neither ASCII letters nor digits, wherever it occurs; unless a column takes
the variable of a subject or of the target. So the target occurs in the head only.

The variable of a column is named after its path alone. Columns of the same name are shared between the
source entities of a cell, and the rule then asks for their equality.

* `Cell.ColumnsApart`: no column takes the variable of a subject or of the target.
* `Alignment.rules_share_columns`: what shares a variable in the rules of an alignment.
* `Roads.name_shared`: two entities with a column of the same name.
-/

namespace FeatureAlignment

/-! ## Subjects and the target -/

namespace Clause

/-- The source entity that a clause is about. -/
def number : Clause → Nat
  | .member number _ => number
  | .step number _ _ => number
  | .property number _ => number
  | .condition number _ => number

/-- A clause speaks of the subject of its entity only. -/
theorem subject_number {k : Clause} {m : Nat} (h : Referent.subject m ∈ k.referents) : m = k.number := by
  cases k with
  | member n type => cases List.mem_singleton.1 h; rfl
  | property n name =>
    simp only [referents, List.mem_cons, List.not_mem_nil, reduceCtorEq, or_false] at h
    exact Referent.subject.inj h
  | condition n c => simp [referents] at h
  | step n walked name =>
    simp only [referents, List.mem_cons, List.not_mem_nil, reduceCtorEq, or_false] at h
    unfold Referent.reached at h
    split at h
    · exact Referent.subject.inj h
    · cases h

/-- No clause speaks of the target. -/
theorem target_not_mem (k : Clause) : Referent.target ∉ k.referents := by
  cases k with
  | member n type => simp [referents]
  | property n name => simp [referents]
  | condition n c => simp [referents]
  | step n walked name =>
    simp only [referents, List.mem_cons, List.not_mem_nil, reduceCtorEq, or_false]
    unfold Referent.reached
    split <;> simp

theorem number_ofCondition? {n : Nat} {c? : Option Condition} : ∀ k ∈ ofCondition? n c?, k.number = n := by
  intro k hk
  cases c? with
  | none => cases hk
  | some c =>
    rcases List.mem_append.1 hk with hk | hk
    · obtain ⟨p, -, rfl⟩ := List.mem_map.1 hk
      rfl
    · rw [List.mem_singleton.1 hk]
      rfl

theorem number_ofSteps {n : Nat} (steps : List PathStep) :
    ∀ (walked : List QName), ∀ k ∈ ofSteps n walked steps, k.number = n := by
  induction steps with
  | nil => exact fun _ k hk => (List.not_mem_nil hk).elim
  | cons s steps ih =>
    intro walked k hk
    rcases List.mem_cons.1 hk with rfl | hk
    · rfl
    · rcases List.mem_append.1 hk with hk | hk
      · exact number_ofCondition? k hk
      · exact ih _ k hk

theorem number_ofSources (es : List Entity) : ∀ n, ∀ k ∈ ofSources n es, k.number < n + es.length := by
  induction es with
  | nil => exact fun _ k hk => (List.not_mem_nil hk).elim
  | cons e es ih =>
    intro n k hk
    rw [List.length_cons]
    have here : k.number = n → k.number < n + (es.length + 1) := fun h => by omega
    rcases List.mem_append.1 hk with hk | hk
    · rcases List.mem_cons.1 hk with rfl | hk
      · exact here rfl
      · rcases List.mem_append.1 hk with hk | hk
        · exact here (number_ofSteps _ _ k hk)
        · exact here (number_ofCondition? k hk)
    · have := ih (n + 1) k hk
      omega

end Clause

theorem Referent.ofSources_within (es : List Entity) :
    ∀ n, ∀ o ∈ ofSources n es, o.Within (n + es.length) := by
  induction es with
  | nil => exact fun _ o ho => (List.not_mem_nil ho).elim
  | cons e es ih =>
    intro n o ho m hm
    rw [List.length_cons]
    rcases List.mem_cons.1 ho with rfl | ho
    · unfold reached at hm
      split at hm
      · cases hm; omega
      · cases hm
    · have := ih (n + 1) o ho m hm
      omega

/-! ## Rules -/

namespace Cell

variable {c : Cell} {o o' : Referent}

/-- **Columns apart**: none takes the variable of the target or of a subject. -/
def ColumnsApart (c : Cell) : Prop := ∀ o ∈ c.referents, o.Apart c.source.length

/-- A rule speaks of the subjects of its source entities only. -/
theorem referents_within (ho : o ∈ c.referents) : o.Within c.source.length := by
  rcases List.mem_append.1 ho with ho | ho
  · obtain ⟨k, hk, ho⟩ := List.mem_flatMap.1 ho
    rintro m rfl
    have := Clause.number_ofSources c.source 0 k hk
    rw [Clause.subject_number ho]
    omega
  · unfold headReferents at ho
    split at ho
    · cases ho
    · split at ho
      · rw [List.mem_singleton.1 ho]
        exact fun _ h => nomatch h
      · rcases List.mem_cons.1 ho with rfl | ho
        · exact fun _ h => nomatch h
        · have := Referent.ofSources_within c.source 0 o ho
          rwa [Nat.zero_add] at this

/-- **Where columns are apart, only what is alike shares a variable.** -/
theorem ColumnsApart.name_eq_iff (h : c.ColumnsApart) (ho : o ∈ c.referents) (ho' : o' ∈ c.referents) :
    o.name = o'.name ↔ o.Alike o' :=
  Referent.name_eq_iff (h o ho) (h o' ho') (referents_within ho) (referents_within ho')

/-- **The target occurs in the head only.** -/
theorem ColumnsApart.target_not_mem (h : c.ColumnsApart) {rule : Rule} (hr : rule.Speaks c) :
    Referent.target.name ∉ rule.body.variableNames := by
  obtain ⟨parts, hbody, hparts, -⟩ := hr.body
  intro hmem
  rw [hbody, Formula.variableNames, Formula.mem_variableNamesAll] at hmem
  obtain ⟨f, hf, hmem⟩ := hmem
  obtain ⟨k, hk, -, hvars⟩ := hparts f hf
  rw [hvars] at hmem
  obtain ⟨o, ho, hname⟩ := List.mem_map.1 hmem
  have hapart := h o (List.mem_append_left _ (List.mem_flatMap.2 ⟨k, hk, ho⟩))
  -- what a clause speaks of is a subject or a column
  cases o with
  | subject n => exact Referent.subject_name_ne n hname
  | value n walked => exact hapart.target _ rfl hname
  | property n name => exact hapart.target _ rfl hname
  | target => exact k.target_not_mem ho

theorem rulesFrom_forall {P : Cell → Rule → Prop} (h : ∀ config prefixes c, P c (ruleFrom config prefixes c).1)
    (config : Config) (cells : List Cell) :
    ∀ prefixes, List.Forall₂ P cells (rulesFrom config prefixes cells).1 := by
  induction cells with
  | nil => exact fun _ => .nil
  | cons c cs ih => exact fun prefixes => .cons (h config prefixes c) (ih _)

end Cell

/-- **What shares a variable in the rules of an alignment.** There is one rule for each cell, and it
speaks for the cell. If the columns of the cell are apart, then two occurrences have the same variable
exactly if they stand for the same subject, both for the target, or for columns whose paths are the same
up to characters that are neither ASCII letters nor digits; and the target does not occur in the body. -/
theorem Alignment.rules_share_columns (config : Config) (a : Alignment) :
    List.Forall₂ (fun c rule => rule.Speaks c ∧ (c.ColumnsApart →
      (∀ o ∈ c.referents, ∀ o' ∈ c.referents, o.name = o'.name ↔ o.Alike o') ∧
        Referent.target.name ∉ rule.body.variableNames)) a.cells (a.toRules config).rules := by
  refine Cell.rulesFrom_forall (fun config prefixes c => ?_) config a.cells _
  have hs := Cell.speaks_ruleFrom config prefixes c
  exact ⟨hs, fun h => ⟨fun o ho o' ho' => h.name_eq_iff ho ho', h.target_not_mem hs⟩⟩

namespace Roads

/-- A column of a table. -/
def column (table name : String) : Entity := ⟨none, ⟨table⟩, [⟨⟨name⟩, none, none⟩], none⟩

/-- A text made of columns goes to the left side of a road. -/
def text (columns : List Entity) : Cell := ⟨"text", "formatted_string", columns, [column "Road" "left"], .empty⟩

/-- The name of an open road, and the width of a lane. -/
def nameAndWidth : Cell :=
  text [{ column "RoadRow" "name" with condition := some (.propertyEquals "open" (.text "yes")) },
    column "LaneRow" "width"]

theorem name_and_width_apart :
    nameAndWidth.ColumnsApart ∧
      (∀ o ∈ nameAndWidth.referents, ∀ o' ∈ nameAndWidth.referents, o.name = o'.name ↔ o.Alike o') ∧
      "t" ∉ (nameAndWidth.ruleFrom .standard Draft.standardPrefixes).1.body.variableNames := by
  have hpaths : ∀ o ∈ nameAndWidth.referents, ∀ p ∈ o.path?, p ∈ ["name", "open", "width"] := by decide
  have hnames : ∀ p ∈ ["name", "open", "width"],
      variableName p ≠ "t" ∧ ∀ n < 2, variableName p ≠ "s" ++ Text.natural n := by
    decide
  have hapart : nameAndWidth.ColumnsApart := fun o ho =>
    ⟨fun p hp => (hnames p (hpaths o ho p hp)).1, fun p hp => (hnames p (hpaths o ho p hp)).2⟩
  have hrules := Alignment.rules_share_columns .standard ⟨none, [nameAndWidth]⟩
  exact ⟨hapart, (List.forall₂_cons.1 hrules).1.2 hapart⟩

/-- The names of a road and of a lane, and a column of the lane that is called `t`. -/
def names : Cell := text [column "RoadRow" "name", column "LaneRow" "name", column "LaneRow" "t"]

/-- Both names have one variable, and so have the last column and the target. -/
theorem name_shared :
    ((Alignment.mk none [names]).toRules .standard).rules.map Rule.body =
        [.all [.member (.variable "s0") (.symbol "_RoadRow"),
          .frame (.variable "s0") (.symbol "_name") (.variable "name"),
          .member (.variable "s1") (.symbol "_LaneRow"),
          .frame (.variable "s1") (.symbol "_name") (.variable "name"),
          .member (.variable "s2") (.symbol "_LaneRow"),
          .frame (.variable "s2") (.symbol "_t") (.variable "t")]] ∧
      ((Alignment.mk none [names]).toRules .standard).rules.map Rule.head =
        [.frame (.variable "t") (.symbol "_left")
          (.call "func:formatted_string" [.variable "name", .variable "name", .variable "t"])] ∧
      ¬ ∀ o ∈ names.referents, ∀ o' ∈ names.referents, o.name = o'.name → o = o' := by
  decide

end Roads

end FeatureAlignment
