import FeatureAlignment.Proofs.Text
import FeatureAlignment.Rule.Draft

/-!
# What the variables of a rule stand for

A rule speaks of the subjects of the source entities, of the values that their steps reach, of the
properties that conditions read on them, and of the target. Subjects have numbered variables and the
target has its own; a column, that is a value or a property, has the variable of its path, whatever
entity it belongs to.

* `Formula.variableNames`: the variables of a formula, at every occurrence. Those of a condition are named
  after what it reads (`Formula.variableNames_ofCondition`).
* `Referent`: what a variable stands for, and `Referent.name`, its variable.
* `Referent.name_eq_iff`: who shares a variable, if no column takes that of a subject or of the target.
-/

namespace FeatureAlignment

/-! ## Occurrences of variables -/

namespace Term

mutual

/-- The variables of a term, from left to right. -/
def variableNames : Term → List String
  | .variable name => [name]
  | .constant _ _ => []
  | .symbol _ => []
  | .call _ arguments => variableNamesAll arguments

/-- The variables of terms, one term after the other. -/
def variableNamesAll : List Term → List String
  | [] => []
  | t :: ts => t.variableNames ++ variableNamesAll ts

end

theorem variableNamesAll_append (ts us : List Term) :
    variableNamesAll (ts ++ us) = variableNamesAll ts ++ variableNamesAll us := by
  induction ts with
  | nil => rfl
  | cons t ts ih => rw [List.cons_append, variableNamesAll, variableNamesAll, ih, List.append_assoc]

end Term

namespace Formula

mutual

/-- **The variables of a formula**, from left to right, at every occurrence. -/
def variableNames : Formula → List String
  | .all parts => variableNamesAll parts
  | .any parts => variableNamesAll parts
  | .not part => part.variableNames
  | .equal left right => left.variableNames ++ right.variableNames
  | .test _ arguments => Term.variableNamesAll arguments
  | .member object kind => object.variableNames ++ kind.variableNames
  | .frame object slot value => object.variableNames ++ slot.variableNames ++ value.variableNames

/-- The variables of formulas, one formula after the other. -/
def variableNamesAll : List Formula → List String
  | [] => []
  | f :: fs => f.variableNames ++ variableNamesAll fs

end

theorem mem_variableNamesAll {v : String} {fs : List Formula} :
    v ∈ variableNamesAll fs ↔ ∃ f ∈ fs, v ∈ f.variableNames := by
  induction fs with
  | nil => simp [variableNamesAll]
  | cons f fs ih => simp [variableNamesAll, ih]

end Formula

namespace Formula

/-- A comparison has the variables of its operands, whatever it compares. -/
theorem variableNames_ofComparison (c : Comparison) :
    (ofComparison c).variableNames = c.properties.map variableName := by
  have hoperands : Term.variableNamesAll [c.left.toTerm, c.right.toTerm] = c.properties.map variableName := by
    rcases c with ⟨left, op, right, negated⟩
    cases left <;> cases right <;> rfl
  have htexts : (ofTexts c.op c.left.toTerm c.right.toTerm).variableNames = c.properties.map variableName := by
    cases c.op <;>
      simpa [ofTexts, compares, predicate, variableNames, Term.variableNames, Literal.toTerm] using hoperands
  unfold ofComparison
  simp only
  split <;> split
  · exact hoperands
  · exact htexts
  · exact hoperands
  · exact htexts

theorem variableNames_negation (fs : List Formula) : (negation fs).variableNames = variableNamesAll fs := by
  unfold negation
  split <;> simp [variableNames, variableNamesAll]

mutual

/-- **A condition has the variables of the properties that it reads**, at every occurrence. -/
theorem variableNames_ofCondition : ∀ c : Condition, (ofCondition c).variableNames = c.occurrences.map variableName
  | .logical .and children => variableNames_ofConditions children
  | .logical .or children => variableNames_ofConditions children
  | .logical .not children => by
    rw [ofCondition, variableNames_negation]
    exact variableNames_ofConditions children
  | .comparison c => variableNames_ofComparison c
  | .literal l => by
    rw [ofCondition]
    split <;> rfl

theorem variableNames_ofConditions :
    ∀ cs : List Condition, variableNamesAll (ofConditions cs) = (Condition.occurrencesAll cs).map variableName
  | [] => rfl
  | c :: cs => by
    rw [ofConditions, variableNamesAll, Condition.occurrencesAll, List.map_append, variableNames_ofCondition c,
      variableNames_ofConditions cs]

end

end Formula

/-! ## Referents -/

/-- **What a variable stands for**: the subject of a source entity, the value that steps reach from it, a
property that a condition reads on it, or the target. Source entities go by their numbers. -/
inductive Referent
  | subject (number : Nat)
  | value (number : Nat) (walked : List QName)
  | property (number : Nat) (name : String)
  | target
  deriving DecidableEq, Repr

namespace Referent

/-- The path of a column; a subject and the target have none. -/
def path? : Referent → Option String
  | .value _ walked => some (QName.path walked)
  | .property _ name => some name
  | .subject _ => none
  | .target => none

/-- **The variable** of a referent. -/
def name : Referent → String
  | .subject number => "s" ++ Text.natural number
  | .value _ walked => variableName (QName.path walked)
  | .property _ name => variableName name
  | .target => "t"

/-- The variable as a term. -/
def term (o : Referent) : Term := .variable o.name

/-- What names lead to from the subject of a source entity. -/
def reached (number : Nat) (walked : List QName) : Referent :=
  if walked.isEmpty then .subject number else .value number walked

/-- **Alike**: the same, or columns whose paths are the same but for characters that are neither ASCII
letters nor digits. -/
def Alike (o o' : Referent) : Prop := o = o' ∨ ∃ p ∈ o.path?, ∃ p' ∈ o'.path?, variableName p = variableName p'

/-- **Apart**: the variable of a column is neither that of the target nor that of the subject of one of
so many source entities. -/
structure Apart (sources : Nat) (o : Referent) : Prop where
  target : ∀ p ∈ o.path?, variableName p ≠ "t"
  subjects : ∀ p ∈ o.path?, ∀ number < sources, variableName p ≠ "s" ++ Text.natural number

/-- A subject is that of one of so many source entities. -/
def Within (sources : Nat) (o : Referent) : Prop := ∀ number, o = .subject number → number < sources

variable {sources : Nat} {o o' : Referent}

theorem name_of_path {p : String} (h : p ∈ o.path?) : o.name = variableName p := by
  cases o <;> cases h <;> rfl

theorem Alike.name_eq (h : o.Alike o') : o.name = o'.name := by
  rcases h with rfl | ⟨p, hp, p', hp', h⟩
  · rfl
  · rw [name_of_path hp, name_of_path hp', h]

theorem subject_name_ne (n : Nat) : "s" ++ Text.natural n ≠ "t" := by
  intro h
  have hl := congrArg (fun s => s.toList.head?) h
  simp at hl

/-- A column shares its variable with columns alike only. -/
theorem Apart.alike_of_path (ho : o.Apart sources) {p : String} (hp : p ∈ o.path?) (ho' : o'.Within sources)
    (h : o.name = o'.name) : o.Alike o' := by
  rw [name_of_path hp] at h
  cases hp' : o'.path? with
  | some p' => exact .inr ⟨p, hp, p', hp', h.trans (name_of_path hp')⟩
  | none =>
    cases o' with
    | subject number => exact absurd h (ho.subjects p hp number (ho' number rfl))
    | target => exact absurd h (ho.target p hp)
    | value _ _ => cases hp'
    | property _ _ => cases hp'

theorem Alike.symm (h : o.Alike o') : o'.Alike o := by
  rcases h with rfl | ⟨p, hp, p', hp', h⟩
  · exact .inl rfl
  · exact .inr ⟨p', hp', p, hp, h.symm⟩

/-- **Referents that are apart share a variable exactly if they are alike.** -/
theorem name_eq_iff (ho : o.Apart sources) (ho' : o'.Apart sources) (hw : o.Within sources)
    (hw' : o'.Within sources) : o.name = o'.name ↔ o.Alike o' := by
  refine ⟨fun h => ?_, Alike.name_eq⟩
  cases hp : o.path? with
  | some p => exact ho.alike_of_path hp hw' h
  | none =>
    cases hp' : o'.path? with
    | some p' => exact (ho'.alike_of_path hp' hw h.symm).symm
    | none =>
      left
      cases o with
      | value _ _ => cases hp
      | property _ _ => cases hp
      | subject m =>
        cases o' with
        | value _ _ => cases hp'
        | property _ _ => cases hp'
        | subject n => rw [Text.append_natural_inj h]
        | target => exact absurd h (subject_name_ne m)
      | target =>
        cases o' with
        | value _ _ => cases hp'
        | property _ _ => cases hp'
        | subject n => exact absurd h.symm (subject_name_ne n)
        | target => rfl

end Referent

end FeatureAlignment
