import FeatureAlignment.Proofs.Rule.Occurrences
import FeatureAlignment.Proofs.Rule.Written

/-!
# Constants in rules

The constants of a rule are the literals of its cell: those that its conditions compare, at any depth, and for a
property the literals among its parameters. The text of the rule has each of them in quotes. The text of a document
has it in quotes as well, but set in: it reads back as what it was if it has no line feed, and else as another text.

* `Condition.constants`: the literals that a condition compares.
* `Cell.constants`: the literals that a rule has for its cell (`Cell.constants_ruleIn`).
* `Alignment.constants_set_in`: the constants in a document of rules.
-/

namespace FeatureAlignment

/-! ## Literals -/

/-- A literal as a constant: its text and its datatype. -/
def Literal.constant (l : Literal) : String × Option String := (l.display, l.datatype?)

/-- No datatype has a line end. -/
theorem Occurrence.plain_of_literal {o : Occurrence} {l : Literal} (h : o.constant = l.constant) : o.Plain := by
  obtain ⟨-, hdatatype⟩ := Prod.mk.inj h
  unfold Plain
  rw [hdatatype]
  cases l <;> simp [Literal.datatype?]

/-- The number that the comparison of two texts has to give. -/
def ComparisonOp.result? : ComparisonOp → Option Int64
  | .equal | .notEqual => some 0
  | .lessThan | .greaterOrEqual => some (-1)
  | .greaterThan | .lessOrEqual => some 1
  | .contains => none

/-- **The constants of a comparison**: its literals, and if it compares texts the number that this has to give. -/
def Comparison.constants (c : Comparison) : List Literal :=
  c.literals ++
    if c.op ≠ .contains ∧ c.literals.any Literal.isNumeric then [] else (c.op.result?.map Literal.integer).toList

namespace Condition

mutual

/-- **The comparisons in a condition**, at any depth, from left to right. -/
def comparisons : Condition → List Comparison
  | .logical _ children => comparisonsAll children
  | .comparison c => [c]
  | .literal _ => []

/-- The comparisons in conditions, one condition after the other. -/
def comparisonsAll : List Condition → List Comparison
  | [] => []
  | c :: cs => c.comparisons ++ comparisonsAll cs

end

/-- **The constants of a condition.** -/
def constants (c : Condition) : List Literal := c.comparisons.flatMap Comparison.constants

end Condition

namespace Term

theorem constantsAll_append (ts us : List Term) : constantsAll (ts ++ us) = constantsAll ts ++ constantsAll us := by
  induction ts with
  | nil => rfl
  | cons t ts ih => rw [List.cons_append, constantsAll, constantsAll, ih, List.append_assoc]

theorem constantsAll_literals (ls : List Literal) : constantsAll (ls.map Literal.toTerm) = ls.map Literal.constant := by
  induction ls with
  | nil => rfl
  | cons l ls ih =>
    rw [List.map_cons, constantsAll, ih]
    rfl

theorem constantsAll_referents (os : List Referent) : constantsAll (os.map Referent.term) = [] := by
  induction os with
  | nil => rfl
  | cons o os ih =>
    rw [List.map_cons, constantsAll, ih]
    rfl

/-- Operands have the constants of their literals. -/
theorem constantsAll_operands (c : Comparison) :
    constantsAll [c.left.toTerm, c.right.toTerm] = c.literals.map Literal.constant := by
  rcases c with ⟨left, op, right, negated⟩
  cases left <;> cases right <;> rfl

end Term

namespace Formula

theorem constants_compares (left right : Term) (result : Int64) : (compares left right result).constants =
    Term.constantsAll [left, right] ++ [(Literal.integer result).constant] := rfl

/-- **A comparison has its constants in its formula**, whatever it compares. -/
theorem constants_ofComparison (c : Comparison) :
    (ofComparison c).constants = c.constants.map Literal.constant := by
  have hoperands := Term.constantsAll_operands c
  have htexts : (ofTexts c.op c.left.toTerm c.right.toTerm).constants =
      (c.literals ++ (c.op.result?.map Literal.integer).toList).map Literal.constant := by
    rw [List.map_append, ← hoperands]
    cases c.op <;>
      simp [ofTexts, ComparisonOp.result?, constants, constants_compares, predicate]
  unfold ofComparison Comparison.constants
  simp only
  split <;> split
  · rw [List.append_nil]
    exact hoperands
  · exact htexts
  · rw [List.append_nil]
    exact hoperands
  · exact htexts

theorem constants_negation (fs : List Formula) : (negation fs).constants = constantsAll fs := by
  unfold negation
  split <;> simp [constants, constantsAll]

mutual

/-- **A condition has its constants in its formula.** -/
theorem constants_ofCondition : ∀ c : Condition, (ofCondition c).constants = c.constants.map Literal.constant
  | .logical .and children => constants_ofConditions children
  | .logical .or children => constants_ofConditions children
  | .logical .not children => by
    rw [ofCondition, constants_negation]
    exact constants_ofConditions children
  | .comparison c => by
    rw [ofCondition, constants_ofComparison, Condition.constants, Condition.comparisons, List.flatMap_singleton]
  | .literal l => by
    rw [ofCondition]
    split <;> rfl

theorem constants_ofConditions : ∀ cs : List Condition, constantsAll (ofConditions cs) =
      ((Condition.comparisonsAll cs).flatMap Comparison.constants).map Literal.constant
  | [] => rfl
  | c :: cs => by
    rw [ofConditions, constantsAll, Condition.comparisonsAll, List.flatMap_append, List.map_append,
      constants_ofCondition c, constants_ofConditions cs]
    rfl

end

end Formula

/-! ## Rules of cells -/

namespace Clause

/-- The constants of a clause: only conditions have some. -/
def constants : Clause → List Literal
  | .condition _ c => c.constants
  | _ => []

theorem constants_formula (spell : QName → String) (k : Clause) :
    (k.formula spell).constants = k.constants.map Literal.constant := by
  cases k with
  | member number type => rfl
  | step number walked name => rfl
  | property number name => rfl
  | condition number c => exact Formula.constants_ofCondition c

/-- **A body has the constants of its clauses**: what is left out is not a condition. -/
theorem constantsAll_layAll (spell : QName → String) (ks : List Clause) :
    Formula.constantsAll (layAll spell [] ks) = (ks.flatMap constants).map Literal.constant := by
  induction ks using List.reverseRecOn with
  | nil => rfl
  | append_singleton ks k ih =>
    rw [layAll_concat, lay, List.flatMap_append, List.map_append, List.flatMap_singleton]
    split
    · rename_i hthere
      rw [Bool.and_eq_true] at hthere
      have hnone : k.constants = [] := by
        cases k with
        | property _ _ => rfl
        | member _ _ => cases hthere.1
        | step _ _ _ => cases hthere.1
        | condition _ _ => cases hthere.1
      rw [ih, hnone, List.map_nil, List.append_nil]
    · rw [Formula.constantsAll_append, ih, Formula.constantsAll, Formula.constantsAll, List.append_nil,
        constants_formula]

theorem constants_ofCondition? (number : Nat) (c? : Option Condition) :
    (ofCondition? number c?).flatMap constants = c?.toList.flatMap Condition.constants := by
  cases c? with
  | none => rfl
  | some c =>
    have hproperties : (c.properties.map (property number)).flatMap constants = [] := by
      rw [List.flatMap_map]
      exact List.flatMap_eq_nil_iff.2 fun _ _ => rfl
    rw [ofCondition?, List.flatMap_append, hproperties]
    rfl

theorem constants_ofSteps (number : Nat) (steps : List PathStep) : ∀ walked : List QName,
    (ofSteps number walked steps).flatMap constants =
      (steps.filterMap PathStep.condition).flatMap Condition.constants := by
  induction steps with
  | nil => exact fun _ => rfl
  | cons s steps ih =>
    intro walked
    rw [ofSteps, List.flatMap_cons, List.flatMap_append, constants_ofCondition?, ih]
    cases hs : s.condition with
    | none => simp [constants, hs]
    | some c => simp [constants, hs]

/-- **Sources have the constants of their conditions**, those of the steps first. -/
theorem constants_ofSources (es : List Entity) : ∀ number : Nat, (ofSources number es).flatMap constants =
    (es.flatMap (fun e => e.stepConditions ++ e.condition.toList)).flatMap Condition.constants := by
  induction es with
  | nil => exact fun _ => rfl
  | cons e es ih =>
    intro number
    rw [ofSources, List.flatMap_append, List.flatMap_cons, List.flatMap_append, constants_ofSteps,
      constants_ofCondition?, ih, List.flatMap_cons, List.flatMap_append, List.flatMap_append]
    rfl

end Clause

namespace Cell

/-- The literals in the head of a rule: for a property, the literals among the parameters. -/
def headConstants (c : Cell) : List Literal :=
  match c.target with
  | [] => []
  | e :: _ => if e.isType then [] else c.parameters.literals

/-- The conditions on the sources of a cell, source by source: those on the steps, and then the own one. -/
def sourceConditions (c : Cell) : List Condition :=
  c.source.flatMap (fun e => e.stepConditions ++ e.condition.toList)

/-- **The constants of a cell**: those of the head of its rule, and those of the conditions on its sources. -/
def constants (c : Cell) : List Literal := c.headConstants ++ c.sourceConditions.flatMap Condition.constants

/-- **The rule of a cell has the constants of the cell**, however its names are spelled. -/
theorem constants_ruleIn (spell : QName → String) (c : Cell) :
    (c.ruleIn spell).constants = c.constants.map Literal.constant := by
  have hhead : (c.headIn spell).constants = c.headConstants.map Literal.constant := by
    unfold headIn headConstants
    cases c.target with
    | nil => rfl
    | cons e rest =>
      simp only
      split
      · rfl
      · have harguments := Term.constantsAll_append ((Referent.ofSources 0 c.source).map Referent.term)
          (c.parameters.literals.map Literal.toTerm)
        rw [Term.constantsAll_referents, Term.constantsAll_literals, List.nil_append] at harguments
        exact harguments
  have hbody := Clause.constantsAll_layAll spell c.clauses
  rw [clauses, Clause.constants_ofSources] at hbody
  rw [constants, List.map_append, ← hhead, sourceConditions, ← hbody]
  rfl

end Cell

/-! ## Documents -/

/-- **Constants in documents of rules.** There is one rule for each cell, and the constants in its text are those of
the cell, one by one: the literals among the parameters, for a property, and the constants of all comparisons in the
conditions on the sources. In the text of a rule each constant stands in quotes, and is read back there. In the text of
the document the same place has the constant set in, and that is read there: it is the same text just when the
constant has no line feed. -/
theorem Alignment.constants_set_in (config : Config) (a : Alignment) :
    List.Forall₂ (fun c rule => rule.occurrences.map Occurrence.constant = c.constants.map Literal.constant) a.cells
      (a.toRules config).rules ∧
    ∀ before rule after, (a.toRules config).rules = before ++ rule :: after → ∀ o ∈ rule.occurrences,
      rule.render = o.text ∧ o.read? = some o.lexical ∧
      ∃ o' : Occurrence, o' = o.setIn.within ((a.toRules config).opening before) (RuleDocument.closing after) ∧
        (a.toRules config).render = o'.text ∧ o'.read? = some (Text.setIn o.lexical) ∧
        (o'.read? = some o.lexical ↔ '\n' ∉ o.lexical.toList) := by
  obtain ⟨hlast, -, hrules⟩ := Cell.rulesFrom_written a.cells _ (Draft.table_standard config)
  have hconstants : List.Forall₂
      (fun c rule => rule.occurrences.map Occurrence.constant = c.constants.map Literal.constant) a.cells
      (a.toRules config).rules := by
    refine (hrules _ hlast.toOneToOne (List.Subset.refl _)).imp fun c rule h => ?_
    rw [h.2, Rule.constant_occurrences, Cell.constants_ruleIn]
  refine ⟨hconstants, fun before rule after hsplit o ho => ?_⟩
  -- the constant is that of a literal of the cell
  have hrest := List.forall₂_drop_append a.cells before (rule :: after) (hsplit ▸ hconstants)
  obtain ⟨c, -, hc, -, -⟩ := List.forall₂_cons_right_iff.1 hrest
  obtain ⟨l, -, hl⟩ := List.mem_map.1 (hc ▸ List.mem_map_of_mem ho)
  refine ⟨(rule.shows_occurrences o ho).symm, o.read?_eq, _, rfl,
    RuleDocument.render_occurrence hsplit ho (Occurrence.plain_of_literal hl.symm), Occurrence.read?_eq _, ?_⟩
  rw [Occurrence.read?_eq, Option.some.injEq]
  exact Text.setIn_eq_self_iff o.lexical

/-! ## Signs with a line break -/

namespace Signs

/-- A cell that puts a text on signs. -/
def text (id value : String) : Cell :=
  ⟨id, "assign", [.ofType ⟨"SignRow"⟩], [⟨none, ⟨"Sign"⟩, [⟨⟨"text"⟩, none, none⟩], none⟩],
    ⟨[("value", [.literal (.text value)])]⟩⟩

/-- Signs with a text. -/
def signs (value : String) : Alignment := ⟨none, [text "text" value]⟩

/-- The rule of signs with a text. -/
def rule (value : String) : Rule := ((text "text" value).toRule .standard).1

/-- Where the text occurs in the rule. -/
def occurrence (value : String) : Occurrence :=
  ⟨"(* \"text\" *)\nForall ?s0 ?t (\n  ?t[_text -> External(func:assign(?s0 ", value, none,
    "))] :- And(?s0 # _SignRow)\n)"⟩

/-- A text with quotes. -/
def stop : String := "say \"stop\""

/-- A text on two lines. -/
def twoLines : String := "a\nb"

/-- **Quotes are read back** from the document. -/
theorem stop_read : ((signs stop).toRules .standard).rules = [] ++ rule stop :: [] ∧
    occurrence stop ∈ (rule stop).occurrences ∧
    ∃ o : Occurrence, ((signs stop).toRules .standard).render = o.text ∧ o.read? = some stop := by
  have hrules : ((signs stop).toRules .standard).rules = [] ++ rule stop :: [] := rfl
  have hmem : occurrence stop ∈ (rule stop).occurrences := by decide +kernel
  obtain ⟨-, -, o, -, hrender, -, hread⟩ := (Alignment.constants_set_in .standard (signs stop)).2 [] (rule stop) []
    hrules (occurrence stop) hmem
  exact ⟨hrules, hmem, o, hrender, hread.2 (by decide)⟩

/-- **A second line is not read back.** In the text of the rule the constant stands in quotes as it is, and is read
back there; in the document another text stands at its place. -/
theorem twoLines_set_in : ((signs twoLines).toRules .standard).rules = [] ++ rule twoLines :: [] ∧
    occurrence twoLines ∈ (rule twoLines).occurrences ∧ (occurrence twoLines).constant = (Literal.text twoLines).constant ∧
    (occurrence twoLines).read? = some twoLines ∧
    ∃ o : Occurrence, o = (occurrence twoLines).setIn.within (((signs twoLines).toRules .standard).opening [])
        (RuleDocument.closing []) ∧
      ((signs twoLines).toRules .standard).render = o.text ∧ o.read? = some "a\n    b" ∧ "a\n    b" ≠ twoLines := by
  have hrules : ((signs twoLines).toRules .standard).rules = [] ++ rule twoLines :: [] := rfl
  have hmem : occurrence twoLines ∈ (rule twoLines).occurrences := by decide +kernel
  have hset : Text.setIn twoLines = "a\n    b" := by decide
  have hconstant : (occurrence twoLines).constant = (Literal.text twoLines).constant := rfl
  refine ⟨hrules, hmem, hconstant, Occurrence.read?_eq _, _, rfl, ?_, ?_, by decide⟩
  · exact RuleDocument.render_occurrence hrules hmem (Occurrence.plain_of_literal hconstant)
  · rw [Occurrence.read?_eq, ← hset]
    rfl

end Signs

end FeatureAlignment
