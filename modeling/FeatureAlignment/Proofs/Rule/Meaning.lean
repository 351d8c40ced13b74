import FeatureAlignment.Proofs.Condition.Check
import FeatureAlignment.Rule.Condition

/-!
# Conditions and their formulas mean the same

A condition speaks of the values of properties, its formula of the values of variables. A comparison with a
number among its operands compares numbers, any other compares texts. The format has predicates for the
first, but for the second it only has a function whose value is -1, 0 or 1.

* `Condition.Holds`: when a condition is true of values of its properties.
* `Formula.Holds`: when a formula is true under an interpretation and values of its variables.
* `Interpretation.Standard`: the functions, predicates and constants of the format mean what they should.
* `Condition.formula_faithful`: under such an interpretation, a condition that passes its check and its
  formula are true together.
-/

namespace FeatureAlignment

variable {V : Type}

/-! ## Conditions -/

/-- **What can be said of values**: which value a literal is, how two values compare as texts and as
numbers (not at all, if one of them is no number), and which contains which. -/
structure Domain (V : Type) where
  literal : Literal → V
  texts : V → V → Ordering
  numbers : V → V → Option Ordering
  contains : V → V → Prop

/-- The orders for which a comparison operator is true. Containment is no matter of order. -/
def ComparisonOp.Accepts (order : Option Ordering) : ComparisonOp → Prop
  | .equal => order = some .eq
  | .notEqual => order ≠ some .eq
  | .lessThan => order = some .lt
  | .lessOrEqual => order = some .lt ∨ order = some .eq
  | .greaterThan => order = some .gt
  | .greaterOrEqual => order = some .gt ∨ order = some .eq
  | .contains => False

namespace Operand

/-- The value of an operand. -/
def value (D : Domain V) (ρ : String → V) : Operand → V
  | .property name => ρ name
  | .literal l => D.literal l

/-- Whether an operand is a literal number. -/
def isNumber : Operand → Bool
  | .literal (.integer _) => true
  | .literal (.double _) => true
  | _ => false

end Operand

/-- **When a comparison is true**: numbers are compared if an operand is a literal number, and else texts. -/
def Comparison.Holds (D : Domain V) (ρ : String → V) (c : Comparison) : Prop :=
  let left := c.left.value D ρ
  let right := c.right.value D ρ
  let positive : Prop :=
    if c.op = .contains then D.contains left right
    else if c.left.isNumber || c.right.isNumber then c.op.Accepts (D.numbers left right)
    else c.op.Accepts (some (D.texts left right))
  if c.negated then ¬ positive else positive

/-- **The literals that are false**: zero, the empty text, and `false` in any casing. -/
inductive Literal.Falsy : Literal → Prop
  | integer : Falsy (.integer 0)
  | double {negative : Bool} {exponent : Int} : Falsy (.double (.finite negative 0 exponent))
  | empty : Falsy (.text "")
  | casing {s : String} : s.toList.map Char.toLower = "false".toList → Falsy (.text s)

namespace Condition

mutual

/-- **When a condition is true.** A negation has one child if it passes its check. -/
def Holds (D : Domain V) (ρ : String → V) : Condition → Prop
  | .logical .and children => AllHold D ρ children
  | .logical .or children => AnyHolds D ρ children
  | .logical .not children => ¬ AllHold D ρ children
  | .comparison c => c.Holds D ρ
  | .literal l => ¬ l.Falsy

/-- All conditions are true. -/
def AllHold (D : Domain V) (ρ : String → V) : List Condition → Prop
  | [] => True
  | c :: cs => c.Holds D ρ ∧ AllHold D ρ cs

/-- Some condition is true. -/
def AnyHolds (D : Domain V) (ρ : String → V) : List Condition → Prop
  | [] => False
  | c :: cs => c.Holds D ρ ∨ AnyHolds D ρ cs

end

end Condition

/-! ## Formulas -/

/-- **An interpretation** of formulas: the values of constants, symbols and calls, the predicates, and
which objects are members of a class and have a value in a slot. -/
structure Interpretation (V : Type) where
  constant : String → Option String → V
  symbol : String → V
  function : String → List V → V
  predicate : String → List V → Prop
  member : V → V → Prop
  slot : V → V → V → Prop

namespace Term

mutual

/-- **The value of a term.** -/
def value (I : Interpretation V) (σ : String → V) : Term → V
  | .variable name => σ name
  | .constant lexical datatype => I.constant lexical datatype
  | .symbol name => I.symbol name
  | .call function arguments => I.function function (values I σ arguments)

/-- The values of terms. -/
def values (I : Interpretation V) (σ : String → V) : List Term → List V
  | [] => []
  | t :: ts => t.value I σ :: values I σ ts

end

end Term

namespace Formula

mutual

/-- **When a formula is true.** -/
def Holds (I : Interpretation V) (σ : String → V) : Formula → Prop
  | .all parts => AllHold I σ parts
  | .any parts => AnyHolds I σ parts
  | .not part => ¬ part.Holds I σ
  | .equal left right => left.value I σ = right.value I σ
  | .test predicate arguments => I.predicate predicate (Term.values I σ arguments)
  | .member object kind => I.member (object.value I σ) (kind.value I σ)
  | .frame object slot value => I.slot (object.value I σ) (slot.value I σ) (value.value I σ)

/-- All formulas are true. -/
def AllHold (I : Interpretation V) (σ : String → V) : List Formula → Prop
  | [] => True
  | f :: fs => f.Holds I σ ∧ AllHold I σ fs

/-- Some formula is true. -/
def AnyHolds (I : Interpretation V) (σ : String → V) : List Formula → Prop
  | [] => False
  | f :: fs => f.Holds I σ ∨ AnyHolds I σ fs

end

end Formula

/-- The number by which the format tells an order. -/
def orderNumber : Ordering → Int64
  | .lt => -1
  | .eq => 0
  | .gt => 1

/-- **A standard interpretation**: constants are the literals whose text they have, texts are compared by
a function whose value is one of three distinct numbers, and predicates compare numbers and tell what is
contained. -/
structure Interpretation.Standard (I : Interpretation V) (D : Domain V) : Prop where
  text : ∀ s, I.constant s none = D.literal (.text s)
  integer : ∀ i : Int64, I.constant (Text.integer i.toInt) (some "xs:integer") = D.literal (.integer i)
  double : ∀ d : Double, d.isFinite = true → I.constant d.display (some "xs:double") = D.literal (.double d)
  order_inj : ∀ o o', D.literal (.integer (orderNumber o)) = D.literal (.integer (orderNumber o')) → o = o'
  compare : ∀ a b, I.function "func:compare" [a, b] = D.literal (.integer (orderNumber (D.texts a b)))
  numericEqual : ∀ a b, I.predicate "pred:numeric-equal" [a, b] ↔ ComparisonOp.equal.Accepts (D.numbers a b)
  numericNotEqual : ∀ a b,
    I.predicate "pred:numeric-not-equal" [a, b] ↔ ComparisonOp.notEqual.Accepts (D.numbers a b)
  numericLess : ∀ a b,
    I.predicate "pred:numeric-less-than" [a, b] ↔ ComparisonOp.lessThan.Accepts (D.numbers a b)
  numericLessOrEqual : ∀ a b,
    I.predicate "pred:numeric-less-than-or-equal" [a, b] ↔ ComparisonOp.lessOrEqual.Accepts (D.numbers a b)
  numericGreater : ∀ a b,
    I.predicate "pred:numeric-greater-than" [a, b] ↔ ComparisonOp.greaterThan.Accepts (D.numbers a b)
  numericGreaterOrEqual : ∀ a b,
    I.predicate "pred:numeric-greater-than-or-equal" [a, b] ↔
      ComparisonOp.greaterOrEqual.Accepts (D.numbers a b)
  contains : ∀ a b, I.predicate "pred:contains" [a, b] ↔ D.contains a b

/-! ## Literals -/

theorem Text.sameAsciiList_iff (cs ds : List Char) :
    sameAsciiList cs ds = true ↔ cs.map Char.toLower = ds.map Char.toLower := by
  induction cs generalizing ds with
  | nil => cases ds <;> simp [sameAsciiList]
  | cons c cs ih => cases ds <;> simp [sameAsciiList, ih]

/-- **A literal counts as false if it is one of the false ones.** -/
theorem Literal.isFalse_iff (l : Literal) : l.isFalse = true ↔ l.Falsy := by
  constructor
  · intro h
    match l with
    | .integer i =>
      rw [show i = 0 from by simpa [isFalse] using h]
      exact .integer
    | .double (.finite negative m e) =>
      rw [show m = 0 from by simpa [isFalse, Double.isZero] using h]
      exact .double
    | .double .nan => cases h
    | .double (.infinite _) => cases h
    | .text s =>
      rw [isFalse, Bool.or_eq_true] at h
      rcases h with h | h
      · rw [String.isEmpty_iff.1 h]
        exact .empty
      · exact .casing (((Text.sameAsciiList_iff _ _).1 h).trans (by decide))
  · intro h
    cases h with
    | integer => rfl
    | double => rfl
    | empty => rfl
    | casing h =>
      rw [isFalse, Bool.or_eq_true]
      exact .inr ((Text.sameAsciiList_iff _ _).2 (h.trans (by decide)))

/-! ## Comparisons -/

variable {D : Domain V} {I : Interpretation V} {ρ σ : String → V}

/-- A finite literal has the value of its constant. -/
theorem Literal.value_toTerm (hI : I.Standard D) {l : Literal} (hl : l.isFinite = true) :
    l.toTerm.value I σ = D.literal l := by
  cases l with
  | integer i => exact hI.integer i
  | double d => exact hI.double d hl
  | text s => exact hI.text s

/-- An operand has the value of its term. -/
theorem Operand.value_toTerm (hI : I.Standard D) {o : Operand} (hfinite : ∀ l ∈ o.literal?, l.isFinite = true)
    (hvalues : ∀ p ∈ o.property?, σ (variableName p) = ρ p) : o.toTerm.value I σ = o.value D ρ := by
  cases o with
  | property name => exact hvalues name rfl
  | literal l => exact Literal.value_toTerm hI (hfinite l rfl)

/-- **Three numbers tell the order of texts.** -/
theorem Formula.holds_compares (hI : I.Standard D) (left right : Term) (o : Ordering) :
    (compares left right (orderNumber o)).Holds I σ ↔ D.texts (left.value I σ) (right.value I σ) = o := by
  show I.function "func:compare" [_, _] = (Literal.integer (orderNumber o)).toTerm.value I σ ↔ _
  rw [hI.compare, Literal.value_toTerm hI rfl]
  exact ⟨fun h => hI.order_inj _ _ h, fun h => by rw [h]⟩

/-- **A comparison of texts**, through the order of the texts. -/
theorem Formula.holds_ofTexts (hI : I.Standard D) {op : ComparisonOp} (hop : op ≠ .contains) (left right : Term) :
    (ofTexts op left right).Holds I σ ↔ op.Accepts (some (D.texts (left.value I σ) (right.value I σ))) := by
  have hless := holds_compares (σ := σ) hI left right .lt
  have hequal := holds_compares (σ := σ) hI left right .eq
  have hgreater := holds_compares (σ := σ) hI left right .gt
  simp only [orderNumber] at hless hequal hgreater
  -- the order is one of three, so what is not greater is less or equal
  cases op with
  | equal => simp [ofTexts, ComparisonOp.Accepts, hequal]
  | notEqual => simp [ofTexts, Holds, ComparisonOp.Accepts, hequal]
  | lessThan => simp [ofTexts, ComparisonOp.Accepts, hless]
  | greaterThan => simp [ofTexts, ComparisonOp.Accepts, hgreater]
  | lessOrEqual =>
    rw [ofTexts, Holds, hgreater]
    cases D.texts (left.value I σ) (right.value I σ) <;> simp [ComparisonOp.Accepts]
  | greaterOrEqual =>
    rw [ofTexts, Holds, hless]
    cases D.texts (left.value I σ) (right.value I σ) <;> simp [ComparisonOp.Accepts]
  | contains => exact absurd rfl hop

/-- **A comparison of numbers**, by the predicate of its operator. -/
theorem Formula.holds_numeric (hI : I.Standard D) {op : ComparisonOp} (hop : op ≠ .contains) (left right : Term) :
    (predicate (numericName op) [left, right]).Holds I σ ↔
      op.Accepts (D.numbers (left.value I σ) (right.value I σ)) := by
  cases op with
  | equal => exact hI.numericEqual _ _
  | notEqual => exact hI.numericNotEqual _ _
  | lessThan => exact hI.numericLess _ _
  | lessOrEqual => exact hI.numericLessOrEqual _ _
  | greaterThan => exact hI.numericGreater _ _
  | greaterOrEqual => exact hI.numericGreaterOrEqual _ _
  | contains => exact absurd rfl hop

theorem Comparison.any_isNumeric (c : Comparison) :
    c.literals.any Literal.isNumeric = (c.left.isNumber || c.right.isNumber) := by
  rcases c with ⟨left, op, right, negated⟩
  rcases left with p | (_ | _ | _) <;> rcases right with q | (_ | _ | _) <;> rfl

/-- A comparison that passes its check has finite literals. -/
theorem Condition.checkComparison_finite {c : Comparison} (hc : checkComparison c = .ok ()) :
    ∀ l ∈ c.literals, l.isFinite = true := by
  unfold checkComparison at hc
  split at hc
  · cases hc
  · rename_i hnone
    intro l hl
    simpa using List.find?_eq_none.1 hnone l hl

/-- **A comparison and its formula are true together.** -/
theorem Formula.holds_ofComparison (hI : I.Standard D) {c : Comparison}
    (hc : Condition.checkComparison c = .ok ()) (hvalues : ∀ p ∈ c.properties, σ (variableName p) = ρ p) :
    (ofComparison c).Holds I σ ↔ c.Holds D ρ := by
  have hfinite := Condition.checkComparison_finite hc
  have hleft : c.left.toTerm.value I σ = c.left.value D ρ :=
    Operand.value_toTerm hI (fun l hl => hfinite l (List.mem_filterMap.2 ⟨c.left, by simp, hl⟩))
      (fun p hp => hvalues p (List.mem_filterMap.2 ⟨c.left, by simp, hp⟩))
  have hright : c.right.toTerm.value I σ = c.right.value D ρ :=
    Operand.value_toTerm hI (fun l hl => hfinite l (List.mem_filterMap.2 ⟨c.right, by simp, hl⟩))
      (fun p hp => hvalues p (List.mem_filterMap.2 ⟨c.right, by simp, hp⟩))
  unfold ofComparison Comparison.Holds
  simp only [c.any_isNumeric, ← hleft, ← hright]
  have hpositive :
      (if c.op ≠ .contains ∧ (c.left.isNumber || c.right.isNumber) = true
          then predicate (numericName c.op) [c.left.toTerm, c.right.toTerm]
          else ofTexts c.op c.left.toTerm c.right.toTerm).Holds I σ ↔
        if c.op = .contains then D.contains (c.left.toTerm.value I σ) (c.right.toTerm.value I σ)
        else if (c.left.isNumber || c.right.isNumber) = true
          then c.op.Accepts (D.numbers (c.left.toTerm.value I σ) (c.right.toTerm.value I σ))
          else c.op.Accepts (some (D.texts (c.left.toTerm.value I σ) (c.right.toTerm.value I σ))) := by
    by_cases hop : c.op = .contains
    · rw [if_neg (fun h => h.1 hop), if_pos hop, hop]
      exact hI.contains _ _
    · rw [if_neg hop]
      by_cases hnumber : (c.left.isNumber || c.right.isNumber) = true
      · rw [if_pos ⟨hop, hnumber⟩, if_pos hnumber]
        exact holds_numeric hI hop _ _
      · rw [if_neg (fun h => hnumber h.2), if_neg hnumber]
        exact holds_ofTexts hI hop _ _
  cases c.negated with
  | false => exact hpositive
  | true => exact not_congr hpositive

/-! ## Trees -/

namespace Formula

mutual

/-- **A condition and its formula are true together**, if the variables have the values of the properties. -/
theorem holds_ofCondition (hI : I.Standard D) : ∀ c : Condition, c.check = .ok () →
    (∀ p ∈ c.occurrences, σ (variableName p) = ρ p) → ((ofCondition c).Holds I σ ↔ c.Holds D ρ)
  | .logical .and children, hc, hvalues =>
    allHold_ofConditions hI children (Condition.check_logical hc).1 hvalues
  | .logical .or children, hc, hvalues =>
    anyHolds_ofConditions hI children (Condition.check_logical hc).1 hvalues
  | .logical .not children, hc, hvalues => by
    obtain ⟨hchildren, hone⟩ := Condition.check_logical hc
    have hall := allHold_ofConditions hI children hchildren hvalues
    obtain ⟨child, rfl⟩ := hone rfl
    simp only [ofConditions, AllHold, Condition.AllHold, and_true] at hall
    show ¬ (ofCondition child).Holds I σ ↔ ¬ Condition.AllHold D ρ [child]
    simp only [Condition.AllHold, and_true]
    exact not_congr hall
  | .comparison c, hc, hvalues => holds_ofComparison hI hc hvalues
  | .literal l, _, _ => by
    rw [ofCondition, Condition.Holds, ← Literal.isFalse_iff]
    cases l.isFalse <;> simp [Holds, AllHold, AnyHolds]

theorem allHold_ofConditions (hI : I.Standard D) : ∀ cs : List Condition, Condition.checkAll cs = .ok () →
    (∀ p ∈ Condition.occurrencesAll cs, σ (variableName p) = ρ p) →
    (AllHold I σ (ofConditions cs) ↔ Condition.AllHold D ρ cs)
  | [], _, _ => Iff.rfl
  | c :: cs, hc, hvalues => by
    obtain ⟨hhead, htail⟩ := Condition.checkAll_cons hc
    exact and_congr (holds_ofCondition hI c hhead fun p hp => hvalues p (List.mem_append_left _ hp))
      (allHold_ofConditions hI cs htail fun p hp => hvalues p (List.mem_append_right _ hp))

theorem anyHolds_ofConditions (hI : I.Standard D) : ∀ cs : List Condition, Condition.checkAll cs = .ok () →
    (∀ p ∈ Condition.occurrencesAll cs, σ (variableName p) = ρ p) →
    (AnyHolds I σ (ofConditions cs) ↔ Condition.AnyHolds D ρ cs)
  | [], _, _ => Iff.rfl
  | c :: cs, hc, hvalues => by
    obtain ⟨hhead, htail⟩ := Condition.checkAll_cons hc
    exact or_congr (holds_ofCondition hI c hhead fun p hp => hvalues p (List.mem_append_left _ hp))
      (anyHolds_ofConditions hI cs htail fun p hp => hvalues p (List.mem_append_right _ hp))

end

end Formula

/-- **The variables have the values of the properties** that a condition reads. -/
def Condition.Valued (c : Condition) (ρ σ : String → V) : Prop :=
  ∀ p ∈ c.properties, σ (variableName p) = ρ p

/-- Properties with different variables can have any values. -/
theorem Condition.exists_valued {c : Condition}
    (hnames : ∀ p ∈ c.properties, ∀ q ∈ c.properties, variableName p = variableName q → p = q)
    (ρ : String → V) : ∃ σ, c.Valued ρ σ := by
  refine ⟨fun v => ρ ((c.properties.find? (fun p => variableName p == v)).getD ""), fun p hp => ?_⟩
  cases hf : c.properties.find? (fun q => variableName q == variableName p) with
  | none => exact absurd (List.find?_eq_none.1 hf p hp) (by simp)
  | some q =>
    have hq := List.find?_some hf
    have hmem := List.mem_of_find?_eq_some hf
    simp only [hf, Option.getD_some]
    rw [hnames q hmem p hp (by simpa using hq)]

/-- **Conditions keep their meaning as formulas.** Take a condition that passes its check and whose
properties have different variables, a standard interpretation, and any values of the properties. Then
variables can have these values, and whenever they do, the formula is true exactly if the condition is. -/
theorem Condition.formula_faithful (hI : I.Standard D) {c : Condition} (hc : c.check = .ok ())
    (hnames : ∀ p ∈ c.properties, ∀ q ∈ c.properties, variableName p = variableName q → p = q)
    (ρ : String → V) :
    (∃ σ, c.Valued ρ σ) ∧ ∀ σ, c.Valued ρ σ → ((Formula.ofCondition c).Holds I σ ↔ c.Holds D ρ) := by
  refine ⟨exists_valued hnames ρ, fun σ hσ => Formula.holds_ofCondition hI c hc fun p hp => hσ p ?_⟩
  rw [properties, List.mem_eraseDups]
  exact hp

namespace Roads

/-- Values as they are written, with their datatype: texts in the order of their characters, numbers if both
are integers. -/
def writtenValues : Domain (String × Option String) where
  literal l := (l.display, l.datatype?)
  texts a b := compare a.1 b.1
  numbers a b := do
    let i ← Literal.integer? a.1.toList
    let j ← Literal.integer? b.1.toList
    some (compare i.toInt j.toInt)
  contains a b := b.1.toList <:+: a.1.toList

/-- The format over values as they are written. -/
def written : Interpretation (String × Option String) where
  constant lexical datatype := (lexical, datatype)
  symbol name := (name, none)
  function name arguments :=
    match name, arguments with
    | "func:compare", [a, b] => writtenValues.literal (.integer (orderNumber (writtenValues.texts a b)))
    | _, _ => ("", none)
  predicate name arguments :=
    match name, arguments with
    | "pred:numeric-equal", [a, b] => ComparisonOp.equal.Accepts (writtenValues.numbers a b)
    | "pred:numeric-not-equal", [a, b] => ComparisonOp.notEqual.Accepts (writtenValues.numbers a b)
    | "pred:numeric-less-than", [a, b] => ComparisonOp.lessThan.Accepts (writtenValues.numbers a b)
    | "pred:numeric-less-than-or-equal", [a, b] => ComparisonOp.lessOrEqual.Accepts (writtenValues.numbers a b)
    | "pred:numeric-greater-than", [a, b] => ComparisonOp.greaterThan.Accepts (writtenValues.numbers a b)
    | "pred:numeric-greater-than-or-equal", [a, b] =>
      ComparisonOp.greaterOrEqual.Accepts (writtenValues.numbers a b)
    | "pred:contains", [a, b] => writtenValues.contains a b
    | _, _ => False
  member _ _ := False
  slot _ _ _ := False

theorem written_standard : written.Standard writtenValues where
  text _ := rfl
  integer _ := rfl
  double _ _ := rfl
  order_inj o o' := by cases o <;> cases o' <;> decide
  compare _ _ := rfl
  numericEqual _ _ := Iff.rfl
  numericNotEqual _ _ := Iff.rfl
  numericLess _ _ := Iff.rfl
  numericLessOrEqual _ _ := Iff.rfl
  numericGreater _ _ := Iff.rfl
  numericGreaterOrEqual _ _ := Iff.rfl
  contains _ _ := Iff.rfl

/-- At least two lanes, a name with `Street` in it, and a class that does not come before `m`. -/
def wide : Condition :=
  .logical .and [.compare (.property "lanes") .greaterOrEqual (.literal (.integer 2)),
    .compare (.property "name") .contains (.literal (.text "Street")),
    .comparison ⟨.property "class", .lessThan, .literal (.text "m"), true⟩,
    .logical .not [.literal (.text "False")]]

/-- A road of three lanes. -/
def threeLanes : String → String × Option String
  | "lanes" => ("3", some "xs:integer")
  | "name" => ("High Street", none)
  | _ => ("primary", none)

theorem three_lanes_wide :
    written.Standard writtenValues ∧ wide.check = .ok () ∧
      (∀ p ∈ wide.properties, ∀ q ∈ wide.properties, variableName p = variableName q → p = q) ∧
      wide.Holds writtenValues threeLanes ∧
      ∃ σ, wide.Valued threeLanes σ ∧ (Formula.ofCondition wide).Holds written σ := by
  have hnames : ∀ p ∈ wide.properties, ∀ q ∈ wide.properties, variableName p = variableName q → p = q := by
    decide
  have hlanes : writtenValues.numbers ("3", some "xs:integer") ("2", some "xs:integer") = some .gt := by decide
  have hclass : writtenValues.texts ("primary", none) ("m", none) = .gt := by decide
  have hwide : wide.Holds writtenValues threeLanes := by
    refine ⟨.inl hlanes, ⟨"High ".toList, [], by decide⟩, fun h => ?_, fun h => ?_, trivial⟩
    · exact absurd ((Option.some_inj.1 h).symm.trans hclass) (by decide)
    · exact h.1 (.casing (by decide))
  obtain ⟨⟨σ, hσ⟩, hmeans⟩ := Condition.formula_faithful written_standard (c := wide) rfl hnames threeLanes
  exact ⟨written_standard, rfl, hnames, hwide, σ, hσ, (hmeans σ hσ).2 hwide⟩

end Roads

end FeatureAlignment
