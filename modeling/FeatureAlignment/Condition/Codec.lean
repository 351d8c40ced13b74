import FeatureAlignment.Condition.Basic

/-!
# Conditions in documents

A condition is written as a record with exactly one of the fields `logical`,
`comparison` and `literal`.

* `Condition.toData` writes a condition, `Condition.ofData?` reads one.
-/

namespace FeatureAlignment

namespace Data

mutual

/-- The height of a tree: how deep lists and records nest in it. -/
def height : Data → Nat
  | .list items => heightItems items + 1
  | .record fields => heightFields fields + 1
  | .written _ _ value => value.height + 1
  | .sequence items => heightItems items + 1
  | .tagged _ value => value.height + 1
  | _ => 0

/-- The greatest height among the items. -/
def heightItems : List Data → Nat
  | [] => 0
  | d :: ds => max d.height (heightItems ds)

/-- The greatest height among the fields. -/
def heightFields : List (Data × Data) → Nat
  | [] => 0
  | (k, v) :: rest => max (max k.height v.height) (heightFields rest)

end

end Data

/-- The connectives by name. -/
def Connective.variants : List (Connective × List String) :=
  [(.and, ["and"]), (.or, ["or"]), (.not, ["not"])]

/-- The name of a connective in documents. -/
def Connective.name : Connective → String
  | .and => "and"
  | .or => "or"
  | .not => "not"

/-- The comparison operators by name, with their short names. -/
def ComparisonOp.variants : List (ComparisonOp × List String) :=
  [(.equal, ["equal", "==", "eq"]), (.notEqual, ["not_equal", "!=", "ne"]),
    (.lessThan, ["less_than", "<", "lt"]), (.lessOrEqual, ["less_or_equal", "<=", "le"]),
    (.greaterThan, ["greater_than", ">", "gt"]), (.greaterOrEqual, ["greater_or_equal", ">=", "ge"]),
    (.contains, ["contains"])]

/-- The name of a comparison operator in documents. -/
def ComparisonOp.name : ComparisonOp → String
  | .equal => "equal"
  | .notEqual => "not_equal"
  | .lessThan => "less_than"
  | .lessOrEqual => "less_or_equal"
  | .greaterThan => "greater_than"
  | .greaterOrEqual => "greater_or_equal"
  | .contains => "contains"

namespace Operand

/-- An operand from a document: a record with one of two fields. -/
def ofData? (d : Data) : Option Operand := do
  match ← d.fields? true ["property", "literal"] with
  | [name, value] =>
    let name ← Data.defaulted? none (Data.optional? Data.text?) name
    let value ← Data.defaulted? none (Data.optional? Literal.ofData?) value
    match name, value with
    | some name, none => some (.property name)
    | none, some l => some (.literal l)
    | _, _ => none
  | _ => none

/-- An operand in a document. -/
def toData : Operand → Data
  | .property name => .object [("property", .text name)]
  | .literal l => .object [("literal", l.toData)]

end Operand

namespace Comparison

/-- A comparison from a document. -/
def ofData? (d : Data) : Option Comparison := do
  match ← d.fields? true ["left", "op", "right", "negated"] with
  | [left, op, right, negated] =>
    let left ← Data.required? Operand.ofData? left
    let op ← Data.required? (Data.variant? ComparisonOp.variants) op
    let right ← Data.required? Operand.ofData? right
    let negated ← Data.defaulted? false Data.flag? negated
    some ⟨left, op, right, negated⟩
  | _ => none

/-- A comparison in a document. -/
def toData (c : Comparison) : Data :=
  .object ([("left", c.left.toData), ("op", .text c.op.name), ("right", c.right.toData)] ++
    (if c.negated then [("negated", .flag true)] else []))

end Comparison

namespace Condition

/-- The connective of a logical condition and its children, read by `child?`. -/
def logical? (child? : Data → Option Condition) (d : Data) : Option Condition := do
  match ← d.fields? true ["op", "children"] with
  | [op, children] =>
    let op ← Data.required? (Data.variant? Connective.variants) op
    let children ← Data.required? (Data.list? child?) children
    some (.logical op children)
  | _ => none

/-- A condition from a document whose conditions nest less deep than the number. -/
def ofDataWithin? : Nat → Data → Option Condition
  | 0, _ => none
  | depth + 1, d => do
    match ← d.fields? true ["logical", "comparison", "literal"] with
    | [tree, leaf, value] =>
      let tree ← Data.defaulted? none (Data.optional? (logical? (ofDataWithin? depth))) tree
      let leaf ← Data.defaulted? none (Data.optional? Comparison.ofData?) leaf
      let value ← Data.defaulted? none (Data.optional? Literal.ofData?) value
      match tree, leaf, value with
      | some c, none, none => some c
      | none, some c, none => some (.comparison c)
      | none, none, some l => some (.literal l)
      | _, _, _ => none
    | _ => none

/-- **A condition from a document.** -/
def ofData? (d : Data) : Option Condition := ofDataWithin? (d.height + 1) d

mutual

/-- **A condition in a document.** -/
def toData : Condition → Data
  | .logical op children =>
    .object [("logical", .object [("op", .text op.name), ("children", .list (toDatas children))])]
  | .comparison c => .object [("comparison", c.toData)]
  | .literal l => .object [("literal", l.toData)]

/-- Several conditions in a document. -/
def toDatas : List Condition → List Data
  | [] => []
  | c :: cs => c.toData :: toDatas cs

end

end Condition

end FeatureAlignment
