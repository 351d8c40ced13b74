import FeatureAlignment.Proofs.Literal

/-!
# Values of expressions

What an expression is worth in a record. A record has a value for each property; literals are worth themselves.
Read are the functions that expressions of cells are built with: concatenation, the conditional, membership and
recoding. Nothing is said of other calls and of verbatim text, which have no value here.

* `Expr.Value`: values; `Expr.Value.same`: when a literal equals another one.
* `Expr.value`: the value of an expression in a record, with an equation for each form.
-/

namespace FeatureAlignment

namespace Expr

/-- **A value**: none, a truth value, or a literal. -/
inductive Value
  | none
  | truth (holds : Bool)
  | literal (l : Literal)

namespace Value

/-- A text as a value. -/
def text (s : String) : Value := .literal (.text s)

/-- **Equality of literals.** Literals of different kinds are never equal, and what is no literal equals nothing. -/
def same : Value → Value → Bool
  | .literal k, .literal l => k == l
  | _, _ => false

/-- **Concatenation** of texts. -/
def concat : Value → Value → Value
  | .literal (.text s), .literal (.text t) => text (s ++ t)
  | _, _ => .none

/-- **The conditional.** -/
def choose : Value → Value → Value → Value
  | .truth holds, value, otherwise => if holds then value else otherwise
  | _, _, _ => .none

/-- **Recoding**: of keys and values in turn, the value behind the first key that is equal. -/
def recode (v : Value) : List Value → Value
  | key :: value :: rest => if v.same key then value else v.recode rest
  | _ => .none

/-- **The value of a call** with these arguments. -/
def call : String → List Value → Value
  | "strConcat", [left, right] => left.concat right
  | "if_then_else", [condition, value, otherwise] => condition.choose value otherwise
  | "in", v :: candidates => .truth (candidates.any v.same)
  | "Recode", v :: pairs => v.recode pairs
  | _, _ => .none

end Value

mutual

/-- **The value of an expression** in a record. -/
def value (record : String → Value) : Expr → Value
  | .property name => record name
  | .text s => .text s
  | .number digits => .literal (.ofText digits)
  | .raw _ => .none
  | .nil => .none
  | .call name _ arguments => .call name (values record arguments)

/-- The values of several expressions. -/
def values (record : String → Value) : List Expr → List Value
  | [] => []
  | e :: es => e.value record :: values record es

end

variable {record : String → Value}

theorem values_eq_map (es : List Expr) : values record es = es.map (value record) := by
  induction es with
  | nil => rfl
  | cons e es ih => rw [values, ih, List.map_cons]

theorem value_concat (left right : Expr) :
    (concat left right).value record = (left.value record).concat (right.value record) := rfl

theorem value_ifThenElse (condition value otherwise : Expr) : (ifThenElse condition value otherwise).value record =
    (condition.value record).choose (value.value record) (otherwise.value record) := rfl

theorem value_isIn (e : Expr) (candidates : List Expr) : (isIn e candidates).value record =
    .truth (candidates.any fun k => (e.value record).same (k.value record)) := by
  show Value.truth ((values record candidates).any (e.value record).same) = _
  rw [values_eq_map, List.any_map]
  rfl

/-- **Recoding is looking up**: the value paired with the first equal key. -/
theorem value_recode (e : Expr) (pairs : List (Expr × Expr)) : (recode e pairs).value record =
    ((pairs.find? fun p => (e.value record).same (p.1.value record)).map fun p => p.2.value record).getD .none := by
  show (e.value record).recode (values record (pairs.flatMap fun p => [p.1, p.2])) = _
  rw [values_eq_map]
  induction pairs with
  | nil => rfl
  | cons p pairs ih =>
    show (if (e.value record).same (p.1.value record) then p.2.value record else _) = _
    rw [List.find?_cons]
    cases (e.value record).same (p.1.value record) with
    | true => rfl
    | false => exact ih

end Expr

end FeatureAlignment
