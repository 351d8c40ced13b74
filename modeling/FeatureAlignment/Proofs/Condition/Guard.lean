import FeatureAlignment.Proofs.Condition.Check

/-!
# Conditions as guards

A condition is written as an expression, in which connectives are calls of two arguments, nested to the left,
and a connective over one condition is that condition. Read as a formula, the expression is true just when the
condition is, whatever is true of comparisons and literals.

* `Leaf`: a comparison or a literal; `Condition.TrueAt`: when a condition is true, given what is true of its
  leaves.
* `Expr.TrueAt`: when an expression is true, given what is true of all that is no connective.
* `Expr.Applied`: an expression in which no value is missing and connectives have the arguments they take.
* `Condition.toExpr_trueAt`, `Condition.toExpr_applied`: so it is with a condition that passes its check.
* `Leaf.Alike`, `Leaf.readable`: leaves are told by their expressions, but for the kinds of numbers.
* `Expr.Guards`, `Cell.guards_guardCondition`: the guard of a cell is the conjunction of its conditions.
-/

namespace FeatureAlignment

/-! ## Conditions -/

/-- **A leaf of a condition**: a comparison, apart from whether it is negated, or a literal. -/
inductive Leaf
  | comparison (left : Operand) (op : ComparisonOp) (right : Operand)
  | literal (value : Literal)

/-- A leaf as an expression. -/
def Leaf.toExpr : Leaf → Expr
  | .comparison left op right => Condition.comparisonExpr ⟨left, op, right, false⟩
  | .literal value => value.toExpr

/-- **Literals that are written alike**: both are texts or both are numbers, with the same text. -/
def Literal.Alike (l l' : Literal) : Prop := l.isNumeric = l'.isNumeric ∧ l.display = l'.display

/-- Operands that are written alike. -/
inductive Operand.Alike : Operand → Operand → Prop
  | property (name : String) : Alike (.property name) (.property name)
  | literal {l l' : Literal} : l.Alike l' → Alike (.literal l) (.literal l')

/-- **Leaves that are written alike**: they differ at most in the kind of a number. -/
inductive Leaf.Alike : Leaf → Leaf → Prop
  | comparison {left left' right right' : Operand} (op : ComparisonOp) : left.Alike left' → right.Alike right' →
      Alike (.comparison left op right) (.comparison left' op right')
  | literal {l l' : Literal} : l.Alike l' → Alike (.literal l) (.literal l')

/-- The comparison as such. -/
def Comparison.leaf (c : Comparison) : Leaf := .comparison c.left c.op c.right

namespace Condition

mutual

/-- The leaves of a condition, from left to right. -/
def leaves : Condition → List Leaf
  | .logical _ children => leavesAmong children
  | .comparison c => [c.leaf]
  | .literal value => [.literal value]

/-- The leaves of several conditions. -/
def leavesAmong : List Condition → List Leaf
  | [] => []
  | c :: cs => c.leaves ++ leavesAmong cs

end

mutual

/-- **When a condition is true**, given the leaves that are. A negated comparison is the opposite of its
comparison. -/
def TrueAt (τ : Leaf → Prop) : Condition → Prop
  | .logical .and children => AllTrue τ children
  | .logical .or children => AnyTrue τ children
  | .logical .not children => ¬ AllTrue τ children
  | .comparison c => if c.negated then ¬ τ c.leaf else τ c.leaf
  | .literal value => τ (.literal value)

/-- All of several conditions are true. -/
def AllTrue (τ : Leaf → Prop) : List Condition → Prop
  | [] => True
  | c :: cs => c.TrueAt τ ∧ AllTrue τ cs

/-- Some of several conditions is true. -/
def AnyTrue (τ : Leaf → Prop) : List Condition → Prop
  | [] => False
  | c :: cs => c.TrueAt τ ∨ AnyTrue τ cs

end

variable {τ : Leaf → Prop}

theorem allTrue_iff (cs : List Condition) : AllTrue τ cs ↔ ∀ c ∈ cs, c.TrueAt τ := by
  induction cs with
  | nil => simp [AllTrue]
  | cons c cs ih => rw [AllTrue, ih, List.forall_mem_cons]

end Condition

/-! ## Expressions -/

namespace Expr

mutual

/-- **When an expression is true**, read as a formula. Calls of `and`, `or` and `not` have their usual meaning,
and of everything else it is given whether it is true. -/
def TrueAt (ν : Expr → Prop) : Expr → Prop
  | .call name spacing arguments =>
    if name = "and" then AllTrue ν arguments
    else if name = "or" then AnyTrue ν arguments
    else if name = "not" then ¬ AllTrue ν arguments
    else ν (.call name spacing arguments)
  | e => ν e

/-- All of several expressions are true. -/
def AllTrue (ν : Expr → Prop) : List Expr → Prop
  | [] => True
  | e :: es => e.TrueAt ν ∧ AllTrue ν es

/-- Some of several expressions is true. -/
def AnyTrue (ν : Expr → Prop) : List Expr → Prop
  | [] => False
  | e :: es => e.TrueAt ν ∨ AnyTrue ν es

end

mutual

/-- All expressions within an expression, which is the first of them. -/
def parts : Expr → List Expr
  | .call name spacing arguments => .call name spacing arguments :: partsAmong arguments
  | e => [e]

/-- All expressions within several expressions. -/
def partsAmong : List Expr → List Expr
  | [] => []
  | e :: es => e.parts ++ partsAmong es

end

/-- **An expression that fits** as far as its topmost call goes: there is a value, `and` and `or` have two
arguments, and `not` has one. -/
structure Fits (e : Expr) : Prop where
  value : e ≠ .nil
  both : ∀ spacing arguments, e = .call "and" spacing arguments → arguments.length = 2
  either : ∀ spacing arguments, e = .call "or" spacing arguments → arguments.length = 2
  negation : ∀ spacing arguments, e = .call "not" spacing arguments → arguments.length = 1

/-- **An expression that fits throughout.** -/
def Applied (e : Expr) : Prop := ∀ p ∈ e.parts, p.Fits

variable {ν : Expr → Prop} {name : String} {spacing : Spacing}

/-! ### Reading connectives -/

theorem trueAt_and (left right : Expr) :
    (Expr.call "and" spacing [left, right]).TrueAt ν ↔ left.TrueAt ν ∧ right.TrueAt ν := by
  simp [TrueAt, AllTrue]

theorem trueAt_or (left right : Expr) :
    (Expr.call "or" spacing [left, right]).TrueAt ν ↔ left.TrueAt ν ∨ right.TrueAt ν := by
  simp [TrueAt, AnyTrue]

theorem trueAt_not (e : Expr) : (Expr.call "not" spacing [e]).TrueAt ν ↔ ¬ e.TrueAt ν := by
  simp [TrueAt, AllTrue]

/-- **A conjunction nested to the left** is true when all of its members are. -/
theorem trueAt_nest_and {es : List Expr} (h : es ≠ []) : (Condition.nest "and" es).TrueAt ν ↔ AllTrue ν es := by
  have hfold : ∀ (es : List Expr) (e : Expr),
      (es.foldl (fun left right => .call "and" .wide [left, right]) e).TrueAt ν ↔ e.TrueAt ν ∧ AllTrue ν es := by
    intro es
    induction es with
    | nil => intro e; simp [AllTrue]
    | cons next es ih =>
      intro e
      rw [List.foldl_cons, ih, trueAt_and, AllTrue, and_assoc]
  cases es with
  | nil => exact absurd rfl h
  | cons e es => exact hfold es e

/-- **A disjunction nested to the left** is true when some of its members is. -/
theorem trueAt_nest_or {es : List Expr} (h : es ≠ []) : (Condition.nest "or" es).TrueAt ν ↔ AnyTrue ν es := by
  have hfold : ∀ (es : List Expr) (e : Expr),
      (es.foldl (fun left right => .call "or" .wide [left, right]) e).TrueAt ν ↔ e.TrueAt ν ∨ AnyTrue ν es := by
    intro es
    induction es with
    | nil => intro e; simp [AnyTrue]
    | cons next es ih =>
      intro e
      rw [List.foldl_cons, ih, trueAt_or, AnyTrue, or_assoc]
  cases es with
  | nil => exact absurd rfl h
  | cons e es => exact hfold es e

/-! ### Expressions that fit -/

theorem mem_partsAmong {p : Expr} (es : List Expr) : p ∈ partsAmong es ↔ ∃ e ∈ es, p ∈ e.parts := by
  induction es with
  | nil => simp [partsAmong]
  | cons e es ih => simp [partsAmong, ih]

/-- An expression that is no call fits, unless it is without value. -/
theorem applied_atom {e : Expr} (hcall : ∀ name spacing arguments, e ≠ .call name spacing arguments)
    (hvalue : e ≠ .nil) : e.Applied := by
  intro p hp
  have hself : e.parts = [e] := by
    cases e with
    | call name spacing arguments => exact absurd rfl (hcall name spacing arguments)
    | _ => rfl
  rw [hself, List.mem_singleton] at hp
  subst hp
  exact ⟨hvalue, fun _ _ h => absurd h (hcall _ _ _), fun _ _ h => absurd h (hcall _ _ _),
    fun _ _ h => absurd h (hcall _ _ _)⟩

theorem applied_number (digits : String) : (Expr.number digits).Applied := applied_atom nofun nofun

/-- **A call fits throughout** if it fits itself and its arguments do throughout. -/
theorem applied_call {arguments : List Expr} (h : (Expr.call name spacing arguments).Fits)
    (ha : ∀ e ∈ arguments, e.Applied) : (Expr.call name spacing arguments).Applied := by
  intro p hp
  rw [parts] at hp
  rcases List.mem_cons.1 hp with rfl | hp
  · exact h
  · obtain ⟨e, he, hpe⟩ := (mem_partsAmong arguments).1 hp
    exact ha e he p hpe

/-- A call of two arguments fits unless it is a negation. -/
theorem applied_pair {left right : Expr} (hname : name ≠ "not") (hl : left.Applied) (hr : right.Applied) :
    (Expr.call name spacing [left, right]).Applied := by
  refine applied_call ⟨nofun, ?_, ?_, ?_⟩ ?_
  · rintro _ _ heq
    cases heq
    rfl
  · rintro _ _ heq
    cases heq
    rfl
  · rintro _ _ heq
    cases heq
    exact absurd rfl hname
  · intro e he
    rcases List.mem_cons.1 he with rfl | he
    · exact hl
    · rw [List.mem_singleton.1 he]
      exact hr

/-- A negation of one argument fits. -/
theorem applied_not {e : Expr} (he : e.Applied) : (Expr.call "not" spacing [e]).Applied := by
  refine applied_call ⟨nofun, ?_, ?_, ?_⟩ ?_
  · rintro _ _ heq
    exact absurd (Expr.call.inj heq).1 (by decide)
  · rintro _ _ heq
    exact absurd (Expr.call.inj heq).1 (by decide)
  · rintro _ _ heq
    cases heq
    rfl
  · intro x hx
    rw [List.mem_singleton.1 hx]
    exact he

/-- **Expressions nested to the left** fit throughout if they do one by one. -/
theorem applied_nest (hname : name ≠ "not") {es : List Expr} (h : es ≠ []) (he : ∀ e ∈ es, e.Applied) :
    (Condition.nest name es).Applied := by
  have hfold : ∀ (es : List Expr) (e : Expr), e.Applied → (∀ e ∈ es, e.Applied) →
      (es.foldl (fun left right => .call name .wide [left, right]) e).Applied := by
    intro es
    induction es with
    | nil => intro e hone _; exact hone
    | cons next es ih =>
      intro e hone hall
      have hnext := hall next (List.mem_cons_self ..)
      exact ih _ (applied_pair hname hone hnext) fun x hx => hall x (List.mem_cons_of_mem _ hx)
  cases es with
  | nil => exact absurd rfl h
  | cons e es => exact hfold es e (he e (List.mem_cons_self ..)) fun x hx => he x (List.mem_cons_of_mem _ hx)

end Expr

/-! ## Leaves -/

/-- A literal is a text or a number, and tells all but the kind of the number. -/
theorem Literal.alike_of_toExpr {l l' : Literal} (h : l.toExpr = l'.toExpr) : l.Alike l' := by
  unfold Literal.Alike
  cases l <;> cases l' <;> simp_all [Literal.toExpr, Literal.isNumeric, Literal.display]

theorem Operand.alike_of_toExpr {o o' : Operand} (h : o.toExpr = o'.toExpr) : o.Alike o' := by
  cases o with
  | property name =>
    cases o' with
    | property name' =>
      cases h
      exact .property name
    | literal l => cases l <;> cases h
  | literal l =>
    cases o' with
    | property name => cases l <;> cases h
    | literal l' => exact .literal (Literal.alike_of_toExpr h)

/-- An operand is no call. -/
theorem Operand.toExpr_ne_call (o : Operand) (name : String) (spacing : Spacing) (arguments : List Expr) :
    o.toExpr ≠ .call name spacing arguments := by
  cases o with
  | property name => exact nofun
  | literal l => cases l <;> exact nofun

/-- A literal is a text or a number. -/
theorem Literal.applied_toExpr (l : Literal) : l.toExpr.Applied := by
  cases l with
  | text s => exact Expr.applied_atom nofun nofun
  | integer i => exact Expr.applied_number _
  | double d => exact Expr.applied_number _

theorem Operand.applied_toExpr (o : Operand) : o.toExpr.Applied := by
  cases o with
  | literal l => exact l.applied_toExpr
  | property name => exact Expr.applied_atom nofun nofun

namespace Leaf

variable {ν : Expr → Prop}

/-- **Leaves with one expression are written alike.** -/
theorem alike_of_toExpr {l l' : Leaf} (h : l.toExpr = l'.toExpr) : l.Alike l' := by
  cases l with
  | literal value =>
    cases l' with
    | literal value' => exact .literal (Literal.alike_of_toExpr h)
    | comparison left op right => cases value <;> cases op <;> cases h
  | comparison left op right =>
    cases l' with
    | literal value => cases value <;> cases op <;> cases h
    | comparison left' op' right' =>
      have hno := left.toExpr_ne_call "strIndexOf" .wide [left'.toExpr, right'.toExpr]
      have hno' := left'.toExpr_ne_call "strIndexOf" .wide [left.toExpr, right.toExpr]
      -- the operators have names of their own, but for containment, which has another first argument
      have hparts : op = op' ∧ left.toExpr = left'.toExpr ∧ right.toExpr = right'.toExpr := by
        cases op <;> cases op' <;> simp_all [toExpr, Condition.comparisonExpr]
      obtain ⟨rfl, hleft, hright⟩ := hparts
      exact .comparison op (Operand.alike_of_toExpr hleft) (Operand.alike_of_toExpr hright)

/-- A leaf is read as it is: its expression is no connective. -/
theorem trueAt_toExpr (l : Leaf) : l.toExpr.TrueAt ν ↔ ν l.toExpr := by
  cases l with
  | literal value => cases value <;> exact Iff.rfl
  | comparison left op right => cases op <;> simp [toExpr, Condition.comparisonExpr, Expr.TrueAt]

theorem applied_toExpr (l : Leaf) : l.toExpr.Applied := by
  cases l with
  | literal value => exact value.applied_toExpr
  | comparison left op right =>
    have hl := left.applied_toExpr
    have hr := right.applied_toExpr
    cases op with
    | equal => exact Expr.applied_pair (by decide) hl hr
    | notEqual => exact Expr.applied_pair (by decide) hl hr
    | lessThan => exact Expr.applied_pair (by decide) hl hr
    | lessOrEqual => exact Expr.applied_pair (by decide) hl hr
    | greaterThan => exact Expr.applied_pair (by decide) hl hr
    | greaterOrEqual => exact Expr.applied_pair (by decide) hl hr
    | contains =>
      -- the position of one text in the other is compared with zero
      have hposition : (Expr.call "strIndexOf" .wide [left.toExpr, right.toExpr]).Applied :=
        Expr.applied_pair (by decide) hl hr
      exact Expr.applied_pair (by decide) hposition (Expr.applied_number "0")

end Leaf

/-- A comparison is its leaf, or the negation of it. -/
theorem Comparison.toExpr_eq (c : Comparison) :
    Condition.comparisonExpr c = if c.negated then .call "not" .wide [c.leaf.toExpr] else c.leaf.toExpr := by
  rcases c with ⟨left, op, right, negated⟩
  cases negated <;> rfl

/-! ## Conditions as expressions -/

/-- **A reading of leaves**: what is true of leaves is true of the expressions in which they are written. -/
def Reads (ν : Expr → Prop) (τ : Leaf → Prop) (leaves : List Leaf) : Prop := ∀ l ∈ leaves, (ν l.toExpr ↔ τ l)

namespace Condition

variable {τ : Leaf → Prop} {ν : Expr → Prop}

/-- A conjunction or disjunction that passes its check has something to be nested. -/
theorem toExprs_ne_nil {op : Connective} {children : List Condition} (hop : op ≠ .not)
    (hc : (logical op children).check = .ok ()) : toExprs children ≠ [] := by
  have hsome := (checkArity_some hop).1 (check_logical_iff.1 hc).1
  cases children with
  | nil => exact absurd rfl hsome
  | cons c cs => exact nofun

mutual

/-- **A condition and its expression are true together**, if the expressions of leaves are true just when the
leaves are. -/
theorem toExpr_trueAt : ∀ c : Condition, c.check = .ok () → Reads ν τ c.leaves →
    (c.toExpr.TrueAt ν ↔ c.TrueAt τ)
  | .logical .and children, hc, hl => by
    have hsome := toExprs_ne_nil (by decide) hc
    rw [toExpr, Expr.trueAt_nest_and hsome, TrueAt]
    exact (toExprs_trueAt children (check_logical hc).1 hl).1
  | .logical .or children, hc, hl => by
    have hsome := toExprs_ne_nil (by decide) hc
    rw [toExpr, Expr.trueAt_nest_or hsome, TrueAt]
    exact (toExprs_trueAt children (check_logical hc).1 hl).2
  | .logical .not children, hc, hl => by
    have hall := (toExprs_trueAt children (check_logical hc).1 hl).1
    rw [toExpr, TrueAt, ← hall]
    simp [Expr.TrueAt]
  | .comparison c, _, hl => by
    have hleaf := hl c.leaf (List.mem_singleton.2 rfl)
    rw [toExpr, TrueAt, c.toExpr_eq]
    split
    · rw [Expr.trueAt_not, Leaf.trueAt_toExpr, hleaf]
    · rw [Leaf.trueAt_toExpr, hleaf]
  | .literal value, _, hl => by
    have hleaf := hl (.literal value) (List.mem_singleton.2 rfl)
    rw [toExpr, TrueAt, ← hleaf]
    exact Leaf.trueAt_toExpr (.literal value)

theorem toExprs_trueAt : ∀ cs : List Condition, checkAll cs = .ok () → Reads ν τ (leavesAmong cs) →
    (Expr.AllTrue ν (toExprs cs) ↔ AllTrue τ cs) ∧ (Expr.AnyTrue ν (toExprs cs) ↔ AnyTrue τ cs)
  | [], _, _ => ⟨Iff.rfl, Iff.rfl⟩
  | c :: cs, hc, hl => by
    obtain ⟨hfirst, hrest⟩ := checkAll_cons hc
    have hone := toExpr_trueAt c hfirst fun l hmem => hl l (List.mem_append_left _ hmem)
    obtain ⟨hall, hany⟩ := toExprs_trueAt cs hrest fun l hmem => hl l (List.mem_append_right _ hmem)
    exact ⟨and_congr hone hall, or_congr hone hany⟩

end

mutual

/-- **The expression of a condition fits throughout.** -/
theorem toExpr_applied : ∀ c : Condition, c.check = .ok () → c.toExpr.Applied
  | .logical .and children, hc => by
    have hsome := toExprs_ne_nil (by decide) hc
    exact Expr.applied_nest (by decide) hsome (toExprs_applied children (check_logical hc).1)
  | .logical .or children, hc => by
    have hsome := toExprs_ne_nil (by decide) hc
    exact Expr.applied_nest (by decide) hsome (toExprs_applied children (check_logical hc).1)
  | .logical .not children, hc => by
    obtain ⟨hall, hone⟩ := check_logical hc
    have harguments := toExprs_applied children hall
    obtain ⟨child, rfl⟩ := hone rfl
    exact Expr.applied_not (harguments child.toExpr (List.mem_cons_self ..))
  | .comparison c, _ => by
    rw [toExpr, c.toExpr_eq]
    split
    · exact Expr.applied_not c.leaf.applied_toExpr
    · exact c.leaf.applied_toExpr
  | .literal value, _ => value.applied_toExpr

theorem toExprs_applied : ∀ cs : List Condition, checkAll cs = .ok () → ∀ e ∈ toExprs cs, e.Applied
  | [], _ => fun e he => (List.not_mem_nil he).elim
  | c :: cs, hc => by
    obtain ⟨hfirst, hrest⟩ := checkAll_cons hc
    have hone := toExpr_applied c hfirst
    have hall := toExprs_applied cs hrest
    intro e he
    rcases List.mem_cons.1 he with rfl | he
    · exact hone
    · exact hall e he

end

end Condition

/-! ## Guards -/

/-- **A guard for conditions.** Whatever is true of leaves, and of their expressions alike, the guard is true
just when all of the conditions are. Nothing can be true of leaves that their expressions do not tell, but for
the kind of a number. The guard fits throughout. -/
structure Expr.Guards (g : Expr) (conditions : List Condition) : Prop where
  meaning : ∀ τ ν, Reads ν τ (Condition.leavesAmong conditions) → (g.TrueAt ν ↔ ∀ c ∈ conditions, c.TrueAt τ)
  readable : ∀ τ : Leaf → Prop, (∀ l l' : Leaf, l.Alike l' → (τ l ↔ τ l')) → ∃ ν, ∀ leaves, Reads ν τ leaves
  applied : g.Applied

/-- **What is true of leaves can be read off expressions**, if it is true of all that are written alike. -/
theorem Leaf.readable {τ : Leaf → Prop} (h : ∀ l l' : Leaf, l.Alike l' → (τ l ↔ τ l')) :
    ∃ ν, ∀ leaves, Reads ν τ leaves := by
  refine ⟨fun e => ∃ l : Leaf, l.toExpr = e ∧ τ l, fun leaves l _ => ⟨?_, fun hl => ⟨l, rfl, hl⟩⟩⟩
  rintro ⟨l', hsame, hl'⟩
  exact (h l' l (alike_of_toExpr hsame)).1 hl'

namespace Cell

variable {c : Cell} {onPath : List Condition} {g : Condition}

/-- The guard of a cell has the leaves of its conditions, and is true when all of them are. -/
theorem guardCondition_trueAt (h : c.guardCondition onPath = some g) :
    (∀ l ∈ g.leaves, l ∈ Condition.leavesAmong (c.guards onPath)) ∧
      ∀ τ, g.TrueAt τ ↔ ∀ t ∈ c.guards onPath, t.TrueAt τ := by
  unfold guardCondition at h
  split at h
  · cases h
  · rename_i t hone
    cases h
    simp [hone, Condition.leavesAmong]
  · cases h
    exact ⟨fun l hl => hl, fun τ => Condition.allTrue_iff _⟩

/-- **The guard of a cell guards for its conditions**, if it passes its check. -/
theorem guards_guardCondition (h : c.guardCondition onPath = some g) (hc : g.check = .ok ()) :
    g.toExpr.Guards (c.guards onPath) := by
  obtain ⟨hleaves, htrue⟩ := guardCondition_trueAt h
  refine ⟨fun τ ν hreads => ?_, fun τ => Leaf.readable, Condition.toExpr_applied g hc⟩
  rw [← htrue τ]
  exact Condition.toExpr_trueAt g hc fun l hl => hreads l (hleaves l hl)

end Cell

end FeatureAlignment
