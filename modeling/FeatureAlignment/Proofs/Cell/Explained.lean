import FeatureAlignment.Cell.Placement
import FeatureAlignment.Proofs.Join.Told

/-!
# Explained failures

A failure is internal if it is about the program and not about the alignment: a mapping or an attribute
that should be there is missing. What is looked up in an alignment, in a schema or on a path fails in
other ways only, which say what is wrong there. Neither does it fail because of another cell: that is said
of a cell before anything is looked up. And only three of these failures are about the structure of a cell:
they come from its target, its function and its guards, and from nowhere else.

* `Fails`: how a check fails, when it does. Checks in sequence fail as each one does (`Fails.bind`).
* `Explained`: a check whose failures are not internal.
* `Own`: a check whose failures are not about another cell either.
* `Regular`: a check whose failures are not about the structure of the cell either.
* `SchemaIndex.regular_resolve`, `Cell.regular_expression`: so are paths and the expressions of cells.
* `Cell.fails_plan`, `Cell.fails_destination`: plans of joins and destinations fail regularly, or as the
  target and the guards of the cell do.
-/

namespace FeatureAlignment

variable {α β : Type}

/-- **How a check fails**: it may, but only with such failures. -/
def Fails (S : Failure → Prop) (x : Except Failure α) : Prop := ∀ failure, x = .error failure → S failure

namespace Fails

variable {S T : Failure → Prop}

theorem ok (x : α) : Fails S (.ok x : Except Failure α) := fun _ h => by cases h

theorem error {failure : Failure} (h : S failure) : Fails S (.error failure : Except Failure α) :=
  fun _ heq => by cases heq; exact h

/-- **Checks in sequence** fail as each one does. -/
theorem bind {x : Except Failure α} {f : α → Except Failure β} (hx : Fails S x)
    (hf : ∀ y, Fails S (f y)) : Fails S (x >>= f) := by
  intro failure h
  cases hr : x with
  | error failure' => rw [hr] at h; cases h; exact hx failure hr
  | ok y => rw [hr] at h; exact hf y failure h

theorem map {x : Except Failure α} (hx : Fails S x) (f : α → β) : Fails S (x.map f) := by
  cases x with
  | error failure => exact error (hx failure rfl)
  | ok y => exact ok (f y)

theorem mapM {f : α → Except Failure β} (hf : ∀ x, Fails S (f x)) (l : List α) : Fails S (l.mapM f) := by
  induction l with
  | nil => rw [List.mapM_nil]; exact ok []
  | cons x l ih => rw [List.mapM_cons]; exact (hf x).bind fun y => ih.bind fun ys => ok (y :: ys)

theorem mono {x : Except Failure α} (hx : Fails S x) (h : ∀ failure, S failure → T failure) : Fails T x :=
  fun failure heq => h failure (hx failure heq)

end Fails

/-- **An explained check.** It may fail, but not internally. -/
def Explained (x : Except Failure α) : Prop := Fails (fun failure => failure.kind ≠ .internal) x

/-- The kinds of failure that are about a cell itself, not about the program and not about another cell. -/
def FailureKind.isOwn : FailureKind → Bool
  | .internal => false
  | .ordering => false
  | .dependencyFailed => false
  | _ => true

/-- **A check of a cell itself.** It may fail, but not internally, and not because of another cell. -/
def Own (x : Except Failure α) : Prop := Fails (fun failure => failure.kind.isOwn = true) x

/-- **Structural failures**: a cell has no target, its function is unknown, or a condition on it is refused. -/
def Failure.isStructural : Failure → Bool
  | .unknownFunction _ => true
  | .invalidCondition _ => true
  | .invalidCell _ .noTarget => true
  | _ => false

/-- **Regular failures**: of a cell itself, and not structural. -/
def Failure.isRegular (failure : Failure) : Bool := failure.kind.isOwn && !failure.isStructural

/-- **A regular check.** It may fail, but not because of the structure of a cell. -/
def Regular (x : Except Failure α) : Prop := Fails (fun failure => failure.isRegular = true) x

/-- **Failures that are admitted**: the regular ones at least. -/
def Admits (S : Failure → Prop) : Prop := ∀ failure, failure.isRegular = true → S failure

theorem Regular.fails {x : Except Failure α} {S : Failure → Prop} (h : Regular x) (hS : Admits S) : Fails S x :=
  h.mono hS

theorem admits_own : Admits (fun failure => failure.kind.isOwn = true) := by
  intro failure h
  unfold Failure.isRegular at h
  exact (Bool.and_eq_true_iff.1 h).1

/-! ## Schemas and paths -/

namespace SchemaIndex

variable (index : SchemaIndex)

theorem regular_require (name : QName) : Regular (index.require name) := by
  unfold require
  split
  · exact .ok _
  · exact .error rfl

theorem regular_walk (t : TypeDefinition) (names : List QName) : Regular (index.walk t names) := by
  intro failure h
  obtain ⟨type, path, step, rfl⟩ := walkFrom_error h
  rfl

/-- **Paths fail on their own.** -/
theorem regular_resolve (root : QName) (steps : List PathStep) : Regular (index.resolve root steps) := by
  have hfollow : ∀ (steps done : List PathStep) (p : Position), Regular (index.follow root done p steps) := by
    intro steps
    induction steps with
    | nil => exact fun _ p => .ok p
    | cons s steps ih =>
      intro done p
      unfold follow
      split
      · exact ih _ _
      · exact .error rfl
  unfold resolve
  refine (index.regular_require root).bind fun t => ?_
  split
  · exact .error rfl
  · exact (hfollow steps [] _).bind fun p => .ok p.place

end SchemaIndex

/-! ## Expressions of cells -/

theorem Entity.regular_property (source : SchemaIndex) (e : Entity) : Regular (e.property source) := by
  unfold property
  exact (source.regular_require e.type).bind fun t => (source.regular_walk t e.names).bind fun _ => .ok _

theorem Pattern.regular_compose (p : Pattern) (function : String) (bind : String → Option Expr) :
    Regular (p.compose function bind) := by
  have hpiece : ∀ f, Regular (piece function bind f) := by
    intro f
    unfold piece
    split
    · exact .ok _
    · split
      · exact .ok _
      · exact .error rfl
  exact (Fails.mapM hpiece p.fragments).map concatAll

namespace Cell

variable (source : SchemaIndex) (c : Cell)

theorem own_targetEntity : Own c.targetEntity := by
  unfold targetEntity
  split
  · exact .ok _
  · exact .error rfl

theorem regular_primarySource : Regular c.primarySource := by
  unfold primarySource
  split
  · exact .ok _
  · exact .error rfl

theorem regular_requireText (name : String) : Regular (c.requireText name) := by
  unfold requireText
  split
  · exact .ok _
  · exact .error rfl

theorem regular_primaryProperty : Regular (c.primaryProperty source) := by
  unfold primaryProperty
  exact c.regular_primarySource.bind fun e => e.regular_property source

theorem regular_lookupTable : Regular c.lookupTable := by
  unfold lookupTable
  split
  · exact .error rfl
  · split
    · exact .error rfl
    · split
      · exact .error rfl
      · exact .ok _

theorem regular_unclassifiedAction : Regular c.unclassifiedAction := by
  unfold unclassifiedAction UnclassifiedAction.ofName
  split
  · split
    · exact .ok _
    · split
      · exact .ok _
      · split
        · exact .ok _
        · exact .error rfl
  · exact .ok _

theorem regular_classification : Regular (c.classification source) := by
  unfold classification
  refine (c.regular_primaryProperty source).bind fun property => ?_
  refine c.regular_lookupTable.bind fun table => c.regular_unclassifiedAction.bind fun action => ?_
  split
  · exact .error rfl
  · exact .ok _

theorem regular_formattedString : Regular (c.formattedString source) := by
  unfold formattedString
  refine (c.regular_requireText "pattern").bind fun text => ?_
  have hvariable : ∀ e, Regular (variableOf source e) := fun e =>
    (e.regular_property source).bind fun _ => .ok _
  exact (Fails.mapM hvariable _).bind fun bindings => (Pattern.parse text).regular_compose _ _

theorem regular_mathExpression : Regular (c.mathExpression source) := by
  unfold mathExpression
  refine (c.regular_requireText "expression").bind fun text => ?_
  split
  · exact .error rfl
  · exact (Fails.mapM (Entity.regular_property source) _).bind fun _ => .ok _

theorem regular_assign : Regular (c.assign source) := by
  unfold assign
  refine (c.regular_requireText "value").bind fun text => ?_
  split
  · exact (Entity.regular_property source _).bind fun _ => .ok _
  · exact .ok _

/-- **Expressions of cells fail on their own**, under every function. -/
theorem regular_expression (f : Function) : Regular (c.expression source f) := by
  cases f with
  | rename => exact c.regular_primaryProperty source
  | classification => exact c.regular_classification source
  | formattedString => exact c.regular_formattedString source
  | dateExtraction =>
    exact (c.regular_requireText "dateFormat").bind fun _ =>
      (c.regular_primaryProperty source).bind fun _ => .ok _
  | mathExpression => exact c.regular_mathExpression source
  | assign => exact c.regular_assign source
  | retype => exact .error rfl
  | join => exact .error rfl

/-! ## Plans and destinations -/

variable (env : Environment)

theorem regular_planCondition (spec : JoinSpec) (targets : List (QName × QName))
    (condition : JoinCondition) : Regular (c.planCondition env spec targets condition) := by
  have hkey : ∀ key, Regular (c.checkKey env.source key) := by
    intro key failure h
    obtain ⟨fault, rfl, -⟩ := checkKey_error h
    rfl
  unfold planCondition
  refine (hkey _).bind fun _ => (hkey _).bind fun _ => ?_
  simp only
  split
  · exact .error rfl
  · split
    · exact .error rfl
    · split
      · exact .error rfl
      · exact .ok _

variable {S : Failure → Prop}

/-- **Joins are planned regularly**, but for a target that is missing. -/
theorem fails_plan (hS : Admits S) (ht : Fails S c.targetEntity) : Fails S (c.plan env) := by
  have hconditions : ∀ (spec : JoinSpec) (conditions : List JoinCondition) (targets : List (QName × QName)),
      Regular (c.planConditions env spec targets conditions) := by
    intro spec conditions
    induction conditions with
    | nil => exact fun _ => .ok []
    | cons condition rest ih =>
      intro targets
      unfold planConditions
      exact (c.regular_planCondition env spec targets condition).bind fun p => (ih _).bind fun ps => .ok _
  have hspec : Regular c.joinSpec := by
    unfold joinSpec
    split
    · exact .error rfl
    · split
      · exact .ok _
      · exact .error rfl
  unfold plan
  refine (hspec.fails hS).bind fun spec => ht.bind fun target => ?_
  split
  · exact .error (hS _ rfl)
  · exact (hconditions _ _ _).fails hS

theorem own_guarded (onPath : List Condition) (e : Expr) : Own (c.guarded onPath e) := by
  unfold guarded
  split
  · exact .ok _
  · split
    · exact .ok _
    · exact .error rfl

theorem regular_rootSource : Regular c.rootSource := by
  unfold rootSource
  split
  · exact .ok _
  · exact .error rfl

/-- **Destinations are missed regularly**, but for guards that are refused. -/
theorem fails_destination (hS : Admits S) (r : Registry) {target : Entity} {e : Expr}
    (hg : ∀ place, env.target.resolve target.type target.path = .ok place → Fails S (c.guarded place.guards e)) :
    Fails S (c.destination env r target e) := by
  intro failure h
  unfold destination at h
  cases hplace : env.target.resolve target.type target.path with
  | error failure' =>
    rw [hplace] at h
    cases h
    exact hS _ (env.target.regular_resolve target.type target.path failure hplace)
  | ok place =>
    rw [hplace, Build.except_ok_bind] at h
    simp only at h
    split at h
    · cases h
      exact hS _ rfl
    · split at h
      · cases h
        exact hS _ rfl
      · exact (hg place hplace).bind (fun restricted => .ok (place, restricted)) failure h

end Cell

end FeatureAlignment
