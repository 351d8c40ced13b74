import FeatureAlignment.Cell.Expression
import FeatureAlignment.Proofs.Join.Chained

/-!
# Sources of a cell

A source that resolves is read by its path, whatever the schema says of it.

* `Entity.property_eq_ok`: the expression of a source is its path, if it resolves.
* `Cell.primaryProperty_of_resolves`: so it is with the primary source of a cell.
-/

namespace FeatureAlignment

variable {source : SchemaIndex} {e : Entity} {c : Cell}

/-- **The expression of a source** is its path, if it resolves. -/
theorem Entity.property_eq_ok {x : Expr} :
    e.property source = .ok x ↔ source.Resolves e ∧ x = .property e.expression := by
  unfold property SchemaIndex.Resolves SchemaIndex.require
  cases source.get? e.type with
  | none => simp [bind, Except.bind]
  | some t =>
    cases hw : source.walk t e.names with
    | error failure => simp [bind, Except.bind, hw]
    | ok p => simp [bind, Except.bind, pure, Except.pure, hw, eq_comm]

theorem Entity.property_of_resolves (h : source.Resolves e) : e.property source = .ok (.property e.expression) :=
  property_eq_ok.2 ⟨h, rfl⟩

/-- The primary source of a cell, as an expression. -/
theorem Cell.primaryProperty_of_resolves (he : c.primarySource = .ok e) (h : source.Resolves e) :
    c.primaryProperty source = .ok (.property e.expression) := by
  unfold primaryProperty
  rw [he, Build.except_ok_bind]
  exact Entity.property_of_resolves h

end FeatureAlignment
