import FeatureAlignment.Cell.Placement

/-!
# Conditions that pass their check

The check goes down a tree. A connective passes if it may have so many children and each of them passes, so
the conjunction that guards a cell passes just when all of its conditions do.

* `Condition.check_logical_iff`, `Condition.checkAll_iff`: the check of a connective and of its children.
* `Condition.checkArity_not`, `Condition.checkArity_some`: how many children a connective may have.
* `Cell.guarded_ok`: what a guarded expression is, and that all of its conditions have passed.
-/

namespace FeatureAlignment

namespace Condition

variable {op : Connective} {c : Condition} {cs children : List Condition}

/-- Conditions in a row pass if each of them does. -/
theorem checkAll_iff (cs : List Condition) : checkAll cs = .ok () ↔ ∀ c ∈ cs, c.check = .ok () := by
  induction cs with
  | nil => simp [checkAll]
  | cons c cs ih =>
    rw [checkAll, List.forall_mem_cons, ← ih]
    cases hc : c.check with
    | error fault => simp
    | ok u => simp

/-- **The check of a connective**: the number of its children, and then each of them. -/
theorem check_logical_iff : (logical op children).check = .ok () ↔
    checkArity op children.length = .ok () ∧ ∀ c ∈ children, c.check = .ok () := by
  rw [check, ← checkAll_iff]
  cases ha : checkArity op children.length with
  | error fault => simp
  | ok u => simp

/-- A negation has one child. -/
theorem checkArity_not (h : checkArity .not children.length = .ok ()) : ∃ c, children = [c] := by
  rw [checkArity] at h
  split at h
  · rename_i hone
    exact List.length_eq_one_iff.1 hone
  · cases h

/-- The other connectives have some child. -/
theorem checkArity_some (hop : op ≠ .not) :
    checkArity op children.length = .ok () ↔ children ≠ [] := by
  cases op with
  | not => exact absurd rfl hop
  | and => cases children <;> simp [checkArity]
  | or => cases children <;> simp [checkArity]

/-- What passes the check of a connective: one child for a negation, and children that pass. -/
theorem check_logical (hc : (logical op children).check = .ok ()) :
    checkAll children = .ok () ∧ (op = .not → ∃ c, children = [c]) := by
  obtain ⟨harity, hchildren⟩ := check_logical_iff.1 hc
  refine ⟨(checkAll_iff children).2 hchildren, ?_⟩
  rintro rfl
  exact checkArity_not harity

theorem checkAll_cons (hc : checkAll (c :: cs) = .ok ()) : c.check = .ok () ∧ checkAll cs = .ok () := by
  rw [checkAll_iff, List.forall_mem_cons, ← checkAll_iff] at hc
  exact hc

end Condition

namespace Cell

variable {c : Cell} {onPath : List Condition} {e restricted : Expr}

/-- **The guard of a cell passes** just when all conditions on the cell do. -/
theorem check_guardCondition {g : Condition} (h : c.guardCondition onPath = some g) :
    g.check = .ok () ↔ ∀ t ∈ c.guards onPath, t.check = .ok () := by
  unfold guardCondition at h
  split at h
  · cases h
  · rename_i t hone
    cases h
    simp [hone]
  · rename_i hnone _
    cases h
    have hop : Connective.and ≠ .not := nofun
    have hsome := (Condition.checkArity_some hop).2 hnone
    rw [Condition.check_logical_iff]
    simp [hsome]

/-- There is no guard just when there is no condition. -/
theorem guardCondition_none : c.guardCondition onPath = none ↔ c.guards onPath = [] := by
  unfold guardCondition
  split
  · rename_i hnone
    simp [hnone]
  · rename_i t hone
    simp [hone]
  · rename_i hsome _
    simpa using hsome

/-- **A guarded expression**: as it is where there is no condition, and else under a guard that has passed
its check. -/
theorem guarded_ok : c.guarded onPath e = .ok restricted ↔
    (c.guards onPath = [] ∧ restricted = e) ∨
      ∃ g, c.guardCondition onPath = some g ∧ g.check = .ok () ∧ restricted = e.guarded g.toExpr := by
  unfold guarded
  cases hg : c.guardCondition onPath with
  | none =>
    have hnone := guardCondition_none.1 hg
    simp [hnone, eq_comm]
  | some g =>
    have hsome : c.guards onPath ≠ [] := by
      intro h
      rw [guardCondition_none.2 h] at hg
      cases hg
    cases hcheck : g.check with
    | error fault => simp [hsome, hcheck]
    | ok u => simp [hsome, hcheck, eq_comm]

end Cell

end FeatureAlignment
