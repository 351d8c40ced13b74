import FeatureAlignment.Proofs.Compilation.Order

/-!
# Accounting for cells

A run that does not fail fast comes to every cell of its order once, and either compiles it or reports it.
So the compiled cells and the failures, each in their order, are together the order of the run.

* `Accounts`: two lists account for the cells of an order.
* `Accounts.compiled_sublist`, `Accounts.failed_sublist`, `Accounts.perm`: what that says of identifiers.
* `Environment.accounts_compileCells`: the lists of a run account for its cells.
* `Report.Flagged`: a report is a success as long as no cell has failed, which every cell keeps.
* `Environment.mem_failures_iff`: the failures are those of the cells at the places where they come.
-/

namespace FeatureAlignment

variable {env : Environment} {a : Alignment} {cells more : List Cell} {compiled compiled' : List String}
  {failures failures' : List CellFailure}

/-- **Accounting for cells** in their order: each is the next one compiled, or the next one reported. -/
inductive Accounts : List Cell → List String → List CellFailure → Prop
  | nil : Accounts [] [] []
  | compiled (c : Cell) {cells : List Cell} {compiled : List String} {failures : List CellFailure}
      (h : Accounts cells compiled failures) : Accounts (c :: cells) (c.id :: compiled) failures
  | failed (c : Cell) (failure : Failure) {cells : List Cell} {compiled : List String}
      {failures : List CellFailure} (h : Accounts cells compiled failures) :
      Accounts (c :: cells) compiled (Environment.report c failure :: failures)

namespace Accounts

theorem append (h : Accounts cells compiled failures) (h' : Accounts more compiled' failures') :
    Accounts (cells ++ more) (compiled ++ compiled') (failures ++ failures') := by
  induction h with
  | nil => exact h'
  | compiled c _ ih => exact .compiled c ih
  | failed c failure _ ih => exact .failed c failure ih

/-- The compiled cells come in the order of the cells. -/
theorem compiled_sublist (h : Accounts cells compiled failures) : compiled.Sublist (cells.map Cell.id) := by
  induction h with
  | nil => exact List.Sublist.refl _
  | compiled c _ ih => exact ih.cons_cons c.id
  | failed c failure _ ih => exact ih.cons c.id

/-- The failures come in the order of the cells. -/
theorem failed_sublist (h : Accounts cells compiled failures) :
    (failures.map CellFailure.cell).Sublist (cells.map Cell.id) := by
  induction h with
  | nil => exact List.Sublist.refl _
  | compiled c _ ih => exact ih.cons c.id
  | failed c failure _ ih => exact ih.cons_cons c.id

/-- **Each cell once**: compiled or failed. -/
theorem perm (h : Accounts cells compiled failures) :
    (compiled ++ failures.map CellFailure.cell).Perm (cells.map Cell.id) := by
  induction h with
  | nil => exact List.Perm.refl _
  | compiled c _ ih => exact ih.cons c.id
  | failed c failure _ ih =>
    rw [List.map_cons]
    exact List.perm_middle.trans (ih.cons c.id)

/-- Without failures, all cells are compiled. -/
theorem eq_of_no_failures (h : Accounts cells compiled []) : compiled = cells.map Cell.id := by
  have hlength := h.perm.length_eq
  rw [List.map_nil, List.append_nil] at hlength
  exact h.compiled_sublist.eq_of_length hlength

end Accounts

/-- **A report is a success** exactly if it has no failure. The flag is kept beside the failures. -/
def Report.Flagged (r : Report) : Prop := r.success = true ↔ r.failures = []

namespace Report

variable {r : Report}

theorem flagged_empty : Report.empty.Flagged := iff_of_true rfl rfl

theorem Flagged.recordCompiled (h : r.Flagged) (cell : String) : (r.recordCompiled cell).Flagged := h

/-- A failure takes the flag away for good, whatever was noted before. -/
theorem flagged_recordFailure (r : Report) (f : CellFailure) : (r.recordFailure f).Flagged :=
  iff_of_false Bool.false_ne_true (List.append_ne_nil_of_right_ne_nil _ (List.cons_ne_nil f []))

end Report

namespace Environment

/-- **A cell keeps the flag of the report right**, whether it compiles or fails. -/
theorem flagged_compileCell {p : Progress} (h : p.report.Flagged) (a : Alignment) (c : Cell) :
    (env.compileCell a p c).report.Flagged := by
  cases hp : p.stopped with
  | true => rw [compileCell_stopped hp]; exact h
  | false =>
    rcases ho : env.outcome a p c with ⟨failure | u, s⟩
    · rw [compileCell_error hp ho]; exact Report.flagged_recordFailure _ _
    · rw [compileCell_ok hp ho]; exact h.recordCompiled c.id

/-- **The flag is right after any cells**, also in a run that fails fast. -/
theorem flagged_compileCells (env : Environment) (a : Alignment) (cells : List Cell) :
    (env.compileCells a cells).report.Flagged := by
  induction cells using List.reverseRecOn with
  | nil => exact Report.flagged_empty
  | append_singleton cells c ih => rw [compileCells_concat]; exact flagged_compileCell ih a c

/-- **The lists of a run account for its cells**, if it does not fail fast. -/
theorem accounts_compileCells (hf : env.config.failFast = false) (a : Alignment) (cells : List Cell) :
    Accounts cells (env.compileCells a cells).compiled (env.compileCells a cells).failures := by
  induction cells using List.reverseRecOn with
  | nil => exact .nil
  | append_singleton cells c ih =>
    have hrunning := running_compileCells hf a cells
    rw [compileCells_concat]
    rcases ho : env.outcome a (env.compileCells a cells) c with ⟨failure | u, s⟩
    · rw [compileCell_error hrunning ho]
      have hone : Accounts [c] [] [report c failure] := .failed c failure .nil
      simpa using ih.append hone
    · rw [compileCell_ok hrunning ho]
      have hone : Accounts [c] [c.id] [] := .compiled c .nil
      simpa using ih.append hone

/-- **The failures of a run** are those of its cells, each at its place in the order. -/
theorem mem_failures_iff (hf : env.config.failFast = false) {f : CellFailure} :
    f ∈ (env.compileCells a cells).failures ↔
      ∃ before c after failure, cells = before ++ c :: after ∧
        (env.outcome a (env.compileCells a before) c).1 = .error failure ∧ f = report c failure := by
  induction cells using List.reverseRecOn with
  | nil =>
    constructor
    · intro h
      cases h
    · rintro ⟨before, c, after, failure, hsplit, -⟩
      simp at hsplit
  | append_singleton cells c ih =>
    have hrunning := running_compileCells hf a cells
    -- a place in the longer order is a place in the shorter one, or the last one
    have hplaces : (∃ before x after failure, cells ++ [c] = before ++ x :: after ∧
        (env.outcome a (env.compileCells a before) x).1 = .error failure ∧ f = report x failure) ↔
        f ∈ (env.compileCells a cells).failures ∨
          ∃ failure, (env.outcome a (env.compileCells a cells) c).1 = .error failure ∧ f = report c failure := by
      rw [ih]
      constructor
      · rintro ⟨before, x, after, failure, hsplit, hfails, hreport⟩
        rcases List.eq_nil_or_concat after with rfl | ⟨init, last, rfl⟩
        · obtain ⟨rfl, hlast⟩ := List.append_inj' hsplit rfl
          obtain rfl := List.singleton_inj.1 hlast
          exact .inr ⟨failure, hfails, hreport⟩
        · have hsplit' : cells ++ [c] = (before ++ x :: init) ++ [last] := by
            rw [hsplit]
            simp
          obtain ⟨hcells, -⟩ := List.append_inj' hsplit' rfl
          exact .inl ⟨before, x, init, failure, hcells, hfails, hreport⟩
      · rintro (⟨before, x, after, failure, rfl, hfails, hreport⟩ | ⟨failure, hfails, hreport⟩)
        · exact ⟨before, x, after ++ [c], failure, by simp, hfails, hreport⟩
        · exact ⟨cells, c, [], failure, rfl, hfails, hreport⟩
    rw [hplaces, compileCells_concat]
    rcases ho : env.outcome a (env.compileCells a cells) c with ⟨failure | u, s⟩
    · rw [compileCell_error hrunning ho]
      simp
    · rw [compileCell_ok hrunning ho]
      simp

end Environment

end FeatureAlignment
