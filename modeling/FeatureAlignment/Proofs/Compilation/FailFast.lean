import FeatureAlignment.Proofs.Compilation.Accounting

/-!
# Failing fast

Whether a compilation fails fast is read by nothing that a cell does, only after a cell has failed. So a run
that fails fast is the other run up to its first failure, and nothing after it: what both have written until
then is the same.

* `Environment.failingFast`: an environment that fails fast, or does not.
* `Environment.outcome_failingFast`: what a cell comes to is the same in both.
* `Environment.cut_compileCells`: the two runs, side by side.
* `Alignment.report_accounts`: accounting for both orders of a compilation, and what is left of it when it
  fails fast.
-/

namespace FeatureAlignment

variable {env : Environment} {a : Alignment} {c : Cell} {cells : List Cell}

/-! ## What a cell comes to -/

/-- A configuration that fails fast, or does not. -/
def Config.failingFast (config : Config) (b : Bool) : Config := { config with failFast := b }

/-- **An environment that fails fast**, or does not. -/
def Environment.failingFast (env : Environment) (b : Bool) : Environment :=
  { env with config := env.config.failingFast b }

theorem JoinPlan.installAll_failingFast (env : Environment) (b : Bool) (plans : List JoinPlan) :
    installAll (env.failingFast b) plans = installAll env plans := by
  induction plans with
  | nil => rfl
  | cons p ps ih =>
    unfold installAll
    rw [ih]
    rfl

namespace Cell

theorem planConditions_failingFast (env : Environment) (b : Bool) (c : Cell) (spec : JoinSpec)
    (targets : List (QName × QName)) (conditions : List JoinCondition) :
    c.planConditions (env.failingFast b) spec targets conditions = c.planConditions env spec targets conditions := by
  induction conditions generalizing targets with
  | nil => rfl
  | cons condition rest ih =>
    have hcondition : c.planCondition (env.failingFast b) spec targets condition =
        c.planCondition env spec targets condition := rfl
    unfold planConditions
    rw [hcondition]
    simp only [ih]

theorem link_failingFast (env : Environment) (b : Bool) (c : Cell) :
    c.link (env.failingFast b) = c.link env := by
  have hplan : c.plan (env.failingFast b) = c.plan env := by
    unfold plan
    simp only [planConditions_failingFast]
  unfold link
  rw [hplan]
  simp only [JoinPlan.installAll_failingFast]

theorem establish_failingFast (env : Environment) (b : Bool) (c : Cell) :
    c.establish (env.failingFast b) = c.establish env := by
  have hjoin : c.joinTypes (env.failingFast b) = c.joinTypes env := by
    unfold joinTypes
    rw [link_failingFast]
    rfl
  funext f
  cases f
  all_goals first | exact hjoin | rfl

theorem fill_failingFast (env : Environment) (b : Bool) (c : Cell) :
    c.fill (env.failingFast b) = c.fill env := by
  have hjoin : c.joinProperty (env.failingFast b) = c.joinProperty env := by
    unfold joinProperty
    rw [link_failingFast]
    rfl
  funext t f
  unfold fill
  rw [hjoin]
  rfl

end Cell

namespace Environment

/-- **What a cell comes to** does not depend on whether the compilation fails fast. -/
theorem outcome_failingFast (env : Environment) (b : Bool) (a : Alignment) (p : Progress) (c : Cell) :
    (env.failingFast b).outcome a p c = env.outcome a p c := by
  have htype : (env.failingFast b).compileType c = env.compileType c := by
    unfold compileType
    rw [Cell.establish_failingFast]
  have hproperty : (env.failingFast b).compileProperty a p c = env.compileProperty a p c := by
    unfold compileProperty
    rw [Cell.fill_failingFast]
  unfold outcome
  rw [htype, hproperty]

/-! ## Two runs -/

/-- **Where a run is cut short**: a cell of its order fails, and none before it. -/
structure FailsFirst (env : Environment) (a : Alignment) (cells before : List Cell) (c : Cell)
    (failure : Failure) : Prop where
  split : ∃ after, cells = before ++ c :: after
  clean : (env.compileCells a before).failures = []
  fails : (env.outcome a (env.compileCells a before) c).1 = .error failure

theorem FailsFirst.concat {before : List Cell} {failure : Failure}
    (h : env.FailsFirst a cells before c failure) (x : Cell) : env.FailsFirst a (cells ++ [x]) before c failure := by
  obtain ⟨after, rfl⟩ := h.split
  exact ⟨⟨after ++ [x], by simp⟩, h.clean, h.fails⟩

/-- **A run and its faster one.** Without failures they are the same. Otherwise the faster one has stopped
where the other one was when its first failure came. -/
theorem cut_compileCells (env : Environment) (a : Alignment) (cells : List Cell) :
    (((env.failingFast false).compileCells a cells).failures = [] ∧
      (env.failingFast true).compileCells a cells = (env.failingFast false).compileCells a cells) ∨
    ∃ before c failure, (env.failingFast false).FailsFirst a cells before c failure ∧
      (env.failingFast true).compileCells a cells =
        { (env.failingFast false).compileCells a (before ++ [c]) with stopped := true } ∧
      ((env.failingFast false).compileCells a cells).failures.head? = some (report c failure) := by
  induction cells using List.reverseRecOn with
  | nil => exact .inl ⟨rfl, rfl⟩
  | append_singleton cells x ih =>
    have hrunning : ((env.failingFast false).compileCells a cells).stopped = false :=
      running_compileCells rfl a cells
    rw [compileCells_concat, compileCells_concat]
    rcases ih with ⟨hclean, hsame⟩ | ⟨before, c, failure, hfirst, hcut, hhead⟩
    · rw [hsame]
      have houtcome : (env.failingFast true).outcome a ((env.failingFast false).compileCells a cells) x =
          (env.failingFast false).outcome a ((env.failingFast false).compileCells a cells) x := by
        rw [outcome_failingFast, outcome_failingFast]
      rcases ho : (env.failingFast false).outcome a ((env.failingFast false).compileCells a cells) x
        with ⟨failure | u, s⟩
      · -- the first failure: the faster run stops here
        right
        have hslow := compileCell_error hrunning ho
        refine ⟨cells, x, failure, ⟨⟨[], rfl⟩, hclean, by rw [ho]⟩, ?_, ?_⟩
        · rw [compileCell_error hrunning (houtcome.trans ho), compileCells_concat, hslow]
          rfl
        · rw [hslow]
          simp [hclean]
      · left
        have hslow := compileCell_ok hrunning ho
        refine ⟨?_, ?_⟩
        · rw [hslow]
          exact hclean
        · rw [compileCell_ok hrunning (houtcome.trans ho), hslow]
    · -- the faster run has stopped, and the other one only adds failures at the end
      right
      refine ⟨before, c, failure, hfirst.concat x, ?_, ?_⟩
      · rw [compileCell_stopped (by rw [hcut])]
        exact hcut
      · rcases ho : (env.failingFast false).outcome a ((env.failingFast false).compileCells a cells) x
          with ⟨failure' | u, s⟩
        · rw [compileCell_error hrunning ho, Progress.failures_mk, Report.recordFailure_failures,
            List.head?_append, hhead]
          rfl
        · rw [compileCell_ok hrunning ho]
          exact hhead

/-- Until the first failure all cells are compiled, and then there is this failure. -/
theorem FailsFirst.reports {before : List Cell} {failure : Failure}
    (h : env.FailsFirst a cells before c failure) (hf : env.config.failFast = false) :
    (env.compileCells a (before ++ [c])).compiled = before.map Cell.id ∧
      (env.compileCells a (before ++ [c])).failures = [report c failure] := by
  have hbefore := accounts_compileCells hf a before
  rw [h.clean] at hbefore
  rcases ho : env.outcome a (env.compileCells a before) c with ⟨result, s⟩
  have hfails := h.fails
  rw [ho] at hfails
  obtain rfl : result = .error failure := hfails
  rw [compileCells_concat, compileCell_error (running_compileCells hf a before) ho]
  refine ⟨hbefore.eq_of_no_failures, ?_⟩
  show (env.compileCells a before).failures ++ [report c failure] = [report c failure]
  rw [h.clean, List.nil_append]

/-- The cell that fails first writes nothing, in the orders of a compilation. -/
theorem FailsFirst.writes_nothing {before : List Cell} {failure : Failure}
    (h : env.FailsFirst a cells before c failure) (hf : env.config.failFast = false) (ho : a.Orders cells) :
    (env.compileCells a (before ++ [c])).registry = (env.compileCells a before).registry := by
  obtain ⟨after, hsplit⟩ := h.split
  have hnext : before ++ [c] <+: cells := ⟨after, by rw [hsplit]; simp⟩
  rw [compileCells_concat]
  exact failed_cell_writes_nothing env a ho ⟨hnext, running_compileCells hf a before⟩ h.fails

end Environment

/-! ## Reports -/

/-- **A compilation that stopped** after some cells and one that failed: its document is the one that the
other run had then, and if no identifier is used twice, the one from before the failure. -/
structure Compilation.StoppedAt (env : Environment) (a : Alignment) (order before : List Cell) (c : Cell)
    (result : Compilation) : Prop where
  compiled : result.report.compiled = before.map Cell.id
  document : result.document = (env.compileCells a (before ++ [c])).registry.document
  warnings : result.report.warnings = (env.compileCells a (before ++ [c])).registry.warnings
  untouched : a.Orders order → result.document = (env.compileCells a before).registry.document ∧
    result.report.warnings = (env.compileCells a before).registry.warnings

/-- **Accounting for a compilation** in an order, and for the same one when it fails fast: the compiled cells
and the failures are two subsequences of the order and together all of it; each is flagged a success exactly
if it has no failures; failing fast leaves the first failure, and what was there when it came. -/
structure Compilation.Accounted (env : Environment) (a : Alignment) (order : List Cell)
    (full fast : Compilation) : Prop where
  cells : Accounts order full.report.compiled full.report.failures
  compiledInOrder : full.report.compiled.Sublist (order.map Cell.id)
  failedInOrder : (full.report.failures.map CellFailure.cell).Sublist (order.map Cell.id)
  once : (full.report.compiled ++ full.report.failures.map CellFailure.cell).Perm (order.map Cell.id)
  success : full.report.success = true ↔ full.report.failures = []
  fastSuccess : fast.report.success = true ↔ fast.report.failures = []
  same : full.report.failures = [] → fast = full
  first : fast.report.failures = full.report.failures.head?.toList
  stopped : ∀ f ∈ full.report.failures.head?, ∃ before c failure,
    env.FailsFirst a order before c failure ∧ f = Environment.report c failure ∧
      fast.StoppedAt env a order before c

/-- **The order of a run is accounted for**, with and without failing fast. -/
theorem Environment.accounted (env : Environment) (a : Alignment) (order : List Cell) :
    Compilation.Accounted (env.failingFast false) a order ((env.failingFast false).compileCells a order).finish
      ((env.failingFast true).compileCells a order).finish := by
  have hsuccess : ((env.failingFast false).compileCells a order).report.Flagged := flagged_compileCells _ a order
  have hsuccess' : ((env.failingFast true).compileCells a order).report.Flagged := flagged_compileCells _ a order
  have hcells : Accounts order ((env.failingFast false).compileCells a order).compiled
      ((env.failingFast false).compileCells a order).failures := accounts_compileCells rfl a order
  rcases cut_compileCells env a order with ⟨hclean, hsame⟩ | ⟨before, c, failure, hfirst, hcut, hhead⟩
  · refine ⟨hcells, hcells.compiled_sublist, hcells.failed_sublist, hcells.perm, hsuccess, hsuccess',
      fun _ => by rw [hsame], ?_, ?_⟩
    · show ((env.failingFast true).compileCells a order).failures =
        ((env.failingFast false).compileCells a order).failures.head?.toList
      rw [hsame, hclean]
      rfl
    · intro f hf
      have hnone : f ∈ ((env.failingFast false).compileCells a order).failures.head? := hf
      rw [hclean] at hnone
      cases hnone
  · obtain ⟨hcompiled, hfailures⟩ := hfirst.reports rfl
    refine ⟨hcells, hcells.compiled_sublist, hcells.failed_sublist, hcells.perm, hsuccess, hsuccess',
      fun hnone => ?_, ?_, fun f hf => ?_⟩
    · have hclean : ((env.failingFast false).compileCells a order).failures = [] := hnone
      rw [hclean] at hhead
      cases hhead
    · show ((env.failingFast true).compileCells a order).failures =
        ((env.failingFast false).compileCells a order).failures.head?.toList
      rw [hhead, hcut]
      exact hfailures
    · have hf : ((env.failingFast false).compileCells a order).failures.head? = some f := hf
      have hreport : f = report c failure := Option.some.inj (hf.symm.trans hhead)
      -- the faster run is the other one right after the failure
      have hregistry : ((env.failingFast true).compileCells a order).registry =
          ((env.failingFast false).compileCells a (before ++ [c])).registry := by
        rw [hcut]
      refine ⟨before, c, failure, hfirst, hreport, ?_, congrArg Registry.document hregistry,
        congrArg Registry.warnings hregistry, fun horder => ?_⟩
      · show ((env.failingFast true).compileCells a order).compiled = before.map Cell.id
        rw [hcut]
        exact hcompiled
      · have hkept := hregistry.trans (hfirst.writes_nothing rfl horder)
        exact ⟨congrArg Registry.document hkept, congrArg Registry.warnings hkept⟩

/-- **Every report accounts for its cells**, in both orders of a compilation: the cells compiled and the
cells failed are together the order in which they were processed, each cell once, and the report is flagged
a success exactly if none failed. When the compilation fails fast, only the first failure is left, with the
cells compiled and the document built until then. -/
theorem Alignment.report_accounts (a : Alignment) (source target : SchemaIndex) (config : Config) :
    Compilation.Accounted (a.environment source target (config.failingFast false)) a a.typesFirst
        (a.compile source target (config.failingFast false))
        (a.compile source target (config.failingFast true)) ∧
      Compilation.Accounted (a.environment source target (config.failingFast false)) a a.cells
        (a.compileInOrder source target (config.failingFast false))
        (a.compileInOrder source target (config.failingFast true)) :=
  ⟨(a.environment source target config).accounted a a.typesFirst,
    (a.environment source target config).accounted a a.cells⟩

end FeatureAlignment
