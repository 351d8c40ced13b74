import FeatureAlignment.Proofs.Compilation.Accounting
import FeatureAlignment.Proofs.Compilation.Explained

/-!
# How failures spread

A property cell relies on one type cell: the first one in the alignment that covers it. If that one has
failed, the property cell fails with it, and not otherwise; if there is none, the property cell fails for want
of it. All else that can go wrong with a property cell is its own, and reported as such.

The run keeps identifiers of type cells in two lists, and goes over an order of its own. What the lists say is
what the report says (`Judges`), if no identifier is used twice; and type cells come before property cells.

* `Cell.Covers`, `Alignment.FirstCovers`: the type cell of a property cell.
* `Alignment.Reliance`: what a property cell can rely on, given the failures of a report.
* `Environment.reliance`: that is what a run does.
* `Alignment.failures_spread`: the main statement.
-/

namespace FeatureAlignment

variable {env : Environment} {a : Alignment} {c t t' : Cell} {p : Progress} {cells : List Cell}

/-! ## The type cell of a property cell -/

/-- **A type cell covers a cell**: both have one target type, and it reads all types that the cell reads. -/
structure Cell.Covers (t c : Cell) : Prop where
  typeCell : t.isTypeCell = true
  target : ∃ e ∈ t.target.head?, ∃ e' ∈ c.target.head?, e.type = e'.type
  sources : ∀ s ∈ c.source, ∃ s' ∈ t.source, s'.type = s.type

instance (t c : Cell) : Decidable (t.Covers c) :=
  decidable_of_iff (t.isTypeCell = true ∧ (∃ e ∈ t.target.head?, ∃ e' ∈ c.target.head?, e.type = e'.type) ∧
      ∀ s ∈ c.source, ∃ s' ∈ t.source, s'.type = s.type)
    ⟨fun h => ⟨h.1, h.2.1, h.2.2⟩, fun h => ⟨h.typeCell, h.target, h.sources⟩⟩

/-- **The first type cell that covers a cell**, in the alignment. -/
def Alignment.FirstCovers (a : Alignment) (t c : Cell) : Prop :=
  t.Covers c ∧ ∃ before after, a.cells = before ++ t :: after ∧ ∀ x ∈ before, ¬ x.Covers c

/-- A cell whose function is known and fills in properties. -/
def Cell.FillsIn (c : Cell) : Prop :=
  ∃ f, Function.ofName? c.function = some f ∧ f.supports .propertyTransformation = true

theorem Cell.mem_sourceTypes {type : QName} : type ∈ c.sourceTypes ↔ ∃ e ∈ c.source, e.type = type := by
  unfold sourceTypes
  rw [List.mem_eraseDups, List.mem_map]

theorem Cell.targetEntity_cons {e : Entity} (h : c.target.head? = some e) : c.targetEntity = .ok e := by
  unfold targetEntity
  cases htarget : c.target with
  | nil => rw [htarget] at h; cases h
  | cons e' rest =>
    rw [htarget] at h
    cases h
    rfl

/-- What the search for a type cell looks at. -/
theorem Cell.covers_iff {e : Entity} (h : c.target.head? = some e) :
    (t.isTypeCell = true ∧ t.covers e.type c = true) ↔ t.Covers c := by
  have hsources : c.sourceTypes.all (fun type => t.sourceTypes.contains type) = true ↔
      ∀ s ∈ c.source, ∃ s' ∈ t.source, s'.type = s.type := by
    simp [List.all_eq_true, mem_sourceTypes]
  have htarget : (t.target.head?.map Entity.type == some e.type) = true ↔
      ∃ d ∈ t.target.head?, ∃ e' ∈ c.target.head?, d.type = e'.type := by
    simp [h]
  unfold covers
  rw [Bool.and_eq_true, htarget, hsources]
  constructor
  · rintro ⟨htype, htarget, hsources⟩
    exact ⟨htype, htarget, hsources⟩
  · rintro ⟨htype, htarget, hsources⟩
    exact ⟨htype, htarget, hsources⟩

namespace Alignment

theorem FirstCovers.mem (h : a.FirstCovers t c) : t ∈ a.cells := by
  obtain ⟨before, after, hsplit, -⟩ := h.2
  rw [hsplit]
  simp

/-- **The search finds the first type cell that covers**, or none does. -/
theorem owningTypeCell_cases {e : Entity} (h : c.target.head? = some e) :
    (∃ t, a.FirstCovers t c ∧ a.owningTypeCell c = .ok t) ∨
      (∀ t ∈ a.cells, ¬ t.Covers c) ∧ a.owningTypeCell c = .error (.missingTypeCell c.id) := by
  have hcovers : ∀ t : Cell, decide (t.isTypeCell = true ∧ t.covers e.type c = true) = true ↔ t.Covers c :=
    fun t => decide_eq_true_iff.trans (Cell.covers_iff h)
  unfold owningTypeCell
  rw [Cell.targetEntity_cons h, Build.except_ok_bind, List.find?_filter]
  cases hfind : a.cells.find? (fun t => t.isTypeCell = true ∧ t.covers e.type c = true) with
  | none =>
    right
    refine ⟨fun t ht hcov => ?_, rfl⟩
    exact List.find?_eq_none.1 hfind t ht ((hcovers t).2 hcov)
  | some t =>
    left
    obtain ⟨hfound, before, after, hsplit, hbefore⟩ := List.find?_eq_some_iff_append.1 hfind
    refine ⟨t, ⟨(hcovers t).1 hfound, before, after, hsplit, fun x hx hcov => ?_⟩, rfl⟩
    have hnot := hbefore x hx
    rw [(hcovers x).2 hcov] at hnot
    cases hnot

/-- There is one first type cell at most. -/
theorem FirstCovers.unique (h : a.FirstCovers t c) (h' : a.FirstCovers t' c) : t = t' := by
  obtain ⟨hcov, before, after, hsplit, hbefore⟩ := h
  obtain ⟨hcov', before', after', hsplit', hbefore'⟩ := h'
  -- if one of the beginnings is longer, it contains the other one's type cell
  rcases List.append_eq_append_iff.1 (hsplit.symm.trans hsplit') with ⟨rest, hrest, htail⟩ | ⟨rest, hrest, htail⟩
  · cases rest with
    | nil => exact (List.cons.inj htail).1
    | cons x rest =>
      obtain ⟨rfl, -⟩ := List.cons.inj htail
      exact absurd hcov (hbefore' t (by rw [hrest]; simp))
  · cases rest with
    | nil => exact (List.cons.inj htail).1.symm
    | cons x rest =>
      obtain ⟨rfl, -⟩ := List.cons.inj htail
      exact absurd hcov' (hbefore t' (by rw [hrest]; simp))

end Alignment

namespace Environment

/-! ## What a run knows of its type cells -/

/-- **What the lists of a run say** of its type cells: those established have been compiled, those failed
have been reported, and of those that have come by each is in one of the two lists. -/
structure Judges (cells : List Cell) (p : Progress) : Prop where
  established : ∀ id ∈ p.established, id ∈ p.compiled
  failed : ∀ id ∈ p.failed, ∃ g ∈ p.failures, g.cell = id
  judged : ∀ t ∈ cells, t.isTypeCell = true → t.id ∈ p.failed ∨ t.id ∈ p.established

/-- A list of type cells after one more cell. -/
theorem mem_noted {ids : List String} {id : String} :
    id ∈ (if c.isTypeCell = true then c.id :: ids else ids) ↔ id ∈ ids ∨ (c.isTypeCell = true ∧ id = c.id) := by
  by_cases hc : c.isTypeCell = true
  · simp [hc, or_comm]
  · simp [hc]

theorem judges_compileCell (h : Judges cells p) (hp : p.stopped = false) (a : Alignment) (c : Cell) :
    Judges (cells ++ [c]) (env.compileCell a p c) := by
  rcases ho : env.outcome a p c with ⟨failure | u, s⟩
  · rw [compileCell_error hp ho]
    refine ⟨h.established, fun id hid => ?_, fun t ht htype => ?_⟩
    · rcases mem_noted.1 hid with hold | ⟨-, rfl⟩
      · obtain ⟨g, hg, hcell⟩ := h.failed id hold
        exact ⟨g, List.mem_append_left _ hg, hcell⟩
      · exact ⟨report c failure, by simp, rfl⟩
    · rcases List.mem_append.1 ht with hold | hnew
      · exact (h.judged t hold htype).imp_left fun hfailed => mem_noted.2 (.inl hfailed)
      · obtain rfl := List.mem_singleton.1 hnew
        exact .inl (mem_noted.2 (.inr ⟨htype, rfl⟩))
  · rw [compileCell_ok hp ho]
    refine ⟨fun id hid => ?_, h.failed, fun t ht htype => ?_⟩
    · rcases mem_noted.1 hid with hold | ⟨-, rfl⟩
      · exact List.mem_append_left _ (h.established id hold)
      · simp
    · rcases List.mem_append.1 ht with hold | hnew
      · exact (h.judged t hold htype).imp_right fun hdone => mem_noted.2 (.inl hdone)
      · obtain rfl := List.mem_singleton.1 hnew
        exact .inr (mem_noted.2 (.inr ⟨htype, rfl⟩))

theorem judges_compileCells (hf : env.config.failFast = false) (a : Alignment) (cells : List Cell) :
    Judges cells (env.compileCells a cells) := by
  induction cells using List.reverseRecOn with
  | nil => exact ⟨fun _ hid => hid, fun _ hid => absurd hid List.not_mem_nil, fun _ ht => absurd ht List.not_mem_nil⟩
  | append_singleton cells c ih =>
    rw [compileCells_concat]
    exact judges_compileCell ih (running_compileCells hf a cells) a c

/-- The lists of a run only grow. -/
theorem lists_subset (hf : env.config.failFast = false) (a : Alignment) (cells more : List Cell) :
    (env.compileCells a cells).compiled ⊆ (env.compileCells a (cells ++ more)).compiled ∧
      (env.compileCells a cells).failures ⊆ (env.compileCells a (cells ++ more)).failures := by
  induction more using List.reverseRecOn with
  | nil =>
    rw [List.append_nil]
    exact ⟨List.Subset.refl _, List.Subset.refl _⟩
  | append_singleton more c ih =>
    have hrunning := running_compileCells hf a (cells ++ more)
    rw [← List.append_assoc, compileCells_concat]
    rcases ho : env.outcome a (env.compileCells a (cells ++ more)) c with ⟨failure | u, s⟩
    · rw [compileCell_error hrunning ho]
      exact ⟨ih.1, List.subset_append_of_subset_left _ ih.2⟩
    · rw [compileCell_ok hrunning ho]
      exact ⟨List.subset_append_of_subset_left _ ih.1, ih.2⟩

/-- **No cell is both compiled and reported**, if no identifier is used twice. -/
theorem not_compiled_and_failed (hf : env.config.failFast = false) (hids : (cells.map Cell.id).Nodup)
    {g : CellFailure} (hg : g ∈ (env.compileCells a cells).failures) :
    g.cell ∉ (env.compileCells a cells).compiled := by
  have hnodup := (accounts_compileCells hf a cells).perm.nodup_iff.2 hids
  intro hcompiled
  exact (List.nodup_append.1 hnodup).2.2 _ hcompiled _ (List.mem_map_of_mem hg) rfl

end Environment

/-! ## What a property cell can rely on -/

/-- **What a property cell can rely on**, given the failures of a report: its type cell, unless that one has
failed or there is none. -/
inductive Alignment.Reliance (a : Alignment) (failures : List CellFailure) (c : Cell) : Except Failure Cell → Prop
  | failed (t : Cell) (h : a.FirstCovers t c) (hfailed : ∃ g ∈ failures, g.cell = t.id) :
      a.Reliance failures c (.error (.dependencyFailed c.id t.id))
  | usable (t : Cell) (h : a.FirstCovers t c) (hcompiled : ∀ g ∈ failures, g.cell ≠ t.id) :
      a.Reliance failures c (.ok t)
  | missing (htarget : c.target ≠ []) (hnone : ∀ t ∈ a.cells, ¬ t.Covers c) :
      a.Reliance failures c (.error (.missingTypeCell c.id))
  | untargeted (htarget : c.target = []) : a.Reliance failures c (.error (.invalidCell c.id .noTarget))

/-- There is one thing to rely on. -/
theorem Alignment.Reliance.unique {failures : List CellFailure} {x y : Except Failure Cell}
    (hx : a.Reliance failures c x) (hy : a.Reliance failures c y) : x = y := by
  -- the cases exclude each other; a covered cell has a target
  have hcovered : ∀ {t : Cell}, a.FirstCovers t c → c.target ≠ [] := by
    rintro t ⟨hcov, -⟩ hnil
    obtain ⟨e, -, e', he', -⟩ := hcov.target
    rw [hnil] at he'
    cases he'
  cases hx with
  | failed t h hfailed =>
    cases hy with
    | failed t' h' => rw [h.unique h']
    | usable t' h' hcompiled =>
      obtain ⟨g, hg, hcell⟩ := hfailed
      obtain rfl := h.unique h'
      exact absurd hcell (hcompiled g hg)
    | missing _ hnone => exact absurd h.1 (hnone t h.mem)
    | untargeted htarget => exact absurd htarget (hcovered h)
  | usable t h hcompiled =>
    cases hy with
    | failed t' h' hfailed =>
      obtain ⟨g, hg, hcell⟩ := hfailed
      obtain rfl := h.unique h'
      exact absurd hcell (hcompiled g hg)
    | usable t' h' => rw [h.unique h']
    | missing _ hnone => exact absurd h.1 (hnone t h.mem)
    | untargeted htarget => exact absurd htarget (hcovered h)
  | missing htarget hnone =>
    cases hy with
    | failed t h => exact absurd h.1 (hnone t h.mem)
    | usable t h => exact absurd h.1 (hnone t h.mem)
    | missing => rfl
    | untargeted hnil => exact absurd hnil htarget
  | untargeted htarget =>
    cases hy with
    | failed t h => exact absurd htarget (hcovered h)
    | usable t h => exact absurd htarget (hcovered h)
    | missing hne => exact absurd htarget hne
    | untargeted => rfl

namespace Environment

/-- **A property cell relies on what the report says**, wherever it comes after the type cells. -/
theorem reliance (hf : env.config.failFast = false) (hids : (a.typesFirst.map Cell.id).Nodup)
    {before after : List Cell} (hsplit : a.typesFirst = before ++ c :: after) (hc : c.isTypeCell = false) :
    a.Reliance (env.compileCells a a.typesFirst).failures c (usableTypeCell a (env.compileCells a before) c) := by
  have hjudges := judges_compileCells hf a before
  have hgrow := lists_subset hf a before (c :: after)
  rw [← hsplit] at hgrow
  cases hhead : c.target.head? with
  | none =>
    have htarget : c.target = [] := List.head?_eq_none_iff.1 hhead
    have howning : a.owningTypeCell c = .error (.invalidCell c.id .noTarget) := by
      unfold Alignment.owningTypeCell Cell.targetEntity
      rw [htarget]
      rfl
    unfold usableTypeCell
    rw [howning]
    exact .untargeted htarget
  | some e =>
    rcases Alignment.owningTypeCell_cases hhead with ⟨t, hfirst, howning⟩ | ⟨hnone, howning⟩
    · have htype := hfirst.1.typeCell
      have hmem := Alignment.types_before hsplit hc hfirst.mem htype
      unfold usableTypeCell
      rw [howning, Build.except_ok_bind]
      by_cases hfailed : t.id ∈ (env.compileCells a before).failed
      · -- its failure has been reported
        obtain ⟨g, hg, hcell⟩ := hjudges.failed t.id hfailed
        simp only [List.contains_iff_mem, hfailed]
        exact .failed t hfirst ⟨g, hgrow.2 hg, hcell⟩
      · -- it has been compiled, and then it is not reported
        have hdone := (hjudges.judged t hmem htype).resolve_left hfailed
        have hcompiled := hgrow.1 (hjudges.established t.id hdone)
        have hnot : ∀ g ∈ (env.compileCells a a.typesFirst).failures, g.cell ≠ t.id := by
          intro g hg hcell
          exact not_compiled_and_failed hf hids hg (hcell ▸ hcompiled)
        have hpasses : ¬ (env.compileCells a before).failed.contains t.id = true := by
          rw [List.contains_iff_mem]
          exact hfailed
        have hgoes : ¬ (!(env.compileCells a before).established.contains t.id) = true := by
          simp [hdone]
        simp only [if_neg hpasses, if_neg hgoes]
        exact .usable t hfirst hnot
    · have htarget : c.target ≠ [] := by
        intro hnil
        rw [hnil] at hhead
        cases hhead
      unfold usableTypeCell
      rw [howning]
      exact .missing htarget hnone

/-! ## Which failures come from another cell -/

/-- A cell whose function fills in properties goes on to its type cell. -/
theorem compileProperty_fillsIn {f : Function} (hf : Function.ofName? c.function = some f)
    (hsupports : f.supports .propertyTransformation = true) (r : Registry) :
    (env.compileProperty a p c).on r =
      match usableTypeCell a p c with
      | .error failure => (.error failure, r)
      | .ok t => (c.fill env t f >>= fun _ => pure ()).on r := by
  have hrequire : Function.require c.function = .ok f := by
    unfold Function.require
    rw [hf]
  have hgoes : ¬ (!f.supports .propertyTransformation) = true := by simp [hsupports]
  unfold compileProperty
  rw [Build.on_except_bind, hrequire]
  simp only [if_neg hgoes]
  rw [Build.on_except_bind]
  cases usableTypeCell a p c with
  | error failure => rfl
  | ok t => rfl

/-- Any other cell is refused for itself. -/
theorem own_compileProperty (h : ¬ c.FillsIn) (a : Alignment) (p : Progress) (r : Registry) :
    Own ((env.compileProperty a p c).on r).1 := by
  unfold compileProperty
  refine .on_check (Function.own_require _) fun f hf => ?_
  have hrefused : (!f.supports .propertyTransformation) = true := by
    cases hsupports : f.supports .propertyTransformation with
    | false => rfl
    | true => exact absurd ⟨f, Function.require_ok hf, hsupports⟩ h
  rw [if_pos hrefused]
  exact .on_bind (.on_throw rfl) fun _ _ hthrown => by cases hthrown

/-- **A property cell fails because of another cell** exactly when its function fills in properties and it
cannot rely on a type cell. -/
theorem outcome_not_own (hs : p.registry.Sound env) (hc : c.isTypeCell = false) {failure : Failure}
    (hkind : failure.kind.isOwn = false) :
    (env.outcome a p c).1 = .error failure ↔ c.FillsIn ∧ usableTypeCell a p c = .error failure := by
  have hnot : ∀ {α : Type} {x : Except Failure α}, Own x → x ≠ .error failure := by
    intro α x hown h
    rw [hown failure h] at hkind
    cases hkind
  have houtcome : env.outcome a p c = (env.compileProperty a p c).on p.registry := by
    unfold outcome
    rw [hc]
    rfl
  rw [houtcome]
  by_cases hfills : c.FillsIn
  · have ⟨f, hf, hsupports⟩ := hfills
    rw [compileProperty_fillsIn hf hsupports]
    cases husable : usableTypeCell a p c with
    | error failure' => simp [hfills]
    | ok t =>
      -- with a type cell all that can fail is filling in, and that is the cell's own
      have hown : Own ((c.fill env t f >>= fun _ => pure ()).on p.registry).1 :=
        .on_bind (own_fill hs c t f) fun _ _ _ => .ok ()
      constructor
      · exact fun h => absurd h (hnot hown)
      · rintro ⟨-, h⟩
        cases h
  · constructor
    · exact fun h => absurd h (hnot (own_compileProperty hfills a p p.registry))
    · exact fun h => absurd h.1 hfills

/-- A cell's failure in a report is its outcome, at any place where the cell comes. -/
theorem reported_iff (hf : env.config.failFast = false) (hids : (cells.map Cell.id).Nodup) (hc : c ∈ cells)
    {f : CellFailure} : f ∈ (env.compileCells a cells).failures ∧ f.cell = c.id ↔
      ∃ before after failure, cells = before ++ c :: after ∧
        (env.outcome a (env.compileCells a before) c).1 = .error failure ∧ f = report c failure := by
  rw [mem_failures_iff hf]
  constructor
  · rintro ⟨⟨before, x, after, failure, hsplit, hfails, rfl⟩, hcell⟩
    have hx : x ∈ cells := by rw [hsplit]; simp
    obtain rfl : x = c := List.inj_on_of_nodup_map hids hx hc hcell
    exact ⟨before, after, failure, hsplit, hfails, rfl⟩
  · rintro ⟨before, after, failure, hsplit, hfails, rfl⟩
    exact ⟨⟨before, c, after, failure, hsplit, hfails, rfl⟩, rfl⟩

/-- **A failure because of another cell** is reported exactly when a cell cannot rely on a type cell. -/
theorem reported_not_own (hf : env.config.failFast = false) (hids : (a.typesFirst.map Cell.id).Nodup)
    (hmem : c ∈ a.typesFirst) (hc : c.isTypeCell = false) {kind : FailureKind} (hkind : kind.isOwn = false)
    {f : CellFailure} :
    (f ∈ (env.compileCells a a.typesFirst).failures ∧ f.cell = c.id ∧ f.kind = kind) ↔
      c.FillsIn ∧ ∃ failure, failure.kind = kind ∧ f = report c failure ∧
        a.Reliance (env.compileCells a a.typesFirst).failures c (.error failure) := by
  have hreport : (f ∈ (env.compileCells a a.typesFirst).failures ∧ f.cell = c.id ∧ f.kind = kind) ↔
      ((f ∈ (env.compileCells a a.typesFirst).failures ∧ f.cell = c.id) ∧ f.kind = kind) := and_assoc.symm
  rw [hreport, reported_iff hf hids hmem]
  constructor
  · rintro ⟨⟨before, after, failure, hsplit, hfails, rfl⟩, hk⟩
    have hk : failure.kind = kind := hk
    have hown : failure.kind.isOwn = false := by rw [hk]; exact hkind
    obtain ⟨hfills, husable⟩ := (outcome_not_own (sound_compileCells env a before) hc hown).1 hfails
    have hreliance := reliance hf hids hsplit hc
    rw [husable] at hreliance
    exact ⟨hfills, failure, hk, rfl, hreliance⟩
  · rintro ⟨hfills, failure, rfl, rfl, hreliance⟩
    obtain ⟨before, after, hsplit⟩ := List.append_of_mem hmem
    have husable := (reliance hf hids hsplit hc).unique hreliance
    have hfails := (outcome_not_own (sound_compileCells env a before) hc hkind).2 ⟨hfills, husable⟩
    exact ⟨⟨before, after, failure, hsplit, hfails, rfl⟩, rfl⟩

end Environment

namespace Alignment

/-- Both orders have the same cells. -/
theorem typesFirst_perm (a : Alignment) : a.typesFirst.Perm a.cells := List.filter_append_perm _ _

/-- **Failures spread from type cells to the cells that rely on them, and no further.** Without failing fast,
and with no identifier used twice, a property cell fails for another cell's sake if and only if its function
fills in properties and the first type cell that covers it has failed; that one is named. And with such a
function it fails for want of a type cell if and only if it has a target and nothing covers it. -/
theorem failures_spread (a : Alignment) (source target : SchemaIndex) (config : Config)
    (hfast : config.failFast = false) (hids : (a.cells.map Cell.id).Nodup) {c : Cell} (hmem : c ∈ a.cells)
    (hc : c.isTypeCell = false) :
    (∀ f, (f ∈ (a.compile source target config).report.failures ∧ f.cell = c.id ∧ f.kind = .dependencyFailed) ↔
      c.FillsIn ∧ ∃ t, a.FirstCovers t c ∧
        (∃ g ∈ (a.compile source target config).report.failures, g.cell = t.id) ∧
        f = Environment.report c (.dependencyFailed c.id t.id)) ∧
    (c.FillsIn → ∀ f,
      (f ∈ (a.compile source target config).report.failures ∧ f.cell = c.id ∧ f.kind = .ordering) ↔
        (c.target ≠ [] ∧ ∀ t ∈ a.cells, ¬ t.Covers c) ∧ f = Environment.report c (.missingTypeCell c.id)) := by
  have hperm := a.typesFirst_perm
  have hids' : (a.typesFirst.map Cell.id).Nodup := (hperm.map Cell.id).nodup_iff.2 hids
  have hreported : ∀ {kind : FailureKind}, kind.isOwn = false → ∀ f,
      (f ∈ (a.compile source target config).report.failures ∧ f.cell = c.id ∧ f.kind = kind) ↔
        c.FillsIn ∧ ∃ failure, failure.kind = kind ∧ f = Environment.report c failure ∧
          a.Reliance (a.compile source target config).report.failures c (.error failure) :=
    fun hkind f => Environment.reported_not_own hfast hids' (hperm.mem_iff.2 hmem) hc hkind
  refine ⟨fun f => ?_, fun hfills f => ?_⟩
  · rw [hreported rfl f]
    refine and_congr_right fun _ => ?_
    constructor
    · rintro ⟨failure, hkind, rfl, hreliance⟩
      cases hreliance with
      | failed t hfirst hfailed => exact ⟨t, hfirst, hfailed, rfl⟩
      | missing => cases hkind
      | untargeted => cases hkind
    · rintro ⟨t, hfirst, hfailed, rfl⟩
      exact ⟨_, rfl, rfl, .failed t hfirst hfailed⟩
  · rw [hreported rfl f]
    constructor
    · rintro ⟨-, failure, hkind, rfl, hreliance⟩
      cases hreliance with
      | failed => cases hkind
      | missing htarget hnone => exact ⟨⟨htarget, hnone⟩, rfl⟩
      | untargeted => cases hkind
    · rintro ⟨⟨htarget, hnone⟩, rfl⟩
      exact ⟨hfills, _, rfl, rfl, .missing htarget hnone⟩

end Alignment

namespace Roads

/-- A join by a property that roads do not have. -/
def torn : Cell :=
  { join with parameters := ⟨[("join", [.join ⟨[⟨"RoadRow"⟩, ⟨"LaneRow"⟩],
      [⟨property "RoadRow" ["number"], property "LaneRow" ["road"]⟩]⟩])]⟩ }

/-- The width of a lane as such, for which there is no type cell. -/
def stray : Cell := ⟨"stray", "rename", [property "LaneRow" ["width"]], [property "Lane" ["width"]], .empty⟩

/-- The torn join, the lanes on the left, and a lane as such. -/
def tornAlignment : Alignment := ⟨none, [torn, leftWidth, stray]⟩

/-- The lanes on the left fail with the join, and the lane as such for want of a type cell. -/
theorem torn_spreads :
    (tornAlignment.cells.map Cell.id).Nodup ∧
    Environment.report leftWidth (.dependencyFailed "left" "join") ∈
      (tornAlignment.compile source target ⟨.empty, "LINK", none, false, .xml⟩).report.failures ∧
    Environment.report stray (.missingTypeCell "stray") ∈
      (tornAlignment.compile source target ⟨.empty, "LINK", none, false, .xml⟩).report.failures := by
  have hids : (tornAlignment.cells.map Cell.id).Nodup := by decide
  have hleft := Alignment.failures_spread tornAlignment source target ⟨.empty, "LINK", none, false, .xml⟩ rfl hids
    (by simp [tornAlignment] : leftWidth ∈ tornAlignment.cells) (by decide)
  have hstray := Alignment.failures_spread tornAlignment source target ⟨.empty, "LINK", none, false, .xml⟩ rfl hids
    (by simp [tornAlignment] : stray ∈ tornAlignment.cells) (by decide)
  have hcovers : torn.Covers leftWidth := by decide
  have hfails : ∃ g ∈ (tornAlignment.compile source target ⟨.empty, "LINK", none, false, .xml⟩).report.failures,
      g.cell = "join" := by
    decide +kernel
  have huncovered : ∀ t ∈ tornAlignment.cells, ¬ t.Covers stray := by decide
  refine ⟨hids, ?_, ?_⟩
  · exact ((hleft.1 _).2 ⟨⟨.rename, rfl, rfl⟩, torn, ⟨hcovers, [], _, rfl, by simp⟩, hfails, rfl⟩).1
  · exact ((hstray.2 ⟨.rename, rfl, rfl⟩ _).2 ⟨⟨by decide, huncovered⟩, rfl⟩).1

end Roads

end FeatureAlignment
