import FeatureAlignment.Proofs.Alignment.Validation
import FeatureAlignment.Proofs.Compilation.Atomicity
import FeatureAlignment.Proofs.Compilation.Explained

/-!
# Validated alignments compile without structural failures

The check of an alignment and its compilation look at the same things in different places. The check takes all
conditions on all entities; the compilation takes those that a path collects and those of the sources, joined
into one conjunction. Functions and targets are looked up wherever they are needed, those of the type cell
together with those of the property cell. All of this comes from the cells of the alignment, so what the
check lets pass is not refused later.

* `Cell.WellFormed.structure_sound`: no structure of a well-formed cell fails.
* `Environment.outcome_not_structural`: nor does any cell of a well-formed alignment fail structurally.
* `Alignment.validate_sound_complete`: what the check finds, and what it keeps out of every report.
-/

namespace FeatureAlignment

variable {env : Environment} {a : Alignment} {c : Cell} {p : Progress}

/-- **The structure of a well-formed cell does not fail.** -/
theorem Cell.WellFormed.structure_sound (h : c.WellFormed) (env : Environment) (S : Failure → Prop) :
    c.Structure env S := by
  obtain ⟨target, hmem, htarget⟩ := h.targetEntity
  obtain ⟨f, hf⟩ := h.function
  have hrequire : Function.require c.function = .ok f := by
    unfold Function.require
    rw [hf]
  refine ⟨?_, ?_, fun target' place e htarget' hplace => ?_⟩
  · rw [htarget]
    exact .ok target
  · rw [hrequire]
    exact .ok f
  · rw [htarget] at htarget'
    cases htarget'
    obtain ⟨restricted, hrestricted⟩ := h.guarded hmem hplace e
    rw [hrestricted]
    exact .ok restricted

namespace Environment

/-- **No cell of a well-formed alignment fails structurally**, whatever the registry holds so far: neither
its own structure does nor that of its type cell, which is a cell of the alignment as well. -/
theorem outcome_not_structural (ha : a.WellFormed) (h : p.registry.Sound env) (hc : c ∈ a.cells) :
    Fails (fun failure => failure.isStructural = false) (env.outcome a p c).1 := by
  have hS : Admits (fun failure => failure.isStructural = false) := by
    intro failure hregular
    unfold Failure.isRegular at hregular
    simpa using (Bool.and_eq_true_iff.1 hregular).2
  have hstructure := fun x hx => (ha.cells x hx).structure_sound env (fun failure => failure.isStructural = false)
  refine fails_outcome hS rfl (fun _ => rfl) h (hstructure c hc) fun t husable => ?_
  obtain ⟨⟨ht, -⟩, -⟩ := usableTypeCell_ok husable
  exact (hstructure t ht).target

/-- **The failures of a run over cells of a well-formed alignment** are none of them structural: each is that
of a cell to which the run has come, and no such cell fails structurally. -/
structure StructureKept (env : Environment) (a : Alignment) (order : List Cell) (failures : List CellFailure) :
    Prop where
  reported : ∀ f ∈ failures, ∃ before c failure, env.Processes a order before c ∧
    (env.outcome a (env.compileCells a before) c).1 = .error failure ∧ f = report c failure
  regular : ∀ before c failure, env.Processes a order before c →
    (env.outcome a (env.compileCells a before) c).1 = .error failure →
      (∀ name, failure ≠ .unknownFunction name) ∧ (∀ fault, failure ≠ .invalidCondition fault) ∧
        ∀ cell, failure ≠ .invalidCell cell .noTarget

theorem structureKept (env : Environment) (ha : a.WellFormed) {order : List Cell} (ho : order ⊆ a.cells) :
    env.StructureKept a order (env.compileCells a order).failures := by
  refine ⟨failures_compileCells env a order, fun before c failure hp hfails => ?_⟩
  have hmem : c ∈ a.cells := ho (hp.next.subset (List.mem_append_right _ (List.mem_singleton.2 rfl)))
  have hnot := outcome_not_structural ha (sound_compileCells env a before) hmem failure hfails
  refine ⟨?_, ?_, ?_⟩
  · rintro name rfl
    cases hnot
  · rintro fault rfl
    cases hnot
  · rintro cell rfl
    cases hnot

end Environment

/-- **The check of an alignment is sound and complete for its structure.** It finds no error just when
identifiers are pairwise distinct and every cell has a target, a known function, and only conditions that
pass their check, on its entities and on their steps. And when it finds none, no schemas, no configuration
and neither order of compilation bring up an unknown function, a refused condition or a missing target. -/
theorem Alignment.validate_sound_complete (a : Alignment) :
    ((∀ i ∈ a.validate, i.severity ≠ .error) ↔
      (a.cells.map Cell.id).Nodup ∧ ∀ c ∈ a.cells, c.target ≠ [] ∧ (∃ f, Function.ofName? c.function = some f) ∧
        ∀ e ∈ c.source ++ c.target, ∀ t, (e.condition = some t ∨ ∃ s ∈ e.path, s.condition = some t) →
          t.check = .ok ()) ∧
    ((∀ i ∈ a.validate, i.severity ≠ .error) → ∀ (source target : SchemaIndex) (config : Config),
      (a.environment source target config).StructureKept a a.typesFirst
          (a.compile source target config).report.failures ∧
        (a.environment source target config).StructureKept a a.cells
          (a.compileInOrder source target config).report.failures) := by
  constructor
  · refine a.clean_validate.trans ⟨fun h => ⟨h.ids, fun c hc => ?_⟩, fun ⟨hids, hcells⟩ => ⟨hids, fun c hc => ?_⟩⟩
    · exact ⟨(h.cells c hc).target, (h.cells c hc).function, (h.cells c hc).conditions⟩
    · exact ⟨(hcells c hc).1, (hcells c hc).2.1, (hcells c hc).2.2⟩
  · intro hclean source target config
    have ha := a.clean_validate.1 hclean
    have htypes : a.typesFirst ⊆ a.cells := by
      intro c hc
      rcases List.mem_append.1 hc with hc | hc
      · exact List.mem_of_mem_filter hc
      · exact List.mem_of_mem_filter hc
    exact ⟨Environment.structureKept _ ha htypes, Environment.structureKept _ ha (List.Subset.refl _)⟩

/-- The alignment with a path that is not in the schema is well-formed. Its failure is no structural one. -/
theorem Roads.broken_not_structural :
    (alignment broken).validate = [] ∧
      ((alignment broken).compile source target ⟨.empty, "LINK", none, false, .xml⟩).report.failures =
        [Environment.report broken (.unresolvedPath "Road" "" "middle")] ∧
      (environment broken).StructureKept (alignment broken) (alignment broken).typesFirst
        ((alignment broken).compile source target ⟨.empty, "LINK", none, false, .xml⟩).report.failures := by
  have hclean : (alignment broken).validate = [] := by decide +kernel
  have hnone : ∀ i ∈ (alignment broken).validate, i.severity ≠ .error := by
    rw [hclean]
    exact fun i hi => by cases hi
  exact ⟨hclean, by decide +kernel, ((alignment broken).validate_sound_complete.2 hnone source target _).1⟩

end FeatureAlignment
