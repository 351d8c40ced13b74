import Mathlib.Data.List.Nodup
import FeatureAlignment.Proofs.Compilation.Run

/-!
# Cells that fail write nothing

A property cell places its expression only if its type cell has been compiled, and then the
target type has its mapping. So a failure, wherever it comes from, leaves the registry as it
was.

* `Alignment.Orders`: the orders in which an alignment is compiled, as far as identifiers tell
  the type cells apart.
* `Environment.usable_maps`: a usable type cell has mapped its target type.
* `Environment.failed_cell_writes_nothing`: the main statement.
-/

namespace FeatureAlignment

variable {env : Environment} {a : Alignment} {c t : Cell}

/-- **The orders of a compilation**: type cells first, or as the cells come if their identifiers
differ. -/
inductive Alignment.Orders (a : Alignment) : List Cell → Prop
  | typesFirst : a.Orders a.typesFirst
  | asTheyCome : (a.cells.map Cell.id).Nodup → a.Orders a.cells

theorem Alignment.owningTypeCell_ok (h : a.owningTypeCell c = .ok t) : t ∈ a.cells ∧ t.isTypeCell = true := by
  unfold owningTypeCell at h
  obtain ⟨target, -, h⟩ := Build.except_bind_ok.1 h
  split at h
  · rename_i t' ht
    cases h
    exact List.mem_filter.1 (List.mem_of_find?_eq_some ht)
  · cases h

/-- **Type cells come first**: in that order they all come before any property cell. -/
theorem Alignment.types_before {before after : List Cell} (h : a.typesFirst = before ++ c :: after)
    (hc : c.isTypeCell = false) (hmem : t ∈ a.cells) (htype : t.isTypeCell = true) : t ∈ before := by
  have ht : t ∈ a.cells.filter Cell.isTypeCell := List.mem_filter.2 ⟨hmem, htype⟩
  rcases List.append_eq_append_iff.1 h.symm with ⟨rest, htypes, hrest⟩ | ⟨rest, hbefore, -⟩
  · -- the property cell itself would be a type cell
    cases rest with
    | nil => rw [htypes, List.append_nil] at ht; exact ht
    | cons x rest =>
      obtain ⟨rfl, -⟩ := List.cons.inj hrest
      have hcmem : c ∈ a.cells.filter Cell.isTypeCell := by rw [htypes]; simp
      rw [(List.mem_filter.1 hcmem).2] at hc
      cases hc
  · rw [hbefore]
    exact List.mem_append_left _ ht

namespace Environment

theorem usableTypeCell_ok {p : Progress} (h : usableTypeCell a p c = .ok t) :
    (t ∈ a.cells ∧ t.isTypeCell = true) ∧ t.id ∉ p.failed ∧ t.id ∈ p.established := by
  unfold usableTypeCell at h
  obtain ⟨t', ht, h⟩ := Build.except_bind_ok.1 h
  simp only at h
  split at h
  · cases h
  rename_i hfailed
  split at h
  · cases h
  rename_i hestablished
  cases h
  exact ⟨Alignment.owningTypeCell_ok ht, by simpa using hfailed, by simpa using hestablished⟩

/-- **A usable type cell has come by.** -/
theorem usable_mem {order before : List Cell} (ho : a.Orders order) (hp : env.Processes a order before c)
    (hc : c.isTypeCell = false) (h : usableTypeCell a (env.compileCells a before) c = .ok t) : t ∈ before := by
  obtain ⟨⟨hmem, htype⟩, -, hestablished⟩ := usableTypeCell_ok h
  obtain ⟨after, hafter⟩ := hp.next
  cases ho with
  | typesFirst =>
    have hsplit : a.typesFirst = before ++ c :: after := by rw [← hafter]; simp
    exact Alignment.types_before hsplit hc hmem htype
  | asTheyCome hids =>
    -- the established cell with this identifier can only be `t`
    obtain ⟨t', ht', hid⟩ := (tracks_compileCells env a before).established _ hestablished
    have hmem' : t' ∈ a.cells := by
      rw [← hafter]
      exact List.mem_append_left _ (List.mem_append_left _ ht')
    have heq : t' = t := List.inj_on_of_nodup_map hids hmem' hmem hid
    rw [← heq]
    exact ht'

/-- **A usable type cell has mapped its target type.** -/
theorem usable_maps {order before : List Cell} (ho : a.Orders order) (hp : env.Processes a order before c)
    (hc : c.isTypeCell = false) (h : usableTypeCell a (env.compileCells a before) c = .ok t) :
    ∃ target, t.targetEntity = .ok target ∧ (env.compileCells a before).registry.Maps target.type := by
  have hmem := usable_mem ho hp hc h
  obtain ⟨⟨-, htype⟩, hfailed, -⟩ := usableTypeCell_ok h
  rcases (tracks_compileCells env a before).typed hp.running t hmem htype with hf | hmaps
  · exact absurd hf hfailed
  · exact hmaps

end Environment

/-- **A cell that fails writes nothing.** Whatever the failure, the registry after the cell is the
registry before it. -/
theorem Environment.failed_cell_writes_nothing (env : Environment) (a : Alignment) {order before : List Cell}
    {c : Cell} {failure : Failure} (ho : a.Orders order) (hp : env.Processes a order before c)
    (hf : (env.outcome a (env.compileCells a before) c).1 = .error failure) :
    (env.compileCell a (env.compileCells a before) c).registry = (env.compileCells a before).registry := by
  have hs := sound_compileCells env a before
  rw [registry_compileCell hp.running]
  rcases houtcome : env.outcome a (env.compileCells a before) c with ⟨result, s⟩
  rw [houtcome] at hf
  obtain rfl : result = .error failure := hf
  rcases outcome_error hs houtcome with hsame | ⟨hc, t, entity, type, m, husable, hentity, hm⟩
  · exact hsame
  · -- the target type of a usable type cell is mapped, so its mapping is only found again
    obtain ⟨entity', hentity', hmaps⟩ := usable_maps ho hp hc husable
    rw [hentity] at hentity'
    cases hentity'
    obtain ⟨m', -, hkept⟩ := hmaps.ensureMapping env type
    rw [hm] at hkept
    exact (Prod.mk.inj hkept).2

/-- A cell with a path that is not in the schema, after the join and the lanes on the left. -/
def Roads.broken : Cell := Roads.rename "broken" "RoadRow" "name" ["middle"]

theorem Roads.broken_writes_nothing :
    ((environment broken).outcome (alignment broken)
        ((environment broken).compileCells (alignment broken) [join, leftWidth]) broken).1 =
      .error (.unresolvedPath "Road" "" "middle") ∧
    ((environment broken).compileCell (alignment broken)
        ((environment broken).compileCells (alignment broken) [join, leftWidth]) broken).registry =
      ((environment broken).compileCells (alignment broken) [join, leftWidth]).registry := by
  have hf : ((environment broken).outcome (alignment broken)
      ((environment broken).compileCells (alignment broken) [join, leftWidth]) broken).1 =
      .error (.unresolvedPath "Road" "" "middle") := rfl
  have hp : (environment broken).Processes (alignment broken) (alignment broken).typesFirst
      [join, leftWidth] broken := ⟨⟨[], rfl⟩, by decide +kernel⟩
  exact ⟨hf, Environment.failed_cell_writes_nothing (environment broken) (alignment broken) .typesFirst hp hf⟩

end FeatureAlignment
