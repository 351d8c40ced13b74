import Mathlib.Data.List.Induction
import FeatureAlignment.Proofs.Cell.Effect

/-!
# Runs of a compilation

What holds after every cell of a run, in whatever order the cells come.

* `Environment.Processes`: the run comes to a cell.
* `Environment.sound_compileCells`, `Environment.extends_compileCell`: the registry is sound after
  every cell, and each cell extends it.
* `Environment.registry_invariant`: both, after each cell of a run.
* `Environment.tracks_compileCells`: what the run knows about its type cells.
* `Roads`: a small case for the theorems about runs.
-/

namespace FeatureAlignment

open Registry (Tables Quiet)

variable {env : Environment} {a : Alignment} {c : Cell}

/-! ## What is noted in a report -/

namespace Report

variable (r : Report) (cell : String) (f : CellFailure)

@[simp] theorem recordCompiled_compiled : (r.recordCompiled cell).compiled = r.compiled ++ [cell] := rfl

@[simp] theorem recordCompiled_failures : (r.recordCompiled cell).failures = r.failures := rfl

@[simp] theorem recordFailure_compiled : (r.recordFailure f).compiled = r.compiled := rfl

@[simp] theorem recordFailure_failures : (r.recordFailure f).failures = r.failures ++ [f] := rfl

end Report

namespace Progress

variable (registry : Registry) (established failed : List String) (r : Report) (stopped : Bool)

@[simp] theorem compiled_mk : (mk registry established failed r stopped).compiled = r.compiled := rfl

@[simp] theorem failures_mk : (mk registry established failed r stopped).failures = r.failures := rfl

end Progress

/-! ## Soundness -/

theorem Cell.Deposited.sound {place : ResolvedPath} {text key : String} {r s : Registry}
    (h : Cell.Deposited env place text r s key) (hr : r.Sound env) : s.Sound env :=
  hr.grow h.tables h.grows h.links

/-- Every effect leaves a sound registry sound. -/
theorem Cell.Effect.sound {r s : Registry} (h : c.Effect env r s) (hr : r.Sound env) : s.Sound env := by
  cases h with
  | retyped target _ _ _ hq _ => exact hr.quiet hq
  | joined plans target t _ _ _ _ ht hq _ => exact ht.quiet hq
  | placed f target e restricted place t key _ _ _ _ _ hq _ _ hd => exact hd.sound (hr.quiet hq)

namespace Environment

variable {p : Progress}

/-- **A cell leaves the registry sound**, also when it fails. -/
theorem sound_outcome (h : p.registry.Sound env) (a : Alignment) (c : Cell) :
    (env.outcome a p c).2.Sound env := by
  rcases ho : env.outcome a p c with ⟨failure | u, s⟩
  · rcases outcome_error h ho with rfl | ⟨-, t, target, source, m, -, -, hm⟩
    · exact h
    · exact h.quiet (h.toTables.ensureMapping_ok hm).1
  · exact (outcome_effect h ho).sound h

/-- The registry after a cell is that of its outcome, if the run has not ended. -/
theorem registry_compileCell (hp : p.stopped = false) (a : Alignment) (c : Cell) :
    (env.compileCell a p c).registry = (env.outcome a p c).2 := by
  unfold compileCell
  rw [hp]
  rcases env.outcome a p c with ⟨failure | u, s⟩ <;> rfl

theorem compileCell_stopped (hp : p.stopped = true) (a : Alignment) (c : Cell) :
    env.compileCell a p c = p := by
  unfold compileCell; rw [if_pos hp]

theorem compileCell_ok {s : Registry} (hp : p.stopped = false) (ho : env.outcome a p c = (.ok (), s)) :
    env.compileCell a p c = { p with
      registry := s
      established := if c.isTypeCell then c.id :: p.established else p.established
      report := p.report.recordCompiled c.id } := by
  unfold compileCell; rw [hp, ho]; rfl

theorem compileCell_error {s : Registry} {failure : Failure} (hp : p.stopped = false)
    (ho : env.outcome a p c = (.error failure, s)) :
    env.compileCell a p c = { p with
      registry := s
      failed := if c.isTypeCell then c.id :: p.failed else p.failed
      report := p.report.recordFailure (report c failure)
      stopped := env.config.failFast } := by
  unfold compileCell; rw [hp, ho]; rfl

theorem sound_compileCell (h : p.registry.Sound env) (a : Alignment) (c : Cell) :
    (env.compileCell a p c).registry.Sound env := by
  cases hp : p.stopped with
  | true => rw [compileCell_stopped hp]; exact h
  | false => rw [registry_compileCell hp]; exact sound_outcome h a c

/-- **A cell extends the registry**, also when it fails. -/
theorem extends_compileCell (env : Environment) (a : Alignment) (p : Progress) (c : Cell) :
    p.registry.Extends (env.compileCell a p c).registry := by
  cases hp : p.stopped with
  | true => rw [compileCell_stopped hp]; exact .refl _
  | false => rw [registry_compileCell hp]; exact (Registry.elementary_extends env).outcome a p c

/-! ## Runs -/

theorem compileCells_concat (env : Environment) (a : Alignment) (cells : List Cell) (c : Cell) :
    env.compileCells a (cells ++ [c]) = env.compileCell a (env.compileCells a cells) c := by
  unfold compileCells; rw [List.foldl_append]; rfl

/-- **The registry is sound after any cells.** -/
theorem sound_compileCells (env : Environment) (a : Alignment) (cells : List Cell) :
    (env.compileCells a cells).registry.Sound env := by
  induction cells using List.reverseRecOn with
  | nil => exact Registry.sound_empty env
  | append_singleton cells c ih => rw [compileCells_concat]; exact sound_compileCell ih a c

/-- **The registry after every cell**, in whatever order the cells come. It is sound: mapped types and
positions of mappings correspond one to one, and so do owner keys and positions of attributes, which
have these keys as targets; client properties have distinct names, links are whole, numbered, between
different pairs of types, and between mapped types. And it extends the registry before the cell. -/
theorem registry_invariant (env : Environment) (a : Alignment) (before : List Cell) (c : Cell) :
    (env.compileCells a (before ++ [c])).registry.Sound env ∧
      (env.compileCells a (before ++ [c])).registry.mappedTypes.Nodup ∧
      (∀ e ∈ (env.compileCells a (before ++ [c])).registry.entries, e.targets.Nodup) ∧
      (env.compileCells a before).registry.Extends (env.compileCells a (before ++ [c])).registry := by
  have hs := sound_compileCells env a (before ++ [c])
  refine ⟨hs, hs.slots.nodup, fun e he => (hs.entries e he).owners.nodup, ?_⟩
  rw [compileCells_concat]
  exact extends_compileCell env a _ c

/-- **The run comes to a cell** after the cells before it in an order. -/
structure Processes (env : Environment) (a : Alignment) (order before : List Cell) (c : Cell) : Prop where
  next : before ++ [c] <+: order
  running : (env.compileCells a before).stopped = false

/-- **What a run knows about its type cells**: those established have come by, and of those that
have come by each has failed or has mapped its target type. -/
structure Tracks (cells : List Cell) (p : Progress) : Prop where
  established : ∀ id ∈ p.established, ∃ t ∈ cells, t.id = id
  typed : p.stopped = false → ∀ t ∈ cells, t.isTypeCell = true → t.id ∈ p.failed ∨
    ∃ target, t.targetEntity = .ok target ∧ p.registry.Maps target.type

/-- At most the cell itself is newly established. -/
theorem established_compileCell {id : String} (h : id ∈ (env.compileCell a p c).established) :
    id ∈ p.established ∨ id = c.id := by
  cases hp : p.stopped with
  | true => rw [compileCell_stopped hp] at h; exact .inl h
  | false =>
    rcases ho : env.outcome a p c with ⟨failure | u, s⟩
    · rw [compileCell_error hp ho] at h; exact .inl h
    · rw [compileCell_ok hp ho] at h
      simp only at h
      split at h
      · exact (List.mem_cons.1 h).symm
      · exact .inl h

/-- What has failed stays so. -/
theorem failed_compileCell {id : String} (h : id ∈ p.failed) (a : Alignment) (c : Cell) :
    id ∈ (env.compileCell a p c).failed := by
  cases hp : p.stopped with
  | true => rw [compileCell_stopped hp]; exact h
  | false =>
    rcases ho : env.outcome a p c with ⟨failure | u, s⟩
    · rw [compileCell_error hp ho]
      simp only
      split
      · exact List.mem_cons_of_mem _ h
      · exact h
    · rw [compileCell_ok hp ho]; exact h

/-- **A type cell that the run comes to** fails, or maps its target type. -/
theorem typed_compileCell (hs : p.registry.Sound env) (hp : p.stopped = false) (ht : c.isTypeCell = true)
    (a : Alignment) : c.id ∈ (env.compileCell a p c).failed ∨
      ∃ target, c.targetEntity = .ok target ∧ (env.compileCell a p c).registry.Maps target.type := by
  rcases ho : env.outcome a p c with ⟨failure | u, s⟩
  · rw [compileCell_error hp ho, if_pos ht]
    exact .inl (List.mem_cons_self ..)
  · rw [compileCell_ok hp ho]
    exact .inr (outcome_maps hs ht ho)

theorem tracks_compileCell {cells : List Cell} (h : Tracks cells p) (hs : p.registry.Sound env)
    (a : Alignment) (c : Cell) : Tracks (cells ++ [c]) (env.compileCell a p c) := by
  refine ⟨fun id hid => ?_, fun hq t ht htype => ?_⟩
  · rcases established_compileCell hid with hid | rfl
    · obtain ⟨t, ht, hti⟩ := h.established id hid
      exact ⟨t, List.mem_append_left _ ht, hti⟩
    · exact ⟨c, List.mem_append_right _ (List.mem_singleton.2 rfl), rfl⟩
  -- a run that goes on after the cell had not ended before it
  have hp : p.stopped = false := by
    cases hp : p.stopped with
    | false => rfl
    | true => rw [compileCell_stopped hp, hp] at hq; cases hq
  rcases List.mem_append.1 ht with ht | ht
  · rcases h.typed hp t ht htype with hf | ⟨target, htarget, hm⟩
    · exact .inl (failed_compileCell hf a c)
    · have hg := extends_compileCell env a p c
      exact .inr ⟨target, htarget, hg.maps hs.keyed (sound_compileCell hs a c).keyed hm⟩
  · rw [List.mem_singleton] at ht
    subst ht
    exact typed_compileCell hs hp htype a

theorem tracks_compileCells (env : Environment) (a : Alignment) (cells : List Cell) :
    Tracks cells (env.compileCells a cells) := by
  induction cells using List.reverseRecOn with
  | nil =>
    refine ⟨fun id hid => ?_, fun _ t ht => ?_⟩
    · cases hid
    · cases ht
  | append_singleton cells c ih =>
    rw [compileCells_concat]
    exact tracks_compileCell ih (sound_compileCells env a cells) a c

end Environment

/-! ## Roads and lanes

A small case for the theorems about runs: a road has lanes on its left and on its right, and a
join of the rows of both brings them together. -/

namespace Roads

/-- An element, of simple content if no type is given. -/
def element (name : String) (type : Option String) : Child :=
  .property ⟨⟨name⟩, type.map QName.mk, false, false⟩

/-- The tables of roads and of their lanes. -/
def source : SchemaIndex :=
  ⟨[⟨⟨"RoadRow"⟩, none, false, false, [element "id" none, element "name" none]⟩,
    ⟨⟨"LaneRow"⟩, none, false, false, [element "road" none, element "width" none]⟩], .empty⟩

/-- Roads with lanes on both sides. -/
def target : SchemaIndex :=
  ⟨[⟨⟨"Road"⟩, none, true, false, [element "left" (some "Side"), element "right" (some "Side")]⟩,
    ⟨⟨"Side"⟩, none, false, false, [element "Lane" (some "Lane")]⟩,
    ⟨⟨"Lane"⟩, none, true, false, [element "width" none]⟩], .empty⟩

/-- A property of a type. -/
def property (type : String) (steps : List String) : Entity :=
  ⟨none, ⟨type⟩, steps.map (fun s => ⟨⟨s⟩, none, none⟩), none⟩

/-- Lanes are joined to their road. -/
def join : Cell :=
  ⟨"join", "join", [.ofType ⟨"RoadRow"⟩, .ofType ⟨"LaneRow"⟩], [.ofType ⟨"Road"⟩],
    ⟨[("join", [.join ⟨[⟨"RoadRow"⟩, ⟨"LaneRow"⟩],
      [⟨property "RoadRow" ["id"], property "LaneRow" ["road"]⟩]⟩])]⟩⟩

/-- A source property goes to a place in the road. -/
def rename (id type name : String) (steps : List String) : Cell :=
  ⟨id, "rename", [property type [name]], [property "Road" steps], .empty⟩

/-- The width of the lanes on the left. -/
def leftWidth : Cell := rename "left" "LaneRow" "width" ["left", "Lane", "width"]

/-- The alignment with the join, the lanes on the left, and a further cell. -/
def alignment (c : Cell) : Alignment := ⟨none, [join, leftWidth, c]⟩

/-- What compiling such an alignment reads. -/
def environment (c : Cell) : Environment :=
  (alignment c).environment source target ⟨.empty, "LINK", none, false, .xml⟩

/-- The registry after compiling such an alignment. -/
def final (c : Cell) : Registry := ((environment c).compileCells (alignment c) (alignment c).typesFirst).registry

end Roads

end FeatureAlignment
