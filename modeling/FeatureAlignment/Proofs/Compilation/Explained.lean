import FeatureAlignment.Proofs.Cell.Explained
import FeatureAlignment.Proofs.Compilation.Run

/-!
# No internal failures

A registry that a run has come to is sound. From a sound registry whatever a cell looks up among the
mappings is there: a plan gives both of its types a mapping before it changes their attributes, the
attribute that a join at a property answers is the one its first plan has written, and the owner of a
destination has a mapping because all crossings on the way are linked. What is left to fail are checks,
and those fail explained; only the search for a type cell fails because of another cell.

* `Fails.on_bind`, `Fails.on_check`: computations on the registry, in sequence.
* `Cell.Structure`: how the structure of a cell fails. Apart from that, all that fails in a cell is regular
  (`Cell.fails_establish`, `Cell.fails_fill`, `Environment.fails_outcome`).
* `Environment.failures_compileCells`: the failures of a run are those of the cells to which it has come.
* `Environment.explained_outcome`: from a sound registry every cell fails explained.
* `Environment.no_internal_failure`: so no failure of a run is internal, and a missing mapping or a
  missing attribute of a link never comes up.
-/

namespace FeatureAlignment

variable {α β : Type} {env : Environment} {r : Registry}

/-! ## Computations on the registry -/

namespace Fails

variable {S : Failure → Prop}

/-- **Computations in sequence** fail as the second one does wherever the first one leads. -/
theorem on_bind {x : Build α} {f : α → Build β} (hx : Fails S (x.on r).1)
    (hf : ∀ y s, x.on r = (.ok y, s) → Fails S ((f y).on s).1) : Fails S ((x >>= f).on r).1 := by
  rw [Build.on_bind]
  rcases h : x.on r with ⟨failure | y, s⟩
  · rw [h] at hx; exact error (hx failure rfl)
  · exact hf y s h

/-- A check goes before the rest. -/
theorem on_check {x : Except Failure α} {f : α → Build β} (hx : Fails S x)
    (hf : ∀ y, x = .ok y → Fails S ((f y).on r).1) : Fails S (((liftM x : Build α) >>= f).on r).1 :=
  on_bind hx fun y s h => by cases h; exact hf y rfl

theorem on_throw {failure : Failure} (h : S failure) : Fails S ((throw failure : Build α).on r).1 := error h

end Fails

/-- Only the element of an unknown type is missing for a mapping. -/
theorem Registry.regular_ensureMapping (env : Environment) (type source : QName) (r : Registry) :
    Regular ((ensureMapping env type source).on r).1 := by
  rw [ensureMapping_on, renderElement_on]
  split
  · exact .ok _
  · cases env.target.get? type with
    | some d => exact .ok _
    | none => exact .error rfl

theorem Function.own_require (name : String) : Own (Function.require name) := by
  unfold require
  split
  · exact .ok _
  · exact .error rfl

/-! ## Cells -/

namespace Cell

variable {c : Cell} {S : Failure → Prop}

/-- **How the structure of a cell fails**, when it does: its target, its function, and its guards wherever
the path of its target leads. -/
structure Structure (env : Environment) (S : Failure → Prop) (c : Cell) : Prop where
  target : Fails S c.targetEntity
  function : Fails S (Function.require c.function)
  guards : ∀ target place e, c.targetEntity = .ok target →
    env.target.resolve target.type target.path = .ok place → Fails S (c.guarded place.guards e)

/-- The structure of every cell fails on its own. -/
theorem structure_own (env : Environment) (c : Cell) :
    c.Structure env (fun failure => failure.kind.isOwn = true) :=
  ⟨c.own_targetEntity, Function.own_require c.function, fun _ place e _ _ => c.own_guarded place.guards e⟩

theorem Structure.mono {T : Failure → Prop} (h : c.Structure env S) (hST : ∀ failure, S failure → T failure) :
    c.Structure env T :=
  ⟨h.target.mono hST, h.function.mono hST, fun target place e ht hp => (h.guards target place e ht hp).mono hST⟩

theorem regular_joinBase (plans : List JoinPlan) : Regular (c.joinBase plans) := by
  unfold joinBase
  split
  · exact .ok _
  · exact c.regular_primarySource.map _

/-- **Joins fail in planning.** -/
theorem fails_link (hS : Admits S) (h : r.Sound env) (ht : Fails S c.targetEntity) :
    Fails S ((c.link env).on r).1 := by
  cases hp : c.plan env with
  | error failure =>
    unfold link
    rw [Build.on_except_bind, hp]
    exact .error (c.fails_plan env hS ht failure hp)
  | ok plans =>
    obtain ⟨s, hs, -⟩ := link_on h hp
    rw [hs]
    exact .ok plans

theorem fails_retype (hS : Admits S) (ht : Fails S c.targetEntity) (r : Registry) :
    Fails S ((c.retype env).on r).1 := by
  unfold retype
  refine .on_check (c.regular_primarySource.fails hS) fun source _ => ?_
  refine .on_check ht fun target _ => ?_
  split
  · exact .on_bind (.on_throw (hS _ rfl)) fun _ _ h => by cases h
  · refine .on_check ((env.source.regular_require _).fails hS) fun _ _ => ?_
    exact (Registry.regular_ensureMapping env _ _ r).fails hS

theorem fails_joinTypes (hS : Admits S) (h : r.Sound env) (ht : Fails S c.targetEntity) :
    Fails S ((c.joinTypes env).on r).1 := by
  unfold joinTypes
  refine .on_bind (fails_link hS h ht) fun plans s _ => ?_
  refine .on_check ht fun target _ => ?_
  refine .on_check ((regular_joinBase plans).fails hS) fun base _ => ?_
  exact (Registry.regular_ensureMapping env _ _ s).fails hS

/-- The attribute that a join at a property answers is never missing. -/
theorem fails_joinProperty (hS : Admits S) (h : r.Sound env) (ht : Fails S c.targetEntity) :
    Fails S ((c.joinProperty env).on r).1 := by
  unfold joinProperty
  refine .on_bind (fails_link hS h ht) fun plans s hlink => ?_
  obtain ⟨hplan, hinstall, -⟩ := link_ok h hlink
  cases plans with
  | nil => exact .on_throw (hS _ rfl)
  | cons p ps =>
    obtain ⟨key, b, hkey, hb⟩ := joinProperty_attribute h (plan_nests hplan) hinstall
    have hkey' : (Registry.renderPath env p.segments).run s = (key, s) := hkey
    simp only [Build.on_state_bind, hkey', Build.on_get_bind, hb, Build.on_pure]
    exact .ok b

/-- The owner of a destination is never without a mapping. -/
theorem fails_place (hS : Admits S) (h : r.Sound env) (hc : c.Structure env S) {typeCell : Cell}
    (ht : Fails S typeCell.targetEntity) (e : Expr) : Fails S ((c.place env typeCell e).on r).1 := by
  unfold Cell.place
  refine .on_check hc.target fun target htarget => ?_
  refine .on_check ht fun typeTarget _ => ?_
  split
  · exact .on_bind (.on_throw (hS _ rfl)) fun _ _ h => by cases h
  refine .on_check (typeCell.regular_rootSource.fails hS) fun source _ => ?_
  refine .on_bind ((Registry.regular_ensureMapping env _ _ r).fails hS) fun m s hm => ?_
  obtain ⟨hq, hmap⟩ := h.toTables.ensureMapping_ok hm
  have hmaps : s.Maps target.type := Option.isSome_iff_exists.2 ⟨m, hmap⟩
  rw [Build.on_get_bind]
  have hguards := fun place hplace => hc.guards target place e htarget hplace
  refine .on_check (c.fails_destination env hS s hguards) fun d hd => ?_
  obtain ⟨hknown, howner⟩ := destination_maps (h.quiet hq) hmaps hd
  obtain ⟨a, t, key, hdep, -⟩ := deposit_ok hq.tables hknown howner c d.2.render
  rw [hdep]
  exact .ok a

/-- **Type cells fail** regularly, or as their structure does. -/
theorem fails_establish (hS : Admits S) (h : r.Sound env) (ht : Fails S c.targetEntity) (f : Function) :
    Fails S ((c.establish env f).on r).1 := by
  unfold Cell.establish
  split
  · exact fails_retype hS ht r
  · exact fails_joinTypes hS h ht
  · exact .on_throw (hS _ rfl)

/-- **Property cells fail** regularly, or as the structure of the cell and of its type cell does. -/
theorem fails_fill (hS : Admits S) (h : r.Sound env) (hc : c.Structure env S) {typeCell : Cell}
    (ht : Fails S typeCell.targetEntity) (f : Function) : Fails S ((c.fill env typeCell f).on r).1 := by
  unfold Cell.fill
  split
  · exact fails_joinProperty hS h hc.target
  · exact .on_check ((c.regular_expression env.source f).fails hS) fun e _ => fails_place hS h hc ht e

end Cell

/-! ## Runs -/

namespace Environment

variable {p : Progress} {a : Alignment} {c : Cell} {S : Failure → Prop}

/-- The search for a type cell fails because of the cell's target or because of another cell. -/
theorem fails_usableTypeCell (hmissing : S (.missingTypeCell c.id)) (hfailed : ∀ t, S (.dependencyFailed c.id t))
    (ht : Fails S c.targetEntity) : Fails S (usableTypeCell a p c) := by
  have howner : Fails S (a.owningTypeCell c) := by
    unfold Alignment.owningTypeCell
    refine ht.bind fun target => ?_
    split
    · exact .ok _
    · exact .error hmissing
  unfold usableTypeCell
  refine howner.bind fun t => ?_
  simp only
  split
  · exact .error (hfailed t.id)
  · split
    · exact .error hmissing
    · exact .ok t

/-- **Property cells with a usable type cell fail on their own.** -/
theorem own_fill (h : r.Sound env) (c t : Cell) (f : Function) : Own ((c.fill env t f).on r).1 :=
  Cell.fails_fill admits_own h (c.structure_own env) t.own_targetEntity f

/-- **What cells fail with** from a sound registry: regularly, for want of a type cell, or as the structure
of the cell and of its type cell does. -/
theorem fails_outcome (hS : Admits S) (hmissing : S (.missingTypeCell c.id))
    (hfailed : ∀ t, S (.dependencyFailed c.id t)) (h : p.registry.Sound env) (hc : c.Structure env S)
    (ht : ∀ t, usableTypeCell a p c = .ok t → Fails S t.targetEntity) : Fails S (env.outcome a p c).1 := by
  unfold outcome
  split
  · unfold compileType
    refine .on_check hc.function fun f _ => .on_bind ?_ fun _ _ _ => .ok ()
    exact Cell.fails_establish hS h hc.target f
  · unfold compileProperty
    refine .on_check hc.function fun f _ => ?_
    split
    · exact .on_bind (.on_throw (hS _ rfl)) fun _ _ h => by cases h
    refine .on_check (fails_usableTypeCell hmissing hfailed hc.target) fun t husable => ?_
    exact .on_bind (Cell.fails_fill hS h hc (ht t husable) f) fun _ _ _ => .ok ()

/-- **From a sound registry every cell fails explained.** -/
theorem explained_outcome (h : p.registry.Sound env) (a : Alignment) (c : Cell) :
    Explained (env.outcome a p c).1 := by
  have hown : ∀ failure : Failure, failure.kind.isOwn = true → failure.kind ≠ .internal := by
    intro failure hkind hinternal
    rw [hinternal] at hkind
    cases hkind
  have hS : Admits (fun failure => failure.kind ≠ .internal) :=
    fun failure hregular => hown failure (admits_own failure hregular)
  exact fails_outcome hS nofun (fun _ => nofun) h ((c.structure_own env).mono hown)
    fun t _ => Fails.mono t.own_targetEntity hown

/-- **Where the failures of a run come from**: each is that of a cell to which the run has come. -/
theorem failures_compileCells (env : Environment) (a : Alignment) (cells : List Cell) :
    ∀ f ∈ (env.compileCells a cells).failures, ∃ before c failure, env.Processes a cells before c ∧
      (env.outcome a (env.compileCells a before) c).1 = .error failure ∧ f = report c failure := by
  induction cells using List.reverseRecOn with
  | nil => exact fun f hf => by cases hf
  | append_singleton cells c ih =>
    have hearlier : ∀ f ∈ (env.compileCells a cells).failures, ∃ before x failure,
        env.Processes a (cells ++ [c]) before x ∧
          (env.outcome a (env.compileCells a before) x).1 = .error failure ∧ f = report x failure := by
      intro f hf
      obtain ⟨before, x, failure, hp, hfails⟩ := ih f hf
      exact ⟨before, x, failure, ⟨hp.next.trans (List.prefix_append _ _), hp.running⟩, hfails⟩
    rw [compileCells_concat]
    cases hs : (env.compileCells a cells).stopped with
    | true =>
      rw [compileCell_stopped hs]
      exact hearlier
    | false =>
      rcases ho : env.outcome a (env.compileCells a cells) c with ⟨failure | u, s⟩
      · rw [compileCell_error hs ho]
        intro f hf
        rcases List.mem_append.1 hf with hf | hf
        · exact hearlier f hf
        · -- the failure of the cell itself, behind all cells before it
          exact ⟨cells, c, failure, ⟨List.prefix_refl _, hs⟩, by rw [ho], List.mem_singleton.1 hf⟩
      · rw [compileCell_ok hs ho]
        exact hearlier

theorem explained_compileCells (env : Environment) (a : Alignment) (cells : List Cell) :
    ∀ f ∈ (env.compileCells a cells).failures, f.kind ≠ .internal := by
  intro f hf
  obtain ⟨before, c, failure, -, hfails, rfl⟩ := failures_compileCells env a cells f hf
  exact explained_outcome (sound_compileCells env a before) a c failure hfails

/-- **No failure is internal.** Neither order of compilation reports an internal failure of any
alignment; and after any cells, in whatever order and number, no further cell comes upon a type without
a mapping or upon a link without its attribute. -/
theorem no_internal_failure (a : Alignment) (source target : SchemaIndex) (config : Config) :
    (∀ f ∈ (a.compile source target config).report.failures, f.kind ≠ .internal) ∧
      (∀ f ∈ (a.compileInOrder source target config).report.failures, f.kind ≠ .internal) ∧
      ∀ (env : Environment) (cells : List Cell) (c : Cell),
        (∀ type, (env.outcome a (env.compileCells a cells) c).1 ≠ .error (.noMapping type)) ∧
          ∀ key, (env.outcome a (env.compileCells a cells) c).1 ≠ .error (.noLinkAttribute key) := by
  refine ⟨explained_compileCells _ a _, explained_compileCells _ a _, fun env cells c => ?_⟩
  have ho := explained_outcome (sound_compileCells env a cells) a c
  exact ⟨fun type h => ho _ h rfl, fun key h => ho _ h rfl⟩

end Environment

end FeatureAlignment
