import FeatureAlignment.Proofs.Cell.Framed
import FeatureAlignment.Proofs.Condition.Guard
import FeatureAlignment.Proofs.Path.Steps

/-!
# Expressions stored under guards

When a property cell compiles, its expression is stored for the records that all conditions on the cell accept,
and for no others. The conditions stand on the steps of the target path, and source by source on the steps and
on the source itself. All of them go into one guard; without any the expression is stored as it is.

* `Cell.restrictions`: the conditions on a cell.
* `Cell.StoredText`: the text for an expression under conditions.
* `AttributeMapping.textAt`: the text that an attribute has at a placement.
* `Cell.Stored`: what a cell has stored; `Environment.compiled_guarded`: a cell that compiles has stored it.
-/

namespace FeatureAlignment

variable {env : Environment} {a : Alignment} {c : Cell} {r s : Registry}

/-! ## Conditions and texts -/

namespace Cell

/-- **The conditions on a cell** with this target: those on the steps of the target path, and then, source by
source, those on its steps and its own. -/
def restrictions (c : Cell) (target : Entity) : List Condition :=
  target.stepConditions ++ c.source.flatMap (fun e => e.stepConditions ++ e.condition.toList)

/-- **The text of an expression under conditions**: that of the expression, or that of a choice between the
expression and no value by a guard for the conditions. -/
inductive StoredText (conditions : List Condition) (e : Expr) : String → Prop
  | free : conditions = [] → StoredText conditions e e.render
  | guarded (g : Expr) : conditions ≠ [] → g.Guards conditions →
      StoredText conditions e (Expr.ifThenElse g e .nil).render

/-- The guards of a cell at a resolved place are its conditions. -/
theorem guards_eq {target : Entity} {place : ResolvedPath}
    (h : env.target.resolve target.type target.path = .ok place) :
    c.guards place.guards = c.restrictions target := by
  unfold guards restrictions Entity.stepConditions
  rw [SchemaIndex.resolve_guards h]

/-- **The text of a guarded expression.** -/
theorem storedText {onPath : List Condition} {e restricted : Expr} (h : c.guarded onPath e = .ok restricted) :
    StoredText (c.guards onPath) e restricted.render := by
  rcases guarded_ok.1 h with ⟨hnone, rfl⟩ | ⟨g, hg, hcheck, rfl⟩
  · exact .free hnone
  · have hsome : c.guards onPath ≠ [] := by
      intro hnone
      rw [guardCondition_none.2 hnone] at hg
      cases hg
    exact .guarded g.toExpr hsome (guards_guardCondition hg hcheck)

end Cell

/-- **The text that an attribute has at a placement**: its value, its identifier, or a client property under the
rendered name. -/
def AttributeMapping.textAt (env : Environment) (s : Registry) (x : AttributeMapping) : Placement → Option String
  | .element => x.sourceExpression
  | .identifier => x.idExpression
  | .clientProperty name => x.clientProperty? (s.nameText env name)

/-- **What a property cell has stored** in a registry: the attribute at the place to which its target path
resolves has a text at the placement, and that is the text of the cell's expression under the conditions on the
cell. -/
structure Cell.Stored (env : Environment) (c : Cell) (s : Registry) (f : Function) (e : Expr) (target : Entity)
    (place : ResolvedPath) (key : String) (x : AttributeMapping) (text : String) : Prop where
  named : Function.ofName? c.function = some f
  computed : c.expression env.source f = .ok e
  targeted : c.targetEntity = .ok target
  resolved : env.target.resolve target.type target.path = .ok place
  settled : (Cell.ownerKey env place).on s = (.ok key, s)
  found : s.attribute? place.owner key = some x
  stored : x.textAt env s place.placement = some text
  guarded : Cell.StoredText (c.restrictions target) e text

/-- **A placed text is at its placement.** -/
theorem Cell.Framed.textAt {target : Entity} {source : QName} {place : ResolvedPath} {text key : String}
    {node client : Option String} {x : AttributeMapping}
    (h : Framed env c target source place text key node client r s x) :
    x.textAt env s place.placement = some text := by
  have hfields := h.fields
  unfold AttributeMapping.textAt
  cases hplacement : place.placement with
  | element => rw [hfields.source, if_pos hplacement]
  | identifier => rw [hfields.identifier, if_pos hplacement]
  | clientProperty name =>
    cases hfields.clients with
    | property name' rendered hname hclient hset =>
      rw [hplacement] at hname
      cases hname
      -- the client property was set under the name as it is rendered now
      have hrendered := h.labels.client
      rw [hplacement, hclient] at hrendered
      unfold clientName at hrendered
      rw [Build.on_state_bind, Build.on_pure] at hrendered
      have htext : s.nameText env name = rendered := Option.some.inj (Except.ok.inj (Prod.mk.inj hrendered).1)
      show x.clientProperty? (s.nameText env name) = some text
      rw [htext]
      exact hset.found
    | system crs helement =>
      rw [hplacement] at helement
      cases helement
    | kept hno => exact absurd hplacement (hno name)

/-! ## Compiled cells -/

namespace Environment

/-- **A property cell other than a join** that compiles has placed its expression. -/
theorem compiled_placed {cells : List Cell} (hc : c ∈ env.compiledCells a .start cells)
    (hj : Function.ofName? c.function ≠ some .join) (ht : c.isTypeCell = false) :
    ∃ before after f e typeCell x, cells = before ++ c :: after ∧ Function.ofName? c.function = some f ∧
      c.expression env.source f = .ok e ∧
      (c.place env typeCell e).on (env.compileCells a before).registry =
        (.ok x, (env.compileCells a (before ++ [c])).registry) := by
  obtain ⟨before, after, hsplit, hcompiles⟩ := mem_compiledCells hc
  change env.compiles a (env.compileCells a before) c = true at hcompiles
  obtain ⟨hp, s, ho⟩ := compiles_ok hcompiles
  have hregistry : (env.compileCells a (before ++ [c])).registry = s := by
    rw [compileCells_concat, compileCell_ok hp ho]
  unfold outcome at ho
  rw [ht, if_neg Bool.false_ne_true] at ho
  obtain ⟨f, typeCell, x, hname, hfill⟩ := compileProperty_run ho
  have hother : f ≠ .join := by
    rintro rfl
    exact hj hname
  unfold Cell.fill at hfill
  rw [if_neg hother] at hfill
  obtain ⟨e, he, hplace⟩ := Build.on_except_bind_ok.1 hfill
  refine ⟨before, after, f, e, typeCell, x, hsplit, hname, he, ?_⟩
  rw [hregistry]
  exact hplace

/-- **Expressions are stored under all conditions on their cells.** When a property cell other than a join
compiles, the attribute of its place has the text of its expression at the placement, under a guard that is
true just when every condition on the cell is. -/
theorem compiled_guarded {cells : List Cell} (hc : c ∈ env.compiledCells a .start cells)
    (hj : Function.ofName? c.function ≠ some .join) (ht : c.isTypeCell = false) :
    ∃ before after f e target place key x text, cells = before ++ c :: after ∧
      c.Stored env (env.compileCells a (before ++ [c])).registry f e target place key x text := by
  obtain ⟨before, after, f, e, typeCell, x, hsplit, hname, he, hplaced⟩ := compiled_placed hc hj ht
  have hkeyed := (sound_compileCells env a before).keyed
  obtain ⟨target, source, place, restricted, key, node, client, htarget, -, hguarded, hframed⟩ :=
    Cell.framed_place hkeyed hplaced
  have htext := Cell.storedText hguarded
  rw [Cell.guards_eq hframed.resolved] at htext
  exact ⟨before, after, f, e, target, place, key, x, restricted.render, hsplit, hname, he, htarget,
    hframed.resolved, hframed.labels.key, hframed.found, hframed.textAt, htext⟩

end Environment

namespace Roads

/-- The name of the right side, with a condition on the step of the target, one on the step of the source, and
one on the source itself. -/
def sideName : Cell :=
  ⟨"sideName", "rename",
    [⟨none, ⟨"RoadRow"⟩, [⟨⟨"name"⟩, none, some (.logical .or [.propertyEquals "id" (.text "1"),
      .propertyEquals "id" (.text "2"), .propertyEquals "id" (.text "3")])⟩],
      some (.comparison ⟨.property "name", .contains, .literal (.text "A"), true⟩)⟩],
    [⟨none, ⟨"Road"⟩, [⟨⟨"right"⟩, none, some (.logical .and [.propertyEquals "side" (.text "r")])⟩], none⟩],
    .empty⟩

/-- All cells compile. -/
theorem compiled_sideName :
    (environment sideName).compiledCells (alignment sideName) .start (alignment sideName).typesFirst =
      [join, leftWidth, sideName] := rfl

/-- **The name under its conditions**: the text that is stored, and what its guard says. -/
theorem name_guarded :
    ((final sideName).attribute? ⟨"Road"⟩ "right").bind AttributeMapping.sourceExpression =
        some ("if_then_else(and(and(equalTo(side, 'r'), or(or(equalTo(id, '1'), equalTo(id, '2')), " ++
          "equalTo(id, '3'))), not(greaterEqualThan(strIndexOf(name, 'A'), 0))), name, Expression.NIL)") ∧
      ∃ before after f e target place key x text, (alignment sideName).typesFirst = before ++ sideName :: after ∧
        sideName.Stored (environment sideName)
          ((environment sideName).compileCells (alignment sideName) (before ++ [sideName])).registry f e target
          place key x text := by
  refine ⟨by decide +kernel, Environment.compiled_guarded ?_ ?_ rfl⟩
  · rw [compiled_sideName]
    simp
  · rw [show Function.ofName? sideName.function = some .rename from rfl]
    decide

end Roads

end FeatureAlignment
