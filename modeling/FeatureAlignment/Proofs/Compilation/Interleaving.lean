import FeatureAlignment.Proofs.Compilation.Order
import FeatureAlignment.Proofs.Join.Told

/-!
# Interleavings of type cells and property cells

Type cells are compiled first, in their order, and property cells after them, in theirs. How both stand
among each other in the alignment is then seen only by what looks at the whole alignment: the search for
the type cell of a property cell, which goes through the type cells, and the search for the place of a
joined type. There the cells that tell are property cells. But if none tells, the schema is asked for
the type to which the joined type is retyped, and that is found by the function of a cell, not by its
kind: a retype at a property is heard as well, though it never compiles.

* `Alignment.Interleaves`: two interleavings of the same cells of both kinds.
* `Environment.nesting?_interleaved`: places of joined types are the same in both, if the retypes come in
  the same order.
* `Alignment.compile_interleaved`: then the compilations are the same.
* `Rivers.misplaced_retype_heard`: with a retype at a property they need not be.
-/

namespace FeatureAlignment

variable {env : Environment} {a b : Alignment} {c : Cell} {x : Option Alignment}

/-- **Two interleavings** of the same type cells and the same property cells. -/
structure Alignment.Interleaves (a b : Alignment) : Prop where
  types : b.cells.filter Cell.isTypeCell = a.cells.filter Cell.isTypeCell
  properties : b.cells.filter (fun c => !c.isTypeCell) = a.cells.filter (fun c => !c.isTypeCell)

/-- Whether the function of a cell is a retype, at whatever targets. -/
def Cell.isRetype (c : Cell) : Bool := Function.ofName? c.function == some .retype

/-! ## Places of joined types -/

namespace Nesting

/-- **Property cells only tell** where a joined type goes. -/
theorem findSome?_properties (target : SchemaIndex) (container joined : QName) (cells : List Cell) :
    (cells.filter (fun c => !c.isTypeCell)).findSome? (ofCell? target container joined) =
      cells.findSome? (ofCell? target container joined) := by
  induction cells with
  | nil => rfl
  | cons c cs ih =>
    cases hc : c.isTypeCell with
    | true =>
      have hsilent : ofCell? target container joined c = none := by
        unfold ofCell?
        rw [if_pos hc]
      rw [List.filter_cons_of_neg (by simp [hc]), List.findSome?_cons, hsilent]
      exact ih
    | false =>
      rw [List.filter_cons_of_pos (by simp [hc]), List.findSome?_cons, List.findSome?_cons, ih]

/-- The cells that retype a type are retypes. -/
theorem filter_retypes (joined : QName) (cells : List Cell) :
    (cells.filter Cell.isRetype).filter (fun c => c.source.any (fun e => e.type = joined)) =
      cells.filter (fun c => c.retypes joined) := by
  rw [List.filter_filter]
  exact List.filter_congr fun c _ => Bool.and_comm ..

/-- **To what a type is retyped** depends on the retypes and their order. -/
theorem retyped?_congr (h : b.cells.filter Cell.isRetype = a.cells.filter Cell.isRetype)
    (container joined : QName) : retyped? b container joined = retyped? a container joined := by
  unfold retyped?
  rw [← filter_retypes, ← filter_retypes, h]

end Nesting

/-- **Places of joined types are the same** in two interleavings, if the retypes come in the same order. -/
theorem Environment.nesting?_interleaved (h : a.Interleaves b)
    (hr : b.cells.filter Cell.isRetype = a.cells.filter Cell.isRetype) (ha : env.alignment = some a)
    (container joined : QName) :
    { env with alignment := some b }.nesting? container joined = env.nesting? container joined := by
  unfold nesting?
  rw [ha]
  show (b.cells.findSome? _).or (Nesting.ofSchema? env.target b container joined) =
    (a.cells.findSome? _).or (Nesting.ofSchema? env.target a container joined)
  rw [← Nesting.findSome?_properties, h.properties, Nesting.findSome?_properties]
  unfold Nesting.ofSchema?
  rw [Nesting.retyped?_congr hr]

/-! ## Joins -/

/-- **Two environments that find the same places** for joined types, and have the same schemas and the
same configuration. -/
def Environment.PlacesAlike (env : Environment) (x : Option Alignment) : Prop :=
  ∀ container joined, { env with alignment := x }.nesting? container joined = env.nesting? container joined

namespace Environment.PlacesAlike

variable (h : env.PlacesAlike x)

include h

theorem planConditions (c : Cell) (spec : JoinSpec) (targets : List (QName × QName))
    (conditions : List JoinCondition) :
    c.planConditions { env with alignment := x } spec targets conditions =
      c.planConditions env spec targets conditions := by
  induction conditions generalizing targets with
  | nil => rfl
  | cons condition rest ih =>
    have hcondition : c.planCondition { env with alignment := x } spec targets condition =
        c.planCondition env spec targets condition := by
      unfold Cell.planCondition
      simp only [h _ _]
    unfold Cell.planConditions
    rw [hcondition]
    simp only [ih]

theorem plan (c : Cell) : c.plan { env with alignment := x } = c.plan env := by
  unfold Cell.plan
  simp only [h.planConditions]

/-- **A join does the same** where it finds the same places. -/
theorem link (c : Cell) : c.link { env with alignment := x } = c.link env := by
  have hinstall : ∀ plans, JoinPlan.installAll { env with alignment := x } plans =
      JoinPlan.installAll env plans := by
    intro plans
    induction plans with
    | nil => rfl
    | cons p ps ih =>
      unfold JoinPlan.installAll
      rw [ih]
      rfl
  unfold Cell.link
  rw [h.plan]
  simp only [hinstall]

theorem joinTypes (c : Cell) : c.joinTypes { env with alignment := x } = c.joinTypes env := by
  unfold Cell.joinTypes
  rw [h.link]
  rfl

theorem joinProperty (c : Cell) : c.joinProperty { env with alignment := x } = c.joinProperty env := by
  unfold Cell.joinProperty
  rw [h.link]
  rfl

/-- So every cell overlooks what else the alignment has. -/
theorem overlooks (c : Cell) : c.Overlooks env x := by
  intro f _
  by_cases hf : f = .join
  · subst hf
    exact ⟨h.joinTypes c, fun _ => h.joinProperty c⟩
  · exact ⟨Cell.establish_alignment env x hf c, Cell.fill_alignment env x hf c⟩

end Environment.PlacesAlike

/-! ## Compilations -/

/-- **Interleavings compile the same**, document and report, if the retypes come in the same order. So
they do whenever no retype is at a property. -/
theorem Alignment.compile_interleaved (h : a.Interleaves b)
    (hr : b.cells.filter Cell.isRetype = a.cells.filter Cell.isRetype) (source target : SchemaIndex)
    (config : Config) : b.compile source target config = a.compile source target config := by
  have hplaces : (a.environment source target config).PlacesAlike (some b) :=
    Environment.nesting?_interleaved h hr rfl
  have horder : b.typesFirst = a.typesFirst := by
    unfold typesFirst
    rw [h.types, h.properties]
  have henv : b.environment source target config =
      { a.environment source target config with alignment := some b } := rfl
  unfold compile
  rw [horder, henv, Environment.compileCells_overlooked _ (some b) h.types fun c _ => hplaces.overlooks c]

namespace Rivers

/-- Banks are joined to their river. -/
def joinBanks : Cell :=
  ⟨"join", "join", [.ofType ⟨"RiverRow"⟩, .ofType ⟨"BankRow"⟩], [.ofType ⟨"River"⟩],
    ⟨[("join", [.join ⟨[⟨"RiverRow"⟩, ⟨"BankRow"⟩], [bankCondition]⟩])]⟩⟩

/-- Rows of banks become banks. -/
def banks : Cell := ⟨"banks", "retype", [.ofType ⟨"BankRow"⟩], [.ofType ⟨"Bank"⟩], .empty⟩

/-- A retype at a property, which does not compile. -/
def misplaced : Cell := ⟨"misplaced", "retype", [property "BankRow" ["id"]], [property "Tree" ["height"]], .empty⟩

/-- Banks get their height. -/
def height : Cell := ⟨"height", "rename", [property "BankRow" ["id"]], [property "Bank" ["height"]], .empty⟩

/-- Rivers with banks, from these cells. -/
def banked (cells : List Cell) : Alignment := ⟨none, cells⟩

theorem height_first :
    (banked [joinBanks, height, banks, misplaced]).Interleaves (banked [height, joinBanks, banks, misplaced]) ∧
      (banked [height, joinBanks, banks, misplaced]).cells.filter Cell.isRetype =
        (banked [joinBanks, height, banks, misplaced]).cells.filter Cell.isRetype ∧
      (banked [height, joinBanks, banks, misplaced]).compile source target environment.config =
        (banked [joinBanks, height, banks, misplaced]).compile source target environment.config := by
  have h : (banked [joinBanks, height, banks, misplaced]).Interleaves
      (banked [height, joinBanks, banks, misplaced]) := ⟨rfl, rfl⟩
  exact ⟨h, rfl, Alignment.compile_interleaved h rfl source target environment.config⟩

/-- **A retype at a property is heard.** It comes after the retype of banks, and the join compiles. If it
comes before, the join looks for trees in rivers, and fails. -/
theorem misplaced_retype_heard :
    (banked [joinBanks, banks, misplaced]).Interleaves (banked [joinBanks, misplaced, banks]) ∧
      ((banked [joinBanks, banks, misplaced]).compile source target environment.config).report.compiled =
        ["join", "banks"] ∧
      ((banked [joinBanks, misplaced, banks]).compile source target environment.config).report.compiled =
        ["banks"] := by
  refine ⟨⟨rfl, rfl⟩, ?_, ?_⟩ <;> decide +kernel

end Rivers

end FeatureAlignment
