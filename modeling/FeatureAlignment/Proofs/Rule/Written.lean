import Mathlib.Data.List.Induction
import FeatureAlignment.Proofs.Rule.Clauses
import FeatureAlignment.Proofs.Rule.Prefixes

/-!
# Rules as they are written

The rule of a cell can be told from its clauses, once it is known how names are spelled: each clause has its
formula, which goes to the end of the body, except that the frame of a property is left out where it is in
the body already; a variable is listed where it is first used.

* `Cell.ruleIn`: the rule of a cell, with its names spelled in some way.
* `Draft.Wrote`: what a part of the writing has done.
* `Cell.rulesFrom_written`: all rules have their names spelled as the last table of prefixes spells them.
-/

namespace FeatureAlignment

/-! ## Clauses and their formulas -/

namespace Clause

/-- **The formula of a clause**, its name spelled in some way. -/
def formula (spell : QName → String) : Clause → Formula
  | .member number type => .member (Referent.subject number).term (.symbol (spell type))
  | .step number walked name =>
    .frame (Referent.reached number walked).term (.symbol (spell name))
      (Referent.value number (walked ++ [name])).term
  | .property number name =>
    .frame (Referent.subject number).term (.symbol (spell ⟨name⟩)) (Referent.property number name).term
  | .condition _ c => .ofCondition c

/-- The name that is spelled in the formula of a clause. -/
def name? : Clause → Option QName
  | .member _ type => some type
  | .step _ _ name => some name
  | .property _ name => some ⟨name⟩
  | .condition _ _ => none

/-- **What a clause binds**; a condition binds nothing. -/
def binder? : Clause → Option Referent
  | .member number _ => some (.subject number)
  | .step number walked name => some (.value number (walked ++ [name]))
  | .property number name => some (.property number name)
  | .condition _ _ => none

/-- Whether a clause binds a property for a condition. -/
def isProperty : Clause → Bool
  | .property _ _ => true
  | _ => false

/-- Putting a clause into a body: a frame for a property only if it is not there. -/
def lay (spell : QName → String) (body : List Formula) (k : Clause) : List Formula :=
  if k.isProperty && body.contains (k.formula spell) then body else body ++ [k.formula spell]

/-- Putting clauses into a body, one after the other. -/
def layAll (spell : QName → String) (body : List Formula) (ks : List Clause) : List Formula :=
  ks.foldl (lay spell) body

theorem layAll_concat (spell : QName → String) (body : List Formula) (ks : List Clause) (k : Clause) :
    layAll spell body (ks ++ [k]) = lay spell (layAll spell body ks) k := List.foldl_concat ..

variable {spell spell' : QName → String} {k : Clause}

theorem formula_congr (h : ∀ name ∈ k.name?, spell name = spell' name) : k.formula spell = k.formula spell' := by
  cases k with
  | member number type => simp only [formula, h type rfl]
  | step number walked name => simp only [formula, h name rfl]
  | property number name => simp only [formula, h ⟨name⟩ rfl]
  | condition number c => rfl

theorem lay_congr (h : ∀ name ∈ k.name?, spell name = spell' name) (body : List Formula) :
    lay spell body k = lay spell' body k := by
  rw [lay, lay, formula_congr h]

/-- **A body has the formulas of its clauses.** -/
theorem mem_layAll (ks : List Clause) {f : Formula} : f ∈ layAll spell [] ks ↔ ∃ k ∈ ks, f = k.formula spell := by
  induction ks using List.reverseRecOn with
  | nil => simp [layAll]
  | append_singleton ks k ih =>
    rw [layAll_concat, lay]
    simp only [List.mem_append, List.mem_singleton, or_and_right, exists_or, exists_eq_left, ← ih]
    split
    · -- the frame is there already
      rename_i hthere
      rw [Bool.and_eq_true, List.contains_iff_mem] at hthere
      exact ⟨.inl, fun h => h.elim id fun h => h ▸ hthere.2⟩
    · rw [List.mem_append, List.mem_singleton]

/-- **The formula of a clause states it**, if the spelling is one. -/
theorem states_formula (h : ∀ name : QName, name.Spells (spell name)) (k : Clause) : k.States (k.formula spell) := by
  cases k with
  | member number type => exact .member (h type)
  | step number walked name => exact .step (h name)
  | property number name => exact .property (h ⟨name⟩)
  | condition number c => exact .condition

end Clause

namespace Cell

/-- **The head of a cell**, with its names spelled in some way. -/
def headIn (spell : QName → String) (c : Cell) : Formula :=
  match c.target with
  | [] => .all []
  | e :: _ =>
    if e.isType then .member Referent.target.term (.symbol (spell e.type))
    else
      .frame Referent.target.term (.symbol (Text.join "/" (e.names.map spell)))
        (.call ("func:" ++ c.function) ((Referent.ofSources 0 c.source).map Referent.term ++
          c.parameters.literals.map Literal.toTerm))

/-- The names in the head. -/
def headNames (c : Cell) : List QName :=
  match c.target with
  | [] => []
  | e :: _ => if e.isType then [e.type] else e.names

/-- **The names in the rule of a cell.** -/
def ruleNames (c : Cell) : List QName := c.clauses.filterMap Clause.name? ++ c.headNames

/-- **The variables that the rule of a cell uses**, each time it does; the target comes last. -/
def used (c : Cell) : List String := (c.clauses.filterMap Clause.binder?).map Referent.name ++ ["t"]

end Cell

/-- Listing names behind others, each at its first occurrence. -/
def Draft.listed (known names : List String) : List String :=
  names.foldl (fun list name => if list.contains name then list else list ++ [name]) known

/-- **The rule of a cell, with its names spelled in some way.** -/
def Cell.ruleIn (spell : QName → String) (c : Cell) : Rule where
  id := c.id
  quantified := Draft.listed [] c.used
  head := c.headIn spell
  body := .all (Clause.layAll spell [] c.clauses)

/-! ## Writing -/

namespace Draft

variable {config : Config} {d d' d'' : Draft} {names names' : List QName} {vs vs' : List String}
  {ks ks' : List Clause}

/-- **What a part of the writing has done**: the table has become a larger one that knows some names, some
variables have been used, and some clauses have been put into the body, spelled as all later tables do. -/
structure Wrote (config : Config) (names : List QName) (vs : List String) (ks : List Clause) (d d' : Draft) :
    Prop where
  table : Table config d'.prefixes
  grown : d.prefixes.entries ⊆ d'.prefixes.entries
  knows : ∀ name ∈ names, d'.prefixes.Knows name
  listed : d'.quantified = listed d.quantified vs
  laid : ∀ table : TextMap, table.OneToOne → d'.prefixes.entries ⊆ table.entries →
    d'.body = Clause.layAll table.spell d.body ks

theorem Wrote.refl (ht : Table config d.prefixes) : Wrote config [] [] [] d d :=
  ⟨ht, List.Subset.refl _, fun _ hn => (List.not_mem_nil hn).elim, rfl, fun _ _ _ => rfl⟩

theorem Wrote.trans (h : Wrote config names vs ks d d') (h' : Wrote config names' vs' ks' d' d'') :
    Wrote config (names ++ names') (vs ++ vs') (ks ++ ks') d d'' := by
  refine ⟨h'.table, List.Subset.trans h.grown h'.grown, fun name hn => ?_, ?_, fun table hone hsub => ?_⟩
  · rcases List.mem_append.1 hn with hn | hn
    · exact (h.knows name hn).mono h'.grown
    · exact h'.knows name hn
  · rw [h'.listed, h.listed, Draft.listed, Draft.listed, Draft.listed, List.foldl_append]
  · rw [h'.laid table hone hsub, h.laid table hone (List.Subset.trans h'.grown hsub), Clause.layAll, Clause.layAll,
      Clause.layAll, List.foldl_append]

/-- **Clauses have been written**: their names are known, what they bind has been used. -/
def WroteClauses (config : Config) (ks : List Clause) (d d' : Draft) : Prop :=
  Wrote config (ks.filterMap Clause.name?) ((ks.filterMap Clause.binder?).map Referent.name) ks d d'

theorem WroteClauses.trans (h : WroteClauses config ks d d') (h' : WroteClauses config ks' d' d'') :
    WroteClauses config (ks ++ ks') d d'' := by
  unfold WroteClauses
  rw [List.filterMap_append, List.filterMap_append, List.map_append]
  exact Wrote.trans h h'

theorem use_run (name : String) (d : Draft) :
    (use name).run d = (.variable name, { d with quantified := listed d.quantified [name] }) := by
  show (_, if d.quantified.contains name then d else _) = _
  unfold listed
  simp only [List.foldl_cons, List.foldl_nil]
  split <;> rfl

theorem wrote_use (ht : Table config d.prefixes) (name : String) :
    Wrote config [] [name] [] d ((use name).run d).2 := by
  rw [use_run]
  exact ⟨ht, List.Subset.refl _, fun _ hn => (List.not_mem_nil hn).elim, rfl, fun _ _ _ => rfl⟩

/-- A clause that binds something, written: its variable is used, its name spelled, and its formula put into
the body. -/
def bound (config : Config) (name : QName) (o : Referent) (k : Clause) (d : Draft) : Draft :=
  let asked := (symbol config name).run ((use o.name).run d).2
  { asked.2 with body := Clause.lay (fun _ => asked.1) asked.2.body k }

theorem wroteClauses_bound (ht : Table config d.prefixes) {k : Clause} {name : QName} {o : Referent}
    (hname : k.name? = some name) (hbinder : k.binder? = some o) :
    WroteClauses config [k] d (bound config name o k d) := by
  unfold bound
  rw [use_run]
  obtain ⟨hasked, hknows, hspell⟩ :=
    asked_symbol (d := { d with quantified := listed d.quantified [o.name] }) ht name
  refine ⟨hasked.table, hasked.grown, fun n hn => ?_, ?_, fun table hone hsub => ?_⟩
  · rw [List.filterMap_cons_some hname, List.filterMap_nil, List.mem_singleton] at hn
    rw [hn]
    exact hknows
  · rw [List.filterMap_cons_some hbinder, List.filterMap_nil]
    exact hasked.quantified
  · show Clause.lay _ _ k = Clause.lay table.spell d.body k
    rw [hasked.body]
    refine Clause.lay_congr (fun n hn => ?_) _
    rw [hname, Option.mem_some_iff] at hn
    rw [← hn]
    exact hspell table hone hsub

theorem addNew_run (f : Formula) (d : Draft) :
    ((if !d.body.contains f then add f else pure () : StateM Draft Unit).run d).2 =
      { d with body := if d.body.contains f then d.body else d.body ++ [f] } := by
  cases d.body.contains f <;> rfl

theorem wroteClauses_bindProperty (ht : Table config d.prefixes) (number : Nat) (p : String) :
    WroteClauses config [.property number p] d
      ((bindProperty config (Referent.subject number).term p).run d).2 := by
  have hrun : ((bindProperty config (Referent.subject number).term p).run d).2 =
      bound config ⟨p⟩ (.property number p) (.property number p) d := addNew_run _ _
  rw [hrun]
  exact wroteClauses_bound ht rfl rfl

theorem wroteClauses_restrict? (ht : Table config d.prefixes) (number : Nat) (c? : Option Condition) :
    WroteClauses config (Clause.ofCondition? number c?) d
      ((restrict? config (Referent.subject number).term c?).run d).2 := by
  cases c? with
  | none => exact .refl ht
  | some c =>
    have hproperties : ∀ (ps : List String) (d : Draft), Table config d.prefixes →
        WroteClauses config (ps.map (.property number)) d
          ((bindProperties config (Referent.subject number).term ps).run d).2 := by
      intro ps
      induction ps with
      | nil => exact fun d ht => .refl ht
      | cons p ps ih =>
        intro d ht
        have hfirst := wroteClauses_bindProperty ht number p
        exact hfirst.trans (ih _ hfirst.table)
    have hbound := hproperties c.properties d ht
    refine hbound.trans ⟨hbound.table, List.Subset.refl _, fun _ hn => (List.not_mem_nil hn).elim, rfl, ?_⟩
    exact fun _ _ _ => rfl

/-- **Steps are written**, and lead to their last value. -/
theorem wroteClauses_follow (number : Nat) (steps : List PathStep) :
    ∀ (walked : List QName) (d : Draft), Table config d.prefixes →
      ((follow config (Referent.subject number).term walked (Referent.reached number walked).term steps).run d).1 =
          (Referent.reached number (walked ++ steps.map PathStep.name)).term ∧
        WroteClauses config (Clause.ofSteps number walked steps) d
          ((follow config (Referent.subject number).term walked (Referent.reached number walked).term
            steps).run d).2 := by
  induction steps with
  | nil =>
    intro walked d ht
    exact ⟨by rw [List.map_nil, List.append_nil]; rfl, .refl ht⟩
  | cons s steps ih =>
    intro walked d ht
    let k : Clause := .step number walked s.name
    have hreached : (Referent.value number (walked ++ [s.name])).term =
        (Referent.reached number (walked ++ [s.name])).term := by
      unfold Referent.reached
      rw [if_neg (by simp)]
    have hstep : WroteClauses config [k] d (bound config s.name _ k d) := wroteClauses_bound ht rfl rfl
    have hcondition := wroteClauses_restrict? hstep.table number s.condition
    obtain ⟨hanswer, hrest⟩ := ih (walked ++ [s.name]) _ hcondition.table
    rw [← hreached, List.append_assoc] at hanswer
    rw [← hreached] at hrest
    exact ⟨hanswer, hstep.trans (hcondition.trans hrest)⟩

theorem wroteClauses_bindSource (ht : Table config d.prefixes) (number : Nat) (e : Entity) :
    ((bindSource config number e).run d).1 = (Referent.reached number e.names).term ∧
      WroteClauses config
        (.member number e.type :: (Clause.ofSteps number [] e.path ++ Clause.ofCondition? number e.condition)) d
        ((bindSource config number e).run d).2 := by
  let k : Clause := .member number e.type
  have hmember : WroteClauses config [k] d (bound config e.type _ k d) := wroteClauses_bound ht rfl rfl
  obtain ⟨hanswer, hsteps⟩ := wroteClauses_follow number e.path [] _ hmember.table
  have hcondition := wroteClauses_restrict? hsteps.table number e.condition
  exact ⟨hanswer, hmember.trans (hsteps.trans hcondition)⟩

theorem wroteClauses_bindSources (es : List Entity) :
    ∀ (number : Nat) (d : Draft), Table config d.prefixes →
      ((bindSources config number es).run d).1 = (Referent.ofSources number es).map Referent.term ∧
        WroteClauses config (Clause.ofSources number es) d ((bindSources config number es).run d).2 := by
  induction es with
  | nil => exact fun _ d ht => ⟨rfl, .refl ht⟩
  | cons e es ih =>
    intro number d ht
    obtain ⟨hvalue, hfirst⟩ := wroteClauses_bindSource ht number e
    obtain ⟨hvalues, hrest⟩ := ih (number + 1) _ hfirst.table
    exact ⟨congrArg₂ List.cons hvalue hvalues, hfirst.trans hrest⟩

/-- What asking answers, if all later tables spell it alike. -/
def Spelled {α : Type} (asked : α × Draft) (answer : (QName → String) → α) : Prop :=
  ∀ table : TextMap, table.OneToOne → asked.2.prefixes.entries ⊆ table.entries → asked.1 = answer table.spell

theorem asked_symbols (names : List QName) : ∀ d : Draft, Table config d.prefixes →
    Asked config d ((symbols config names).run d).2 ∧
      (∀ name ∈ names, ((symbols config names).run d).2.prefixes.Knows name) ∧
      Spelled ((symbols config names).run d) (fun spell => names.map spell) := by
  induction names with
  | nil =>
    exact fun d ht => ⟨⟨ht, List.Subset.refl _, rfl, rfl⟩, fun _ hn => (List.not_mem_nil hn).elim, fun _ _ _ => rfl⟩
  | cons name names ih =>
    intro d ht
    obtain ⟨hfirst, hknows, hspell⟩ := asked_symbol ht name
    obtain ⟨hrest, hknows', hspell'⟩ := ih _ hfirst.table
    refine ⟨⟨hrest.table, List.Subset.trans hfirst.grown hrest.grown, hrest.quantified.trans hfirst.quantified,
      hrest.body.trans hfirst.body⟩, fun n hn => ?_, fun table hone hsub => ?_⟩
    · rcases List.mem_cons.1 hn with rfl | hn
      · exact hknows.mono hrest.grown
      · exact hknows' n hn
    · exact congrArg₂ List.cons (hspell table hone (List.Subset.trans hrest.grown hsub)) (hspell' table hone hsub)

/-- **The head of a cell** is written with its names spelled. -/
theorem asked_head (ht : Table config d.prefixes) (c : Cell) :
    let asked := (head config c ((Referent.ofSources 0 c.source).map Referent.term) Referent.target.term).run d
    Asked config d asked.2 ∧ (∀ name ∈ c.headNames, asked.2.prefixes.Knows name) ∧
      Spelled asked (fun spell => c.headIn spell) := by
  rcases c with ⟨id, function, source, target, parameters⟩
  cases target with
  | nil => exact ⟨⟨ht, List.Subset.refl _, rfl, rfl⟩, fun _ hn => (List.not_mem_nil hn).elim, fun _ _ _ => rfl⟩
  | cons e rest =>
    simp only [head, Cell.headNames, Cell.headIn]
    cases htype : e.isType with
    | true =>
      obtain ⟨hasked, hknows, hspell⟩ := asked_symbol ht e.type
      refine ⟨hasked, fun n hn => ?_, fun table hone hsub => ?_⟩
      · rw [List.mem_singleton.1 hn]
        exact hknows
      · exact congrArg (fun s => Formula.member Referent.target.term (.symbol s)) (hspell table hone hsub)
    | false =>
      obtain ⟨hasked, hknows, hspell⟩ := asked_symbols e.names d ht
      refine ⟨hasked, hknows, fun table hone hsub => ?_⟩
      exact congrArg (fun ss => Formula.frame Referent.target.term (.symbol (Text.join "/" ss)) _)
        (hspell table hone hsub)

end Draft

/-! ## Rules -/

namespace Cell

open Draft (Wrote wrote_use asked_head)

variable {config : Config} {table : TextMap}

/-- **The rule of a cell as it is written**: the table has become a larger one that knows the names of the
rule, and they are spelled as all later tables do. -/
theorem ruleFrom_written (ht : Draft.Table config table) (c : Cell) :
    Draft.Table config (c.ruleFrom config table).2 ∧ table.entries ⊆ (c.ruleFrom config table).2.entries ∧
      (∀ name ∈ c.ruleNames, (c.ruleFrom config table).2.Knows name) ∧
      ∀ last : TextMap, last.OneToOne → (c.ruleFrom config table).2.entries ⊆ last.entries →
        (c.ruleFrom config table).1 = c.ruleIn last.spell := by
  obtain ⟨hvalues, hsources⟩ := Draft.wroteClauses_bindSources c.source 0 ⟨table, [], []⟩ ht
  have hbody := Wrote.trans hsources (wrote_use hsources.table "t")
  obtain ⟨hasked, hknows, hspell⟩ := asked_head hbody.table c
  rw [← hvalues] at hasked hknows hspell
  refine ⟨hasked.table, List.Subset.trans hbody.grown hasked.grown, fun name hn => ?_, fun last hone hsub => ?_⟩
  · rcases List.mem_append.1 hn with hn | hn
    · exact (hbody.knows name (List.mem_append_left _ hn)).mono hasked.grown
    · exact hknows name hn
  · have hquantified := hasked.quantified.trans hbody.listed
    have hlaid := hasked.body.trans (hbody.laid last hone (List.Subset.trans hasked.grown hsub))
    rw [List.append_nil] at hlaid
    exact congr (congr (congrArg (Rule.mk c.id) hquantified) (hspell last hone hsub)) (congrArg Formula.all hlaid)

/-- **Rules are written with their names spelled as the last table spells them**, and it knows these names. -/
theorem rulesFrom_written (cells : List Cell) : ∀ table : TextMap, Draft.Table config table →
    Draft.Table config (rulesFrom config table cells).2 ∧
      table.entries ⊆ (rulesFrom config table cells).2.entries ∧
      ∀ last : TextMap, last.OneToOne → (rulesFrom config table cells).2.entries ⊆ last.entries →
        List.Forall₂ (fun c rule => (∀ name ∈ c.ruleNames, last.Knows name) ∧ rule = c.ruleIn last.spell) cells
          (rulesFrom config table cells).1 := by
  induction cells with
  | nil => exact fun table ht => ⟨ht, List.Subset.refl _, fun _ _ _ => .nil⟩
  | cons c cs ih =>
    intro table ht
    obtain ⟨hnext, hgrown, hknows, hrule⟩ := ruleFrom_written ht c
    obtain ⟨hlast, hgrown', hrules⟩ := ih _ hnext
    refine ⟨hlast, List.Subset.trans hgrown hgrown', fun last hone hsub => .cons ?_ (hrules last hone hsub)⟩
    have hall := List.Subset.trans hgrown' hsub
    exact ⟨fun name hn => (hknows name hn).mono hall, hrule last hone hall⟩

end Cell

end FeatureAlignment
