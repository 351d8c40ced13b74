import FeatureAlignment.Proofs.Cell.Sources
import FeatureAlignment.Proofs.Expr.Pattern

/-!
# Formatted texts fill their pattern

A placeholder stands for a source by its whole path or by the last name of it. A path goes before last names, in
whatever order the sources are, and of several last names the first one counts. A formatted text fails if there is
a placeholder that stands for nothing. If it does not fail, then its value is the pattern with each placeholder
replaced, and all other characters as they were.

* `Cell.standing?`: the source that a placeholder stands for; `bound?_variables`: it is the one that is bound.
* `Cell.formattedString_eq`: the expression of a formatted text by the pieces of its pattern.
* `Cell.Fills`: what is to be said of a formatted text; `Cell.formattedString_fills`: all of it holds.
-/

namespace FeatureAlignment

namespace Cell

open Pattern (Piece Scans LeftNested)

variable {source : SchemaIndex} {c : Cell} {es : List Entity} {e : Entity} {name text : String}
  {pieces : List Piece}

/-! ## What placeholders stand for -/

/-- **The source that a placeholder stands for**: one with this path, or else the first with this last name. -/
def standing? (es : List Entity) (name : String) : Option Entity :=
  (es.find? fun e => e.expression == name).or (es.find? fun e => e.leaf? == some name)

/-- **No source has this path or this last name.** -/
def Unbound (es : List Entity) (name : String) : Prop := ∀ e ∈ es, e.expression ≠ name ∧ e.leaf? ≠ some name

theorem standing?_eq_none : standing? es name = none ↔ Unbound es name := by
  simp only [standing?, Option.or_eq_none_iff, List.find?_eq_none, beq_iff_eq, Unbound, ← forall_and]

/-- The search for a path finds a source with it if there is one, from either end. -/
theorem find?_expression (es : List Entity) (name : String) :
    (es.find? fun e => e.expression == name).map (fun e => Expr.property e.expression) =
      if ∃ e ∈ es, e.expression = name then some (.property name) else none := by
  cases hfound : es.find? fun e => e.expression == name with
  | none =>
    rw [List.find?_eq_none] at hfound
    rw [if_neg fun ⟨e, he, hname⟩ => hfound e he (beq_iff_eq.2 hname)]
    rfl
  | some e =>
    have hname : e.expression = name := beq_iff_eq.1 (List.find?_some hfound :)
    rw [if_pos ⟨e, List.mem_of_find?_eq_some hfound, hname⟩, Option.map_some, hname]

/-- **A path goes before last names**, wherever its source is. -/
theorem standing?_expression (he : e ∈ es) :
    ∃ d, standing? es e.expression = some d ∧ d.expression = e.expression := by
  cases hfound : es.find? fun d => d.expression == e.expression with
  | none => exact absurd (beq_self_eq_true e.expression) (List.find?_eq_none.1 hfound e he)
  | some d => exact ⟨d, by rw [standing?, hfound, Option.some_or], beq_iff_eq.1 (List.find?_some hfound :)⟩

/-- The expression of a placeholder. -/
def standingExpr? (es : List Entity) (name : String) : Option Expr :=
  (standing? es name).map fun e => .property e.expression

/-- **What is put for a placeholder**: the value that the record has for the source. -/
def standingText (es : List Entity) (record : String → String) (name : String) : String :=
  ((standing? es name).map fun e => record e.expression).getD ""

/-- A source that resolves, as a variable. -/
def variableIn (e : Entity) : Variable := ⟨e.expression, e.leaf?, .property e.expression⟩

theorem mapM_variableOf (h : ∀ e ∈ es, source.Resolves e) : es.mapM (variableOf source) = .ok (es.map variableIn) := by
  induction es with
  | nil => rfl
  | cons e es ih =>
    rw [List.forall_mem_cons] at h
    rw [List.mapM_cons, ih h.2, variableOf, Entity.property_of_resolves h.1]
    rfl

/-- **A placeholder is bound to the source that it stands for.** The binding takes the last source with a path, which
makes no difference. -/
theorem bound?_variables (es : List Entity) (name : String) :
    bound? (es.map variableIn) name = standingExpr? es name := by
  have hpath : ((es.map variableIn).reverse.find? fun v => v.path == name).map Variable.value =
      (es.find? fun e => e.expression == name).map fun e => .property e.expression := by
    rw [find?_expression, ← List.map_reverse, List.find?_map, Option.map_map]
    have hreverse := find?_expression es.reverse name
    simp only [List.mem_reverse] at hreverse
    exact hreverse
  have hleaf : ((es.map variableIn).find? fun v => v.leaf == some name).map Variable.value =
      (es.find? fun e => e.leaf? == some name).map fun e => .property e.expression := by
    rw [List.find?_map, Option.map_map]
    rfl
  rw [bound?, Option.map_or, hpath, hleaf, standingExpr?, standing?, Option.map_or]

/-! ## Formatted texts -/

section

variable (htext : c.text? "pattern" = some text) (hscan : Scans text.toList pieces)
  (h : ∀ e ∈ c.roleSources "var", source.Resolves e)

include htext hscan h

/-- **The expression of a formatted text**, by the pieces of its pattern. -/
theorem formattedString_eq : c.formattedString source =
    ((pieces.filterMap Piece.name?).find? fun name => (standing? (c.roleSources "var") name).isNone).elim
      (.ok (Pattern.concatAll
        ((Pattern.fragmentsOf [] pieces).map (Pattern.bound (standingExpr? (c.roleSources "var"))))))
      fun name => .error (.invalidParameter c.function "pattern" (.unboundPlaceholder name)) := by
  have hparse : Pattern.parse text = ⟨Pattern.fragmentsOf [] pieces⟩ := congrArg Pattern.mk hscan.parse
  have hrequired : c.requireText "pattern" = .ok text := by rw [requireText, htext]
  rw [formattedString, hrequired, Build.except_ok_bind, mapM_variableOf h, Build.except_ok_bind, Pattern.compose_eq,
    hparse, Pattern.placeholders_fragmentsOf, funext (bound?_variables (c.roleSources "var"))]
  simp only [standingExpr?, Option.isNone_map]

/-- **A formatted text fails** with a placeholder that is unbound, the first one. -/
theorem formattedString_eq_error {failure : Failure} : c.formattedString source = .error failure ↔
    ∃ name, (pieces.filterMap Piece.name?).find? (fun name => (standing? (c.roleSources "var") name).isNone) =
      some name ∧ failure = .invalidParameter c.function "pattern" (.unboundPlaceholder name) := by
  rw [formattedString_eq htext hscan h]
  cases (pieces.filterMap Piece.name?).find? fun name => (standing? (c.roleSources "var") name).isNone with
  | none => simp
  | some name => simp [eq_comm]

/-- **A formatted text is built** if all placeholders stand for something. -/
theorem formattedString_eq_ok {expr : Expr} : c.formattedString source = .ok expr ↔
    (∀ name ∈ pieces.filterMap Piece.name?, standing? (c.roleSources "var") name ≠ none) ∧
      expr = Pattern.concatAll
        ((Pattern.fragmentsOf [] pieces).map (Pattern.bound (standingExpr? (c.roleSources "var")))) := by
  rw [formattedString_eq htext hscan h]
  cases hfound : (pieces.filterMap Piece.name?).find? fun name => (standing? (c.roleSources "var") name).isNone with
  | none =>
    have hstands : ∀ name ∈ pieces.filterMap Piece.name?, standing? (c.roleSources "var") name ≠ none :=
      fun name hname hnone => List.find?_eq_none.1 hfound name hname (Option.isNone_iff_eq_none.2 hnone)
    exact ⟨fun heq => ⟨hstands, (Except.ok.inj heq).symm⟩, fun hexpr => congrArg Except.ok hexpr.2.symm⟩
  | some name =>
    refine ⟨nofun, fun hexpr => ?_⟩
    exact absurd (Option.isNone_iff_eq_none.1 (List.find?_some hfound :))
      (hexpr.1 name (List.mem_of_find?_eq_some hfound))

end

/-- **A fragment that stands for something** is an atom, and its value is what is put for it. -/
theorem bound_fragment {f : Fragment} (h : ∀ name, f = .variable name → standing? es name ≠ none) :
    Pattern.Atom (Pattern.bound (standingExpr? es) f) ∧ ∀ record : String → String,
      (Pattern.bound (standingExpr? es) f).value (fun name => .text (record name)) =
        .text (Pattern.filled (standingText es record) f) := by
  cases f with
  | literal text => exact ⟨.text text, fun record => rfl⟩
  | «variable» name =>
    obtain ⟨e, he⟩ := Option.ne_none_iff_exists'.1 (h name rfl)
    rw [Pattern.bound, standingExpr?, he]
    refine ⟨.property _, fun record => ?_⟩
    rw [Pattern.filled, standingText, he]
    rfl

/-- **What is to be said of a formatted text** with these pieces. The pieces are those of the pattern, which has no
others and is made of them. It fails exactly if a placeholder is unbound, and names one that is. Otherwise it is
nested to the left, and its value is that of the pieces, where a path stands for itself whatever the last names of
other sources are. -/
structure Fills (source : SchemaIndex) (c : Cell) (text : String) (pieces : List Piece) : Prop where
  scan : Scans text.toList pieces
  only : ∀ others, Scans text.toList others → others = pieces
  whole : pieces.flatMap Piece.source = text.toList
  fails_iff : (∃ failure, c.formattedString source = .error failure) ↔
    ∃ name ∈ pieces.filterMap Piece.name?, Unbound (c.roleSources "var") name
  failure : ∀ failure, c.formattedString source = .error failure →
    ∃ name ∈ pieces.filterMap Piece.name?, Unbound (c.roleSources "var") name ∧
      failure = .invalidParameter c.function "pattern" (.unboundPlaceholder name)
  nested : ∀ expr, c.formattedString source = .ok expr → LeftNested expr
  value : ∀ expr, c.formattedString source = .ok expr → ∀ record : String → String,
    expr.value (fun name => .text (record name)) =
      .text (Text.concat (pieces.map (Piece.filled (standingText (c.roleSources "var") record))))
  path : ∀ e ∈ c.roleSources "var", ∀ record : String → String,
    standingText (c.roleSources "var") record e.expression = record e.expression

/-- **Formatted texts fill their pattern**, for every pattern and all sources that resolve. -/
theorem formattedString_fills (htext : c.text? "pattern" = some text)
    (h : ∀ e ∈ c.roleSources "var", source.Resolves e) : ∃ pieces, c.Fills source text pieces := by
  obtain ⟨pieces, hscan⟩ := Pattern.exists_scans text.toList
  have hfailure : ∀ failure, c.formattedString source = .error failure →
      ∃ name ∈ pieces.filterMap Piece.name?, Unbound (c.roleSources "var") name ∧
        failure = .invalidParameter c.function "pattern" (.unboundPlaceholder name) := by
    intro failure hfailure
    obtain ⟨name, hname, rfl⟩ := (formattedString_eq_error htext hscan h).1 hfailure
    have hnone := Option.isNone_iff_eq_none.1 (List.find?_some hname :)
    exact ⟨name, List.mem_of_find?_eq_some hname, standing?_eq_none.1 hnone, rfl⟩
  have hfragment : (∀ name ∈ pieces.filterMap Piece.name?, standing? (c.roleSources "var") name ≠ none) →
      ∀ f ∈ Pattern.fragmentsOf [] pieces, ∀ name, f = .variable name →
        standing? (c.roleSources "var") name ≠ none := by
    rintro hstands f hf name rfl
    rw [← Pattern.placeholders_fragmentsOf []] at hstands
    exact hstands name (List.mem_filterMap.2 ⟨_, hf, rfl⟩)
  refine ⟨pieces, hscan, fun others => hscan.unique, hscan.whole, ⟨?_, ?_⟩, hfailure, fun expr hexpr => ?_,
    fun expr hexpr record => ?_, fun e he record => ?_⟩
  · rintro ⟨failure, hfails⟩
    obtain ⟨name, hname, hunbound, -⟩ := hfailure failure hfails
    exact ⟨name, hname, hunbound⟩
  · rintro ⟨name, hname, hunbound⟩
    cases hresult : c.formattedString source with
    | error failure => exact ⟨failure, rfl⟩
    | ok expr =>
      have hstands := ((formattedString_eq_ok htext hscan h).1 hresult).1
      exact absurd (standing?_eq_none.2 hunbound) (hstands name hname)
  · obtain ⟨hstands, rfl⟩ := (formattedString_eq_ok htext hscan h).1 hexpr
    refine Pattern.leftNested_concatAll fun e he => ?_
    obtain ⟨f, hf, rfl⟩ := List.mem_map.1 he
    exact (bound_fragment (hfragment hstands f hf)).1
  · obtain ⟨hstands, rfl⟩ := (formattedString_eq_ok htext hscan h).1 hexpr
    rw [Pattern.value_concatAll fun f hf => (bound_fragment (hfragment hstands f hf)).2 record,
      Pattern.concat_fragmentsOf]
    exact congrArg Expr.Value.text String.empty_append
  · obtain ⟨d, hd, hsame⟩ := standing?_expression he
    rw [standingText, hd, Option.map_some, Option.getD_some, hsame]

end Cell

namespace Rivers

/-- A bank is labelled by its number and its river. There are braces around the number, and one too many behind. -/
def label : Cell :=
  ⟨"label", "formatted_string", [property "BankRow" ["id"], property "BankRow" ["river"]],
    [property "River" ["left", "Bank", "height"]],
    ⟨[("pattern", [.literal (.text "\x7b\x7b id \x7d\x7d/\x7briver\x7d\x7b")])]⟩⟩

/-- The expression of the label. -/
def labelled : Expr :=
  .concat (.concat (.concat (.concat (.text "\x7b") (.property "id")) (.text "\x7d/")) (.property "river"))
    (.text "\x7b")

/-- The label is filled, and braces that are no placeholders stay. -/
theorem label_filled :
    label.text? "pattern" = some "\x7b\x7b id \x7d\x7d/\x7briver\x7d\x7b" ∧
      (∀ e ∈ label.roleSources "var", source.Resolves e) ∧ label.formattedString source = .ok labelled ∧
      labelled.value (fun name => .text (name ++ "?")) = .text "\x7bid?\x7d/river?\x7b" := by
  have htext : label.text? "pattern" = some "\x7b\x7b id \x7d\x7d/\x7briver\x7d\x7b" := rfl
  have hsources : ∀ e ∈ label.roleSources "var", source.Resolves e := by
    intro e he
    rcases List.mem_cons.1 he with rfl | he
    · exact ⟨_, _, rfl, rfl⟩
    · cases List.mem_singleton.1 he
      exact ⟨_, _, rfl, rfl⟩
  have hexpr : label.formattedString source = .ok labelled := rfl
  obtain ⟨pieces, hfills⟩ := Cell.formattedString_fills htext hsources
  have hscan : Pattern.Scans "\x7b\x7b id \x7d\x7d/\x7briver\x7d\x7b".toList
      [.char '\x7b', .hole " id ".toList, .char '\x7d', .char '/', .hole "river".toList, .char '\x7b'] := by
    refine .char (Pattern.placeholder?_eq_none.1 rfl) (.hole (Pattern.placeholder?_eq_some.1 rfl) ?_)
    refine .char (Pattern.placeholder?_eq_none.1 rfl) (.char (Pattern.placeholder?_eq_none.1 rfl) ?_)
    exact .hole (Pattern.placeholder?_eq_some.1 rfl) (.char (Pattern.placeholder?_eq_none.1 rfl) .nil)
  have hvalue := hfills.value _ hexpr fun name => name ++ "?"
  rw [← hfills.only _ hscan] at hvalue
  exact ⟨htext, hsources, hexpr, hvalue⟩

end Rivers

end FeatureAlignment
