import Mathlib.Data.List.Induction
import FeatureAlignment.Proofs.Rule.Written

/-!
# What prefixes stand for

The same cell gets different prefixes on its own and in a whole alignment, where others have asked for
prefixes before it. What the symbols of its rule stand for is the same: with each prefix replaced by its
namespace, both are the rule whose names are written out. A body never has a frame for a property twice;
which frames are alike does not depend on the prefixes either, as long as no prefix has a colon. With a colon
in a prefix, two names can be spelled alike next to one table and not next to another.

* `Formula.symbols`: the symbols of a formula, at every occurrence.
* `Rule.Expands`: a rule with the prefixes of a table replaced. `Rule.ExpandsInOrder` says so formula by
  formula.
* `Clause.layAll_alike`: two spellings that tell the same names apart make alike bodies.
* `Cell.RulesAgree`: two rules of a cell, each with a table of its own, have the same formulas.
* `Alignment.prefixes_sound`: the prefixes of the rules of an alignment, and when the two rules of a cell
  agree. `Roads.fork_disagrees`: a prefix with a colon, and two that do not.
-/

namespace FeatureAlignment

/-! ## Symbols -/

namespace Term

mutual

/-- The symbols of a term, from left to right. -/
def symbols : Term → List String
  | .variable _ => []
  | .constant _ _ => []
  | .symbol name => [name]
  | .call _ arguments => symbolsAll arguments

/-- The symbols of terms, one term after the other. -/
def symbolsAll : List Term → List String
  | [] => []
  | t :: ts => t.symbols ++ symbolsAll ts

end

theorem symbolsAll_eq_nil {ts : List Term} (h : ∀ t ∈ ts, t.symbols = []) : symbolsAll ts = [] := by
  induction ts with
  | nil => rfl
  | cons t ts ih =>
    rw [symbolsAll, h t List.mem_cons_self, ih fun u hu => h u (List.mem_cons_of_mem _ hu)]
    rfl

end Term

namespace Formula

mutual

/-- **The symbols of a formula**, from left to right, at every occurrence. -/
def symbols : Formula → List String
  | .all parts => symbolsAll parts
  | .any parts => symbolsAll parts
  | .not part => part.symbols
  | .equal left right => left.symbols ++ right.symbols
  | .test _ arguments => Term.symbolsAll arguments
  | .member object kind => object.symbols ++ kind.symbols
  | .frame object slot value => object.symbols ++ slot.symbols ++ value.symbols

/-- The symbols of formulas, one formula after the other. -/
def symbolsAll : List Formula → List String
  | [] => []
  | f :: fs => f.symbols ++ symbolsAll fs

end

theorem mem_symbolsAll {s : String} {fs : List Formula} : s ∈ symbolsAll fs ↔ ∃ f ∈ fs, s ∈ f.symbols := by
  induction fs with
  | nil => simp [symbolsAll]
  | cons f fs ih => simp [symbolsAll, ih]

theorem symbols_ofComparison (c : Comparison) : (ofComparison c).symbols = [] := by
  have hoperands : Term.symbolsAll [c.left.toTerm, c.right.toTerm] = [] := by
    rcases c with ⟨left, op, right, negated⟩
    cases left <;> cases right <;> rfl
  have htexts : (ofTexts c.op c.left.toTerm c.right.toTerm).symbols = [] := by
    cases c.op <;> simpa [ofTexts, compares, predicate, symbols, Term.symbols, Literal.toTerm] using hoperands
  unfold ofComparison
  simp only
  split <;> split
  · exact hoperands
  · exact htexts
  · exact hoperands
  · exact htexts

theorem symbols_negation (fs : List Formula) : (negation fs).symbols = symbolsAll fs := by
  unfold negation
  split <;> simp [symbols, symbolsAll]

mutual

/-- **A condition has no symbols.** -/
theorem symbols_ofCondition : ∀ c : Condition, (ofCondition c).symbols = []
  | .logical .and children => symbols_ofConditions children
  | .logical .or children => symbols_ofConditions children
  | .logical .not children => by
    rw [ofCondition, symbols_negation]
    exact symbols_ofConditions children
  | .comparison c => symbols_ofComparison c
  | .literal l => by
    rw [ofCondition]
    split <;> rfl

theorem symbols_ofConditions : ∀ cs : List Condition, symbolsAll (ofConditions cs) = []
  | [] => rfl
  | c :: cs => by
    rw [ofConditions, symbolsAll, symbols_ofCondition c, symbols_ofConditions cs]
    rfl

end

end Formula

/-! ## Replacing prefixes -/

/-- **A name with its namespace written out**; a name without namespace has an underscore, as in every
rule. -/
def QName.full (name : QName) : String :=
  if name.isQualified then "\x7b" ++ name.uri ++ "\x7d" ++ name.localName else "_" ++ variableName name.localName

/-- **Replacing the prefix of a symbol** by the namespace that a table gives it. A symbol without prefix
stays as it is. -/
inductive TextMap.Expands (table : TextMap) : String → String → Prop
  | qualified {label uri part : String} : table.get? label = some uri →
      Expands table (label ++ ":" ++ part) ("\x7b" ++ uri ++ "\x7d" ++ part)
  | bare {symbol : String} : ':' ∉ symbol.toList → Expands table symbol symbol

/-- **Replacing the prefixes of a formula**: symbols stand for the class of a membership and the slot of a
frame; a slot may be a path of symbols. -/
inductive Formula.Expands (table : TextMap) : Formula → Formula → Prop
  | plain {f : Formula} : f.symbols = [] → Expands table f f
  | member {object : Term} {symbol full : String} : object.symbols = [] → table.Expands symbol full →
      Expands table (.member object (.symbol symbol)) (.member object (.symbol full))
  | frame {object value : Term} {symbols fulls : List String} : object.symbols = [] → value.symbols = [] →
      List.Forall₂ table.Expands symbols fulls →
      Expands table (.frame object (.symbol (Text.join "/" symbols)) value)
        (.frame object (.symbol (Text.join "/" fulls)) value)

/-- **Replacing the prefixes of a rule.** The formulas of the body are those of the other, however often and
in whatever order. -/
structure Rule.Expands (table : TextMap) (rule full : Rule) : Prop where
  id : rule.id = full.id
  quantified : rule.quantified = full.quantified
  head : rule.head.Expands table full.head
  body : ∃ parts fulls, rule.body = .all parts ∧ full.body = .all fulls ∧
    (∀ f ∈ parts, ∃ g ∈ fulls, f.Expands table g) ∧ ∀ g ∈ fulls, ∃ f ∈ parts, f.Expands table g

/-- **Replacing the prefixes of a rule, formula by formula.** -/
structure Rule.ExpandsInOrder (table : TextMap) (rule full : Rule) : Prop extends rule.Expands table full where
  inOrder : ∃ parts fulls, rule.body = .all parts ∧ full.body = .all fulls ∧
    List.Forall₂ (Formula.Expands table) parts fulls

/-- Rules that expand to one have bodies of one length. -/
theorem Rule.ExpandsInOrder.length_eq {table table' : TextMap} {rule rule' full : Rule}
    {parts parts' : List Formula} (h : rule.ExpandsInOrder table full) (h' : rule'.ExpandsInOrder table' full)
    (hbody : rule.body = .all parts) (hbody' : rule'.body = .all parts') : parts.length = parts'.length := by
  obtain ⟨ps, fs, hps, hfs, hall⟩ := h.inOrder
  obtain ⟨ps', fs', hps', hfs', hall'⟩ := h'.inOrder
  cases hbody.symm.trans hps
  cases hbody'.symm.trans hps'
  cases hfs.symm.trans hfs'
  exact hall.length_eq.trans hall'.length_eq.symm

/-- The rule of a cell with all names written out. -/
def Cell.fullRule (c : Cell) : Rule := c.ruleIn QName.full

/-! ## Names are told apart -/

namespace QName

variable {name name' : QName}

theorem atBrace?_eq_some {cs before after : List Char} (h : atBrace? cs = some (before, after)) :
    cs = before ++ '\x7d' :: after := by
  induction cs generalizing before with
  | nil => cases h
  | cons c cs ih =>
    rw [atBrace?] at h
    split at h
    · rename_i hc
      cases h
      rw [hc, List.nil_append]
    · obtain ⟨⟨rest, last⟩, hrest, heq⟩ := Option.map_eq_some_iff.1 h
      cases heq
      rw [ih hrest, List.cons_append]

/-- A name with a namespace is what it is written as. -/
theorem full_eq_text (h : name.isQualified = true) : name.full = name.text := by
  rw [full, if_pos h]
  cases hparts : name.parts? with
  | none => simp [isQualified, uri, hparts] at h
  | some p =>
    rw [uri, localName, hparts]
    unfold parts? at hparts
    split at hparts
    · rename_i cs htext
      rw [← String.toList_inj, htext, atBrace?_eq_some hparts]
      simp
    · cases hparts

end QName

theorem colon_not_mem_variableName (s : String) : ':' ∉ (variableName s).toList := by
  rw [variableName, String.toList_ofList, List.mem_map]
  rintro ⟨c, -, hc⟩
  split at hc
  · rename_i halpha
    rw [hc] at halpha
    exact absurd halpha (by decide)
  · exact absurd hc (by decide)

theorem colon_not_mem_bare (s : String) : ':' ∉ ("_" ++ variableName s).toList := by
  rw [String.toList_append, List.mem_append, not_or]
  exact ⟨by decide, colon_not_mem_variableName s⟩

/-- Texts are cut at their first colon in one way. -/
theorem cut_inj {cs cs' rest rest' : List Char} (h : ':' ∉ cs) (h' : ':' ∉ cs')
    (heq : cs ++ ':' :: rest = cs' ++ ':' :: rest') : cs = cs' ∧ rest = rest' := by
  induction cs generalizing cs' with
  | nil =>
    cases cs' with
    | nil => exact ⟨rfl, (List.cons.inj heq).2⟩
    | cons c' cs' => exact absurd (List.mem_cons.2 (.inl (List.cons.inj heq).1)) h'
  | cons c cs ih =>
    cases cs' with
    | nil => exact absurd (List.mem_cons.2 (.inl (List.cons.inj heq).1.symm)) h
    | cons c' cs' =>
      obtain ⟨hc, hrest⟩ := List.cons.inj heq
      obtain ⟨hcs, hrest⟩ := ih (List.not_mem_of_not_mem_cons h) (List.not_mem_of_not_mem_cons h') hrest
      exact ⟨congrArg₂ List.cons hc hcs, hrest⟩

namespace TextMap

variable {table : TextMap} {name name' : QName}

/-- **What a symbol stands for** is the name that it spells. -/
theorem OneToOne.expands_spell (h : table.OneToOne) (hk : table.Knows name) :
    table.Expands (table.spell name) name.full := by
  by_cases hq : name.isQualified = true
  · obtain ⟨label, hl⟩ := hk hq
    rw [h.spell_eq hq hl, QName.full, if_pos hq]
    exact .qualified (h.get?_eq_some.2 hl)
  · rw [spell, QName.full, if_neg hq, if_neg hq]
    exact .bare (colon_not_mem_bare _)

/-- **Without colons in prefixes, a symbol stands for one thing.** -/
theorem Expands.unique (hplain : ∀ e ∈ table.entries, ':' ∉ e.1.toList) {symbol full full' : String}
    (h : table.Expands symbol full) (h' : table.Expands symbol full') : full = full' := by
  have hcolon : ∀ label part : String, ':' ∈ (label ++ ":" ++ part).toList := fun label part => by simp
  have hlabel : ∀ {label uri : String}, table.get? label = some uri → ':' ∉ label.toList := fun hget => by
    obtain ⟨before, after, heq, -⟩ := List.lookup_eq_some_iff.1 hget
    exact hplain (_, _) (by rw [heq]; exact List.mem_append_right _ List.mem_cons_self)
  generalize hsymbol : symbol = other at h'
  cases h with
  | @qualified label uri part hget =>
    cases h' with
    | @qualified label' uri' part' hget' =>
      -- both prefixes end at the first colon
      rw [← String.toList_inj] at hsymbol
      simp only [String.toList_append, List.append_assoc] at hsymbol
      obtain ⟨heq, hpart⟩ := cut_inj (hlabel hget) (hlabel hget') hsymbol
      rw [String.toList_inj] at heq
      rw [heq, hget'] at hget
      rw [Option.some_inj.1 hget, String.toList_inj.1 hpart]
    | bare hbare => exact absurd (hsymbol ▸ hcolon label part) hbare
  | bare hbare =>
    cases h' with
    | @qualified label' uri' part' => exact absurd (hsymbol.symm ▸ hcolon label' part') hbare
    | bare _ => exact hsymbol

/-- Names with and without namespace are apart: a prefix has a colon behind it, a namespace braces. -/
theorem OneToOne.apart (h : table.OneToOne) (hk : table.Knows name) (hq : name.isQualified = true)
    (hq' : ¬ name'.isQualified = true) : table.spell name ≠ table.spell name' ∧ name.full ≠ name'.full := by
  obtain ⟨label, hl⟩ := hk hq
  rw [h.spell_eq hq hl, spell, QName.full, QName.full, if_pos hq, if_neg hq', if_neg hq']
  constructor
  · intro heq
    refine colon_not_mem_bare name'.localName ?_
    rw [← heq]
    simp
  · intro heq
    have hfirst := congrArg (fun s => s.toList.head?) heq
    simp at hfirst

/-- **Without colons in prefixes, names with a namespace are spelled apart.** -/
theorem OneToOne.spell_inj (h : table.OneToOne) (hplain : ∀ e ∈ table.entries, ':' ∉ e.1.toList)
    (hk : table.Knows name) (hk' : table.Knows name') (hq : name.isQualified = true)
    (hq' : name'.isQualified = true) (heq : table.spell name = table.spell name') : name = name' := by
  obtain ⟨label, hl⟩ := hk hq
  obtain ⟨label', hl'⟩ := hk' hq'
  rw [h.spell_eq hq hl, h.spell_eq hq' hl', ← String.toList_inj] at heq
  simp only [String.toList_append, List.append_assoc] at heq
  -- the prefixes end at the first colons, so both symbols have the same one, and it has one namespace
  obtain ⟨hlabel, hlocal⟩ : label.toList = label'.toList ∧ name.localName.toList = name'.localName.toList :=
    cut_inj (hplain _ hl) (hplain _ hl') heq
  have huri := h.get?_eq_some.2 hl'
  rw [← String.toList_inj.1 hlabel, h.get?_eq_some.2 hl] at huri
  have htext : name.full = name'.full := by
    rw [QName.full, QName.full, if_pos hq, if_pos hq', Option.some_inj.1 huri, String.toList_inj.1 hlocal]
  rw [QName.full_eq_text hq, QName.full_eq_text hq'] at htext
  cases name
  cases name'
  exact congrArg QName.mk htext

/-- **A table tells the names apart that are apart when written out.** -/
theorem OneToOne.spell_eq_iff (h : table.OneToOne) (hplain : ∀ e ∈ table.entries, ':' ∉ e.1.toList)
    (hk : table.Knows name) (hk' : table.Knows name') :
    table.spell name = table.spell name' ↔ name.full = name'.full := by
  by_cases hq : name.isQualified = true
  · by_cases hq' : name'.isQualified = true
    · refine ⟨fun heq => by rw [h.spell_inj hplain hk hk' hq hq' heq], fun heq => ?_⟩
      rw [QName.full_eq_text hq, QName.full_eq_text hq'] at heq
      rw [show name = name' from congrArg QName.mk heq]
    · exact iff_of_false (h.apart hk hq hq').1 (h.apart hk hq hq').2
  · by_cases hq' : name'.isQualified = true
    · exact iff_of_false (h.apart hk' hq' hq).1.symm (h.apart hk' hq' hq).2.symm
    · rw [spell, spell, QName.full, QName.full, if_neg hq, if_neg hq', if_neg hq, if_neg hq']

end TextMap

/-! ## Bodies that are alike -/

namespace Clause

variable {spell spell' : QName → String} {k j : Clause}

/-- Two spellings tell the same names of clauses apart. -/
def TellAlike (spell spell' : QName → String) (ks : List Clause) : Prop :=
  ∀ k ∈ ks, ∀ name ∈ k.name?, ∀ j ∈ ks, ∀ name' ∈ j.name?, (spell name = spell name' ↔ spell' name = spell' name')

/-- Whether the formula of a clause is the frame of a property does not depend on the spelling. -/
theorem formula_eq_iff {number : Nat} {p : String} (h : ∀ name ∈ k.name?,
    (spell name = spell ⟨p⟩ ↔ spell' name = spell' ⟨p⟩)) :
    k.formula spell = (property number p).formula spell ↔ k.formula spell' = (property number p).formula spell' := by
  cases k with
  | member _ _ => exact iff_of_false (by simp [formula]) (by simp [formula])
  | step n walked name => simp only [formula, Formula.frame.injEq, Term.symbol.injEq, h name rfl]
  | property n q => simp only [formula, Formula.frame.injEq, Term.symbol.injEq, h ⟨q⟩ rfl]
  | condition n c =>
    -- a condition has no symbols, the frame has one
    have hne : ∀ spell : QName → String, (condition n c).formula spell ≠ (property number p).formula spell := by
      intro spell heq
      have hsymbols := congrArg Formula.symbols heq
      simp [formula, Formula.symbols_ofCondition, Formula.symbols, Term.symbols, Referent.term] at hsymbols
    exact iff_of_false (hne spell) (hne spell')

/-- **Two spellings that tell the same names apart make alike bodies**: these have the formulas of the same
clauses. -/
theorem layAll_alike (ks : List Clause) (h : TellAlike spell spell' ks) :
    ∃ js ⊆ ks, layAll spell [] ks = js.map (formula spell) ∧ layAll spell' [] ks = js.map (formula spell') := by
  induction ks using List.reverseRecOn with
  | nil => exact ⟨[], List.Subset.refl _, rfl, rfl⟩
  | append_singleton ks k ih =>
    have hsub : ks ⊆ ks ++ [k] := List.subset_append_left _ _
    have hk : k ∈ ks ++ [k] := List.mem_append_right _ (List.mem_singleton.2 rfl)
    obtain ⟨js, hjs, hbody, hbody'⟩ := ih fun k hk name hn j hj => h k (hsub hk) name hn j (hsub hj)
    have hjs' : js ⊆ ks ++ [k] := List.Subset.trans hjs hsub
    -- whether the new formula is left out does not depend on the spelling
    have hthere : (k.isProperty && (js.map (formula spell)).contains (k.formula spell)) =
        (k.isProperty && (js.map (formula spell')).contains (k.formula spell')) := by
      cases k with
      | property number p =>
        refine congrArg _ (Bool.eq_iff_iff.2 ?_)
        simp only [List.contains_iff_mem, List.mem_map]
        refine exists_congr fun j => and_congr_right fun hj => formula_eq_iff fun name hn => ?_
        exact h j (hsub (hjs hj)) name hn _ hk ⟨p⟩ rfl
      | member _ _ => rfl
      | step _ _ _ => rfl
      | condition _ _ => rfl
    rw [layAll_concat, layAll_concat, hbody, hbody', lay, lay, hthere]
    split
    · exact ⟨js, hjs', rfl, rfl⟩
    · refine ⟨js ++ [k], List.append_subset.2 ⟨hjs', List.cons_subset.2 ⟨hk, List.nil_subset _⟩⟩, ?_, ?_⟩ <;>
        rw [List.map_append] <;> rfl

variable {table : TextMap}

theorem expands_formula (h : table.OneToOne) (hk : ∀ name ∈ k.name?, table.Knows name) :
    (k.formula table.spell).Expands table (k.formula QName.full) := by
  cases k with
  | member _ type => exact .member rfl (h.expands_spell (hk type rfl))
  | step _ _ name => exact .frame rfl rfl (.cons (h.expands_spell (hk name rfl)) .nil)
  | property _ p => exact .frame rfl rfl (.cons (h.expands_spell (hk ⟨p⟩ rfl)) .nil)
  | condition _ c => exact .plain (Formula.symbols_ofCondition c)

end Clause

/-! ## Rules that are alike -/

namespace Cell

variable {table : TextMap} {c : Cell}

/-- The value in the head has no symbols. -/
theorem symbols_value (c : Cell) : (Term.call ("func:" ++ c.function)
    ((Referent.ofSources 0 c.source).map Referent.term ++ c.parameters.literals.map Literal.toTerm)).symbols = [] := by
  refine Term.symbolsAll_eq_nil fun t ht => ?_
  rcases List.mem_append.1 ht with ht | ht
  · obtain ⟨o, -, rfl⟩ := List.mem_map.1 ht
    rfl
  · obtain ⟨l, -, rfl⟩ := List.mem_map.1 ht
    rfl

theorem expands_headIn (h : table.OneToOne) (hk : ∀ name ∈ c.headNames, table.Knows name) :
    (c.headIn table.spell).Expands table (c.headIn QName.full) := by
  rcases ht : c.target with _ | ⟨e, rest⟩
  · simp only [headIn, ht]
    exact .plain rfl
  · simp only [headIn, headNames, ht] at hk ⊢
    split
    · rename_i htype
      rw [if_pos htype] at hk
      exact .member rfl (h.expands_spell (hk e.type (List.mem_singleton.2 rfl)))
    · rename_i htype
      rw [if_neg htype] at hk
      refine .frame rfl c.symbols_value ?_
      exact List.forall₂_map_left_iff.2 (List.forall₂_map_right_iff.2 (List.forall₂_same.2 fun name hn =>
        h.expands_spell (hk name hn)))

/-- **The rule of a cell, spelled by a table that knows its names, stands for the rule with all names written
out.** -/
theorem expands_ruleIn (h : table.OneToOne) (hk : ∀ name ∈ c.ruleNames, table.Knows name) :
    (c.ruleIn table.spell).Expands table c.fullRule where
  id := rfl
  quantified := rfl
  head := expands_headIn h fun name hn => hk name (List.mem_append_right _ hn)
  body := by
    have hformula : ∀ k ∈ c.clauses, (k.formula table.spell).Expands table (k.formula QName.full) := fun k hmem =>
      Clause.expands_formula h fun name hn =>
        hk name (List.mem_append_left _ (List.mem_filterMap.2 ⟨k, hmem, hn⟩))
    refine ⟨_, _, rfl, rfl, fun f hf => ?_, fun g hg => ?_⟩
    · obtain ⟨k, hmem, rfl⟩ := (Clause.mem_layAll c.clauses).1 hf
      exact ⟨_, (Clause.mem_layAll c.clauses).2 ⟨k, hmem, rfl⟩, hformula k hmem⟩
    · obtain ⟨k, hmem, rfl⟩ := (Clause.mem_layAll c.clauses).1 hg
      exact ⟨_, (Clause.mem_layAll c.clauses).2 ⟨k, hmem, rfl⟩, hformula k hmem⟩

/-- **Without colons in prefixes**, a table tells the names of the clauses apart that are apart when written
out. -/
theorem tellAlike_full (h : table.OneToOne) (hplain : ∀ e ∈ table.entries, ':' ∉ e.1.toList)
    (hk : ∀ name ∈ c.ruleNames, table.Knows name) : Clause.TellAlike table.spell QName.full c.clauses := by
  have hnames : ∀ k ∈ c.clauses, ∀ name ∈ k.name?, table.Knows name := fun k hmem name hn =>
    hk name (List.mem_append_left _ (List.mem_filterMap.2 ⟨k, hmem, hn⟩))
  exact fun k hk name hn j hj name' hn' => h.spell_eq_iff hplain (hnames k hk name hn) (hnames j hj name' hn')

/-- **Formula by formula**, if no prefix has a colon. -/
theorem expandsInOrder_ruleIn (h : table.OneToOne) (hplain : ∀ e ∈ table.entries, ':' ∉ e.1.toList)
    (hk : ∀ name ∈ c.ruleNames, table.Knows name) : (c.ruleIn table.spell).ExpandsInOrder table c.fullRule := by
  obtain ⟨js, hjs, hbody, hfull⟩ := Clause.layAll_alike c.clauses (tellAlike_full h hplain hk)
  refine ⟨expands_ruleIn h hk, _, _, rfl, rfl, ?_⟩
  rw [hbody, hfull]
  refine List.forall₂_map_left_iff.2 (List.forall₂_map_right_iff.2 (List.forall₂_same.2 fun j hj => ?_))
  exact Clause.expands_formula h fun name hn =>
    hk name (List.mem_append_left _ (List.mem_filterMap.2 ⟨j, hjs hj, hn⟩))

/-- **Two rules of a cell agree**, each with the prefixes of its own table: they have the same variables, and
their formulas are those of the same clauses in the same order, each name spelled by the table. With prefixes
replaced, which can be done in one way, both are formula by formula the rule with all names written out. -/
structure RulesAgree (c : Cell) (table table' : TextMap) (rule rule' : Rule) : Prop where
  id : rule.id = rule'.id
  quantified : rule.quantified = rule'.quantified
  head : rule.head = c.headIn table.spell ∧ rule'.head = c.headIn table'.spell
  body : ∃ ks ⊆ c.clauses, rule.body = .all (ks.map (Clause.formula table.spell)) ∧
    rule'.body = .all (ks.map (Clause.formula table'.spell))
  expands : rule.ExpandsInOrder table c.fullRule
  expands' : rule'.ExpandsInOrder table' c.fullRule
  unique : ∀ t ∈ [table, table'], ∀ symbol full full', t.Expands symbol full → t.Expands symbol full' → full = full'

/-- **The rules of a cell agree**, whatever tables they are written with, if no prefix has a colon. -/
theorem rulesAgree {table' : TextMap} (h : table.OneToOne) (hplain : ∀ e ∈ table.entries, ':' ∉ e.1.toList)
    (hk : ∀ name ∈ c.ruleNames, table.Knows name) (h' : table'.OneToOne)
    (hplain' : ∀ e ∈ table'.entries, ':' ∉ e.1.toList) (hk' : ∀ name ∈ c.ruleNames, table'.Knows name) :
    c.RulesAgree table table' (c.ruleIn table.spell) (c.ruleIn table'.spell) where
  id := rfl
  quantified := rfl
  head := ⟨rfl, rfl⟩
  body := by
    have htell := tellAlike_full h hplain hk
    have htell' := tellAlike_full h' hplain' hk'
    have hboth : Clause.TellAlike table.spell table'.spell c.clauses := fun k hk name hn j hj name' hn' =>
      (htell k hk name hn j hj name' hn').trans (htell' k hk name hn j hj name' hn').symm
    obtain ⟨ks, hks, hbody, hbody'⟩ := Clause.layAll_alike c.clauses hboth
    exact ⟨ks, hks, congrArg Formula.all hbody, congrArg Formula.all hbody'⟩
  expands := expandsInOrder_ruleIn h hplain hk
  expands' := expandsInOrder_ruleIn h' hplain' hk'
  unique t ht symbol full full' hfull hfull' := by
    rcases List.mem_cons.1 ht with rfl | ht
    · exact hfull.unique hplain hfull'
    · obtain rfl := List.mem_singleton.1 ht
      exact hfull.unique hplain' hfull'

/-- Each symbol of a rule spells a name of it, or several as a path. -/
theorem symbols_ruleIn {spell : QName → String} {s : String}
    (h : s ∈ (c.ruleIn spell).head.symbols ∨ s ∈ (c.ruleIn spell).body.symbols) :
    ∃ names ⊆ c.ruleNames, s = Text.join "/" (names.map spell) := by
  rcases h with h | h
  · refine ⟨c.headNames, List.subset_append_right _ _, ?_⟩
    rcases ht : c.target with _ | ⟨e, rest⟩
    · simp [ruleIn, headIn, ht, Formula.symbols, Formula.symbolsAll] at h
    · simp only [ruleIn, headIn, headNames, ht] at h ⊢
      split at h
      · rename_i htype
        rw [if_pos htype]
        exact List.mem_singleton.1 h
      · rename_i htype
        rw [if_neg htype]
        rw [Formula.symbols, symbols_value, List.append_nil] at h
        exact List.mem_singleton.1 h
  · obtain ⟨f, hf, hs⟩ := Formula.mem_symbolsAll.1 h
    obtain ⟨k, hk, rfl⟩ := (Clause.mem_layAll c.clauses).1 hf
    have hspelled : ∃ name ∈ k.name?, s = spell name := by
      cases k with
      | member _ type => exact ⟨type, rfl, List.mem_singleton.1 hs⟩
      | step n walked name =>
        refine ⟨name, rfl, ?_⟩
        unfold Clause.formula Formula.symbols at hs
        exact List.mem_singleton.1 hs
      | property _ p => exact ⟨⟨p⟩, rfl, List.mem_singleton.1 hs⟩
      | condition _ d =>
        rw [Clause.formula, Formula.symbols_ofCondition] at hs
        cases hs
    obtain ⟨name, hname, rfl⟩ := hspelled
    refine ⟨[name], List.cons_subset.2 ⟨?_, List.nil_subset _⟩, rfl⟩
    exact List.mem_append_left _ (List.mem_filterMap.2 ⟨k, hk, hname⟩)

end Cell

/-- **A table of prefixes**: no namespace has two, and those of the format stand for its namespaces. -/
structure TextMap.Prefixes (table : TextMap) : Prop extends table.OneToOne where
  pred : table.get? "pred" = some "http://www.w3.org/2007/rif-builtin-predicate#"
  func : table.get? "func" = some "http://www.w3.org/2007/rif-builtin-function#"
  xs : table.get? "xs" = some "http://www.w3.org/2001/XMLSchema#"

/-- **A rule with the prefixes of a table**: it is the rule of the cell with all names spelled by the table.
Its symbols spell names of the cell, one or several as a path, each with a prefix that stands for the namespace
of the name; and with its prefixes replaced it is the rule of the cell with names written out. -/
structure Rule.Prefixed (table : TextMap) (c : Cell) (rule : Rule) : Prop where
  prefixes : table.Prefixes
  spelled : rule = c.ruleIn table.spell
  symbols : ∀ s, s ∈ rule.head.symbols ∨ s ∈ rule.body.symbols →
    ∃ names ⊆ c.ruleNames, s = Text.join "/" (names.map table.spell)
  bound : ∀ name ∈ c.ruleNames, name.isQualified = true →
    ∃ label, table.get? label = some name.uri ∧ table.spell name = label ++ ":" ++ name.localName
  expands : rule.Expands table c.fullRule

namespace Draft

variable {config : Config} {table : TextMap}

theorem Table.prefixes (ht : Table config table) : table.Prefixes where
  toOneToOne := ht.toOneToOne
  pred := ht.get?_eq_some.2 (ht.standard (by decide))
  func := ht.get?_eq_some.2 (ht.standard (by decide))
  xs := ht.get?_eq_some.2 (ht.standard (by decide))

theorem Table.prefixed (ht : Table config table) {c : Cell} (hk : ∀ name ∈ c.ruleNames, table.Knows name) :
    (c.ruleIn table.spell).Prefixed table c where
  prefixes := ht.prefixes
  spelled := rfl
  symbols _ h := Cell.symbols_ruleIn h
  bound name hn hq :=
    let ⟨label, hl⟩ := hk name hn hq
    ⟨label, ht.get?_eq_some.2 hl, ht.spell_eq hq hl⟩
  expands := Cell.expands_ruleIn ht.toOneToOne hk

end Draft

/-- **The prefixes of the rules of an alignment.** Its table is one-to-one and has the prefixes of the format.
All rules of the alignment are written with its prefixes, and the rule of a cell on its own with those of its
own table. Both agree if the configuration is plain, which it is if it passes its check: otherwise two names
could be spelled alike in one of the tables, and share a frame there. -/
theorem Alignment.prefixes_sound (config : Config) (a : Alignment) :
    (a.toRules config).prefixes.Prefixes ∧
      List.Forall₂ (fun c rule =>
        rule.Prefixed (a.toRules config).prefixes c ∧ (c.toRule config).1.Prefixed (c.toRule config).2 c ∧
          (config.Plain → c.RulesAgree (a.toRules config).prefixes (c.toRule config).2 rule (c.toRule config).1))
        a.cells (a.toRules config).rules ∧
      (config.check = .ok () → config.Plain) := by
  obtain ⟨hlast, -, hrules⟩ := Cell.rulesFrom_written a.cells _ (Draft.table_standard config)
  refine ⟨hlast.prefixes, (hrules _ hlast.toOneToOne (List.Subset.refl _)).imp fun c rule h => ?_,
    Config.plain_of_check⟩
  obtain ⟨hknows, rfl⟩ := h
  obtain ⟨hown, -, hknows', hrule⟩ := Cell.ruleFrom_written (Draft.table_standard config) c
  have hrule := hrule _ hown.toOneToOne (List.Subset.refl _)
  rw [Cell.toRule, hrule]
  exact ⟨hlast.prefixed hknows, hown.prefixed hknows', fun hc =>
    Cell.rulesAgree hlast.toOneToOne (hlast.plain hc) hknows hown.toOneToOne (hown.plain hc) hknows'⟩

namespace Roads

/-- A road of a namespace becomes one of another. -/
def move (id uri uri' : String) : Cell :=
  ⟨id, "retype", [⟨none, .qualified uri "Road", [], none⟩], [⟨none, .qualified uri' "Road", [], none⟩], .empty⟩

/-- Roads of two countries go to a third. -/
def moves : Alignment := ⟨none, [move "north" "urn:a" "urn:c", move "south" "urn:b" "urn:c"]⟩

/-- The second rule has other prefixes among the others than on its own. -/
theorem second_move_agrees :
    Config.standard.check = .ok () ∧ Config.standard.Plain ∧
      ((moves.toRules .standard).rules.map Rule.body =
        [.all [.member (.variable "s0") (.symbol "ns1:Road")], .all [.member (.variable "s0") (.symbol "ns3:Road")]]) ∧
      List.Forall₂ (fun c rule => c.RulesAgree (moves.toRules .standard).prefixes (c.toRule .standard).2 rule
        (c.toRule .standard).1) moves.cells (moves.toRules .standard).rules := by
  have hcheck : Config.standard.check = .ok () := rfl
  have hsound := Alignment.prefixes_sound .standard moves
  exact ⟨hcheck, hsound.2.2 hcheck, by decide, hsound.2.1.imp fun _ _ h => h.2.2 (hsound.2.2 hcheck)⟩

/-- A preferred prefix with a colon. -/
def colons : Config := ⟨⟨[("a:y", "ns1:y")]⟩, "LINK", none, false, .xml⟩

/-- A road whose condition reads two properties, of namespaces with and without a preferred prefix. -/
def fork : Cell :=
  ⟨"fork", "retype", [⟨none, ⟨"Road"⟩, [], some (.compare (.property "\x7ba\x7dy:z") .equal (.property "\x7ba:y\x7dz"))⟩],
    [.ofType ⟨"Road"⟩], .empty⟩

/-- Another road before it, whose namespace gets the first number. -/
def forked : Alignment := ⟨none, [move "north" "urn:b" "urn:b", fork]⟩

/-- **The fork disagrees.** On its own both properties have the same symbol, and share a frame. After another
road they have not, and there are two: no rule with names written out is both. -/
theorem fork_disagrees :
    ¬ colons.Plain ∧ colons.check ≠ .ok () ∧
      (fork.toRule colons).1.body.symbols = ["_Road", "ns1:y:z"] ∧
      (forked.toRules colons).rules.map (fun rule => rule.body.symbols) =
        [["ns1:Road"], ["_Road", "ns2:y:z", "ns1:y:z"]] ∧
      ¬ List.Forall₂ (fun c rule => ∃ full, rule.ExpandsInOrder (forked.toRules colons).prefixes full ∧
        (c.toRule colons).1.ExpandsInOrder (c.toRule colons).2 full)
        forked.cells (forked.toRules colons).rules := by
  have hcolon : ¬ colons.Plain := by decide
  refine ⟨hcolon, fun hcheck => hcolon (Config.plain_of_check hcheck), by decide, by decide, fun hall => ?_⟩
  cases hall with
  | cons _ hall =>
    cases hall with
    | cons hfork _ =>
      obtain ⟨full, hwhole, hown⟩ := hfork
      have hlength := hwhole.length_eq hown rfl rfl
      revert hlength
      decide

end Roads

end FeatureAlignment
