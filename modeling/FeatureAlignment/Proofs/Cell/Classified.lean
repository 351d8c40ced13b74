import FeatureAlignment.Proofs.Cell.Sources
import FeatureAlignment.Proofs.Expr.Value

/-!
# Classifications compute their tables

A lookup table is made by inserting keys with texts, one after the other, where an equal key keeps its place and
gets the new text. A classification writes the keys twice, once to ask whether the table has a value and once to
recode it. Its value is the text inserted last for the key that the source equals, or what the cell has chosen for
a value that is none of the keys.

* `LookupTable.Key`: integers and texts as keys; `Key.same_iff`: a value equals at most one of them.
* `LookupTable.Tabulates`: entries that have the keys in order of first insertion, each once, with the texts inserted
  last; one insertion keeps it (`Tabulates.insert`), so insertion by insertion a table has it (`tabulates_ofList`).
* `LookupTable.classified`: what a classification has to answer.
* `Cell.classification_computes`: the expression of a classification answers it, for every value of the source.
-/

namespace FeatureAlignment

open FeatureAlignment.Expr (Value)

namespace LookupTable

/-! ## Keys -/

/-- **A key of a classification**: an integer or a text. -/
inductive Key
  | integer (i : Int64)
  | text (s : String)
  deriving DecidableEq, Repr

namespace Key

/-- The key as a literal. -/
def literal : Key → Literal
  | .integer i => .integer i
  | .text s => .text s

/-- The key as a value. -/
def value (k : Key) : Value := .literal k.literal

/-- The key as an expression. -/
def toExpr (k : Key) : Expr := k.literal.toExpr

variable {k k' : Key} {v : Value}

theorem beq_literal_iff : (k.literal == k'.literal) = true ↔ k = k' := by
  cases k with
  | integer i =>
    cases k' with
    | integer j =>
      show (i == j) = true ↔ _
      rw [beq_iff_eq, Key.integer.injEq]
    | text s => exact ⟨nofun, nofun⟩
  | text s =>
    cases k' with
    | integer j => exact ⟨nofun, nofun⟩
    | text t =>
      show (s == t) = true ↔ _
      rw [beq_iff_eq, Key.text.injEq]

/-- **A value equals at most one key**, of its own kind. -/
theorem same_iff : v.same k.value = true ↔ v = k.value := by
  cases v with
  | none => exact ⟨nofun, nofun⟩
  | truth holds => exact ⟨nofun, nofun⟩
  | literal l =>
    cases l with
    | double d => cases k <;> exact ⟨nofun, nofun⟩
    | integer i =>
      have hkey : Value.same (.literal (.integer i)) k.value = true ↔ Key.integer i = k :=
        @beq_literal_iff (.integer i) k
      rw [hkey]
      cases k <;> simp [value, literal]
    | text s =>
      have hkey : Value.same (.literal (.text s)) k.value = true ↔ Key.text s = k :=
        @beq_literal_iff (.text s) k
      rw [hkey]
      cases k <;> simp [value, literal]

theorem value_inj (h : k.value = k'.value) : k = k' := by
  have hsame := same_iff.2 h
  exact beq_literal_iff.1 hsame

/-- **A key is written as what it is read as.** -/
theorem value_toExpr (k : Key) (record : String → Value) : k.toExpr.value record = k.value := by
  cases k with
  | integer i =>
    show Value.literal (Literal.ofText (Text.integer i.toInt)) = _
    rw [Literal.ofText_integer]
    rfl
  | text s => rfl

theorem toExpr_inj (h : k.toExpr = k'.toExpr) : k = k' := by
  have hvalue := congrArg (Expr.value fun _ => .none) h
  rw [value_toExpr, value_toExpr] at hvalue
  exact value_inj hvalue

/-- Keys can be written. -/
theorem isFinite_literal (k : Key) : k.literal.isFinite = true := by cases k <;> rfl

end Key

/-! ## Tables -/

/-- A key with its text, as an entry. -/
def entry (p : Key × String) : Literal × String := (p.1.literal, p.2)

/-- **The text inserted last for a value**: that of the last insertion whose key equals it. -/
def lastInserted? (insertions : List (Key × String)) (v : Value) : Option String :=
  (insertions.reverse.find? fun p => v.same p.1.value).map Prod.snd

/-- **The entries of a table made by insertions**: the keys in order of first insertion, each once, and for each
value the text inserted last for it. -/
structure Tabulates (insertions entries : List (Key × String)) : Prop where
  keys : entries.map Prod.fst = (insertions.map Prod.fst).eraseDups
  nodup : (entries.map Prod.fst).Nodup
  texts : ∀ v : Value, (entries.find? fun p => v.same p.1.value).map Prod.snd = lastInserted? insertions v

variable {insertions entries : List (Key × String)}

/-- **One insertion**: the key stays where it is or goes to the end, and for what equals it the text is the new one. -/
theorem insertEntry_entry (k : Key) (text : String) (entries : List (Key × String)) :
    ∃ next : List (Key × String), insertEntry k.literal text (entries.map entry) = next.map entry ∧
      next.map Prod.fst = (if k ∈ entries.map Prod.fst then entries.map Prod.fst else entries.map Prod.fst ++ [k]) ∧
      ∀ v : Value, (next.find? fun p => v.same p.1.value).map Prod.snd =
        if v.same k.value then some text else (entries.find? fun p => v.same p.1.value).map Prod.snd := by
  induction entries with
  | nil =>
    refine ⟨[(k, text)], rfl, rfl, fun v => ?_⟩
    rw [List.find?_singleton]
    cases v.same k.value <;> rfl
  | cons p entries ih =>
    by_cases hk : p.1 = k
    · refine ⟨(p.1, text) :: entries, ?_, ?_, fun v => ?_⟩
      · rw [List.map_cons, entry, insertEntry, if_pos (Key.beq_literal_iff.2 hk)]
        rfl
      · rw [List.map_cons, List.map_cons, if_pos (by rw [hk]; exact List.mem_cons_self)]
      · rw [List.find?_cons, List.find?_cons, hk]
        cases v.same k.value <;> rfl
    · obtain ⟨next, hnext, hkeys, htexts⟩ := ih
      refine ⟨p :: next, ?_, ?_, fun v => ?_⟩
      · rw [List.map_cons, entry, insertEntry, if_neg (fun h => hk (Key.beq_literal_iff.1 h)), List.map_cons, hnext]
        rfl
      · rw [List.map_cons, hkeys, List.map_cons]
        have hmem : k ∈ p.1 :: entries.map Prod.fst ↔ k ∈ entries.map Prod.fst := by
          rw [List.mem_cons]
          exact ⟨fun h => h.resolve_left (Ne.symm hk), .inr⟩
        by_cases hm : k ∈ entries.map Prod.fst
        · rw [if_pos hm, if_pos (hmem.2 hm)]
        · rw [if_neg hm, if_neg (fun h => hm (hmem.1 h))]
          rfl
      · rw [List.find?_cons, List.find?_cons]
        cases hp : v.same p.1.value with
        | false => exact htexts v
        | true =>
          -- a value that equals this key does not equal the new one
          have hother : v.same k.value = false := by
            rw [Bool.eq_false_iff]
            intro hv
            exact hk (Key.value_inj ((Key.same_iff.1 hp).symm.trans (Key.same_iff.1 hv)))
          rw [hother]
          rfl

/-- **An insertion keeps a table what it is.** -/
theorem Tabulates.insert (h : Tabulates insertions entries) (k : Key) (text : String) :
    ∃ next, insertEntry k.literal text (entries.map entry) = next.map entry ∧
      Tabulates (insertions ++ [(k, text)]) next := by
  obtain ⟨next, hnext, hkeys, htexts⟩ := insertEntry_entry k text entries
  refine ⟨next, hnext, ?_, ?_, fun v => ?_⟩
  · rw [hkeys, h.keys, List.map_append, List.eraseDups_append]
    by_cases hm : k ∈ insertions.map Prod.fst
    · simp [List.removeAll, hm]
    · simp [List.removeAll, hm, List.eraseDups_cons]
  · rw [hkeys]
    split
    case isTrue => exact h.nodup
    case isFalse hm =>
      rw [List.nodup_append]
      refine ⟨h.nodup, List.pairwise_singleton _ k, fun key hkey _ hlast heq => hm ?_⟩
      rw [← List.mem_singleton.1 hlast, ← heq]
      exact hkey
  · rw [htexts, h.texts, lastInserted?, lastInserted?, List.reverse_append, List.reverse_singleton,
      List.singleton_append, List.find?_cons]
    cases v.same k.value <;> rfl

/-- **A table made by insertions.** -/
theorem tabulates_ofList (insertions : List (Key × String)) : ∃ entries : List (Key × String),
    ofList (insertions.map entry) = ⟨entries.map entry⟩ ∧ Tabulates insertions entries := by
  -- the insertions so far are kept apart from those to come
  have hfold : ∀ (done more entries : List (Key × String)), Tabulates done entries →
      ∃ next : List (Key × String), (more.map entry).foldl (fun t p => t.insert p.1 p.2) (mk (entries.map entry)) =
        ⟨next.map entry⟩ ∧ Tabulates (done ++ more) next := by
    intro done more
    induction more generalizing done with
    | nil => exact fun entries h => ⟨entries, rfl, by rw [List.append_nil]; exact h⟩
    | cons p more ih =>
      intro entries h
      obtain ⟨next, hnext, h⟩ := h.insert p.1 p.2
      obtain ⟨last, hlast, h⟩ := ih _ next h
      refine ⟨last, ?_, by rw [List.append_assoc] at h; exact h⟩
      rw [List.map_cons, List.foldl_cons, ← hlast, ← hnext]
      rfl
  exact hfold [] insertions [] ⟨rfl, List.nodup_nil, fun v => rfl⟩

/-! ## Recoding by a table -/

/-- **What is chosen for a value that is no key**: the value itself, none, or a constant. -/
def unclassified (v : Value) : UnclassifiedAction → Value
  | .useSource => v
  | .useNull => .none
  | .fixed text => .text text

/-- **What a classification has to answer**: the text inserted last for a value, or what is chosen for it. -/
def classified (insertions : List (Key × String)) (action : UnclassifiedAction) (v : Value) : Value :=
  ((lastInserted? insertions v).map Value.text).getD (unclassified v action)

/-- **The keys of a table**, as they are written: in order of first insertion, each once. -/
def keyExprs (insertions : List (Key × String)) : List Expr := (insertions.map Prod.fst).eraseDups.map Key.toExpr

theorem Tabulates.map_toExpr (h : Tabulates insertions entries) :
    (entries.map fun p => p.1.toExpr) = keyExprs insertions := by
  rw [keyExprs, ← h.keys, List.map_map]
  rfl

theorem Tabulates.keyExprs_nodup (h : Tabulates insertions entries) : (keyExprs insertions).Nodup := by
  rw [keyExprs, ← h.keys]
  exact List.pairwise_map.2 (h.nodup.imp fun hne heq => hne (Key.toExpr_inj heq))

/-- There are entries if there was an insertion. -/
theorem Tabulates.ne_nil (h : Tabulates insertions entries) (hne : insertions ≠ []) : entries ≠ [] := by
  obtain ⟨p, hp⟩ := List.exists_mem_of_ne_nil _ hne
  have hkey : p.1 ∈ entries.map Prod.fst := by
    rw [h.keys, List.mem_eraseDups]
    exact List.mem_map_of_mem hp
  rintro rfl
  cases hkey

/-- All keys can be written. -/
theorem unwritable?_entries (entries : List (Key × String)) : (mk (entries.map entry)).unwritable? = none := by
  rw [unwritable?, Option.map_eq_none_iff, List.find?_eq_none]
  intro p hp
  obtain ⟨q, -, rfl⟩ := List.mem_map.1 hp
  rw [entry, Key.isFinite_literal]
  exact Bool.false_ne_true

theorem value_fallback (e : Expr) (action : UnclassifiedAction) (record : String → Value) :
    (action.fallback e).value record = unclassified (e.value record) action := by cases action <;> rfl

/-- The entries as they are written in an expression. -/
theorem classify_entries (e : Expr) (action : UnclassifiedAction) (entries : List (Key × String)) :
    (mk (entries.map entry)).classify e action = .ifThenElse (.isIn e (entries.map fun p => p.1.toExpr))
      (.recode e (entries.map fun p => (p.1.toExpr, .text p.2))) (action.fallback e) := by
  unfold classify
  rw [List.map_map, List.map_map]
  rfl

/-- **A classification answers what it has to.** Whether the table has a value and what it has for it are told by
the same search. -/
theorem value_classify (h : Tabulates insertions entries) (e : Expr) (action : UnclassifiedAction)
    (record : String → Value) : ((mk (entries.map entry)).classify e action).value record =
      classified insertions action (e.value record) := by
  have hany : entries.any (fun p => (e.value record).same p.1.value) =
      (entries.find? fun p => (e.value record).same p.1.value).isSome := by
    rw [Bool.eq_iff_iff, List.any_eq_true, List.find?_isSome]
  rw [classify_entries, Expr.value_ifThenElse, Expr.value_isIn, Expr.value_recode, List.any_map, List.find?_map,
    value_fallback]
  simp only [Function.comp_def, Key.value_toExpr]
  rw [classified, ← h.texts, hany]
  cases entries.find? fun p => (e.value record).same p.1.value with
  | none => rfl
  | some p => rfl

end LookupTable

/-! ## Cells -/

/-- The name of a choice tells it. -/
theorem UnclassifiedAction.ofName_name (action : UnclassifiedAction) : ofName action.name = .ok action := by
  cases action with
  | useSource => rfl
  | useNull => rfl
  | fixed text =>
    have hafter : Text.after? "fixed:" ("fixed:" ++ text) = some text := by
      rw [Text.after?, String.toList_append]
      show some (String.ofList text.toList) = some text
      rw [String.ofList_toList]
    have hother : ∀ {s : String}, s.toList.head? ≠ some 'f' → "fixed:" ++ text ≠ s := by
      rintro s hs rfl
      rw [String.toList_append] at hs
      exact hs rfl
    rw [name, ofName, if_neg (hother (by decide)), if_neg (hother (by decide)), hafter]

namespace Cell

open LookupTable (Key entry classified keyExprs)

variable {source : SchemaIndex} {c : Cell} {e : Entity} {insertions : List (Key × String)}
  {action : UnclassifiedAction}

/-- **The choice of a cell** for unclassified values: it is named, or they are dropped by default. -/
def Chooses (c : Cell) (action : UnclassifiedAction) : Prop :=
  c.text? UnclassifiedAction.parameterName = some action.name ∨
    (c.text? UnclassifiedAction.parameterName = none ∧ action = .useNull)

theorem Chooses.unclassifiedAction (h : c.Chooses action) : c.unclassifiedAction = .ok action := by
  unfold Cell.unclassifiedAction
  rcases h with hname | ⟨hnone, rfl⟩
  · rw [hname]
    exact action.ofName_name
  · rw [hnone]

/-- **A classification computes its table.** For integers and texts as keys, inserted one after the other, and a
source that resolves, there is an expression. Its value is the text inserted last for the key that the value of the
source equals, or what the cell chooses if there is none. It has the keys twice, in order of first insertion and
each once. -/
theorem classification_computes (hne : insertions ≠ [])
    (htable : c.parameters.first? lookupTableName = some (.lookup (.ofList (insertions.map entry))))
    (hchoice : c.Chooses action) (he : c.primarySource = .ok e) (hsource : source.Resolves e) :
    ∃ expr, c.classification source = .ok expr ∧
      (∀ record, expr.value record = classified insertions action (record e.expression)) ∧
      (keyExprs insertions).Nodup ∧
      ∃ texts otherwise, texts.length = (keyExprs insertions).length ∧
        expr = .ifThenElse (.isIn (.property e.expression) (keyExprs insertions))
          (.recode (.property e.expression) ((keyExprs insertions).zip texts)) otherwise := by
  obtain ⟨entries, htabulated, h⟩ := LookupTable.tabulates_ofList insertions
  have hlookup : c.lookupTable = .ok ⟨entries.map entry⟩ := by
    obtain ⟨p, rest, hentries⟩ := List.exists_cons_of_ne_nil (h.ne_nil hne)
    unfold lookupTable
    rw [htable, htabulated, hentries]
    rfl
  have hclassification : c.classification source =
      .ok ((LookupTable.mk (entries.map entry)).classify (.property e.expression) action) := by
    unfold classification
    rw [primaryProperty_of_resolves he hsource, Build.except_ok_bind, hlookup, Build.except_ok_bind,
      hchoice.unclassifiedAction, Build.except_ok_bind, LookupTable.unwritable?_entries]
    rfl
  refine ⟨_, hclassification, fun record => LookupTable.value_classify h _ action record, h.keyExprs_nodup,
    entries.map fun p => .text p.2, action.fallback (.property e.expression), ?_, ?_⟩
  · rw [← h.map_toExpr, List.length_map, List.length_map]
  · rw [LookupTable.classify_entries, ← h.map_toExpr, List.zip_map']

end Cell

namespace Rivers

open LookupTable (Key entry)

/-- Heights of trees and what they are called. What ten is called is corrected later on. -/
def heightNames : List (Key × String) := [(.integer 10, "low"), (.text "10", "written"), (.integer 10, "tall")]

/-- The cell that names heights. -/
def heights : Cell :=
  ⟨"heights", "classification", [property "TreeRow" ["height"]],
    [property "River" ["left", "Bank", "growth", "Tree", "height"]],
    ⟨[("lookupTable", [.lookup (.ofList (heightNames.map entry))]),
      ("notClassifiedAction", [.literal (.text "fixed:unknown")])]⟩⟩

/-- The correction counts, the text of the same digits is another key, and what is neither is unknown. -/
theorem height_corrected :
    heightNames ≠ [] ∧ heights.Chooses (.fixed "unknown") ∧
      heights.primarySource = .ok (property "TreeRow" ["height"]) ∧
      source.Resolves (property "TreeRow" ["height"]) ∧
      ∃ expr, heights.classification source = .ok expr ∧
        expr.value (fun _ => .literal (.integer 10)) = .text "tall" ∧
        expr.value (fun _ => .text "10") = .text "written" ∧
        expr.value (fun _ => .text "ten") = .text "unknown" := by
  have hne : heightNames ≠ [] := nofun
  have hchoice : heights.Chooses (.fixed "unknown") := .inl rfl
  have hsource : source.Resolves (property "TreeRow" ["height"]) := ⟨_, _, rfl, rfl⟩
  obtain ⟨expr, hexpr, hvalue, -⟩ := Cell.classification_computes hne rfl hchoice rfl hsource
  exact ⟨hne, hchoice, rfl, hsource, expr, hexpr, hvalue _, hvalue _, hvalue _⟩

end Rivers

end FeatureAlignment
