import Mathlib.Data.List.Nodup
import Mathlib.Data.List.Perm.Subperm
import FeatureAlignment.Rule.Draft

/-!
# The prefixes of rules

While rules are written, a namespace gets a prefix when it is first asked for: the preferred one or a
numbered one, with as many underscores behind it as it takes to be free. So no prefix is given twice, and
what the table says once it always says.

* `TextMap.OneToOne`: a map that can be read both ways.
* `Draft.Table`: the tables that arise while rules are written.
* `TextMap.spell`: a name as a table spells it. All later tables spell it so (`Draft.asked_symbol`).
-/

namespace FeatureAlignment

/-! ## Maps that can be read both ways -/

namespace TextMap

variable {m : TextMap} {key value : String}

/-- **One-to-one**: no key stands twice, and no value. -/
structure OneToOne (m : TextMap) : Prop where
  keys : (m.entries.map Prod.fst).Nodup
  values : (m.entries.map Prod.snd).Nodup

theorem get?_eq_none : m.get? key = none ↔ key ∉ m.entries.map Prod.fst := by
  rw [get?, List.lookup_eq_none_iff, List.mem_map]
  constructor
  · rintro hnone ⟨e, he, rfl⟩
    simpa using hnone e he
  · intro hnew e he
    simpa using fun heq : key = e.1 => hnew ⟨e, he, heq.symm⟩

theorem contains_eq_false : m.contains key = false ↔ key ∉ m.entries.map Prod.fst := by
  rw [← get?_eq_none, contains, Option.isSome_eq_false_iff, Option.isNone_iff_eq_none]

theorem OneToOne.get?_eq_some (h : m.OneToOne) : m.get? key = some value ↔ (key, value) ∈ m.entries := by
  constructor
  · intro hget
    obtain ⟨before, after, heq, -⟩ := List.lookup_eq_some_iff.1 hget
    rw [heq]
    exact List.mem_append_right _ List.mem_cons_self
  · intro hmem
    cases hget : m.get? key with
    | none => exact absurd (List.mem_map_of_mem hmem) (get?_eq_none.1 hget)
    | some other =>
      obtain ⟨before, after, heq, -⟩ := List.lookup_eq_some_iff.1 hget
      have hother : (key, other) ∈ m.entries := by
        rw [heq]
        exact List.mem_append_right _ List.mem_cons_self
      cases List.inj_on_of_nodup_map h.keys hother hmem rfl
      rfl

theorem keyOf?_eq_none : m.keyOf? value = none ↔ value ∉ m.entries.map Prod.snd := by
  simp only [keyOf?, Option.map_eq_none_iff, List.find?_eq_none, List.mem_map, beq_iff_eq]
  exact ⟨fun hnone ⟨e, he, hv⟩ => hnone e he hv, fun hnew e he hv => hnew ⟨e, he, hv⟩⟩

theorem OneToOne.keyOf?_eq_some (h : m.OneToOne) : m.keyOf? value = some key ↔ (key, value) ∈ m.entries := by
  constructor
  · intro hkey
    obtain ⟨e, he, rfl⟩ := Option.map_eq_some_iff.1 hkey
    have hvalue : e.2 = value := by simpa using List.find?_some he
    rw [← hvalue]
    exact List.mem_of_find?_eq_some he
  · intro hmem
    cases hfind : m.entries.find? (fun e => e.2 == value) with
    | none => exact absurd (List.find?_eq_none.1 hfind _ hmem) (by simp)
    | some e =>
      have hvalue : e.2 = value := by simpa using List.find?_some hfind
      have heq := List.inj_on_of_nodup_map h.values (List.mem_of_find?_eq_some hfind) hmem hvalue
      simp [keyOf?, hfind, heq]

theorem insertEntry_perm (value : String) {entries : List (String × String)} (hkey : key ∉ entries.map Prod.fst) :
    (insertEntry key value entries).Perm ((key, value) :: entries) := by
  induction entries with
  | nil => rfl
  | cons e rest ih =>
    rw [List.map_cons, List.mem_cons, not_or] at hkey
    unfold insertEntry
    rw [if_neg (Ne.symm hkey.1)]
    split
    · rfl
    · exact ((ih hkey.2).cons e).trans (.swap (key, value) e rest)

/-- **A new entry** with a new value leaves a map one-to-one. -/
theorem OneToOne.insert (h : m.OneToOne) (hkey : m.contains key = false) (hvalue : m.keyOf? value = none) :
    (m.insert key value).OneToOne ∧ (m.insert key value).entries.Perm ((key, value) :: m.entries) := by
  have hnew := contains_eq_false.1 hkey
  have hperm := insertEntry_perm value hnew
  refine ⟨⟨?_, ?_⟩, hperm⟩
  · exact (hperm.map Prod.fst).nodup_iff.2 (List.nodup_cons.2 ⟨hnew, h.keys⟩)
  · exact (hperm.map Prod.snd).nodup_iff.2 (List.nodup_cons.2 ⟨keyOf?_eq_none.1 hvalue, h.values⟩)

end TextMap

/-! ## Tables of prefixes -/

/-- **A plain configuration** prefers no prefix with a colon. -/
def Config.Plain (config : Config) : Prop := ∀ e ∈ config.namespaces.entries, ':' ∉ e.2.toList

instance (config : Config) : Decidable config.Plain :=
  inferInstanceAs (Decidable (∀ e ∈ config.namespaces.entries, ':' ∉ e.2.toList))

theorem Config.Plain.preferred {config : Config} (hc : config.Plain) {uri label : String}
    (h : config.preferredPrefix? uri = some label) : ':' ∉ label.toList := by
  obtain ⟨before, after, heq, -⟩ := List.lookup_eq_some_iff.1 h
  refine hc (uri, label) ?_
  rw [heq]
  exact List.mem_append_right _ List.mem_cons_self

/-- **A configuration that passes its check is plain**, as all are that have been loaded. -/
theorem Config.plain_of_check {config : Config} (hc : config.check = .ok ()) : config.Plain := by
  rintro ⟨uri, label⟩ hmem hcolon
  have hname : Text.isPrefixName label = true := by
    unfold check at hc
    split at hc
    · cases hc
    · split at hc
      · cases hc
      · rename_i hnone
        simpa using List.find?_eq_none.1 hnone _ hmem
  unfold Text.isPrefixName at hname
  split at hname
  · cases hname
  · rename_i c cs hlabel
    rw [Bool.and_eq_true, List.all_eq_true] at hname
    rw [hlabel, List.mem_cons] at hcolon
    rcases hcolon with rfl | hcolon
    · exact absurd hname.1 (by decide)
    · exact absurd (hname.2 _ hcolon) (by decide)

namespace Draft

variable {config : Config} {d : Draft} {table : TextMap}

/-- **A table of prefixes**: it is one-to-one and has the prefixes of the format. None of its prefixes has a
colon if the configuration is plain. -/
structure Table (config : Config) (table : TextMap) : Prop extends table.OneToOne where
  standard : standardPrefixes.entries ⊆ table.entries
  plain : config.Plain → ∀ e ∈ table.entries, ':' ∉ e.1.toList

theorem table_standard (config : Config) : Table config standardPrefixes where
  keys := by decide
  values := by decide
  standard := List.Subset.refl _
  plain _ := by decide

/-- **Some number of underscores is enough**: there are fewer entries than numbers to try. -/
theorem exists_free (table : TextMap) (wanted : String) :
    ∃ n < table.entries.length + 1, table.contains (wanted ++ Text.replicate n '_') = false := by
  by_contra hnone
  let tried := (List.range (table.entries.length + 1)).map (fun n => wanted ++ Text.replicate n '_')
  have hnodup : tried.Nodup := by
    refine List.Nodup.map (fun m n h => ?_) List.nodup_range
    have hlength := congrArg String.length h
    simpa [Text.replicate] using hlength
  have hsub : tried ⊆ table.entries.map Prod.fst := by
    intro label hl
    obtain ⟨n, hn, rfl⟩ := List.mem_map.1 hl
    by_contra hnew
    exact hnone ⟨n, List.mem_range.1 hn, TextMap.contains_eq_false.2 hnew⟩
  have hle := (List.subperm_of_subset hnodup hsub).length_le
  rw [List.length_map, List.length_map, List.length_range] at hle
  omega

/-- **What is made free is free**, and is what was wanted up to underscores. -/
theorem freePrefix_free (table : TextMap) (wanted : String) :
    table.contains (freePrefix table wanted) = false ∧
      ∃ n, freePrefix table wanted = wanted ++ Text.replicate n '_' := by
  unfold freePrefix
  rw [List.find?_map]
  cases hf : (List.range (table.entries.length + 1)).find?
      ((fun label => !table.contains label) ∘ fun n => wanted ++ Text.replicate n '_') with
  | none =>
    obtain ⟨n, hn, hfree⟩ := exists_free table wanted
    have := List.find?_eq_none.1 hf n (List.mem_range.2 hn)
    simp [hfree] at this
  | some n =>
    have hfree := List.find?_some hf
    exact ⟨by simpa using hfree, n, rfl⟩

/-- **A new namespace in a table**, under the prefix that is chosen for it. -/
theorem Table.enter (ht : Table config table) {uri wanted : String} (hnew : table.keyOf? uri = none)
    (hwanted : config.Plain → ':' ∉ wanted.toList) :
    Table config (table.insert (freePrefix table wanted) uri) ∧
      (table.insert (freePrefix table wanted) uri).entries.Perm
        ((freePrefix table wanted, uri) :: table.entries) := by
  obtain ⟨hfree, n, hchosen⟩ := freePrefix_free table wanted
  obtain ⟨hone, hperm⟩ := ht.toOneToOne.insert hfree hnew
  refine ⟨{ hone with standard := ?_, plain := ?_ }, hperm⟩
  · exact fun e he => hperm.mem_iff.2 (List.mem_cons_of_mem _ (ht.standard he))
  · intro hc e he
    rcases List.mem_cons.1 (hperm.mem_iff.1 he) with rfl | he
    · rw [hchosen, String.toList_append, List.mem_append, not_or]
      exact ⟨hwanted hc, by simp [Text.replicate]⟩
    · exact ht.plain hc e he

/-- A prefix with a number has no colon. -/
theorem colon_not_mem_numbered (n : Nat) : ':' ∉ ("ns" ++ Text.natural n).toList := by
  rw [String.toList_append, List.mem_append, not_or]
  refine ⟨by decide, fun h => ?_⟩
  rw [Text.natural, String.toList_ofList] at h
  have hdigit : Char.isDigit ':' = true := Nat.isDigit_of_mem_toDigits (by decide) (by decide) h
  exact absurd hdigit (by decide)

/-- **What asking for something leaves of a draft**: the table has become a larger one, and the rest is as it
was. -/
structure Asked (config : Config) (d d' : Draft) : Prop where
  table : Table config d'.prefixes
  grown : d.prefixes.entries ⊆ d'.prefixes.entries
  quantified : d'.quantified = d.quantified
  body : d'.body = d.body

/-- **Asking for the prefix of a namespace.** -/
theorem asked_prefixFor (ht : Table config d.prefixes) (uri : String) :
    Asked config d ((prefixFor config uri).run d).2 ∧
      (((prefixFor config uri).run d).1, uri) ∈ ((prefixFor config uri).run d).2.prefixes.entries := by
  unfold prefixFor
  simp only [StateT.run_bind, StateT.run_get, pure_bind]
  cases hkey : d.prefixes.keyOf? uri with
  | some label => exact ⟨⟨ht, List.Subset.refl _, rfl, rfl⟩, ht.keyOf?_eq_some.1 hkey⟩
  | none =>
    have hwanted : config.Plain → ':' ∉ ((config.preferredPrefix? uri).getD
        ("ns" ++ Text.natural (d.prefixes.entries.length - 2))).toList := by
      intro hc
      cases hpreferred : config.preferredPrefix? uri with
      | some label => exact hc.preferred hpreferred
      | none => exact colon_not_mem_numbered _
    obtain ⟨htable, hperm⟩ := ht.enter hkey hwanted
    exact ⟨⟨htable, fun e he => hperm.mem_iff.2 (List.mem_cons_of_mem _ he), rfl, rfl⟩,
      hperm.mem_iff.2 List.mem_cons_self⟩

end Draft

/-! ## Spelling names -/

/-- **A name as a table spells it**: with the prefix of its namespace, or for a name without namespace with
an underscore. -/
def TextMap.spell (table : TextMap) (name : QName) : String :=
  if name.isQualified then (table.keyOf? name.uri).getD "" ++ ":" ++ name.localName
  else "_" ++ variableName name.localName

/-- A table knows a name if its namespace has a prefix. -/
def TextMap.Knows (table : TextMap) (name : QName) : Prop :=
  name.isQualified = true → ∃ label, (label, name.uri) ∈ table.entries

variable {table table' : TextMap} {name : QName}

theorem TextMap.OneToOne.spell_eq (h : table.OneToOne) (hq : name.isQualified = true) {label : String}
    (hl : (label, name.uri) ∈ table.entries) : table.spell name = label ++ ":" ++ name.localName := by
  rw [spell, if_pos hq, h.keyOf?_eq_some.2 hl, Option.getD_some]

theorem TextMap.Knows.mono (h : table.Knows name) (hsub : table.entries ⊆ table'.entries) :
    table'.Knows name := fun hq =>
  let ⟨label, hl⟩ := h hq
  ⟨label, hsub hl⟩

/-- **Asking for the symbol of a name**: the table knows the name afterwards, and all later tables spell it
as the answer does. -/
theorem Draft.asked_symbol {config : Config} {d : Draft} (ht : Table config d.prefixes) (name : QName) :
    Asked config d ((symbol config name).run d).2 ∧ ((symbol config name).run d).2.prefixes.Knows name ∧
      ∀ table : TextMap, table.OneToOne → ((symbol config name).run d).2.prefixes.entries ⊆ table.entries →
        ((symbol config name).run d).1 = table.spell name := by
  unfold symbol
  split
  · rename_i hq
    obtain ⟨hasked, hmem⟩ := asked_prefixFor ht name.uri
    exact ⟨hasked, fun _ => ⟨_, hmem⟩, fun table hone hsub => (hone.spell_eq hq (hsub hmem)).symm⟩
  · rename_i hq
    exact ⟨⟨ht, List.Subset.refl _, rfl, rfl⟩, fun h => absurd h hq, fun table _ _ => (if_neg hq).symm⟩

end FeatureAlignment
