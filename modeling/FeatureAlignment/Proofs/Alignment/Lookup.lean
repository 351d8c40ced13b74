import FeatureAlignment.Proofs.Alignment.Codec
import FeatureAlignment.Proofs.Data.Scalar
import FeatureAlignment.Proofs.Number.Written

/-!
# Lookup tables written and read

The keys of a lookup table are written as integers or as texts, and read again. Integers and texts are kept, and so
are doubles whose text is digits around a point. A double whose text has an exponent is a text afterwards: in an
expression it was bare, and then it is quoted.

* `Literal.reread`: the key that a key becomes; `Literal.HasExponent`: the keys that it is not itself for.
* `LookupTable.Writes`: the trees that a table is written as, in a document, in JSON and in YAML.
* `LookupTable.reread_eq_iff`: a table with finite keys is read back as a table with these keys, which is the same
  table just if no key has an exponent.
-/

namespace FeatureAlignment

/-! ## Keys -/

namespace Literal

/-- **A double that is written with an exponent.** -/
def HasExponent : Literal → Prop
  | .double d => 'e' ∈ d.display.toList
  | _ => False

/-- **What a key becomes** when it is written and read: a double with an exponent becomes its text. -/
def reread : Literal → Literal
  | .double d => if 'e' ∈ d.display.toList then .text d.display else .double d
  | l => l

/-- **What can be a key**: an integer, a double of the format, or a text that is read as itself. -/
def IsKey : Literal → Prop
  | .integer _ => True
  | .double d => d.Canonical
  | .text s => ofText s = .text s

variable {k : Literal} {s : String}

theorem reread_eq_iff (k : Literal) : k.reread = k ↔ ¬ k.HasExponent := by
  cases k with
  | integer i => exact iff_of_true rfl id
  | text s => exact iff_of_true rfl id
  | double d =>
    show (if 'e' ∈ d.display.toList then .text d.display else .double d) = Literal.double d ↔ ¬ 'e' ∈ d.display.toList
    split
    · rename_i hexponent
      exact iff_of_false (fun h => by cases h) (not_not_intro hexponent)
    · rename_i hno
      exact iff_of_true rfl hno

/-- No key has an exponent when it is read again. -/
theorem not_hasExponent_reread (k : Literal) : ¬ k.reread.HasExponent := by
  cases k with
  | integer i => exact id
  | text s => exact id
  | double d =>
    show ¬ (if 'e' ∈ d.display.toList then Literal.text d.display else .double d).HasExponent
    split
    · exact id
    · assumption

/-- **The text of a key is read as what the key becomes.** -/
theorem ofText_display (hk : k.IsKey) (hfinite : k.isFinite = true) : ofText k.display = k.reread := by
  cases k with
  | integer i => exact ofText_integer i
  | text s => exact hk
  | double d => exact ofText_display_double hk hfinite

/-- What is read from a text is a key. -/
theorem isKey_ofText (s : String) : (ofText s).IsKey := by
  have hdisplay := display_ofText s
  cases hs : ofText s with
  | integer i => trivial
  | text s' =>
    rw [hs] at hdisplay
    cases hdisplay
    exact hs
  | double d =>
    unfold ofText at hs
    split at hs
    · simp only at hs
      split at hs
      · cases hs
      · split at hs
        · rename_i d' hd
          cases hs
          obtain ⟨hread, -⟩ := Option.filter_eq_some_iff.1 hd
          obtain ⟨r, -, hr⟩ := Option.map_eq_some_iff.1 hread
          rw [← hr]
          exact Double.canonical_ofNumeral r
        · cases hs
    · cases hs

end Literal

namespace LookupTable

variable {t : LookupTable} {d e : Data} {k : Literal}

/-- A key depends only on what its tree is settled to. -/
theorem keyOfData?_of_settle (h : d.settle = some e) (he : e.settle = some e) : keyOfData? d = keyOfData? e := by
  unfold keyOfData? Literal.ofData?
  rw [h, he]

/-- **What is read as a key can be one**, if doubles are of the format. -/
theorem isKey_of_keyOfData? (hd : ∀ x, d.settle = some (.double x) → x.Canonical) (h : keyOfData? d = some k) :
    k.IsKey := by
  unfold keyOfData? Literal.ofData? at h
  obtain ⟨l, hl, rfl⟩ := Option.map_eq_some_iff.1 h
  obtain ⟨e, he, hl⟩ := Option.bind_eq_some_iff.1 hl
  unfold Literal.ofSettled? at hl
  split at hl
  · split at hl
    · cases hl
      trivial
    · cases hl
      exact Double.canonical_ofNumeral _
  · cases hl
    exact hd _ he
  · cases hl
    exact Literal.isKey_ofText _
  · cases hl

/-- **A key is read as what it becomes**, from its tree and from its text. -/
theorem keyOfData?_keyToData (hk : k.IsKey) (hfinite : k.isFinite = true) :
    keyOfData? (keyToData k) = some k.reread ∧ keyOfData? (.text k.display) = some k.reread := by
  have htext : keyOfData? (.text k.display) = some k.reread := congrArg some (Literal.ofText_display hk hfinite)
  refine ⟨?_, htext⟩
  cases k with
  | integer i =>
    have hrange : -Int.pow 2 63 ≤ i.toInt ∧ i.toInt < Int.pow 2 63 := ⟨i.le_toInt, i.toInt_lt⟩
    show ((if -Int.pow 2 63 ≤ i.toInt ∧ i.toInt < Int.pow 2 63 then _ else _ : Option Literal)).map _ = _
    rw [if_pos hrange, Int64.ofInt_toInt]
    rfl
  | double d => exact htext
  | text s => exact htext

/-! ## Tables -/

/-- The keys of a table. -/
def keys (t : LookupTable) : List Literal := t.entries.map Prod.fst

/-- **No key equals one after it.** -/
def Distinct (t : LookupTable) : Prop := (t.entries.map Prod.fst).Pairwise (fun k k' => (k == k') = false)

/-- Inserting keeps keys different, and brings no other key. -/
theorem Distinct.insert (h : t.Distinct) (k : Literal) (entry : String) :
    (t.insert k entry).Distinct ∧ ∀ k' ∈ (t.insert k entry).keys, k' ∈ t.keys ∨ k' = k := by
  unfold Distinct keys at *
  rw [LookupTable.insert]
  -- an equal key gets the new text only
  rcases keys_insertEntry k entry t.entries with hsame | hnew
  · rw [hsame]
    exact ⟨h, fun k' hk' => .inl hk'⟩
  · rw [insertEntry_of_new hnew, List.map_append]
    refine ⟨List.pairwise_append.2 ⟨h, List.pairwise_singleton _ _, fun k' hk' k'' hk'' => ?_⟩, fun k' hk' => ?_⟩
    · rw [List.mem_singleton.1 hk'']
      exact hnew k' hk'
    · exact (List.mem_append.1 hk').imp id List.mem_singleton.1

/-- **A table made of pairs** has different keys, all of them from the pairs. -/
theorem distinct_ofList (pairs : List (Literal × String)) :
    (ofList pairs).Distinct ∧ ∀ k ∈ (ofList pairs).keys, ∃ p ∈ pairs, p.1 = k := by
  induction pairs using List.reverseRecOn with
  | nil => exact ⟨.nil, fun k hk => (List.not_mem_nil hk).elim⟩
  | append_singleton pairs p ih =>
    obtain ⟨hdistinct, hkeys⟩ := ih
    obtain ⟨hinsert, hnew⟩ := hdistinct.insert p.1 p.2
    have hlast : ofList (pairs ++ [p]) = (ofList pairs).insert p.1 p.2 := List.foldl_append
    rw [hlast]
    refine ⟨hinsert, fun k hk => ?_⟩
    rcases hnew k hk with hk | rfl
    · obtain ⟨p', hp', rfl⟩ := hkeys k hk
      exact ⟨p', List.mem_append_left _ hp', rfl⟩
    · exact ⟨p, List.mem_append_right _ (List.mem_singleton.2 rfl), rfl⟩

/-- **The table that a table becomes** when it is written and read. Keys that become equal share the entry of the
first, with the text of the last. -/
def reread (t : LookupTable) : LookupTable := ofList (t.entries.map fun e => (e.1.reread, e.2))

/-- **A table is read back as the same table** just if no key has an exponent. -/
theorem reread_eq_iff (h : t.Distinct) : t.reread = t ↔ ∀ k ∈ t.keys, ¬ k.HasExponent := by
  constructor
  · intro heq k hk
    rw [← heq] at hk
    obtain ⟨p, hp, rfl⟩ := (distinct_ofList _).2 k hk
    obtain ⟨e, -, rfl⟩ := List.mem_map.1 hp
    exact Literal.not_hasExponent_reread e.1
  · intro hno
    have hentries : (t.entries.map fun e => (e.1.reread, e.2)) = t.entries := by
      refine (List.map_congr_left fun e he => ?_).trans (List.map_id _)
      have hk := hno e.1 (List.mem_map_of_mem he)
      rw [(Literal.reread_eq_iff e.1).2 hk]
      rfl
    unfold reread
    rw [hentries]
    exact foldl_insert [] h

/-! ## Trees -/

/-- **The two trees of an entry** as which it is written: the key is settled to what it is written as, or to its text,
and the value is a text. -/
structure WritesEntry (e : Literal × String) (f : Data × Data) : Prop where
  key : f.1.settle = some (keyToData e.1) ∨ f.1.settle = some (.text e.1.display)
  value : f.2.settle = some (.text e.2)

/-- **A tree that a table is written as**: a record of its entries. -/
def Writes (t : LookupTable) (d : Data) : Prop :=
  ∃ fields, d = .record fields ∧ List.Forall₂ WritesEntry t.entries fields

theorem settle_keyToData (k : Literal) : (keyToData k).settle = some (keyToData k) := by cases k <;> rfl

/-- The tree of a table in a document. -/
theorem writes_toData (t : LookupTable) : t.Writes t.toData := by
  refine ⟨_, rfl, List.forall₂_map_right_iff.2 (List.forall₂_same.2 fun e _ => ?_)⟩
  exact ⟨.inl (settle_keyToData e.1), rfl⟩

/-- The tree of a table in JSON. -/
theorem writes_value (t : LookupTable) : t.Writes (Json.value t.toData) := by
  refine ⟨Json.valueFields (t.entries.map fun e => (keyToData e.1, .text e.2)), rfl, ?_⟩
  rw [Json.valueFields_eq_map, List.map_map]
  refine List.forall₂_map_right_iff.2 (List.forall₂_same.2 fun e _ => ⟨.inr ?_, rfl⟩)
  show (Data.text (Json.keyText (keyToData e.1))).settle = _
  rw [keyText_keyToData]
  rfl

/-- **The tree of a table in YAML**: its keys and values are scalars. -/
def yamlTree (t : LookupTable) : Data :=
  .record (t.entries.map fun e => (Yaml.scalarTree (keyToData e.1), Yaml.scalarTree (.text e.2)))

theorem writes_yamlTree (t : LookupTable) : t.Writes t.yamlTree := by
  refine ⟨_, rfl, List.forall₂_map_right_iff.2 (List.forall₂_same.2 fun e _ => ⟨.inl ?_, ?_⟩)⟩
  · cases e.1 with
    | integer i => exact Yaml.settle_scalarTree_integer i
    | double x => exact Yaml.settle_scalarTree_text _
    | text s => exact Yaml.settle_scalarTree_text s
  · exact Yaml.settle_scalarTree_text e.2

/-- What an entry is written as is read with the key that its key becomes. -/
theorem WritesEntry.read {entry : Literal × String} {f : Data × Data} (h : WritesEntry entry f) (hk : entry.1.IsKey)
    (hfinite : entry.1.isFinite = true) :
    keyOfData? f.1 = some entry.1.reread ∧ Literal.ofData? f.2 = some (.text entry.2) := by
  obtain ⟨hdata, htext⟩ := keyOfData?_keyToData hk hfinite
  constructor
  · rcases h.key with hf | hf
    · rw [keyOfData?_of_settle hf (settle_keyToData entry.1), hdata]
    · rw [keyOfData?_of_settle hf rfl, htext]
  · unfold Literal.ofData?
    rw [h.value]
    rfl

theorem mapM_writes {entries : List (Literal × String)} {fields : List (Data × Data)}
    (hkeys : ∀ k ∈ entries.map Prod.fst, k.IsKey) (hfinite : ∀ k ∈ entries.map Prod.fst, k.isFinite = true)
    (h : List.Forall₂ WritesEntry entries fields) :
    fields.mapM (fun f => do some (← keyOfData? f.1, (← Literal.ofData? f.2).display)) =
      some (entries.map fun e => (e.1.reread, e.2)) := by
  induction h with
  | nil => rfl
  | @cons entry f entries fields hentry hrest ih =>
    obtain ⟨hkey, hkeys⟩ := List.forall_mem_cons.1 hkeys
    obtain ⟨hfin, hfinite⟩ := List.forall_mem_cons.1 hfinite
    obtain ⟨hk, hv⟩ := hentry.read hkey hfin
    rw [List.mapM_cons, hk, hv, ih hkeys hfinite]
    rfl

/-- **What a table is written as is read as what it becomes.** -/
theorem ofData?_writes (hkeys : ∀ k ∈ t.keys, k.IsKey) (hfinite : ∀ k ∈ t.keys, k.isFinite = true)
    (h : t.Writes d) : ofData? d = some t.reread := by
  obtain ⟨fields, rfl, hfields⟩ := h
  have hentries := mapM_writes hkeys hfinite hfields
  unfold ofData? Data.entries?
  simp only [Option.bind_eq_bind, Option.bind_some] at hentries ⊢
  rw [hentries]
  rfl

/-- **Lookup keys keep their kind, but for exponents.** A table with finite keys that was read from a map is read back
as the table that it becomes, from its tree and from JSON and YAML. This is the same table, with the same keys in
the same order, just if none of its keys is a double that is written with an exponent. -/
theorem reread_of_ofData? (hread : ofData? d = some t)
    (hd : ∀ entries, d.entries? = some entries → ∀ e ∈ entries, ∀ x, e.1.settle = some (.double x) → x.Canonical)
    (hfinite : ∀ k ∈ t.keys, k.isFinite = true) :
    ofData? t.toData = some t.reread ∧ ofData? (Json.value t.toData) = some t.reread ∧
      ofData? t.yamlTree = some t.reread ∧ (t.reread = t ↔ ∀ k ∈ t.keys, ¬ k.HasExponent) := by
  obtain ⟨entries, hentries, hread⟩ := Option.bind_eq_some_iff.1 hread
  obtain ⟨pairs, hpairs, hread⟩ := Option.bind_eq_some_iff.1 hread
  cases hread
  have hpairs : ∀ p ∈ pairs, p.1.IsKey := by
    refine Data.forall_of_mapM (fun e he p hp => ?_) hpairs
    obtain ⟨k, hk, hp⟩ := Option.bind_eq_some_iff.1 hp
    obtain ⟨l, -, hp⟩ := Option.bind_eq_some_iff.1 hp
    cases hp
    exact isKey_of_keyOfData? (hd entries hentries e he) hk
  obtain ⟨hdistinct, hmem⟩ := distinct_ofList pairs
  have hkeys : ∀ k ∈ (ofList pairs).keys, k.IsKey := by
    intro k hk
    obtain ⟨p, hp, rfl⟩ := hmem k hk
    exact hpairs p hp
  exact ⟨ofData?_writes hkeys hfinite (writes_toData _), ofData?_writes hkeys hfinite (writes_value _),
    ofData?_writes hkeys hfinite (writes_yamlTree _), reread_eq_iff hdistinct⟩

end LookupTable

namespace Grades

/-- A scalar of YAML without quotes, as it is read. -/
def bare (s : String) : Data := Yaml.Reading.scalar none s true

theorem canonical_bare {s : String} {x : Double} (h : (bare s).settle = some (.double x)) : x.Canonical :=
  Yaml.canonical_scalar h

/-- Grades by number and by name. -/
def grades : Data := .record [(bare "1000", bare "first"), (bare "-2.5", bare "second"), (bare "forest", bare "third")]

/-- The keys of the grades are an integer, a double and a text, and stay so. -/
theorem grades_kept :
    ∃ t : LookupTable, LookupTable.ofData? grades = some t ∧
      t.keys.map Literal.toExpr = [.number "1000", .number "-2.5", .text "forest"] ∧
      LookupTable.ofData? t.toData = some t.reread ∧ LookupTable.ofData? (Json.value t.toData) = some t.reread ∧
      LookupTable.ofData? t.yamlTree = some t.reread ∧ (t.reread = t ↔ ∀ k ∈ t.keys, ¬ k.HasExponent) := by
  have hread : LookupTable.ofData? grades = some ⟨[(.integer 1000, "first"),
      (.double (.finite true 5629499534213120 (-51)), "second"), (.text "forest", "third")]⟩ := rfl
  refine ⟨_, hread, rfl, LookupTable.reread_of_ofData? hread ?_ (by decide)⟩
  intro entries hentries e he x hx
  cases hentries
  rcases List.mem_cons.1 he with rfl | he
  · exact canonical_bare hx
  rcases List.mem_cons.1 he with rfl | he
  · exact canonical_bare hx
  · rw [List.mem_singleton.1 he] at hx
    exact canonical_bare hx

/-- Two keys for one number, the first a double and the second a text. -/
def powers : Data := .record [(bare "1e16", bare "first"), (Yaml.Reading.scalar none "1e16" false, bare "second")]

/-- **A key with an exponent becomes a text.** The table of powers has a bare key and a quoted one. Both are written
as the same text, and only the quoted one is left when it is read back. -/
theorem powers_merged :
    ∃ t s : LookupTable, LookupTable.ofData? powers = some t ∧ (∀ k ∈ t.keys, k.isFinite = true) ∧
      t.entries.map (fun e => (e.1.toExpr, e.2)) = [(.number "1e16", "first"), (.text "1e16", "second")] ∧
      LookupTable.ofData? t.toData = some s ∧ LookupTable.ofData? (Json.value t.toData) = some s ∧
      s.entries.map (fun e => (e.1.toExpr, e.2)) = [(.text "1e16", "second")] :=
  ⟨_, _, rfl, by decide, rfl, rfl, rfl, rfl⟩

end Grades

end FeatureAlignment
