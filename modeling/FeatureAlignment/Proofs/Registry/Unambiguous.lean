import FeatureAlignment.Proofs.Registry.Bound
import FeatureAlignment.Proofs.Registry.Built
import FeatureAlignment.Proofs.Text

/-!
# Paths told by their text

The owner keys of a registry are texts, and most of them are rendered paths. Such a text tells the path: slashes
stand between the segments, a bracket opens the number of a repetition, and a colon follows a prefix. None of
the three occurs in a local name that is an NCName, nor in a prefix. Prefixes are told apart by the table, which
does not change for a namespace once it is there.

* `QName.Unmarked`: names whose local part has none of the three marks. NCNames are such.
* `Segment.Alike`: segments with the same namespace, local part and number.
* `PathBound.alike_iff`: next to one table, the texts of two paths are the same just when the paths are alike.
* `Registry.Built.prefixTable`: whatever has been done with a registry, its table of prefixes is right.
* `Registry.renderPath_injective`: two paths rendered one after the other.
-/

namespace FeatureAlignment

variable {env : Environment} {table : List Namespace} {asked : String → Option String → Prop}

/-! ## Names without marks -/

/-- **A name without marks**: its local part has no slash, no colon and no opening bracket. -/
def QName.Unmarked (name : QName) : Prop := ∀ c ∈ name.localName.toList, c ≠ '/' ∧ c ≠ ':' ∧ c ≠ '['

/-- Texts that can be prefixes have no marks. -/
theorem Text.unmarked_of_isPrefixName {s : String} (h : Text.isPrefixName s = true) :
    ∀ c ∈ s.toList, c ≠ '/' ∧ c ≠ ':' ∧ c ≠ '[' := by
  have hmarks : ∀ c, Text.isNameRest c = true → c ≠ '/' ∧ c ≠ ':' ∧ c ≠ '[' := by
    intro c hc
    refine ⟨?_, ?_, ?_⟩ <;> rintro rfl <;> exact absurd hc (by decide)
  intro c hc
  unfold Text.isPrefixName at h
  cases hs : s.toList with
  | nil =>
    rw [hs] at hc
    cases hc
  | cons d ds =>
    rw [hs] at h hc
    obtain ⟨hstart, hrest⟩ := Bool.and_eq_true_iff.1 h
    rcases List.mem_cons.1 hc with rfl | hc
    · refine ⟨?_, ?_, ?_⟩ <;> rintro rfl <;> exact absurd hstart (by decide)
    · exact hmarks c (List.all_eq_true.1 hrest c hc)

/-- Digits are no marks. -/
theorem Text.natural_unmarked (n : Nat) : ∀ c ∈ (Text.natural n).toList, c ≠ '/' ∧ c ≠ '[' := by
  intro c hc
  rw [Text.natural, String.toList_ofList] at hc
  have hdigit : c.isDigit = true := Nat.isDigit_of_mem_toDigits (by decide) (by decide) hc
  refine ⟨?_, ?_⟩ <;> rintro rfl <;> exact absurd hdigit (by decide)

/-- **NCNames have no marks.** -/
theorem QName.unmarked_of_isPrefixName {name : QName} (h : Text.isPrefixName name.localName = true) :
    name.Unmarked := Text.unmarked_of_isPrefixName h

/-- A name that is not qualified has the empty namespace. -/
theorem QName.uri_of_not_isQualified {name : QName} (h : ¬ name.isQualified = true) : name.uri = "" := by
  simpa [QName.isQualified] using h

/-! ## Names and segments next to a table -/

/-- Neither a slash nor a bracket stands in a name as it is written. -/
theorem QName.Bound.unmarked (ht : PrefixTable env asked table) {name : QName} {text : String}
    (h : name.Bound table text) (hn : name.Unmarked) : ∀ c ∈ text.toList, c ≠ '/' ∧ c ≠ '[' := by
  intro c hc
  unfold QName.Bound at h
  split at h
  · obtain ⟨label, hmem, rfl⟩ := h
    rw [String.toList_append, String.toList_append, List.mem_append, List.mem_append] at hc
    rcases hc with (hc | hc) | hc
    · have hlabel := Text.unmarked_of_isPrefixName (ht.prefixes _ hmem) c hc
      exact ⟨hlabel.1, hlabel.2.2⟩
    · rw [show c = ':' by simpa using hc]
      decide
    · exact ⟨(hn c hc).1, (hn c hc).2.2⟩
  · rw [h] at hc
    exact ⟨(hn c hc).1, (hn c hc).2.2⟩

/-- **A name is told by how it is written**: it has a namespace just when there is a colon, and the prefix tells
which one. -/
theorem QName.Bound.told (ht : PrefixTable env asked table) {name other : QName} {text : String}
    (h : name.Bound table text) (h' : other.Bound table text) (hn : name.Unmarked) (hn' : other.Unmarked) :
    name.uri = other.uri ∧ name.localName = other.localName := by
  have hcolon : ∀ {label localName : String}, ':' ∈ (label ++ ":" ++ localName).toList := by
    intro label localName
    simp
  have hlabels : ∀ {label uri : String}, ⟨label, uri⟩ ∈ table → ':' ∉ label.toList := fun hmem hc =>
    (Text.unmarked_of_isPrefixName (ht.prefixes _ hmem) _ hc).2.1 rfl
  unfold QName.Bound at h h'
  by_cases hq : name.isQualified = true <;> by_cases hq' : other.isQualified = true
  · -- both have a prefix, which ends at the first colon and stands once in the table
    rw [if_pos hq] at h
    rw [if_pos hq'] at h'
    obtain ⟨label, hmem, rfl⟩ := h
    obtain ⟨label', hmem', heq⟩ := h'
    have hchars := congrArg String.toList heq
    simp only [String.toList_append, List.append_assoc] at hchars
    obtain ⟨hlabel, hlocal⟩ := Text.until_inj (hlabels hmem) (hlabels hmem') hchars
    have hentry := List.inj_on_of_nodup_map ht.labels hmem hmem' (String.toList_inj.1 hlabel)
    exact ⟨(Namespace.mk.inj hentry).2, String.toList_inj.1 hlocal⟩
  · rw [if_pos hq] at h
    rw [if_neg hq'] at h'
    obtain ⟨label, -, rfl⟩ := h
    have hmem : ':' ∈ other.localName.toList := h' ▸ hcolon
    exact absurd rfl (hn' _ hmem).2.1
  · rw [if_neg hq] at h
    rw [if_pos hq'] at h'
    obtain ⟨label, -, heq⟩ := h'
    have hmem : ':' ∈ name.localName.toList := by
      rw [← h, heq]
      exact hcolon
    exact absurd rfl (hn _ hmem).2.1
  · rw [if_neg hq] at h
    rw [if_neg hq'] at h'
    exact ⟨(uri_of_not_isQualified hq).trans (uri_of_not_isQualified hq').symm, h.symm.trans h'⟩

/-- Names with the same parts are written alike: a namespace has one prefix. -/
theorem QName.Bound.unique (ht : PrefixTable env asked table) {name other : QName} {text text' : String}
    (h : name.Bound table text) (h' : other.Bound table text') (huri : name.uri = other.uri)
    (hlocal : name.localName = other.localName) : text = text' := by
  unfold QName.Bound QName.isQualified at h h'
  rw [huri, hlocal] at h
  split at h
  · rename_i hq
    rw [if_pos hq] at h'
    obtain ⟨label, hmem, rfl⟩ := h
    obtain ⟨label', hmem', rfl⟩ := h'
    have hentry := List.inj_on_of_nodup_map ht.uris hmem hmem' rfl
    rw [(Namespace.mk.inj hentry).1]
  · rename_i hq
    rw [if_neg hq] at h'
    rw [h, h']

namespace Segment

/-- **Segments alike**: of the same namespace, with the same local part and the same number. -/
def Alike (s t : Segment) : Prop :=
  s.name.uri = t.name.uri ∧ s.name.localName = t.name.localName ∧ s.index = t.index

/-- **The number of a repetition as it is told**: repetitions are counted from one, and one alone has no
number. -/
def told : Option UInt64 → String
  | some i => "[" ++ Text.natural (i + 1).toNat ++ "]"
  | none => ""

/-- Below the greatest machine number it is the next number in brackets. -/
theorem told_some {i : UInt64} (h : i.toNat + 1 < UInt64.size) :
    told (some i) = "[" ++ Text.natural (i.toNat + 1) ++ "]" := by
  have hnext : (i + 1).toNat = i.toNat + 1 := by
    rw [UInt64.toNat_add]
    exact Nat.mod_eq_of_lt h
  rw [told, hnext]

theorem told_none : told none = "" := rfl

/-- **Different numbers are told differently.** -/
theorem told_inj {i j : Option UInt64} (h : told i = told j) : i = j := by
  have hopens : ∀ k : UInt64, told (some k) ≠ "" := by
    intro k hk
    have hchars := congrArg String.toList hk
    simp [told] at hchars
  cases i with
  | none =>
    cases j with
    | none => rfl
    | some j => exact absurd h.symm (hopens j)
  | some i =>
    cases j with
    | none => exact absurd h (hopens i)
    | some j =>
      have hchars := congrArg String.toList h
      simp only [told, String.toList_append, List.append_cancel_left_eq, List.append_cancel_right_eq] at hchars
      have hnumber := UInt64.toNat_inj.1 (Text.natural_inj (String.toList_inj.1 hchars))
      rw [(UInt64.add_left_inj 1).1 hnumber]

/-- A segment is written as its name with its number behind it. -/
theorem bound_iff {s : Segment} {text : String} :
    s.Bound table text ↔ ∃ name, s.name.Bound table name ∧ text = name ++ told s.index := by
  unfold Bound
  cases s.index with
  | none => simp [told]
  | some i => simp [told, String.append_assoc]

/-- A number stops a name. -/
theorem stops_told (i : Option UInt64) : Text.Stops (· != '[') (told i).toList := by
  intro c hc
  cases i with
  | none => cases hc
  | some i =>
    rw [told, String.append_assoc, String.toList_append] at hc
    obtain rfl : '[' = c := by simpa using hc
    rfl

/-- **A segment is told by how it is written.** -/
theorem Bound.told (ht : PrefixTable env asked table) {s t : Segment} {text : String}
    (h : s.Bound table text) (h' : t.Bound table text) (hs : s.name.Unmarked) (hs' : t.name.Unmarked) :
    s.Alike t := by
  obtain ⟨name, hname, rfl⟩ := bound_iff.1 h
  obtain ⟨name', hname', heq⟩ := bound_iff.1 h'
  have hclass : ∀ {q : QName} {text : String}, q.Bound table text → q.Unmarked →
      ∀ c ∈ text.toList, (c != '[') = true := fun hb hq c hc => bne_iff_ne.2 (hb.unmarked ht hq c hc).2
  have hchars := congrArg String.toList heq
  rw [String.toList_append, String.toList_append] at hchars
  obtain ⟨hspan, hnumber⟩ := Text.span_inj (hclass hname hs) (hclass hname' hs') (stops_told s.index)
    (stops_told t.index) hchars
  rw [← String.toList_inj.1 hspan] at hname'
  obtain ⟨huri, hlocal⟩ := hname.told ht hname' hs hs'
  exact ⟨huri, hlocal, told_inj (String.toList_inj.1 hnumber)⟩

theorem Bound.unique (ht : PrefixTable env asked table) {s t : Segment} {text text' : String}
    (h : s.Bound table text) (h' : t.Bound table text') (halike : s.Alike t) : text = text' := by
  obtain ⟨name, hname, rfl⟩ := bound_iff.1 h
  obtain ⟨name', hname', rfl⟩ := bound_iff.1 h'
  obtain ⟨huri, hlocal, hindex⟩ := halike
  rw [hname.unique ht hname' huri hlocal, hindex]

/-- No slash stands in a segment as it is written. -/
theorem Bound.slash_not_mem (ht : PrefixTable env asked table) {s : Segment} {text : String}
    (h : s.Bound table text) (hs : s.name.Unmarked) : '/' ∉ text.toList := by
  obtain ⟨name, hname, rfl⟩ := bound_iff.1 h
  rw [String.toList_append, List.mem_append, not_or]
  refine ⟨fun hc => (hname.unmarked ht hs _ hc).1 rfl, fun hc => ?_⟩
  cases hi : s.index with
  | none =>
    rw [hi] at hc
    cases hc
  | some i =>
    rw [hi, Segment.told, String.toList_append, String.toList_append, List.mem_append, List.mem_append] at hc
    rcases hc with (hc | hc) | hc
    · exact absurd hc (by decide)
    · exact absurd rfl (Text.natural_unmarked _ _ hc).1
    · exact absurd hc (by decide)

end Segment

/-! ## Paths next to a table -/

section

variable {ss ts : List Segment} {texts texts' : List String}

theorem slash_not_mem_of_bound (ht : PrefixTable env asked table)
    (h : List.Forall₂ (fun s t => s.Bound table t) ss texts) (hss : ∀ s ∈ ss, s.name.Unmarked) :
    ∀ t ∈ texts, '/' ∉ t.toList := by
  induction h with
  | nil => exact fun t hmem => (List.not_mem_nil hmem).elim
  | cons hfirst _ ih =>
    intro t hmem
    rcases List.mem_cons.1 hmem with rfl | hmem
    · exact hfirst.slash_not_mem ht (hss _ List.mem_cons_self)
    · exact ih (fun s hs => hss s (List.mem_cons_of_mem _ hs)) t hmem

/-- Segments that are written alike one by one are alike one by one. -/
theorem alike_of_bound (ht : PrefixTable env asked table)
    (h : List.Forall₂ (fun s t => s.Bound table t) ss texts)
    (h' : List.Forall₂ (fun s t => s.Bound table t) ts texts)
    (hss : ∀ s ∈ ss, s.name.Unmarked) (hts : ∀ t ∈ ts, t.name.Unmarked) : List.Forall₂ Segment.Alike ss ts := by
  induction h generalizing ts with
  | nil =>
    rw [List.forall₂_nil_right_iff.1 h']
    exact .nil
  | cons hfirst _ ih =>
    obtain ⟨t, rest, hfirst', hrest', rfl⟩ := List.forall₂_cons_right_iff.1 h'
    have halike := hfirst.told ht hfirst' (hss _ List.mem_cons_self) (hts _ List.mem_cons_self)
    exact .cons halike (ih hrest' (fun s hmem => hss s (List.mem_cons_of_mem _ hmem))
      (fun t hmem => hts t (List.mem_cons_of_mem _ hmem)))

/-- Segments that are alike one by one are written alike one by one. -/
theorem bound_unique_of_alike (ht : PrefixTable env asked table) (halike : List.Forall₂ Segment.Alike ss ts)
    (h : List.Forall₂ (fun s t => s.Bound table t) ss texts)
    (h' : List.Forall₂ (fun s t => s.Bound table t) ts texts') : texts = texts' := by
  induction halike generalizing texts texts' with
  | nil => rw [List.forall₂_nil_left_iff.1 h, List.forall₂_nil_left_iff.1 h']
  | cons hst _ ih =>
    obtain ⟨t, rest, hfirst, hrest, rfl⟩ := List.forall₂_cons_left_iff.1 h
    obtain ⟨t', rest', hfirst', hrest', rfl⟩ := List.forall₂_cons_left_iff.1 h'
    rw [hfirst.unique ht hfirst' hst, ih hrest hrest']

/-- **Next to one table, paths are told by their text**: two of them are written alike just when they have the
same length and their segments are alike, one by one. -/
theorem PathBound.alike_iff (ht : PrefixTable env asked table) {text text' : String}
    (h : PathBound ss table text) (h' : PathBound ts table text') (hs : ss ≠ []) (hs' : ts ≠ [])
    (hss : ∀ s ∈ ss, s.name.Unmarked) (hts : ∀ t ∈ ts, t.name.Unmarked) :
    text = text' ↔ List.Forall₂ Segment.Alike ss ts := by
  obtain ⟨texts, htexts, rfl⟩ := h
  obtain ⟨texts', htexts', rfl⟩ := h'
  constructor
  · intro hjoined
    have hsome : texts ≠ [] := fun hnil => hs (List.forall₂_nil_right_iff.1 (hnil ▸ htexts))
    have hsome' : texts' ≠ [] := fun hnil => hs' (List.forall₂_nil_right_iff.1 (hnil ▸ htexts'))
    have hsame := Text.join_inj hsome hsome' (slash_not_mem_of_bound ht htexts hss)
      (slash_not_mem_of_bound ht htexts' hts) hjoined
    rw [← hsame] at htexts'
    exact alike_of_bound ht htexts htexts' hss hts
  · intro halike
    rw [bound_unique_of_alike ht halike htexts htexts']

end

/-! ## Registries -/

namespace Registry

variable {r : Registry}

/-- A table of prefixes whatever preferences the namespaces were asked for with. -/
def Prefixed (env : Environment) (r : Registry) : Prop := PrefixTable env (fun _ _ => True) r.namespaces

theorem Prefixed.renderElement (h : Prefixed env r) (type : QName) :
    Prefixed env ((Registry.renderElement env type).on r).2 := by
  rw [renderElement_on]
  cases env.target.get? type with
  | none => exact h
  | some t => exact (renders_renderName (fun _ => trivial) t.elementName r h).1

/-- **The table of prefixes is right**, whatever has been done with a registry. -/
theorem Built.prefixTable (h : Built env r) : Prefixed env r := by
  have hasked : ∀ uri : String, (fun _ _ => True : String → Option String → Prop) uri none := fun _ => trivial
  induction h with
  | empty => exact prefixTable_nil env _
  | @label r uri preferred _ ih => exact (labelled_label env uri preferred r).prefixTable ih trivial
  | @renderName r name _ ih => exact (renders_renderName hasked name r ih).1
  | @renderPath r segments _ ih => exact (renders_renderPath hasked segments r ih).1
  | renderElement type _ ih => exact ih.renderElement type
  | @ensureMapping r type source _ ih =>
    rw [ensureMapping_on]
    cases r.mapping? type with
    | some m => exact ih
    | none =>
      have hrendered := ih.renderElement type
      rcases hs : (Registry.renderElement env type).on r with ⟨e | element, s⟩ <;> rw [hs] at hrendered
      · exact hrendered
      · exact hrendered
  | @upsert r type key change _ ih =>
    rw [upsert_on]
    cases r.slots.lookup type with
    | none => exact ih
    | some slot => exact ih
  | @registerLink r container nested _ ih =>
    rw [registerLink_on]
    cases r.link? container nested with
    | some l => exact ih
    | none =>
      have hrendered := ih.renderElement nested
      rcases hs : (Registry.renderElement env nested).on r with ⟨e | element, s⟩ <;> rw [hs] at hrendered
      · exact hrendered
      · exact hrendered
  | warn message _ ih => exact ih

/-- A segment is rendered as its name with its number behind it. -/
theorem renderSegment_run (env : Environment) (s : Segment) (r : Registry) :
    ((renderSegment env s).run r).1 = ((renderName env s.name).run r).1 ++ Segment.told s.index := by
  show (match s.index with
    | some i => ((renderName env s.name).run r).1 ++ "[" ++ Text.natural (i + 1).toNat ++ "]"
    | none => ((renderName env s.name).run r).1) = _
  cases s.index with
  | none => simp [Segment.told]
  | some i => simp [Segment.told, String.append_assoc]

/-- **Rendering paths is injective.** In whatever way a registry has come about: rendering one path and then
another gives the same text just when both have the same length and agree segment by segment in namespace,
local part and number. Each segment is rendered as its name, followed by nothing if it has no number, and
else, below the greatest machine number, by the next number in brackets. -/
theorem renderPath_injective (h : Built env r) {ss ts : List Segment} (hs : ss ≠ []) (hs' : ts ≠ [])
    (hss : ∀ s ∈ ss, s.name.Unmarked) (hts : ∀ t ∈ ts, t.name.Unmarked) :
    (((renderPath env ss).run r).1 = ((renderPath env ts).run ((renderPath env ss).run r).2).1 ↔
      List.Forall₂ Segment.Alike ss ts) ∧
    ∀ (s : Segment) (q : Registry),
      (s.index = none → ((renderSegment env s).run q).1 = ((renderName env s.name).run q).1) ∧
      ∀ i, s.index = some i → i.toNat + 1 < UInt64.size → ((renderSegment env s).run q).1 =
        ((renderName env s.name).run q).1 ++ "[" ++ Text.natural (i.toNat + 1) ++ "]" := by
  constructor
  · have hasked : ∀ uri : String, (fun _ _ => True : String → Option String → Prop) uri none := fun _ => trivial
    obtain ⟨ht, hpath⟩ := renders_renderPath hasked ss r h.prefixTable
    obtain ⟨ht', hpath'⟩ := renders_renderPath hasked ts _ ht
    -- the first text stays right next to the table that the second one leaves
    have hgrows := ((naming_renderPath env ts).renamed ((renderPath env ss).run r).2).namespaces.subset
    exact (hpath.mono hgrows).alike_iff ht' hpath' hs hs' hss hts
  · intro s q
    rw [renderSegment_run]
    refine ⟨fun hi => by simp [hi, Segment.told], fun i hi hlt => ?_⟩
    rw [hi, Segment.told_some hlt]
    simp only [String.append_assoc]

end Registry

/-! ## The banks of a brook -/

namespace Brooks

/-- What a compilation without schemas reads. -/
def environment : Environment := ⟨.empty, .empty, ⟨.empty, "LINK", none, false, .xml⟩, none⟩

/-- The path to a bank of a brook. -/
def bank (index : Option UInt64) : List Segment :=
  [⟨.qualified "urn:water" "brook", none⟩, ⟨.qualified "urn:land" "bank", index⟩]

/-- No name in these paths has marks. -/
theorem bank_unmarked (index : Option UInt64) : ∀ s ∈ bank index, s.name.Unmarked := by
  have hbrook : (QName.qualified "urn:water" "brook").Unmarked := QName.unmarked_of_isPrefixName (by decide)
  have hbank : (QName.qualified "urn:land" "bank").Unmarked := QName.unmarked_of_isPrefixName (by decide)
  exact List.forall_mem_cons.2 ⟨hbrook, List.forall_mem_singleton.2 hbank⟩

/-- **The first bank and the second** are rendered differently. -/
theorem second_bank_told : Registry.Built environment .empty ∧ bank (some 0) ≠ [] ∧ bank (some 1) ≠ [] ∧
    (∀ s ∈ bank (some 0), s.name.Unmarked) ∧ (∀ t ∈ bank (some 1), t.name.Unmarked) ∧
    ((Registry.renderPath environment (bank (some 0))).run .empty).1 ≠
      ((Registry.renderPath environment (bank (some 1))).run
        ((Registry.renderPath environment (bank (some 0))).run .empty).2).1 := by
  have hfirst : bank (some 0) ≠ [] := List.cons_ne_nil _ _
  have hsecond : bank (some 1) ≠ [] := List.cons_ne_nil _ _
  refine ⟨.empty, hfirst, hsecond, bank_unmarked _, bank_unmarked _, fun heq => ?_⟩
  have halike := (Registry.renderPath_injective .empty hfirst hsecond (bank_unmarked _) (bank_unmarked _)).1.1 heq
  obtain ⟨-, hrest⟩ := List.forall₂_cons.1 halike
  obtain ⟨hbanks, -⟩ := List.forall₂_cons.1 hrest
  exact absurd hbanks.2.2 (by decide)

end Brooks

end FeatureAlignment
