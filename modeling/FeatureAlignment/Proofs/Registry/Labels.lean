import Mathlib.Data.List.Nodup
import Mathlib.Data.List.Perm.Subperm
import FeatureAlignment.Proofs.Registry.Naming
import FeatureAlignment.Proofs.Text

/-!
# The table of prefixes

A namespace gets its prefix when it is first asked for, and keeps it. The prefix is the first of up to four
candidates that can be a prefix and is free: the one that is asked for, the one that the configuration
prefers, and those that the two schemas suggest. If there is none, it is `ns` with the least positive number
that is free. There always is such a number: a table cannot take more prefixes than it has entries.

* `Chosen`: which prefix is chosen for a namespace, next to a table.
* `PrefixTable`: a table in which each namespace and each prefix stands once, each prefix having been
  chosen next to the entries before it.
* `Registry.labelled_label`: what asking for a prefix does. It keeps the table right
  (`Labelled.prefixTable`).
-/

namespace FeatureAlignment

variable {env : Environment} {table : List Namespace} {uri label : String} {preferred : Option String}

/-! ## Choosing a prefix -/

/-- The candidates for the prefix of a namespace, in the order in which they are tried. -/
def candidates (env : Environment) (uri : String) (preferred : Option String) : List String :=
  [preferred, env.config.preferredPrefix? uri, env.target.hint? uri, env.source.hint? uri].filterMap id

/-- Free in a table: no namespace has this prefix. -/
def Free (table : List Namespace) (label : String) : Prop := ∀ n ∈ table, n.label ≠ label

/-- A candidate that will do: it can be a prefix, and is free. -/
def Usable (table : List Namespace) (label : String) : Prop := Text.isPrefixName label = true ∧ Free table label

/-- **The prefix that is chosen** for a namespace: the first candidate that will do, or else `ns` with the
least positive number with which it is free. -/
inductive Chosen (env : Environment) (table : List Namespace) (uri : String) (preferred : Option String) :
    String → Prop
  | candidate {before after : List String} {label : String} :
      candidates env uri preferred = before ++ label :: after → (∀ l ∈ before, ¬ Usable table l) →
      Usable table label → Chosen env table uri preferred label
  | numbered {n : Nat} : (∀ l ∈ candidates env uri preferred, ¬ Usable table l) → 1 ≤ n →
      Free table ("ns" ++ Text.natural n) → (∀ m, 1 ≤ m → m < n → ¬ Free table ("ns" ++ Text.natural m)) →
      Chosen env table uri preferred ("ns" ++ Text.natural n)

/-- **What is chosen will do.** -/
theorem Chosen.usable (h : Chosen env table uri preferred label) : Usable table label := by
  cases h with
  | candidate _ _ hu => exact hu
  | numbered _ _ hfree _ => exact ⟨Text.isPrefixName_natural (by decide) _, hfree⟩

namespace Registry

variable {r s : Registry}

theorem isTaken_eq_false : r.isTaken label = false ↔ Free r.namespaces label := by
  unfold isTaken Free
  simp

/-- **A prefix with a number is free** for some number up to one more than there are entries. -/
theorem exists_free (table : List Namespace) : ∃ n < table.length + 1, Free table ("ns" ++ Text.natural (n + 1)) := by
  by_contra hnone
  -- otherwise all these prefixes are in the table, and there are too many of them
  let numbered := (List.range (table.length + 1)).map (fun n => "ns" ++ Text.natural (n + 1))
  have hnodup : numbered.Nodup :=
    List.Nodup.map (fun m n h => Nat.succ_inj.1 (Text.append_natural_inj h)) List.nodup_range
  have hsub : numbered ⊆ table.map Namespace.label := by
    intro label hl
    obtain ⟨n, hn, rfl⟩ := List.mem_map.1 hl
    have htaken : ¬ Free table ("ns" ++ Text.natural (n + 1)) := fun h => hnone ⟨n, List.mem_range.1 hn, h⟩
    unfold Free at htaken
    push Not at htaken
    obtain ⟨entry, hmem, heq⟩ := htaken
    exact List.mem_map.2 ⟨entry, hmem, heq⟩
  have hle := (List.subperm_of_subset hnodup hsub).length_le
  rw [List.length_map, List.length_map, List.length_range] at hle
  omega

/-- **A generated prefix** is that with the least number with which it is free. -/
theorem generatedLabel_least (r : Registry) : ∃ n, 1 ≤ n ∧ r.generatedLabel = "ns" ++ Text.natural n ∧
    Free r.namespaces ("ns" ++ Text.natural n) ∧
    ∀ m, 1 ≤ m → m < n → ¬ Free r.namespaces ("ns" ++ Text.natural m) := by
  unfold generatedLabel
  rw [List.find?_map]
  cases hf : (List.range (r.namespaces.length + 1)).find?
      ((fun label => !r.isTaken label) ∘ fun n => "ns" ++ Text.natural (n + 1)) with
  | none =>
    obtain ⟨n, hn, hfree⟩ := exists_free r.namespaces
    have := List.find?_eq_none.1 hf n (List.mem_range.2 hn)
    simp [isTaken_eq_false.2 hfree] at this
  | some n =>
    obtain ⟨hfree, -, hleast⟩ := List.find?_range_eq_some.1 hf
    refine ⟨n + 1, by omega, rfl, isTaken_eq_false.1 (by simpa using hfree), fun m hm hlt hfree' => ?_⟩
    -- a smaller number would have been found before
    obtain ⟨k, rfl⟩ : ∃ k, m = k + 1 := ⟨m - 1, by omega⟩
    have := hleast k (by omega)
    simp [isTaken_eq_false.2 hfree'] at this

theorem usable_iff : (Text.isPrefixName label && !r.isTaken label) = true ↔ Usable r.namespaces label := by
  rw [Bool.and_eq_true, Bool.not_eq_true', isTaken_eq_false]
  rfl

/-- **The registry chooses as it should.** -/
theorem chooseLabel_chosen (env : Environment) (r : Registry) (uri : String) (preferred : Option String) :
    Chosen env r.namespaces uri preferred (chooseLabel env r uri preferred) := by
  show Chosen env r.namespaces uri preferred (((candidates env uri preferred).find? _).getD _)
  cases hf : (candidates env uri preferred).find? (fun label => Text.isPrefixName label && !r.isTaken label) with
  | some label =>
    obtain ⟨hu, before, after, heq, hbefore⟩ := List.find?_eq_some_iff_append.1 hf
    exact .candidate heq (fun l hl h => by simpa [usable_iff.2 h] using hbefore l hl) (usable_iff.1 hu)
  | none =>
    obtain ⟨n, hn, heq, hfree, hleast⟩ := generatedLabel_least r
    rw [Option.getD_none, heq]
    exact .numbered (fun l hl h => List.find?_eq_none.1 hf l hl (usable_iff.2 h)) hn hfree hleast

end Registry

/-! ## Tables -/

/-- **A table of prefixes.** No two namespaces are the same or share a prefix, none is the empty one, and
all prefixes can be prefixes. Each was chosen next to the entries before it, for one of the preferences
that the namespace was asked for with. -/
structure PrefixTable (env : Environment) (asked : String → Option String → Prop) (table : List Namespace) :
    Prop where
  uris : (table.map Namespace.uri).Nodup
  labels : (table.map Namespace.label).Nodup
  named : ∀ n ∈ table, n.uri ≠ ""
  prefixes : ∀ n ∈ table, Text.isPrefixName n.label = true
  chosen : ∀ before n after, table = before ++ n :: after →
    ∃ preferred, asked n.uri preferred ∧ Chosen env before n.uri preferred n.label

variable {asked : String → Option String → Prop}

theorem prefixTable_nil (env : Environment) (asked : String → Option String → Prop) : PrefixTable env asked [] where
  uris := List.nodup_nil
  labels := List.nodup_nil
  named := fun _ hn => (List.not_mem_nil hn).elim
  prefixes := fun _ hn => (List.not_mem_nil hn).elim
  chosen := fun _ _ _ h => by simp at h

/-- Other preferences may be given for the entries. -/
theorem PrefixTable.imp {asked' : String → Option String → Prop} (h : PrefixTable env asked table)
    (ha : ∀ n ∈ table, ∀ preferred, asked n.uri preferred → asked' n.uri preferred) :
    PrefixTable env asked' table := by
  refine { h with chosen := fun before n after heq => ?_ }
  obtain ⟨preferred, hp, hc⟩ := h.chosen before n after heq
  have hmem : n ∈ table := by
    rw [heq]
    exact List.mem_append_right _ List.mem_cons_self
  exact ⟨preferred, ha n hmem preferred hp, hc⟩

/-- **A new entry**, with the prefix that is chosen for it. -/
theorem PrefixTable.push (h : PrefixTable env asked table) (hu : uri ≠ "") (hnew : ∀ n ∈ table, n.uri ≠ uri)
    (ha : asked uri preferred) (hc : Chosen env table uri preferred label) :
    PrefixTable env asked (table ++ [⟨label, uri⟩]) := by
  have hfree := hc.usable.2
  have apart : ∀ {f : Namespace → String}, (table.map f).Nodup → (∀ n ∈ table, f n ≠ f ⟨label, uri⟩) →
      ((table ++ [Namespace.mk label uri]).map f).Nodup := by
    intro f hf hne
    rw [List.map_append, List.nodup_append]
    refine ⟨hf, by simp, fun x hx y hy => ?_⟩
    obtain ⟨n, hn, rfl⟩ := List.mem_map.1 hx
    rw [List.mem_singleton.1 hy]
    exact hne n hn
  have each : ∀ {P : Namespace → Prop}, (∀ n ∈ table, P n) → P ⟨label, uri⟩ →
      ∀ n ∈ table ++ [Namespace.mk label uri], P n := by
    intro P ht hlast n hn
    rcases List.mem_append.1 hn with hn | hn
    · exact ht n hn
    · rw [List.mem_singleton.1 hn]; exact hlast
  refine ⟨apart h.uris hnew, apart h.labels hfree, each h.named hu, each h.prefixes hc.usable.1, ?_⟩
  intro before n after heq
  rcases List.eq_nil_or_concat after with rfl | ⟨rest, last, rfl⟩
  · -- the new entry itself
    obtain ⟨rfl, hn⟩ := List.append_inj' heq rfl
    cases hn
    exact ⟨preferred, ha, hc⟩
  · rw [List.concat_eq_append, ← List.cons_append, ← List.append_assoc] at heq
    obtain ⟨rfl, -⟩ := List.append_inj' heq rfl
    exact h.chosen before n rest rfl

namespace Registry

variable {r s : Registry}

/-- **Asking for a prefix**: the empty namespace has none; a namespace in the table has its own, and nothing
is written; any other one is entered with the prefix that is chosen for it. -/
inductive Labelled (env : Environment) (uri : String) (preferred : Option String) (r : Registry) :
    Registry → String → Prop
  | none : uri = "" → Labelled env uri preferred r r ""
  | known {label : String} : uri ≠ "" → ⟨label, uri⟩ ∈ r.namespaces → Labelled env uri preferred r r label
  | new {label : String} : uri ≠ "" → (∀ n ∈ r.namespaces, n.uri ≠ uri) →
      Chosen env r.namespaces uri preferred label →
      Labelled env uri preferred r { r with namespaces := r.namespaces ++ [⟨label, uri⟩] } label

theorem labelled_label (env : Environment) (uri : String) (preferred : Option String) (r : Registry) :
    Labelled env uri preferred r ((Registry.label env uri preferred).run r).2
      ((Registry.label env uri preferred).run r).1 := by
  by_cases hu : uri.isEmpty = true
  · rw [label_run_empty hu]
    exact .none (String.isEmpty_iff.1 hu)
  have hne : uri ≠ "" := fun h => hu (String.isEmpty_iff.2 h)
  cases hf : r.namespaces.find? (fun n => n.uri == uri) with
  | some n =>
    rw [label_run_known hu preferred hf]
    have huri : n.uri = uri := by simpa using List.find?_some hf
    rw [← huri] at hne ⊢
    exact .known hne (List.mem_of_find?_eq_some hf)
  | none =>
    rw [label_run_new hu preferred hf]
    exact .new hne (fun n hn h => by simpa [h] using List.find?_eq_none.1 hf n hn)
      (chooseLabel_chosen env r uri preferred)

/-- **Asking for a prefix keeps the table right.** -/
theorem Labelled.prefixTable (h : Labelled env uri preferred r s label)
    (ht : PrefixTable env asked r.namespaces) (ha : asked uri preferred) : PrefixTable env asked s.namespaces := by
  cases h with
  | none _ => exact ht
  | known _ _ => exact ht
  | new hu hnew hc => exact ht.push hu hnew ha hc

/-- The prefix is in the table afterwards. -/
theorem Labelled.mem (h : Labelled env uri preferred r s label) (hu : uri ≠ "") : ⟨label, uri⟩ ∈ s.namespaces := by
  cases h with
  | none h => exact absurd h hu
  | known _ hmem => exact hmem
  | new _ _ _ => exact List.mem_append_right _ (List.mem_singleton.2 rfl)

end Registry

end FeatureAlignment
