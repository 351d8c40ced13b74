import FeatureAlignment.Proofs.Build

/-!
# Rendered names are stable

Rendering writes nothing but new entries at the end of the namespace table. What was
rendered once is rendered alike in every registry whose table goes on from there, and
rendering it again writes nothing.

* `Registry.Renamed`: two registries that differ at most by new namespaces.
* `Naming m`: the computation `m` only names, and its answer is stable. Labels, names,
  segments and paths are rendered in this way (`naming_label`, `naming_renderPath`).
-/

namespace FeatureAlignment

namespace Registry

variable {r s t : Registry}

/-- **Naming only.** The second registry has more namespaces at most. -/
structure Renamed (r s : Registry) : Prop where
  namespaces : r.namespaces <+: s.namespaces
  entries : s.entries = r.entries
  slots : s.slots = r.slots
  links : s.links = r.links
  warnings : s.warnings = r.warnings

theorem Renamed.refl (r : Registry) : Renamed r r := ⟨List.prefix_refl _, rfl, rfl, rfl, rfl⟩

theorem Renamed.trans (h : Renamed r s) (h' : Renamed s t) : Renamed r t :=
  ⟨h.namespaces.trans h'.namespaces, h'.entries.trans h.entries, h'.slots.trans h.slots,
    h'.links.trans h.links, h'.warnings.trans h.warnings⟩

theorem Renamed.held? (h : Renamed r s) (type : QName) : s.held? type = r.held? type := by
  unfold Registry.held?; rw [h.slots, h.entries]

theorem Renamed.mapping? (h : Renamed r s) (type : QName) : s.mapping? type = r.mapping? type := by
  unfold Registry.mapping?; rw [h.held?]

theorem Renamed.attribute? (h : Renamed r s) (type : QName) (key : String) :
    s.attribute? type key = r.attribute? type key := by
  unfold Registry.attribute?; rw [h.held?]

theorem Renamed.link? (h : Renamed r s) (container nested : QName) :
    s.link? container nested = r.link? container nested := by
  unfold Registry.link?; rw [h.links]

/-- **A stable naming computation.** -/
def Naming {α : Type} (m : StateM Registry α) : Prop :=
  ∀ r, Renamed r (m.run r).2 ∧ ∀ t, (m.run r).2.namespaces <+: t.namespaces → m.run t = ((m.run r).1, t)

theorem Naming.renamed {α : Type} {m : StateM Registry α} (h : Naming m) (r : Registry) :
    Renamed r (m.run r).2 := (h r).1

theorem Naming.stable {α : Type} {m : StateM Registry α} (h : Naming m) {r t : Registry}
    (ht : (m.run r).2.namespaces <+: t.namespaces) : m.run t = ((m.run r).1, t) := (h r).2 t ht

theorem naming_pure {α : Type} (a : α) : Naming (pure a : StateM Registry α) :=
  fun r => ⟨Renamed.refl r, fun _ _ => rfl⟩

theorem Naming.bind {α β : Type} {m : StateM Registry α} {f : α → StateM Registry β} (hm : Naming m)
    (hf : ∀ a, Naming (f a)) : Naming (m >>= f) := by
  intro r
  have h1 := hm r
  have h2 := hf (m.run r).1 (m.run r).2
  refine ⟨h1.1.trans h2.1, fun t ht => ?_⟩
  -- the table after both computations goes on from the one after the first
  have ht' : ((f (m.run r).1).run (m.run r).2).2.namespaces <+: t.namespaces := ht
  have hmt := h1.2 t (h2.1.namespaces.trans ht')
  have hft := h2.2 t ht'
  show (f (m.run t).1).run (m.run t).2 = _
  rw [hmt]; exact hft

theorem naming_mapM {α β : Type} {f : α → StateM Registry β} (hf : ∀ a, Naming (f a)) :
    ∀ l : List α, Naming (l.mapM f) := by
  intro l
  induction l with
  | nil => rw [List.mapM_nil]; exact naming_pure _
  | cons a l ih =>
    rw [List.mapM_cons]
    exact (hf a).bind fun b => ih.bind fun bs => naming_pure _

variable {env : Environment}

/-- No namespace has the empty prefix. -/
theorem label_run_empty {uri : String} (hu : uri.isEmpty = true) (preferred : Option String) (r : Registry) :
    (label env uri preferred).run r = ("", r) := by
  unfold label; rw [if_pos hu]; rfl

/-- A known namespace has its prefix. -/
theorem label_run_known {uri : String} (hu : ¬ uri.isEmpty = true) (preferred : Option String) {n : Namespace}
    (hf : r.namespaces.find? (fun n => n.uri == uri) = some n) :
    (label env uri preferred).run r = (n.label, r) := by
  unfold label
  rw [if_neg hu]
  simp only [StateT.run_bind, StateT.run_get, pure_bind, hf]
  rfl

/-- Any other namespace is entered with the prefix chosen for it. -/
theorem label_run_new {uri : String} (hu : ¬ uri.isEmpty = true) (preferred : Option String)
    (hf : r.namespaces.find? (fun n => n.uri == uri) = none) :
    (label env uri preferred).run r =
      (chooseLabel env r uri preferred,
        { r with namespaces := r.namespaces ++ [⟨chooseLabel env r uri preferred, uri⟩] }) := by
  unfold label
  rw [if_neg hu]
  simp only [StateT.run_bind, StateT.run_get, pure_bind, hf]
  rfl

variable (env)

theorem naming_label (uri : String) (preferred : Option String) : Naming (label env uri preferred) := by
  intro r
  by_cases hu : uri.isEmpty = true
  · rw [label_run_empty hu]
    exact ⟨Renamed.refl r, fun t _ => label_run_empty hu preferred t⟩
  cases hf : r.namespaces.find? (fun n => n.uri == uri) with
  | some n =>
    -- the first entry of the namespace is the first in every table that goes on from here
    rw [label_run_known hu preferred hf]
    refine ⟨Renamed.refl r, fun t ⟨more, ht⟩ => label_run_known hu preferred ?_⟩
    rw [← ht, List.find?_append, hf]; rfl
  | none =>
    -- after the new entry the namespace is known
    rw [label_run_new hu preferred hf]
    refine ⟨⟨List.prefix_append _ _, rfl, rfl, rfl, rfl⟩, fun t ⟨more, ht⟩ => ?_⟩
    refine label_run_known (n := ⟨chooseLabel env r uri preferred, uri⟩) hu preferred ?_
    rw [← ht, List.find?_append, List.find?_append, hf]; simp

theorem naming_renderName (name : QName) : Naming (renderName env name) :=
  (naming_label env name.uri none).bind fun _ => naming_pure _

theorem naming_renderSegment (s : Segment) : Naming (renderSegment env s) :=
  (naming_renderName env s.name).bind fun _ => naming_pure _

/-- **Paths are rendered stably.** -/
theorem naming_renderPath (segments : List Segment) : Naming (renderPath env segments) :=
  (naming_mapM (naming_renderSegment env) segments).bind fun _ => naming_pure _

end Registry

end FeatureAlignment
