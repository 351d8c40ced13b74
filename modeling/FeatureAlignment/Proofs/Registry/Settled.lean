import FeatureAlignment.Proofs.Path.Named
import FeatureAlignment.Proofs.Registry.Quiet

/-!
# Prefixes that are settled beforehand

A namespace gets its prefix when it is first asked for. If configuration and schemas suggest a prefix
for every namespace of the target schema, and no two the same, then each of them gets the suggested
one, whatever was asked for before. So names of the target schema are rendered alike in every
registry of a compilation.

* `Environment.Settles`: the suggestions settle all prefixes.
* `Registry.Settled`: a registry with suggested prefixes only.
* `Registry.Steady`: a computation that answers alike in all settled registries, and keeps them
  settled. Names and paths of the target schema are rendered in this way (`steady_renderName`,
  `steady_renderPath`).
* `Registry.Idle`, `Registry.Answers`: steps that only name and warn, and computations that answer
  with no other steps.
-/

namespace FeatureAlignment

/-- **The prefix suggested for a namespace**: the first one that can be a prefix, of the preferred one
and those of the target schema and the source schema. -/
def Environment.suggested? (env : Environment) (uri : String) : Option String :=
  ([env.config.preferredPrefix? uri, env.target.hint? uri, env.source.hint? uri].filterMap id).find?
    Text.isPrefixName

/-- **The namespaces of a schema**: those of the names in it. -/
def SchemaIndex.namespaces (index : SchemaIndex) : List String :=
  (index.names.map QName.uri).filter (fun uri => !uri.isEmpty)

/-- **Settled prefixes**: there is a suggestion for every namespace of the target schema, and no two of
them have the same. -/
structure Environment.Settles (env : Environment) : Prop where
  suggested : ∀ uri ∈ env.target.namespaces, (env.suggested? uri).isSome
  distinct : ∀ uri ∈ env.target.namespaces, ∀ uri' ∈ env.target.namespaces,
    env.suggested? uri = env.suggested? uri' → uri = uri'

namespace Registry

variable {env : Environment} {r s t : Registry}

/-- **A settled registry** has namespaces of the target schema only, with the suggested prefixes. -/
def Settled (env : Environment) (r : Registry) : Prop :=
  ∀ n ∈ r.namespaces, n.uri ∈ env.target.namespaces ∧ env.suggested? n.uri = some n.label

theorem settled_empty (env : Environment) : Settled env .empty := fun _ hn => by cases hn

theorem Settled.of_namespaces (h : Settled env r) (hs : s.namespaces = r.namespaces) : Settled env s := by
  unfold Settled
  rw [hs]
  exact h

/-- The first candidate that can be a prefix is chosen, if it is not taken. -/
theorem chooseLabel_suggested {uri l : String} (hl : env.suggested? uri = some l) (ht : r.isTaken l = false) :
    chooseLabel env r uri none = l := by
  obtain ⟨hname, before, after, hsplit, hbefore⟩ := List.find?_eq_some_iff_append.1 hl
  have hfirst : ([none, env.config.preferredPrefix? uri, env.target.hint? uri, env.source.hint? uri].filterMap
      id).find? (fun label => Text.isPrefixName label && !r.isTaken label) = some l := by
    refine List.find?_eq_some_iff_append.2 ⟨by rw [hname, ht]; rfl, before, after, hsplit, fun x hx => ?_⟩
    have := hbefore x hx
    simp only [Bool.not_eq_true'] at this
    simp [this]
  unfold chooseLabel
  simp only [hfirst, Option.getD_some]

/-- **A namespace of the target schema gets the suggested prefix.** -/
theorem label_settled (hs : env.Settles) (hr : Settled env r) {uri : String}
    (hu : uri ∈ env.target.namespaces) :
    env.suggested? uri = some ((label env uri none).run r).1 ∧ Settled env ((label env uri none).run r).2 := by
  have hne : ¬ uri.isEmpty = true := by simpa using (List.mem_filter.1 hu).2
  cases hf : r.namespaces.find? (fun n => n.uri == uri) with
  | some n =>
    obtain rfl : n.uri = uri := by simpa using List.find?_some hf
    rw [label_run_known hne none hf]
    exact ⟨(hr n (List.mem_of_find?_eq_some hf)).2, hr⟩
  | none =>
    obtain ⟨l, hl⟩ := Option.isSome_iff_exists.1 (hs.suggested uri hu)
    -- whoever had taken the prefix would be the same namespace
    have hfree : r.isTaken l = false := by
      unfold isTaken
      rw [List.any_eq_false]
      intro n hn htaken
      obtain ⟨hmem, hsuggested⟩ := hr n hn
      obtain rfl : n.label = l := by simpa using htaken
      have hsame := hs.distinct n.uri hmem uri hu (hsuggested.trans hl.symm)
      exact absurd hsame (by simpa using List.find?_eq_none.1 hf n hn)
    rw [label_run_new hne none hf, chooseLabel_suggested hl hfree]
    refine ⟨hl, fun n hn => ?_⟩
    rcases List.mem_append.1 hn with hn | hn
    · exact hr n hn
    · rw [List.mem_singleton.1 hn]
      exact ⟨hu, hl⟩

/-! ## Steady computations -/

/-- **A steady computation** answers in every settled registry what it answers in the empty one, and
leaves the registry settled. -/
def Steady {α : Type} (env : Environment) (m : StateM Registry α) : Prop :=
  ∀ r, Settled env r → (m.run r).1 = (m.run .empty).1 ∧ Settled env (m.run r).2

theorem steady_pure {α : Type} (env : Environment) (x : α) : Steady env (pure x : StateM Registry α) :=
  fun _ hr => ⟨rfl, hr⟩

theorem Steady.bind {α β : Type} {m : StateM Registry α} {f : α → StateM Registry β} (hm : Steady env m)
    (hf : ∀ x, Steady env (f x)) : Steady env (m >>= f) := by
  intro r hr
  obtain ⟨hx, hr'⟩ := hm r hr
  obtain ⟨-, hempty⟩ := hm .empty (settled_empty env)
  show ((f (m.run r).1).run (m.run r).2).1 = ((f (m.run .empty).1).run (m.run .empty).2).1 ∧
    Settled env ((f (m.run r).1).run (m.run r).2).2
  rw [hx]
  -- both registries after the first computation are settled, so the second answers alike
  obtain ⟨hy, hr''⟩ := hf (m.run .empty).1 _ hr'
  obtain ⟨hy', -⟩ := hf (m.run .empty).1 _ hempty
  exact ⟨hy.trans hy'.symm, hr''⟩

theorem steady_mapM {α β : Type} {f : α → StateM Registry β} {l : List α} (hf : ∀ x ∈ l, Steady env (f x)) :
    Steady env (l.mapM f) := by
  induction l with
  | nil => rw [List.mapM_nil]; exact steady_pure env _
  | cons x l ih =>
    rw [List.mapM_cons]
    exact (hf x List.mem_cons_self).bind fun y =>
      (ih fun x hx => hf x (List.mem_cons_of_mem _ hx)).bind fun ys => steady_pure env _

theorem steady_label (hs : env.Settles) {name : QName} (hn : name ∈ env.target.names) :
    Steady env (label env name.uri none) := by
  intro r hr
  by_cases hu : name.uri.isEmpty = true
  · rw [label_run_empty hu, label_run_empty hu]
    exact ⟨rfl, hr⟩
  · have hmem : name.uri ∈ env.target.namespaces :=
      List.mem_filter.2 ⟨List.mem_map_of_mem hn, by simpa using hu⟩
    obtain ⟨hl, hr'⟩ := label_settled hs hr hmem
    obtain ⟨hl', -⟩ := label_settled hs (settled_empty env) hmem
    exact ⟨Option.some.inj (hl.symm.trans hl'), hr'⟩

theorem steady_renderName (hs : env.Settles) {name : QName} (hn : name ∈ env.target.names) :
    Steady env (renderName env name) :=
  (steady_label hs hn).bind fun _ => steady_pure env _

/-- **Paths of the target schema are rendered steadily.** -/
theorem steady_renderPath (hs : env.Settles) {segments : List Segment}
    (hn : ∀ s ∈ segments, s.name ∈ env.target.names) : Steady env (renderPath env segments) :=
  (steady_mapM fun s h => (steady_renderName hs (hn s h)).bind fun _ => steady_pure env _).bind
    fun _ => steady_pure env _

/-! ## Idle steps -/

/-- **Idle steps** name and warn, with settled prefixes. -/
structure Idle (env : Environment) (r s : Registry) : Prop where
  entries : s.entries = r.entries
  slots : s.slots = r.slots
  links : s.links = r.links
  settled : Settled env s

theorem Settled.idle (h : Settled env r) : Idle env r r := ⟨rfl, rfl, rfl, h⟩

theorem Idle.trans (h : Idle env r s) (h' : Idle env s t) : Idle env r t :=
  ⟨h'.entries.trans h.entries, h'.slots.trans h.slots, h'.links.trans h.links, h'.settled⟩

theorem Idle.held? (h : Idle env r s) (type : QName) : s.held? type = r.held? type := by
  unfold Registry.held?
  rw [h.slots, h.entries]

theorem Idle.attribute? (h : Idle env r s) : s.attribute? = r.attribute? := by
  funext type key
  unfold Registry.attribute?
  rw [h.held?]

theorem Idle.mappedTypes (h : Idle env r s) : s.mappedTypes = r.mappedTypes := by
  unfold Registry.mappedTypes
  rw [h.entries]

theorem Idle.tables (h : Idle env r s) (hr : Tables env r) : Tables env s := by
  refine ⟨?_, ?_, ?_, ?_⟩
  · rw [h.mappedTypes, h.slots]; exact hr.slots
  · rw [h.entries]; exact hr.entries
  · rw [h.links]; exact hr.pairs
  · rw [h.links]; exact hr.fields

/-- **Answering** in every settled registry, with idle steps. -/
def Answers {α : Type} (env : Environment) (x : Build α) (a : α) : Prop :=
  ∀ r, Settled env r → ∃ s, x.on r = (.ok a, s) ∧ Idle env r s

theorem answers_pure {α : Type} (env : Environment) (a : α) : Answers env (pure a : Build α) a :=
  fun r hr => ⟨r, rfl, hr.idle⟩

theorem Answers.bind {α β : Type} {x : Build α} {f : α → Build β} {a : α} {b : β} (hx : Answers env x a)
    (hf : Answers env (f a) b) : Answers env (x >>= f) b := by
  intro r hr
  obtain ⟨s, h1, hrs⟩ := hx r hr
  obtain ⟨t, h2, hst⟩ := hf s hrs.settled
  exact ⟨t, Build.on_bind_ok.2 ⟨a, s, h1, h2⟩, hrs.trans hst⟩

/-- A steady computation that only names answers. -/
theorem Steady.answers {α : Type} {m : StateM Registry α} (h : Steady env m) (hn : Naming m) :
    Answers env (liftM m : Build α) (m.run .empty).1 := by
  intro r hr
  obtain ⟨hanswer, hsettled⟩ := h r hr
  have hrenamed := hn.renamed r
  refine ⟨(m.run r).2, ?_, hrenamed.entries, hrenamed.slots, hrenamed.links, hsettled⟩
  rw [Build.on_state, hanswer]

/-- Names of the target schema have the same text in all settled registries. -/
theorem nameText_settled (hs : env.Settles) {name : QName} (hn : name ∈ env.target.names) (hr : Settled env r) :
    r.nameText env name = Registry.empty.nameText env name := (steady_renderName hs hn r hr).1

theorem answers_renderName (hs : env.Settles) {name : QName} (hn : name ∈ env.target.names) :
    Answers env (liftM (renderName env name) : Build String) (Registry.empty.nameText env name) :=
  (steady_renderName hs hn).answers (naming_renderName env name)

theorem answers_renderElement (hs : env.Settles) {type : QName} {d : TypeDefinition}
    (hd : env.target.get? type = some d) :
    Answers env (renderElement env type) (Registry.empty.nameText env d.elementName) := by
  intro r hr
  obtain ⟨s, hname, hidle⟩ := answers_renderName hs (SchemaIndex.elementName_mem (SchemaIndex.mem_of_get? hd)) r hr
  refine ⟨s, ?_, hidle⟩
  rw [renderElement_on, hd]
  rw [Build.on_state] at hname
  exact hname

/-! ## New mappings -/

/-- Rendering the element of a type leaves the registry settled. -/
theorem settled_renderElement (hs : env.Settles) (hr : Settled env r) {type : QName}
    {result : Except Failure String} (h : (renderElement env type).on r = (result, s)) : Settled env s := by
  rw [renderElement_on] at h
  cases ht : env.target.get? type with
  | none => rw [ht] at h; cases h; exact hr
  | some t =>
    rw [ht] at h
    cases h
    exact (steady_renderName hs (SchemaIndex.elementName_mem (SchemaIndex.mem_of_get? ht)) r hr).2

/-- So does giving a type its mapping. -/
theorem settled_ensureMapping (hs : env.Settles) (hr : Settled env r) {type source : QName}
    {result : Except Failure TypeMapping} (h : (ensureMapping env type source).on r = (result, s)) :
    Settled env s := by
  rw [ensureMapping_on] at h
  cases hm : r.mapping? type with
  | some m => rw [hm] at h; cases h; exact hr
  | none =>
    rw [hm] at h
    rcases he : (renderElement env type).on r with ⟨failure | element, s'⟩
    · rw [he] at h
      cases h
      exact settled_renderElement hs hr he
    · rw [he] at h
      cases h
      exact (settled_renderElement hs hr he).of_namespaces rfl

end Registry

end FeatureAlignment
