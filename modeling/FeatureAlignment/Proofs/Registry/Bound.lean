import Mathlib.Data.List.Forall2
import Mathlib.Data.List.Induction
import FeatureAlignment.Proofs.Registry.Labels
import FeatureAlignment.Proofs.Registry.Quiet
import FeatureAlignment.Proofs.Path.Named

/-!
# Bound names

Names are written with prefixes. Wherever the registry keeps a name, the prefix before it is that of its
namespace in the table, then and later: the table only grows.

* `QName.Bound`, `PathBound`: how a name or a path is written next to a table.
* `Registry.Renders`: what rendering keeps and answers (`renders_renderName`, `renders_renderPath`).
* `Request`: a request for a prefix, a name or a path on its own; the table is right after any requests
  (`Request.prefixTable_after`).
* `AttributeMapping.Bound`: an attribute all of whose names are bound.
* `Registry.Bound`: a registry all of whose names are bound. The operations on it keep it so
  (`Bound.ensureMapping`, `Bound.registerLink`, `Bound.upsert`).
-/

namespace FeatureAlignment

variable {env : Environment} {table table' : List Namespace} {asked : String → Option String → Prop}

/-! ## Names next to a table -/

/-- **A name as it is written**: with a prefix that the table has for its namespace, a colon, and the local
part; a name without namespace is its local part. -/
def QName.Bound (name : QName) (table : List Namespace) (text : String) : Prop :=
  if name.isQualified then ∃ label, ⟨label, name.uri⟩ ∈ table ∧ text = label ++ ":" ++ name.localName
  else text = name.localName

/-- A segment as it is written, with the number of its repetition. -/
def Segment.Bound (s : Segment) (table : List Namespace) (text : String) : Prop :=
  ∃ name, s.name.Bound table name ∧
    text = match s.index with
      | some i => name ++ "[" ++ Text.natural (i + 1).toNat ++ "]"
      | none => name

/-- **A path as it is written**: its segments with slashes between them. -/
def PathBound (segments : List Segment) (table : List Namespace) (text : String) : Prop :=
  ∃ texts, List.Forall₂ (fun s t => s.Bound table t) segments texts ∧ text = Text.join "/" texts

/-- **The element of a target type** as it is written. -/
def ElementBound (env : Environment) (type : QName) (table : List Namespace) (text : String) : Prop :=
  ∃ t, env.target.get? type = some t ∧ t.elementName.Bound table text

theorem QName.Bound.mono {name : QName} {text : String} (h : name.Bound table text) (ht : table ⊆ table') :
    name.Bound table' text := by
  unfold QName.Bound at *
  split
  · rename_i hq
    rw [if_pos hq] at h
    obtain ⟨label, hmem, heq⟩ := h
    exact ⟨label, ht hmem, heq⟩
  · rename_i hq
    rwa [if_neg hq] at h

theorem PathBound.mono {segments : List Segment} {text : String} (h : PathBound segments table text)
    (ht : table ⊆ table') : PathBound segments table' text := by
  obtain ⟨texts, htexts, heq⟩ := h
  exact ⟨texts, htexts.imp fun s t ⟨name, hname, htext⟩ => ⟨name, hname.mono ht, htext⟩, heq⟩

theorem ElementBound.mono {type : QName} {text : String} (h : ElementBound env type table text)
    (ht : table ⊆ table') : ElementBound env type table' text := by
  obtain ⟨t, htype, hname⟩ := h
  exact ⟨t, htype, hname.mono ht⟩

/-! ## Rendering -/

namespace Registry

variable {α β : Type} {r s : Registry}

/-- **What rendering comes to**: the table of prefixes stays right, and the answer is as it should be next
to it. -/
def Renders (env : Environment) (asked : String → Option String → Prop) (m : StateM Registry α)
    (P : List Namespace → α → Prop) : Prop :=
  ∀ r, PrefixTable env asked r.namespaces → PrefixTable env asked (m.run r).2.namespaces ∧
    P (m.run r).2.namespaces (m.run r).1

/-- Rendering one part and then the rest. -/
theorem Renders.bind {m : StateM Registry α} {f : α → StateM Registry β} {P : List Namespace → α → Prop}
    {Q : List Namespace → β → Prop} (hm : Renders env asked m P)
    (hf : ∀ r, PrefixTable env asked r.namespaces → ∀ a, P r.namespaces a →
      PrefixTable env asked ((f a).run r).2.namespaces ∧ Q ((f a).run r).2.namespaces ((f a).run r).1) :
    Renders env asked (m >>= f) Q := by
  intro r hr
  obtain ⟨ht, hp⟩ := hm r hr
  exact hf _ ht _ hp

variable (hasked : ∀ uri, asked uri none)

include hasked

/-- A namespace that is asked for has an entry with its prefix, unless it is the empty one. -/
theorem renders_label (uri : String) : Renders env asked (label env uri none)
    (fun table label => uri = "" ∧ label = "" ∨ uri ≠ "" ∧ ⟨label, uri⟩ ∈ table) := by
  intro r hr
  have hl := labelled_label env uri none r
  refine ⟨hl.prefixTable hr (hasked uri), ?_⟩
  by_cases hu : uri = ""
  · subst hu
    exact .inl ⟨rfl, rfl⟩
  · exact .inr ⟨hu, hl.mem hu⟩

/-- **A name is rendered with the prefix of its namespace.** -/
theorem renders_renderName (name : QName) :
    Renders env asked (renderName env name) (fun table text => name.Bound table text) := by
  refine (renders_label hasked name.uri).bind fun r hr label hlabel => ⟨hr, ?_⟩
  show name.Bound r.namespaces (if label.isEmpty then name.localName else label ++ ":" ++ name.localName)
  unfold QName.Bound QName.isQualified
  rcases hlabel with ⟨hu, rfl⟩ | ⟨hu, hmem⟩
  · rw [hu]
    rfl
  · -- what can be a prefix is not empty
    have hprefix : Text.isPrefixName label = true := hr.prefixes _ hmem
    have hne : label ≠ "" := by
      rintro rfl
      exact absurd hprefix (by decide)
    rw [if_pos (by simpa using hu), if_neg (by simpa using hne)]
    exact ⟨label, hmem, rfl⟩

theorem renders_renderSegment (s : Segment) :
    Renders env asked (renderSegment env s) (fun table text => s.Bound table text) :=
  (renders_renderName hasked s.name).bind fun _ hr name hname => ⟨hr, name, hname, rfl⟩

/-- **A path is rendered with the prefixes of its segments.** -/
theorem renders_renderPath (segments : List Segment) :
    Renders env asked (renderPath env segments) (fun table text => PathBound segments table text) := by
  have hsegments : Renders env asked (segments.mapM (renderSegment env))
      (fun table texts => List.Forall₂ (fun s t => s.Bound table t) segments texts) := by
    induction segments with
    | nil => exact fun r hr => ⟨hr, .nil⟩
    | cons s segments ih =>
      rw [List.mapM_cons]
      refine (renders_renderSegment hasked s).bind fun r hr text htext => ?_
      obtain ⟨ht, htexts⟩ := ih r hr
      -- the first segment stays as it is written while the others are rendered
      have hgrows := ((naming_mapM (naming_renderSegment env) segments).renamed r).namespaces
      obtain ⟨name, hname, heq⟩ := htext
      exact ⟨ht, .cons ⟨name, hname.mono hgrows.subset, heq⟩ htexts⟩
  exact hsegments.bind fun _ hr texts htexts => ⟨hr, texts, htexts, rfl⟩

end Registry

/-! ## Requests -/

/-- **A request** to a registry: for the prefix of a namespace, perhaps with a preference, for a name, or for
a path. -/
inductive Request
  | label (uri : String) (preferred : Option String)
  | name (name : QName)
  | path (segments : List Segment)

namespace Request

/-- The answer to a request. -/
def answer (env : Environment) : Request → StateM Registry String
  | .label uri preferred => Registry.label env uri preferred
  | .name n => Registry.renderName env n
  | .path segments => Registry.renderPath env segments

/-- The registry after requests. -/
def after (env : Environment) (requests : List Request) : Registry :=
  requests.foldl (fun r q => ((q.answer env).run r).2) .empty

/-- The preferences that a namespace is asked for with: none, or that of a request for its prefix. -/
def Asks (requests : List Request) (uri : String) (preferred : Option String) : Prop :=
  preferred = none ∨ label uri preferred ∈ requests

/-- The preferences for new entries, where only names are rendered: none. -/
def AsksNothing (r : Registry) (uri : String) (preferred : Option String) : Prop :=
  preferred = none ∨ ∃ n ∈ r.namespaces, n.uri = uri

/-- **What a request does and answers.** A prefix is given as it should be; a name or a path is written with
bound prefixes, and its namespaces are asked for without a preference. -/
def Answered (env : Environment) (r s : Registry) (text : String) : Request → Prop
  | .label uri preferred => Registry.Labelled env uri preferred r s text
  | .name n => n.Bound s.namespaces text ∧ PrefixTable env (AsksNothing r) s.namespaces
  | .path segments => PathBound segments s.namespaces text ∧ PrefixTable env (AsksNothing r) s.namespaces

variable {r : Registry} {requests : List Request}

theorem naming_answer (env : Environment) (q : Request) : Registry.Naming (q.answer env) := by
  cases q with
  | label uri preferred => exact Registry.naming_label env uri preferred
  | name n => exact Registry.naming_renderName env n
  | path segments => exact Registry.naming_renderPath env segments

/-- **Requests are answered as they should be**, next to a right table. -/
theorem answered (q : Request) (h : PrefixTable env asked r.namespaces) :
    q.Answered env r ((q.answer env).run r).2 ((q.answer env).run r).1 := by
  -- whatever the preferences for the entries were, there is none for those to come
  have hr : PrefixTable env (AsksNothing r) r.namespaces := h.imp fun n hn _ _ => .inr ⟨n, hn, rfl⟩
  have hasks : ∀ uri, AsksNothing r uri none := fun _ => .inl rfl
  cases q with
  | label uri preferred => exact Registry.labelled_label env uri preferred r
  | name n => exact (Registry.renders_renderName hasks n r hr).symm
  | path segments => exact (Registry.renders_renderPath hasks segments r hr).symm

/-- **A request keeps the table right.** -/
theorem prefixTable_answer (q : Request) (h : PrefixTable env (Asks requests) r.namespaces) :
    PrefixTable env (Asks (requests ++ [q])) ((q.answer env).run r).2.namespaces := by
  have hmore : PrefixTable env (Asks (requests ++ [q])) r.namespaces :=
    h.imp fun _ _ _ hp => hp.imp id fun hp => List.mem_append_left _ hp
  have hasks : ∀ uri, Asks (requests ++ [q]) uri none := fun _ => .inl rfl
  cases q with
  | label uri preferred =>
    exact (Registry.labelled_label env uri preferred r).prefixTable hmore
      (.inr (List.mem_append_right _ (List.mem_singleton.2 rfl)))
  | name n => exact (Registry.renders_renderName hasks n r hmore).1
  | path segments => exact (Registry.renders_renderPath hasks segments r hmore).1

theorem after_concat (env : Environment) (requests : List Request) (q : Request) :
    after env (requests ++ [q]) = ((q.answer env).run (after env requests)).2 := by
  unfold after
  rw [List.foldl_append]
  rfl

/-- **The table is right after any requests.** -/
theorem prefixTable_after (env : Environment) (requests : List Request) :
    PrefixTable env (Asks requests) (after env requests).namespaces := by
  induction requests using List.reverseRecOn with
  | nil => exact prefixTable_nil env _
  | append_singleton requests q ih =>
    rw [after_concat]
    exact prefixTable_answer q ih

end Request

/-! ## Attributes -/

/-- **An attribute whose names are bound.** Its target is a path with names of the schema, the element of
its type, or a link field; its node, the element of its link and its client properties are written with
bound prefixes as well, but for `srsName`, which has none. -/
structure AttributeMapping.Bound (env : Environment) (type : QName) (table : List Namespace)
    (a : AttributeMapping) : Prop where
  target : (∃ segments, (∀ s ∈ segments, s.name ∈ env.target.names) ∧
      PathBound segments table a.targetAttribute) ∨
    ElementBound env type table a.targetAttribute ∨ ∃ n, a.targetAttribute = env.config.linkField n
  node : ∀ text ∈ a.targetNode, ∃ name ∈ env.target.names, name.Bound table text
  link : ∀ text ∈ a.linkElement, ∃ nested, ElementBound env nested table text
  clients : ∀ p ∈ a.clientProperties, p.name = "srsName" ∨
    ∃ name ∈ JoinPlan.hrefName :: env.target.names, name.Bound table p.name

namespace AttributeMapping

variable {type : QName} {a : AttributeMapping}

theorem Bound.mono (h : a.Bound env type table) (ht : table ⊆ table') : a.Bound env type table' := by
  refine ⟨?_, fun text hx => ?_, fun text hx => ?_, fun p hp => ?_⟩
  · rcases h.target with ⟨segments, hs, hpath⟩ | he | hf
    · exact .inl ⟨segments, hs, hpath.mono ht⟩
    · exact .inr (.inl (he.mono ht))
    · exact .inr (.inr hf)
  · obtain ⟨name, hname, hb⟩ := h.node text hx
    exact ⟨name, hname, hb.mono ht⟩
  · obtain ⟨nested, he⟩ := h.link text hx
    exact ⟨nested, he.mono ht⟩
  · rcases h.clients p hp with hs | ⟨name, hname, hb⟩
    · exact .inl hs
    · exact .inr ⟨name, hname, hb.mono ht⟩

/-- **A client property is set** under a bound name. -/
theorem Bound.setClientProperty (h : a.Bound env type table) {name : String}
    (hname : name = "srsName" ∨ ∃ q ∈ JoinPlan.hrefName :: env.target.names, q.Bound table name)
    (value : String) : (a.setClientProperty name value).Bound env type table := by
  refine ⟨h.target, h.node, h.link, fun p hp => ?_⟩
  have hmem : p.name ∈ (setAmong name value a.clientProperties).map ClientProperty.name := List.mem_map_of_mem hp
  rw [names_setAmong] at hmem
  have hold : p.name ∈ a.clientProperties.map ClientProperty.name →
      p.name = "srsName" ∨ ∃ q ∈ JoinPlan.hrefName :: env.target.names, q.Bound table p.name := by
    intro hmem
    obtain ⟨q, hq, heq⟩ := List.mem_map.1 hmem
    rw [← heq]
    exact h.clients q hq
  split at hmem
  · exact hold hmem
  · rcases List.mem_append.1 hmem with hmem | hmem
    · exact hold hmem
    · rw [List.mem_singleton.1 hmem]
      exact hname

/-- **A change that keeps names bound**, next to a table. -/
def Binds (env : Environment) (type : QName) (table : List Namespace)
    (f : AttributeMapping → AttributeMapping) : Prop :=
  ∀ a : AttributeMapping, a.Bound env type table → (f a).Bound env type table

end AttributeMapping

/-! ## Registries -/

/-- A compilation asks for prefixes without a preference. -/
def NoPreference (_uri : String) (preferred : Option String) : Prop := preferred = none

theorem noPreference (uri : String) : NoPreference uri none := rfl

/-- **A registry whose names are bound**: those of its mappings, of their attributes and of its links, all
next to a right table of prefixes. No preference is ever asked for. -/
structure Registry.Bound (env : Environment) (r : Registry) : Prop extends Registry.Tables env r where
  table : PrefixTable env NoPreference r.namespaces
  elements : ∀ e ∈ r.entries, ElementBound env e.targetType r.namespaces e.mapping.targetElement
  attributes : ∀ e ∈ r.entries, ∀ a ∈ e.mapping.attributes, a.Bound env e.targetType r.namespaces
  linked : ∀ l ∈ r.links, ElementBound env l.nested r.namespaces l.linkElement ∧
    ∃ n, l.linkField = env.config.linkField n

namespace Registry

open AttributeMapping (Change Binds)

variable {r s : Registry} {type source container nested : QName}

theorem bound_empty (env : Environment) : Bound env .empty where
  toTables := tables_empty env
  table := prefixTable_nil env _
  elements := fun _ he => (List.not_mem_nil he).elim
  attributes := fun _ he => (List.not_mem_nil he).elim
  linked := fun _ hl => (List.not_mem_nil hl).elim

/-- **Naming keeps names bound**, if the table stays right. -/
theorem Bound.renamed (h : Bound env r) (hs : Renamed r s)
    (ht : PrefixTable env NoPreference s.namespaces) : Bound env s where
  toTables := h.toTables.renamed hs
  table := ht
  elements := fun e he => by
    rw [hs.entries] at he
    exact (h.elements e he).mono hs.namespaces.subset
  attributes := fun e he a ha => by
    rw [hs.entries] at he
    exact (h.attributes e he a ha).mono hs.namespaces.subset
  linked := fun l hl => by
    rw [hs.links] at hl
    exact ⟨(h.linked l hl).1.mono hs.namespaces.subset, (h.linked l hl).2⟩

theorem Bound.renderName (h : Bound env r) (name : QName) :
    Bound env ((Registry.renderName env name).run r).2 ∧
      name.Bound ((Registry.renderName env name).run r).2.namespaces ((Registry.renderName env name).run r).1 := by
  obtain ⟨ht, hname⟩ := renders_renderName noPreference name r h.table
  exact ⟨h.renamed ((naming_renderName env name).renamed r) ht, hname⟩

theorem Bound.renderPath (h : Bound env r) (segments : List Segment) :
    Bound env ((Registry.renderPath env segments).run r).2 ∧
      PathBound segments ((Registry.renderPath env segments).run r).2.namespaces
        ((Registry.renderPath env segments).run r).1 := by
  obtain ⟨ht, hpath⟩ := renders_renderPath noPreference segments r h.table
  exact ⟨h.renamed ((naming_renderPath env segments).renamed r) ht, hpath⟩

theorem Bound.renderElement (h : Bound env r) {element : String}
    (he : (Registry.renderElement env type).on r = (.ok element, s)) :
    Bound env s ∧ ElementBound env type s.namespaces element := by
  rw [renderElement_on] at he
  cases ht : env.target.get? type with
  | none => rw [ht] at he; cases he
  | some t =>
    simp only [ht, Prod.mk.injEq, Except.ok.injEq] at he
    obtain ⟨rfl, rfl⟩ := he
    obtain ⟨hb, hname⟩ := h.renderName t.elementName
    exact ⟨hb, t, ht, hname⟩

/-- **A new mapping** has its element bound. -/
theorem Bound.addMapping (h : Bound env r) (hm : r.mapping? type = none) {element : String}
    (he : ElementBound env type r.namespaces element) (source : String) :
    Bound env (r.addMapping type ⟨source, element, []⟩) where
  toTables := h.toTables.addMapping hm source element
  table := h.table
  elements := fun e hmem => by
    rcases List.mem_append.1 hmem with hmem | hmem
    · exact h.elements e hmem
    · rw [List.mem_singleton.1 hmem]; exact he
  attributes := fun e hmem a ha => by
    rcases List.mem_append.1 hmem with hmem | hmem
    · exact h.attributes e hmem a ha
    · rw [List.mem_singleton.1 hmem] at ha; cases ha
  linked := h.linked

theorem Bound.ensureMapping (h : Bound env r) {m : TypeMapping}
    (hm : (Registry.ensureMapping env type source).on r = (.ok m, s)) : Bound env s := by
  rw [ensureMapping_on] at hm
  cases hr : r.mapping? type with
  | some m' => rw [hr] at hm; cases hm; exact h
  | none =>
    rw [hr] at hm
    cases he : (Registry.renderElement env type).on r with
    | mk result t =>
      rw [he] at hm
      cases result with
      | error e => cases hm
      | ok element =>
        cases hm
        obtain ⟨hb, hel⟩ := h.renderElement he
        exact hb.addMapping (by rw [(renderElement_renamed he).mapping?, hr]) hel _

/-- **A link** has its element bound, whether it is new or was there. -/
theorem Bound.registerLink (h : Bound env r) {l : FeatureLink}
    (hl : (Registry.registerLink env container nested).on r = (.ok l, s)) :
    Bound env s ∧ ElementBound env nested s.namespaces l.linkElement ∧ ∃ n, l.linkField = env.config.linkField n := by
  rw [registerLink_on] at hl
  cases hr : r.link? container nested with
  | some l' =>
    rw [hr] at hl
    cases hl
    obtain ⟨hmem, -, hn⟩ := link?_eq_some hr
    rw [← hn]
    exact ⟨h, h.linked l hmem⟩
  | none =>
    rw [hr] at hl
    cases he : (Registry.renderElement env nested).on r with
    | mk result t =>
      rw [he] at hl
      cases result with
      | error e => cases hl
      | ok element =>
        cases hl
        obtain ⟨hb, hel⟩ := h.renderElement he
        have hnew : t.link? container nested = none := by rw [(renderElement_renamed he).link?, hr]
        refine ⟨?_, hel, _, rfl⟩
        refine ⟨hb.toTables.addLink hnew element, hb.table, hb.elements, hb.attributes, fun l' hl' => ?_⟩
        rcases List.mem_append.1 hl' with hl' | hl'
        · exact hb.linked l' hl'
        · rw [List.mem_singleton.1 hl']
          exact ⟨hel, _, rfl⟩

/-- The attributes of a changed entry. -/
theorem mem_upsert_attributes {e : MappingEntry} {key : String} {f : AttributeMapping → AttributeMapping}
    {a : AttributeMapping} (ha : a ∈ (e.upsert key f).mapping.attributes) :
    a ∈ e.mapping.attributes ∨ (∃ b ∈ e.mapping.attributes, a = f b) ∨ a = f (.ofTarget key) := by
  unfold MappingEntry.upsert at ha
  split at ha
  · rename_i i _
    obtain ⟨j, hj⟩ := List.mem_iff_getElem?.1 ha
    rw [List.getElem?_modify] at hj
    obtain ⟨b, hb, rfl⟩ := Option.map_eq_some_iff.1 hj
    have hmem := List.mem_of_getElem? hb
    split
    · exact .inr (.inl ⟨b, hmem, rfl⟩)
    · exact .inl hmem
  · rcases List.mem_append.1 ha with ha | ha
    · exact .inl ha
    · exact .inr (.inr (List.mem_singleton.1 ha))

/-- **The entries after a change** are as before, or the one at the place, with the attribute changed. -/
theorem mem_changeAt_entries {slot : Nat} {held : MappingEntry} (hheld : r.entries[slot]? = some held)
    {key : String} {f : AttributeMapping → AttributeMapping} {e : MappingEntry}
    (he : e ∈ (r.changeAt slot key f).entries) :
    e ∈ r.entries ∨ held ∈ r.entries ∧ e = held.upsert key f := by
  obtain ⟨j, hj⟩ := List.mem_iff_getElem?.1 he
  simp only [Registry.changeAt, List.getElem?_modify] at hj
  obtain ⟨e', he', rfl⟩ := Option.map_eq_some_iff.1 hj
  split
  · rename_i hslot
    rw [← hslot, hheld] at he'
    cases he'
    exact .inr ⟨List.mem_of_getElem? hheld, rfl⟩
  · exact .inl (List.mem_of_getElem? he')

/-- An entry stays with its type and its element. -/
theorem upsert_type_element (e : MappingEntry) (key : String) (f : AttributeMapping → AttributeMapping) :
    (e.upsert key f).targetType = e.targetType ∧
      (e.upsert key f).mapping.targetElement = e.mapping.targetElement := by
  unfold MappingEntry.upsert
  split <;> exact ⟨rfl, rfl⟩

/-- **A changed attribute** has its names bound if the change keeps them so, and a new one is under a bound
name. -/
theorem Bound.upsert (h : Bound env r) {f : AttributeMapping → AttributeMapping} (hf : Change f) {key : String}
    (hb : Binds env type r.namespaces f)
    (hkey : (AttributeMapping.ofTarget key).Bound env type r.namespaces) {a : AttributeMapping}
    (ha : (Registry.upsert type key f).on r = (.ok a, s)) : Bound env s ∧ s.namespaces = r.namespaces := by
  rw [upsert_on] at ha
  cases hs : r.slots.lookup type with
  | none => rw [hs] at ha; cases ha
  | some slot =>
    rw [hs] at ha
    cases ha
    obtain ⟨held, hheld, htype⟩ := h.toTables.keyed.slot_at hs
    obtain ⟨htarget, helement⟩ := upsert_type_element held key f
    rw [htype] at htarget
    refine ⟨⟨h.toTables.changeAt hf slot key, h.table, fun e he => ?_, fun e he b hbmem => ?_, h.linked⟩, rfl⟩
    · rcases mem_changeAt_entries hheld he with he | ⟨hmem, rfl⟩
      · exact h.elements e he
      · rw [htarget, helement, ← htype]
        exact h.elements held hmem
    · rcases mem_changeAt_entries hheld he with he | ⟨hmem, rfl⟩
      · exact h.attributes e he b hbmem
      · rw [htarget]
        have hold : ∀ b ∈ held.mapping.attributes, b.Bound env type r.namespaces := by
          rw [← htype]
          exact h.attributes held hmem
        rcases mem_upsert_attributes hbmem with hbmem | ⟨b', hb', rfl⟩ | rfl
        · exact hold b hbmem
        · exact hb b' (hold b' hb')
        · exact hb _ hkey

end Registry

end FeatureAlignment
