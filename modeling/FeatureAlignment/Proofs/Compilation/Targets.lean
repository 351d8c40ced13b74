import FeatureAlignment.Proofs.Compilation.Spots

/-!
# Targets that tell where

A target is the element of its type, a path below the type, or a link field, and there is something in all of them.
There is one more case. A join may nest a feature directly in its container, with no segment between them, and
then the text of the path is empty.

* `Registry.Usable`: targets that tell a place or a link.
* `Environment.NestsDirectly`: a join without a segment between container and nested feature.
* `Environment.targets_compileCells`, `Alignment.targets_usable`: the targets in a document, and when one of them
  is empty.
-/

namespace FeatureAlignment

open Registry (Names)

variable {env : Environment} {a : Alignment} {r : Registry}

/-- **The attributes of an entry** are found by their targets. -/
theorem Registry.Tables.attribute?_isSome_iff (hr : Registry.Tables env r) {e : MappingEntry} (he : e ∈ r.entries)
    (key : String) :
    (r.attribute? e.targetType key).isSome = true ↔ ∃ x ∈ e.mapping.attributes, x.targetAttribute = key := by
  have hheld : r.held? e.targetType = some e := hr.keyed.held?_eq_some.2 ⟨he, rfl⟩
  unfold Registry.attribute?
  rw [hheld, Option.bind_some, (hr.entries e he).attribute?_eq, TypeMapping.attribute?, List.find?_isSome]
  simp

/-! ## Texts that are not empty -/

/-- A name is not written as nothing. -/
theorem QName.Bound.ne_empty {table : List Namespace} {name : QName} {text : String} (h : name.Bound table text)
    (hn : name.localName ≠ "") : text ≠ "" := by
  unfold QName.Bound at h
  split at h
  · obtain ⟨label, -, rfl⟩ := h
    simp
  · rw [h]
    exact hn

/-- A path with segments is not written as nothing. -/
theorem PathBound.ne_empty {table : List Namespace} {segments : List Segment} {text : String}
    (h : PathBound segments table text) (hsegments : segments ≠ []) (hn : ∀ s ∈ segments, s.name.localName ≠ "") :
    text ≠ "" := by
  obtain ⟨texts, htexts, rfl⟩ := h
  cases htexts with
  | nil => exact absurd rfl hsegments
  | @cons s t ss ts hfirst _ =>
    obtain ⟨name, hname, heq⟩ := hfirst
    have hne : name ≠ "" := hname.ne_empty (hn s List.mem_cons_self)
    have ht : t ≠ "" := by
      rw [heq]
      cases s.index with
      | none => exact hne
      | some i => simp
    cases ts with
    | nil => exact ht
    | cons t' ts => simp [Text.join, ht]

theorem Config.linkField_ne_empty (c : Config) (n : Nat) : c.linkField n ≠ "" := by
  simp [Config.linkField]

/-! ## Usable targets -/

/-- **A usable target** in the mapping of a type: the link field of a link to the type, the element of the type, or
a path with names of the schema and at least one segment. -/
inductive Registry.Usable (env : Environment) (r : Registry) (type : QName) : String → Prop
  | field (l : FeatureLink) : l ∈ r.links → l.nested = type → Usable env r type l.linkField
  | element (text : String) : ElementBound env type r.namespaces text → Usable env r type text
  | path (segments : List Segment) (text : String) : segments ≠ [] → (∀ s ∈ segments, s.name ∈ env.target.names) →
      PathBound segments r.namespaces text → Usable env r type text

/-- **Usable targets are not empty**, if no name of the schema is. -/
theorem Registry.Usable.ne_empty {type : QName} {text : String} (h : r.Usable env type text) (hr : r.Bound env)
    (hn : ∀ n ∈ env.target.names, n.localName ≠ "") : text ≠ "" := by
  cases h with
  | field l hl _ =>
    obtain ⟨-, n, hfield⟩ := hr.linked l hl
    rw [hfield]
    exact env.config.linkField_ne_empty n
  | element _ he =>
    obtain ⟨t, ht, hname⟩ := he
    exact hname.ne_empty (hn _ (SchemaIndex.elementName_mem (SchemaIndex.mem_of_get? ht)))
  | path segments _ hsegments hnames hpath => exact hpath.ne_empty hsegments fun s hs => hn _ (hnames s hs)

/-- A path that tells a place is usable as a target. -/
theorem Registry.usable_addressed (hr : r.Bound env) {root : QName} {steps : List PathStep} {place : ResolvedPath}
    (hplace : env.target.resolve root steps = .ok place) {key : String}
    (hkey : Names (Registry.renderPath env (env.target.addressed place)) r key) : r.Usable env place.owner key := by
  have hpath := hr.pathBound hkey
  obtain ⟨t, ht⟩ := (SchemaIndex.leads_resolve hplace).knows_owner.exists_type
  unfold SchemaIndex.addressed at hpath
  by_cases hsegments : place.segments.isEmpty = true
  · rw [if_pos hsegments, ht] at hpath
    exact .element key ⟨t, ht, pathBound_singleton.1 hpath⟩
  · rw [if_neg hsegments] at hpath
    exact .path place.segments key (by simpa using hsegments) (SchemaIndex.named_resolve hplace).segments hpath

namespace Environment

/-- **A join that nests a feature directly** in a container: a plan of a compiled join has no segments. -/
def NestsDirectly (env : Environment) (a : Alignment) (cells : List Cell) (container : QName) : Prop :=
  ∃ c ∈ env.compiledCells a .start cells, Function.ofName? c.function = some .join ∧
    ∃ plans, c.plan env = .ok plans ∧ ∃ p ∈ plans, p.containerType = container ∧ p.segments = []

/-- **The text of a spot is usable**, unless it is that of a feature nested directly in its container. -/
theorem Touched.usable {cells : List Cell} {type : QName} {spot : Spot} {key : String}
    (h : env.Touched a cells type spot)
    (hkey : spot.Settled env (env.compileCells a cells).registry type key) :
    (env.compileCells a cells).registry.Usable env type key ∨
      (key = "" ∧ env.NestsDirectly a cells type) := by
  have hbound := bound_compileCells env a cells
  obtain ⟨c, hc, hspot⟩ := h
  cases hspot with
  | place target place _ _ _ hplace => exact .inl (Registry.usable_addressed hbound hplace hkey)
  | plan plans p _ _ hjoin hplan hp hspot =>
    cases hspot with
    | nested =>
      obtain ⟨l, hl, rfl⟩ := hkey
      obtain ⟨hmem, -, hnested⟩ := Registry.link?_eq_some hl
      exact .inl (.field l hmem hnested)
    | container =>
      have hpath := hbound.pathBound hkey
      by_cases hsegments : p.segments = []
      · rw [hsegments, pathBound_nil] at hpath
        exact .inr ⟨hpath, c, hc, hjoin, plans, hplan, p, hp, rfl, hsegments⟩
      · exact .inl (.path p.segments key hsegments (Cell.plan_named hplan p hp) hpath)

/-- **The targets after any cells**: all are usable but the empty one, and that is there for a container just when
a join nests a feature directly in it. -/
theorem targets_compileCells (hn : ∀ n ∈ env.target.names, n.localName ≠ "") (a : Alignment) (cells : List Cell) :
    ∀ e ∈ (env.compileCells a cells).registry.entries,
      (∀ x ∈ e.mapping.attributes, x.targetAttribute ≠ "" ↔
        (env.compileCells a cells).registry.Usable env e.targetType x.targetAttribute) ∧
      ((∃ x ∈ e.mapping.attributes, x.targetAttribute = "") ↔ env.NestsDirectly a cells e.targetType) := by
  intro e he
  have hbound := bound_compileCells env a cells
  have hfurnished := furnished_compileCells env a cells
  have hfound := (sound_compileCells env a cells).toTables.attribute?_isSome_iff he
  have hcases : ∀ x ∈ e.mapping.attributes,
      (env.compileCells a cells).registry.Usable env e.targetType x.targetAttribute ∨
        (x.targetAttribute = "" ∧ env.NestsDirectly a cells e.targetType) := by
    intro x hx
    obtain ⟨spot, hspot, hkey⟩ := hfurnished.only _ _ ((hfound _).2 ⟨x, hx, rfl⟩)
    exact hspot.usable hkey
  refine ⟨fun x hx => ⟨fun hne => ?_, fun husable => husable.ne_empty hbound hn⟩, fun ⟨x, hx, hempty⟩ => ?_,
    fun hdirect => ?_⟩
  · exact (hcases x hx).resolve_right fun h => hne h.1
  · rcases hcases x hx with husable | ⟨-, hdirect⟩
    · exact absurd hempty (husable.ne_empty hbound hn)
    · exact hdirect
  · -- the plan touches the empty path, and its text is the empty one
    obtain ⟨c, hc, hjoin, plans, hplan, p, hp, htype, hsegments⟩ := hdirect
    obtain ⟨key, hkey, hx⟩ := hfurnished.every p.containerType (.path p.segments)
      ⟨c, hc, .plan plans p _ _ hjoin hplan hp .container⟩
    have hpath := hbound.pathBound hkey
    rw [hsegments, pathBound_nil] at hpath
    rw [htype, hpath] at hx
    exact (hfound "").1 hx

end Environment

/-- **Targets in documents.** If all names of the target schema have a local part, then in the documents of both
orders of compilation every target but the empty one is the link field of a registered link to the type of its
mapping, the element of that type, or a path with at least one segment; and none of these is empty. The empty
one is in the mapping of a type just when a compiled join nests a feature directly in it. -/
theorem Alignment.targets_usable (a : Alignment) (source target : SchemaIndex) (config : Config)
    (hn : ∀ n ∈ target.names, n.localName ≠ "") :
    ∀ run ∈ [(a.typesFirst, (a.compile source target config).document),
        (a.cells, (a.compileInOrder source target config).document)],
      ∃ r, r = ((a.environment source target config).compileCells a run.1).registry ∧
        run.2.mappings = r.entries.map MappingEntry.mapping ∧ ∀ e ∈ r.entries,
          (∀ x ∈ e.mapping.attributes, x.targetAttribute ≠ "" ↔
            r.Usable (a.environment source target config) e.targetType x.targetAttribute) ∧
          ((∃ x ∈ e.mapping.attributes, x.targetAttribute = "") ↔
            (a.environment source target config).NestsDirectly a run.1 e.targetType) := by
  intro run hrun
  have hnames : ∀ n ∈ (a.environment source target config).target.names, n.localName ≠ "" := hn
  have htargets := Environment.targets_compileCells hnames a run.1
  rcases List.mem_cons.1 hrun with rfl | hrun
  · exact ⟨_, rfl, rfl, htargets⟩
  · rw [List.mem_singleton] at hrun
    subst hrun
    exact ⟨_, rfl, rfl, htargets⟩

/-! ## Lakes with islands -/

namespace Lakes

/-- An element, of simple content if no type is given. -/
def element (name : String) (type : Option String) : Child :=
  .property ⟨⟨name⟩, type.map QName.mk, false, false⟩

/-- The tables of lakes and of their islands. -/
def source : SchemaIndex :=
  ⟨[⟨⟨"LakeRow"⟩, none, false, false, [element "id" none]⟩,
    ⟨⟨"IslandRow"⟩, none, false, false, [element "lake" none, element "area" none]⟩], .empty⟩

/-- Lakes with islands directly in them. -/
def target : SchemaIndex :=
  ⟨[⟨⟨"Lake"⟩, none, true, false, [element "Island" (some "Island")]⟩,
    ⟨⟨"Island"⟩, none, true, false, [element "area" none]⟩], .empty⟩

/-- A property of a type. -/
def property (type : String) (names : List String) : Entity :=
  ⟨none, ⟨type⟩, names.map (fun name => ⟨⟨name⟩, none, none⟩), none⟩

/-- Islands are joined to their lake. -/
def join : Cell :=
  ⟨"join", "join", [.ofType ⟨"LakeRow"⟩, .ofType ⟨"IslandRow"⟩], [.ofType ⟨"Lake"⟩],
    ⟨[("join", [.join ⟨[⟨"LakeRow"⟩, ⟨"IslandRow"⟩],
      [⟨property "LakeRow" ["id"], property "IslandRow" ["lake"]⟩]⟩])]⟩⟩

/-- The area of an island tells where islands are. -/
def area : Cell := ⟨"area", "rename", [property "IslandRow" ["area"]], [property "Lake" ["Island", "area"]], .empty⟩

/-- The alignment of lakes and islands. -/
def alignment : Alignment := ⟨none, [join, area]⟩

/-- How it is compiled. -/
def config : Config := ⟨.empty, "LINK", none, false, .xml⟩

/-- The registry after compiling it. -/
def final : Registry :=
  ((alignment.environment source target config).compileCells alignment alignment.typesFirst).registry

/-- All names have a local part. -/
theorem names_told : ∀ n ∈ target.names, n.localName ≠ "" := by decide +kernel

/-- **The targets of islands** are a link field and an element, and so they are usable. -/
theorem island_targets : (∀ n ∈ target.names, n.localName ≠ "") ∧
    ∀ e ∈ final.entries, e.targetType = ⟨"Island"⟩ →
      e.targets = ["LINK[1]", "area"] ∧
      ∀ x ∈ e.mapping.attributes,
        final.Usable (alignment.environment source target config) ⟨"Island"⟩ x.targetAttribute := by
  have htargets : ∀ e ∈ final.entries, e.targetType = ⟨"Island"⟩ → e.targets = ["LINK[1]", "area"] := by
    decide +kernel
  obtain ⟨r, rfl, -, hentries⟩ := alignment.targets_usable source target config names_told _ List.mem_cons_self
  refine ⟨names_told, fun e he htype => ⟨htargets e he htype, fun x hx => ?_⟩⟩
  have hmem : x.targetAttribute ∈ e.targets := List.mem_map_of_mem hx
  rw [htargets e he htype] at hmem
  have husable := ((hentries e he).1 x hx).1 fun hempty => by
    rw [hempty] at hmem
    exact absurd hmem (by decide)
  rw [htype] at husable
  exact husable

/-- **An empty target.** The islands are directly in their lake, and the target that links them to it is empty. -/
theorem lake_target_empty : (∀ n ∈ target.names, n.localName ≠ "") ∧
    ∃ m ∈ (alignment.compile source target config).document.mappings,
      m.targetElement = "Lake" ∧ ∃ x ∈ m.attributes, x.targetAttribute = "" := by
  refine ⟨names_told, ?_⟩
  decide +kernel

end Lakes

end FeatureAlignment
