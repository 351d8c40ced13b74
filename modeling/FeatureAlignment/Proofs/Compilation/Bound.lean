import FeatureAlignment.Proofs.Compilation.History
import FeatureAlignment.Proofs.Join.Named
import FeatureAlignment.Proofs.Registry.Bound

/-!
# The prefixes of a document

Whatever a cell writes a name into, it has rendered the name before, and the table of prefixes only grows.
So each name in the document has the prefix of its namespace in the table of the document.

* `Registry.Bound.install`, `Registry.Bound.deposit`: joins and deposits keep names bound.
* `Environment.bound_compileCells`: so do runs.
* `MappingDocument.Bound`: a document whose names are bound in its own table.
* `Alignment.namespace_table`: the table of prefixes of a compilation and after any requests, and the names
  that are written with it.
-/

namespace FeatureAlignment

open AttributeMapping (Binds)

variable {env : Environment} {r s : Registry} {type : QName} {table : List Namespace}

/-! ## Changes that keep names bound -/

namespace JoinPlan

variable {p : JoinPlan}

theorem binds_linkContainer {link : FeatureLink} {href : String} {nested : QName}
    (hl : ElementBound env nested table link.linkElement) (hh : hrefName.Bound table href) :
    Binds env type table (p.linkContainer link href) := by
  intro a ha
  have linked : ({ a with
      sourceExpression := some p.baseKey
      linkElement := some link.linkElement
      linkField := some link.linkField
      isMultiple := true } : AttributeMapping).Bound env type table :=
    ⟨ha.target, ha.node, fun text hx => by cases hx; exact ⟨nested, hl⟩, ha.clients⟩
  unfold linkContainer
  simp only
  split
  · exact linked.setClientProperty (.inr ⟨hrefName, List.mem_cons_self, hh⟩) _
  · exact linked

theorem binds_linkNested : Binds env type table p.linkNested :=
  fun _ ha => ⟨ha.target, ha.node, ha.link, ha.clients⟩

end JoinPlan

theorem Cell.binds_write {place : ResolvedPath} {text : String} {node client crs : Option String}
    (hnode : ∀ text ∈ node, ∃ name ∈ env.target.names, name.Bound table text)
    (hclient : ∀ n, place.placement = .clientProperty n →
      ∃ name ∈ env.target.names, name.Bound table (client.getD "")) :
    Binds env type table (Cell.write place text node client crs) := by
  intro a ha
  have valued : ∀ multiple, ({ a with
      isMultiple := multiple, sourceExpression := some text, targetNode := node } : AttributeMapping).Bound
        env type table :=
    fun _ => ⟨ha.target, hnode, ha.link, ha.clients⟩
  have marked : ∀ multiple, ({ a with isMultiple := multiple } : AttributeMapping).Bound env type table :=
    fun _ => ⟨ha.target, ha.node, ha.link, ha.clients⟩
  unfold Cell.write
  cases hp : place.placement with
  | element =>
    cases crs with
    | none => exact valued _
    | some crs => exact (valued _).setClientProperty (.inl rfl) crs
  | identifier => exact ⟨ha.target, ha.node, ha.link, ha.clients⟩
  | clientProperty n =>
    obtain ⟨name, hmem, hname⟩ := hclient n hp
    exact (marked _).setClientProperty (.inr ⟨name, List.mem_cons_of_mem _ hmem, hname⟩) text

namespace Registry

/-- A new attribute under a path, an element or a link field. -/
theorem bound_ofTarget {key : String}
    (h : (∃ segments, (∀ s ∈ segments, s.name ∈ env.target.names) ∧ PathBound segments table key) ∨
      ElementBound env type table key ∨ ∃ n, key = env.config.linkField n) :
    (AttributeMapping.ofTarget key).Bound env type table where
  target := h
  node := fun _ hx => by cases hx
  link := fun _ hx => by cases hx
  clients := fun _ hp => (List.not_mem_nil hp).elim

/-! ## Joins -/

/-- **Installing a plan keeps names bound.** -/
theorem Bound.install (h : Bound env r) {p : JoinPlan} (hp : ∀ s ∈ p.segments, s.name ∈ env.target.names)
    (hi : (p.install env).on r = (.ok (), s)) : Bound env s := by
  unfold JoinPlan.install at hi
  obtain ⟨l, s1, h1, hi⟩ := Build.on_bind_ok.1 hi
  obtain ⟨mc, s2, h2, hi⟩ := Build.on_bind_ok.1 hi
  obtain ⟨mn, s3, h3, hi⟩ := Build.on_bind_ok.1 hi
  rw [Build.on_state_bind, Build.on_state_bind] at hi
  obtain ⟨ac, s6, h6, hi⟩ := Build.on_bind_ok.1 hi
  obtain ⟨an, s7, h7, hi⟩ := Build.on_bind_ok.1 hi
  cases hi
  obtain ⟨hb1, hl, hfield⟩ := h.registerLink h1
  obtain ⟨hb4, hpath⟩ := ((hb1.ensureMapping h2).ensureMapping h3).renderPath p.segments
  obtain ⟨hb5, hhref⟩ := hb4.renderName JoinPlan.hrefName
  -- the element of the link and the path are bound next to the later tables as well
  have hg12 := ((elementary_extends env).ensureMapping _ _).of_on h2
  have hg23 := ((elementary_extends env).ensureMapping _ _).of_on h3
  have hg34 := ((naming_renderPath env p.segments).renamed s3).namespaces
  have hg45 := ((naming_renderName env JoinPlan.hrefName).renamed
    ((Registry.renderPath env p.segments).run s3).2).namespaces
  have hl := hl.mono (((hg12.namespaces.trans hg23.namespaces).trans hg34).trans hg45).subset
  obtain ⟨hb6, htable⟩ := hb5.upsert (p.change_linkContainer _ _) (p.binds_linkContainer hl hhref)
    (bound_ofTarget (.inl ⟨p.segments, hp, hpath.mono hg45.subset⟩)) h6
  exact (hb6.upsert p.change_linkNested p.binds_linkNested (bound_ofTarget (.inr (.inr hfield))) h7).1

theorem Bound.installAll {plans : List JoinPlan} (h : Bound env r)
    (hp : ∀ p ∈ plans, ∀ s ∈ p.segments, s.name ∈ env.target.names)
    (hi : (JoinPlan.installAll env plans).on r = (.ok (), s)) : Bound env s := by
  induction plans generalizing r with
  | nil => cases hi; exact h
  | cons p ps ih =>
    obtain ⟨_, t, hi, hrest⟩ := Build.on_bind_ok.1 hi
    exact ih (h.install (hp p List.mem_cons_self) hi) (fun q hq => hp q (List.mem_cons_of_mem _ hq)) hrest

theorem Bound.link (h : Bound env r) {c : Cell} {plans : List JoinPlan}
    (hl : (c.link env).on r = (.ok plans, s)) : Bound env s := by
  unfold Cell.link at hl
  obtain ⟨plans', hplan, hl⟩ := Build.on_except_bind_ok.1 hl
  obtain ⟨_, t, hi, hl⟩ := Build.on_bind_ok.1 hl
  cases hl
  exact h.installAll (Cell.plan_named hplan) hi

/-! ## Deposits -/

/-- The key of a place is its path, or the element of its owner. -/
theorem Bound.ownerKey (h : Bound env r) {place : ResolvedPath} (hp : place.Named env.target) {key : String}
    (hk : (Cell.ownerKey env place).on r = (.ok key, s)) :
    Bound env s ∧ (AttributeMapping.ofTarget key).Bound env place.owner s.namespaces := by
  unfold Cell.ownerKey at hk
  split at hk
  · obtain ⟨hb, he⟩ := h.renderElement hk
    exact ⟨hb, bound_ofTarget (.inr (.inl he))⟩
  · rw [Build.on_state] at hk
    cases hk
    obtain ⟨hb, hpath⟩ := h.renderPath place.segments
    exact ⟨hb, bound_ofTarget (.inl ⟨place.segments, hp.segments, hpath⟩)⟩

theorem Bound.nodeName (h : Bound env r) {node : Option QName} (hn : ∀ n ∈ node, n ∈ env.target.names)
    {name : Option String} (hk : (Cell.nodeName env node).on r = (.ok name, s)) :
    Bound env s ∧ ∀ text ∈ name, ∃ q ∈ env.target.names, q.Bound s.namespaces text := by
  unfold Cell.nodeName at hk
  split at hk
  · rename_i n
    rw [Build.on_state_bind] at hk
    cases hk
    obtain ⟨hb, hname⟩ := h.renderName n
    refine ⟨hb, fun text hx => ?_⟩
    cases hx
    exact ⟨n, hn n rfl, hname⟩
  · cases hk
    exact ⟨h, fun text hx => by cases hx⟩

theorem Bound.clientName (h : Bound env r) {placement : Placement}
    (hn : ∀ n, placement = .clientProperty n → n ∈ env.target.names)
    {name : Option String} (hk : (Cell.clientName env placement).on r = (.ok name, s)) :
    Bound env s ∧ ∀ n, placement = .clientProperty n →
      ∃ q ∈ env.target.names, q.Bound s.namespaces (name.getD "") := by
  unfold Cell.clientName at hk
  split at hk
  · rename_i n
    rw [Build.on_state_bind] at hk
    cases hk
    obtain ⟨hb, hname⟩ := h.renderName n
    exact ⟨hb, fun _ _ => ⟨n, hn n rfl, hname⟩⟩
  · rename_i hno
    cases hk
    exact ⟨h, fun n hn => absurd hn (hno n)⟩

/-- A warning names nothing. -/
theorem Bound.referenceSystem (h : Bound env r) {c : Cell} {place : ResolvedPath} {key : String}
    {crs : Option String} (hk : (c.referenceSystem env place key).on r = (.ok crs, s)) : Bound env s := by
  unfold Cell.referenceSystem at hk
  split at hk
  · split at hk
    · cases hk; exact h
    · rw [Build.on_state_bind] at hk
      cases hk
      exact ⟨(h.toTables.quiet_warned _).tables, h.table, h.elements, h.attributes, h.linked⟩
  · cases hk; exact h

/-- **A deposit keeps names bound.** -/
theorem Bound.deposit (h : Bound env r) {c : Cell} {place : ResolvedPath} (hp : place.Named env.target)
    {text : String} {a : AttributeMapping} (hd : (c.deposit env place text).on r = (.ok a, s)) :
    Bound env s := by
  unfold Cell.deposit at hd
  obtain ⟨key, s1, h1, hd⟩ := Build.on_bind_ok.1 hd
  obtain ⟨node, s2, h2, hd⟩ := Build.on_bind_ok.1 hd
  obtain ⟨client, s3, h3, hd⟩ := Build.on_bind_ok.1 hd
  obtain ⟨crs, s4, h4, hd⟩ := Build.on_bind_ok.1 hd
  obtain ⟨hb1, hkey⟩ := h.ownerKey hp h1
  obtain ⟨hb2, hnode⟩ := hb1.nodeName hp.node h2
  obtain ⟨hb3, hclient⟩ := hb2.clientName hp.client h3
  have hb4 := hb3.referenceSystem h4
  -- what was rendered first stays bound next to the last table
  have hg12 := (((elementary_extends env).nodeName place.node).of_on h2).namespaces
  have hg23 := (((elementary_extends env).clientName place.placement).of_on h3).namespaces
  have hg34 := (((elementary_extends env).referenceSystem c place key).of_on h4).namespaces
  have hnode : ∀ text ∈ node, ∃ q ∈ env.target.names, q.Bound s4.namespaces text := fun text hx =>
    let ⟨q, hq, hb⟩ := hnode text hx
    ⟨q, hq, hb.mono (hg23.trans hg34).subset⟩
  have hclient : ∀ n, place.placement = .clientProperty n →
      ∃ q ∈ env.target.names, q.Bound s4.namespaces (client.getD "") := fun n hn =>
    let ⟨q, hq, hb⟩ := hclient n hn
    ⟨q, hq, hb.mono hg34.subset⟩
  exact (hb4.upsert (Cell.change_write place text node client crs) (Cell.binds_write hnode hclient)
    (hkey.mono ((hg12.trans hg23).trans hg34).subset) hd).1

end Registry

/-! ## Cells -/

namespace Cell

variable {c : Cell}

theorem bound_retype (h : r.Bound env) {m : TypeMapping} (hm : (c.retype env).on r = (.ok m, s)) :
    s.Bound env := by
  unfold retype at hm
  obtain ⟨source, -, hm⟩ := Build.on_except_bind_ok.1 hm
  obtain ⟨target, -, hm⟩ := Build.on_except_bind_ok.1 hm
  split at hm
  · rw [Build.on_throw_bind] at hm; cases hm
  · obtain ⟨d, -, hm⟩ := Build.on_except_bind_ok.1 hm
    exact h.ensureMapping hm

theorem bound_joinTypes (h : r.Bound env) {m : TypeMapping} (hm : (c.joinTypes env).on r = (.ok m, s)) :
    s.Bound env := by
  unfold joinTypes at hm
  obtain ⟨plans, t, hlink, hm⟩ := Build.on_bind_ok.1 hm
  obtain ⟨target, -, hm⟩ := Build.on_except_bind_ok.1 hm
  obtain ⟨base, -, hm⟩ := Build.on_except_bind_ok.1 hm
  exact (h.link hlink).ensureMapping hm

theorem bound_joinProperty (h : r.Bound env) {a : AttributeMapping}
    (ha : (c.joinProperty env).on r = (.ok a, s)) : s.Bound env := by
  unfold joinProperty at ha
  obtain ⟨plans, t, hlink, ha⟩ := Build.on_bind_ok.1 ha
  cases plans with
  | nil => cases ha
  | cons p ps =>
    simp only at ha
    rw [Build.on_state_bind, Build.on_get_bind] at ha
    have hb := ((h.link hlink).renderPath p.segments).1
    split at ha
    · cases ha; exact hb
    · cases ha

theorem bound_place (h : r.Bound env) {typeCell : Cell} {e : Expr} {a : AttributeMapping}
    (ha : (c.place env typeCell e).on r = (.ok a, s)) : s.Bound env := by
  unfold Cell.place at ha
  obtain ⟨target, -, ha⟩ := Build.on_except_bind_ok.1 ha
  obtain ⟨typeTarget, -, ha⟩ := Build.on_except_bind_ok.1 ha
  split at ha
  · rw [Build.on_throw_bind] at ha; cases ha
  obtain ⟨source, -, ha⟩ := Build.on_except_bind_ok.1 ha
  obtain ⟨m, t, hm, ha⟩ := Build.on_bind_ok.1 ha
  rw [Build.on_get_bind] at ha
  obtain ⟨⟨place, restricted⟩, hd, ha⟩ := Build.on_except_bind_ok.1 ha
  exact (h.ensureMapping hm).deposit (SchemaIndex.named_resolve (destination_ok hd).1) ha

end Cell

/-! ## Runs -/

namespace Environment

variable {a : Alignment} {p : Progress} {c : Cell}

theorem bound_compileType (h : r.Bound env) (hc : (env.compileType c).on r = (.ok (), s)) : s.Bound env := by
  unfold compileType at hc
  obtain ⟨f, -, hc⟩ := Build.on_except_bind_ok.1 hc
  obtain ⟨m, t, hc, hs⟩ := Build.on_bind_ok.1 hc
  cases hs
  unfold Cell.establish at hc
  split at hc
  · exact Cell.bound_retype h hc
  · exact Cell.bound_joinTypes h hc
  · cases hc

theorem bound_compileProperty (h : r.Bound env) (hc : (env.compileProperty a p c).on r = (.ok (), s)) :
    s.Bound env := by
  unfold compileProperty at hc
  obtain ⟨f, -, hc⟩ := Build.on_except_bind_ok.1 hc
  split at hc
  · rw [Build.on_throw_bind] at hc; cases hc
  obtain ⟨t, -, hc⟩ := Build.on_except_bind_ok.1 hc
  obtain ⟨x, s', hc, hs⟩ := Build.on_bind_ok.1 hc
  cases hs
  unfold Cell.fill at hc
  split at hc
  · exact Cell.bound_joinProperty h hc
  · obtain ⟨e, -, hc⟩ := Build.on_except_bind_ok.1 hc
    exact Cell.bound_place h hc

/-- **A cell keeps names bound**, also when it fails. -/
theorem bound_outcome (hs : p.registry.Sound env) (h : p.registry.Bound env) (a : Alignment) (c : Cell) :
    (env.outcome a p c).2.Bound env := by
  rcases ho : env.outcome a p c with ⟨failure | u, s⟩
  · rcases outcome_error hs ho with rfl | ⟨-, t, target, source, m, -, -, hm⟩
    · exact h
    · exact h.ensureMapping hm
  · unfold outcome at ho
    split at ho
    · exact bound_compileType h ho
    · exact bound_compileProperty h ho

/-- **Names are bound after any cells.** -/
theorem bound_compileCells (env : Environment) (a : Alignment) (cells : List Cell) :
    (env.compileCells a cells).registry.Bound env := by
  induction cells using List.reverseRecOn with
  | nil => exact Registry.bound_empty env
  | append_singleton cells c ih =>
    rw [compileCells_concat]
    cases hp : (env.compileCells a cells).stopped with
    | true => rw [compileCell_stopped hp]; exact ih
    | false => rw [registry_compileCell hp]; exact bound_outcome (sound_compileCells env a cells) ih a c

end Environment

/-- **A document whose names are bound** in its own table: the elements of its mappings, and the names in
their attributes. -/
def MappingDocument.Bound (env : Environment) (d : MappingDocument) : Prop :=
  ∀ m ∈ d.mappings, ∃ type, ElementBound env type d.namespaces m.targetElement ∧
    ∀ x ∈ m.attributes, x.Bound env type d.namespaces

theorem Registry.Bound.document (h : r.Bound env) : r.document.Bound env := by
  intro m hm
  obtain ⟨e, he, rfl⟩ := List.mem_map.1 hm
  exact ⟨e.targetType, h.elements e he, h.attributes e he⟩

/-- The table of prefixes grows from cell to cell. -/
theorem Environment.namespaces_compileCells (env : Environment) (a : Alignment) (before after : List Cell) :
    (env.compileCells a before).registry.namespaces <+: (env.compileCells a (before ++ after)).registry.namespaces :=
  (extends_compileCells env a before after).namespaces

/-- **The table of prefixes.** In the documents of both orders of compilation no two namespaces are the same
or share a prefix, none is empty, all prefixes can be prefixes, and each is the one that is chosen next to
the entries before it; and every name is written with the prefix of its namespace in the table. What the
table has after some cells of a run, in whatever order, it keeps at its place. The same goes for requests
on their own, which may come with preferences. -/
theorem Alignment.namespace_table (a : Alignment) (source target : SchemaIndex) (config : Config) :
    (∀ d ∈ [(a.compile source target config).document, (a.compileInOrder source target config).document],
      PrefixTable (a.environment source target config) NoPreference d.namespaces ∧
        d.Bound (a.environment source target config)) ∧
      (∀ before after : List Cell,
        ((a.environment source target config).compileCells a before).registry.namespaces <+:
          ((a.environment source target config).compileCells a (before ++ after)).registry.namespaces) ∧
      ∀ (env : Environment) (requests : List Request),
        PrefixTable env (Request.Asks requests) (Request.after env requests).namespaces ∧
          ∀ q : Request,
            (Request.after env requests).namespaces <+: (Request.after env (requests ++ [q])).namespaces ∧
            q.Answered env (Request.after env requests) (Request.after env (requests ++ [q]))
              ((q.answer env).run (Request.after env requests)).1 := by
  refine ⟨fun d hd => ?_, Environment.namespaces_compileCells _ a, fun env requests => ?_⟩
  · have hdocument : ∀ cells, d = ((a.environment source target config).compileCells a cells).registry.document →
        PrefixTable (a.environment source target config) NoPreference d.namespaces ∧
          d.Bound (a.environment source target config) := by
      rintro cells rfl
      have hb := Environment.bound_compileCells (a.environment source target config) a cells
      exact ⟨hb.table, hb.document⟩
    rcases List.mem_cons.1 hd with hd | hd
    · exact hdocument _ hd
    · exact hdocument _ (List.mem_singleton.1 hd)
  · have ht := Request.prefixTable_after env requests
    refine ⟨ht, fun q => ?_⟩
    rw [Request.after_concat]
    exact ⟨((Request.naming_answer env q).renamed _).namespaces, q.answered ht⟩

end FeatureAlignment
