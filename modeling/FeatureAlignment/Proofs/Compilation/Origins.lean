import FeatureAlignment.Proofs.Compilation.Bound
import FeatureAlignment.Proofs.Compilation.Links
import FeatureAlignment.Proofs.Compilation.Order
import FeatureAlignment.Proofs.Registry.Origins

/-!
# Type cells and their mappings

A retype asks for the mapping of its target type, and so does a join for both sides of its plans and for its
own target type. A property cell finds the mapping of its target type, since its type cell has been compiled.
So which source types the mappings of a document have is told by the requests of the cells that compile, in
their order.

* `Cell.requests`: the requests of a cell.
* `Environment.requested_compileCell`, `Environment.sourceOf?_compileCells`: a cell that compiles makes its
  requests, and after any cells the source types are those of the first requests.
* `Alignment.retype_represented`: the mapping of a compiled retype.
-/

namespace FeatureAlignment

open Registry (Asks Requested Tables)

variable {env : Environment} {a : Alignment} {c : Cell} {r s : Registry} {p : Progress}

/-! ## Requests of cells -/

namespace Cell

/-- The request of a retype: for its target type, from its source type. -/
def retypeRequests (c : Cell) : List MappingRequest :=
  match c.targetEntity, c.primarySource with
  | .ok target, .ok source => [⟨target.type, source.type⟩]
  | _, _ => []

/-- The request of a join of types for its own target type, after its plans. -/
def baseRequests (c : Cell) (plans : List JoinPlan) : List MappingRequest :=
  match c.targetEntity, c.joinBase plans with
  | .ok target, .ok base => [⟨target.type, base⟩]
  | _, _ => []

/-- **The requests of a cell** that compiles. -/
def requests (env : Environment) (c : Cell) : List MappingRequest :=
  match Function.ofName? c.function with
  | some .retype => c.retypeRequests
  | some .join =>
    match c.plan env with
    | .ok plans => plans.flatMap JoinPlan.requests ++ if c.isTypeCell then c.baseRequests plans else []
    | .error _ => []
  | _ => []

theorem requests_retype (hf : Function.ofName? c.function = some .retype) {source target : Entity}
    (hs : c.primarySource = .ok source) (ht : c.targetEntity = .ok target) :
    c.requests env = [⟨target.type, source.type⟩] := by
  unfold requests retypeRequests
  rw [hf, hs, ht]

theorem requested_retype (hr : Tables env r) {m : TypeMapping} (h : (c.retype env).on r = (.ok m, s)) :
    Requested env c.retypeRequests r s := by
  unfold retype at h
  obtain ⟨source, hsource, h⟩ := Build.on_except_bind_ok.1 h
  obtain ⟨target, htarget, h⟩ := Build.on_except_bind_ok.1 h
  unfold retypeRequests
  rw [hsource, htarget]
  split at h
  · rw [Build.on_throw_bind] at h
    cases h
  · obtain ⟨d, -, h⟩ := Build.on_except_bind_ok.1 h
    exact Registry.asks_ensureMapping _ _ r m s hr h

theorem requested_joinTypes (hr : r.Sound env) {m : TypeMapping} (h : (c.joinTypes env).on r = (.ok m, s)) :
    ∃ plans, c.plan env = .ok plans ∧ Requested env (plans.flatMap JoinPlan.requests ++ c.baseRequests plans) r s := by
  unfold joinTypes at h
  obtain ⟨plans, t, hlink, h⟩ := Build.on_bind_ok.1 h
  obtain ⟨hplan, hinstall, -⟩ := link_ok hr hlink
  obtain ⟨target, htarget, h⟩ := Build.on_except_bind_ok.1 h
  obtain ⟨base, hbase, h⟩ := Build.on_except_bind_ok.1 h
  have hplans := JoinPlan.asks_installAll plans r () t hr.toTables hinstall
  refine ⟨plans, hplan, hplans.trans ?_⟩
  unfold baseRequests
  rw [htarget, hbase]
  exact Registry.asks_ensureMapping _ _ t m s hplans.1 h

theorem requested_joinProperty (hr : r.Sound env) {b : AttributeMapping} (h : (c.joinProperty env).on r = (.ok b, s)) :
    ∃ plans, c.plan env = .ok plans ∧ Requested env (plans.flatMap JoinPlan.requests) r s := by
  obtain ⟨plans, target, hplan, -, hinstall, -⟩ := joinProperty_ok hr h
  exact ⟨plans, hplan, JoinPlan.asks_installAll plans r () s hr.toTables hinstall⟩

/-! ### Deposits -/

theorem asks_ownerKey (place : ResolvedPath) : Asks env [] (ownerKey env place) := by
  unfold ownerKey
  split
  · exact Registry.asks_renderElement _
  · exact Registry.asks_naming (Registry.naming_renderPath env _)

theorem asks_nodeName (node : Option QName) : Asks env [] (nodeName env node) := by
  unfold nodeName
  split
  · exact (Registry.asks_naming (Registry.naming_renderName env _)).bind fun _ => Registry.asks_pure _
  · exact Registry.asks_pure _

theorem asks_clientName (placement : Placement) : Asks env [] (clientName env placement) := by
  unfold clientName
  split
  · exact (Registry.asks_naming (Registry.naming_renderName env _)).bind fun _ => Registry.asks_pure _
  · exact Registry.asks_pure _

theorem asks_referenceSystem (c : Cell) (place : ResolvedPath) (key : String) :
    Asks env [] (c.referenceSystem env place key) := by
  unfold referenceSystem
  split
  · split
    · exact Registry.asks_pure _
    · exact (Registry.asks_warn _).bind fun _ => Registry.asks_pure _
  · exact Registry.asks_pure _

/-- A deposit asks for no mapping. -/
theorem asks_deposit (c : Cell) (place : ResolvedPath) (text : String) : Asks env [] (c.deposit env place text) := by
  unfold deposit
  refine (asks_ownerKey place).bind fun key => ?_
  refine (asks_nodeName place.node).bind fun node => ?_
  refine (asks_clientName place.placement).bind fun client => ?_
  refine (c.asks_referenceSystem place key).bind fun crs => ?_
  exact Registry.asks_upsert (change_write place text node client crs) _ _

/-- **Placing an expression asks for nothing new** where the target type of the type cell has its mapping. -/
theorem requested_place (hr : Tables env r) {t : Cell} {target : Entity} (ht : t.targetEntity = .ok target)
    (hm : r.Maps target.type) {e : Expr} {b : AttributeMapping} (h : (c.place env t e).on r = (.ok b, s)) :
    Requested env [] r s := by
  unfold Cell.place at h
  obtain ⟨own, -, h⟩ := Build.on_except_bind_ok.1 h
  obtain ⟨target', ht', h⟩ := Build.on_except_bind_ok.1 h
  rw [ht] at ht'
  cases ht'
  split at h
  · rw [Build.on_throw_bind] at h
    cases h
  · rename_i hsame
    have hsame : own.type = target.type := Decidable.not_not.1 hsame
    obtain ⟨source, -, h⟩ := Build.on_except_bind_ok.1 h
    obtain ⟨m, t', hensure, h⟩ := Build.on_bind_ok.1 h
    -- the mapping is found
    rw [hsame] at hensure
    obtain ⟨m', -, hkept⟩ := hm.ensureMapping env source
    rw [hensure] at hkept
    have hstays : t' = r := (Prod.mk.inj hkept).2
    rw [hstays, Build.on_get_bind] at h
    obtain ⟨d, -, h⟩ := Build.on_except_bind_ok.1 h
    exact c.asks_deposit d.1 d.2.render r b s hr h

end Cell

/-! ## Runs -/

namespace Environment

/-- **A type cell that compiles makes its requests.** -/
theorem requested_compileType (hr : r.Sound env) (hc : c.isTypeCell = true)
    (h : (env.compileType c).on r = (.ok (), s)) : Requested env (c.requests env) r s := by
  unfold compileType at h
  obtain ⟨f, hf, h⟩ := Build.on_except_bind_ok.1 h
  have hname := Function.require_ok hf
  obtain ⟨m, t, h, hs⟩ := Build.on_bind_ok.1 h
  cases hs
  unfold Cell.establish at h
  unfold Cell.requests
  rw [hname]
  split at h
  · exact Cell.requested_retype hr.toTables h
  · obtain ⟨plans, hplan, hrequested⟩ := Cell.requested_joinTypes hr h
    simp only [hplan, hc, if_true]
    exact hrequested
  · cases h

/-- **A property cell that compiles** makes requests only if it is a join; for any other one, the target type
of its type cell has its mapping. -/
theorem requested_compileProperty (hr : p.registry.Sound env) (hc : c.isTypeCell = false)
    (hmaps : ∀ t, usableTypeCell a p c = .ok t →
      ∃ target, t.targetEntity = .ok target ∧ p.registry.Maps target.type)
    (h : (env.compileProperty a p c).on p.registry = (.ok (), s)) :
    Requested env (c.requests env) p.registry s := by
  unfold compileProperty at h
  obtain ⟨f, hf, h⟩ := Build.on_except_bind_ok.1 h
  have hname := Function.require_ok hf
  split at h
  · rw [Build.on_throw_bind] at h
    cases h
  rename_i hsupports
  obtain ⟨t, husable, h⟩ := Build.on_except_bind_ok.1 h
  obtain ⟨b, s', h, hs⟩ := Build.on_bind_ok.1 h
  cases hs
  unfold Cell.fill at h
  unfold Cell.requests
  rw [hname]
  split at h
  · rename_i hjoin
    rw [hjoin]
    obtain ⟨plans, hplan, hrequested⟩ := Cell.requested_joinProperty hr h
    simp only [hplan, hc, Bool.false_eq_true, if_false, List.append_nil]
    exact hrequested
  · rename_i hjoin
    obtain ⟨e, -, h⟩ := Build.on_except_bind_ok.1 h
    obtain ⟨target, htarget, hmapped⟩ := hmaps t husable
    have hrequested := Cell.requested_place hr.toTables htarget hmapped h
    -- neither a retype nor a join, so there are no requests
    have hretype : f ≠ .retype := by
      rintro rfl
      exact hsupports rfl
    split
    · rename_i heq
      exact absurd (Option.some.inj heq) hretype
    · rename_i heq
      exact absurd (Option.some.inj heq) hjoin
    · exact hrequested

/-- A cell that does not compile leaves the registry as it was. -/
theorem registry_not_compiled {order cells : List Cell} (ho : a.Orders order) (hcells : cells ++ [c] <+: order)
    (hc : env.compiles a (env.compileCells a cells) c = false) :
    (env.compileCell a (env.compileCells a cells) c).registry = (env.compileCells a cells).registry := by
  cases hp : (env.compileCells a cells).stopped with
  | true => rw [compileCell_stopped hp]
  | false =>
    rcases houtcome : env.outcome a (env.compileCells a cells) c with ⟨failure | u, s⟩
    · exact failed_cell_writes_nothing env a ho ⟨hcells, hp⟩ (by rw [houtcome])
    · rw [compiles_of_ok hp houtcome] at hc
      cases hc

/-- **A cell that compiles makes its requests.** -/
theorem requested_compileCell {order cells : List Cell} (ho : a.Orders order) (hcells : cells ++ [c] <+: order)
    (hc : env.compiles a (env.compileCells a cells) c = true) :
    Requested env (c.requests env) (env.compileCells a cells).registry
      (env.compileCell a (env.compileCells a cells) c).registry := by
  have hsound := sound_compileCells env a cells
  obtain ⟨hp, s, houtcome⟩ := compiles_ok hc
  rw [registry_compileCell hp, houtcome]
  unfold outcome at houtcome
  by_cases htype : c.isTypeCell = true
  · rw [if_pos htype] at houtcome
    exact requested_compileType hsound htype houtcome
  · rw [if_neg htype] at houtcome
    have htype : c.isTypeCell = false := by simpa using htype
    exact requested_compileProperty hsound htype (fun t husable => usable_maps ho ⟨hcells, hp⟩ htype husable) houtcome

/-- **The source types of mappings after any cells** of an order are those of the first requests of the cells
that have compiled. -/
theorem sourceOf?_compileCells {order : List Cell} (ho : a.Orders order) {cells : List Cell}
    (hcells : cells <+: order) (type : QName) :
    (env.compileCells a cells).registry.sourceOf? type =
      firstSource? ((env.compiledCells a .start cells).flatMap (Cell.requests env)) type := by
  -- by cells, the last one apart: it finds the source types of the requests before it
  induction cells using List.reverseRecOn with
  | nil => rfl
  | append_singleton cells c ih =>
    have hbefore := ih ((List.prefix_append cells [c]).trans hcells)
    have hcompiled : env.compiledCells a .start (cells ++ [c]) = env.compiledCells a .start cells ++
        (if env.compiles a (env.compileCells a cells) c then [c] else []) := by
      rw [compiledCells_append]
      congr 1
      exact List.append_nil _
    rw [compileCells_concat, hcompiled, List.flatMap_append, firstSource?_append, ← hbefore]
    cases hc : env.compiles a (env.compileCells a cells) c with
    | false =>
      rw [registry_not_compiled ho hcells hc]
      simp [firstSource?]
    | true =>
      rw [(requested_compileCell ho hcells hc).2 type]
      simp

/-- **A retype that compiles has mapped its target type**, and it stays mapped. -/
theorem compiled_retype_maps {cells : List Cell} (hc : c ∈ env.compiledCells a .start cells)
    (hretype : Function.ofName? c.function = some .retype) {t : Entity} (ht : c.targetEntity = .ok t) :
    (env.compileCells a cells).registry.Maps t.type := by
  obtain ⟨before, after, -, heffect, hextends, -, -⟩ := compiled_effect hc
  have hmaps : (env.compileCells a (before ++ [c])).registry.Maps t.type := by
    cases heffect with
    | retyped target _ _ htarget _ hmaps =>
      rw [ht] at htarget
      cases htarget
      exact hmaps
    | joined plans target r hjoin =>
      rw [hretype] at hjoin
      cases hjoin
    | placed f target e restricted place r key hname _ _ _ he =>
      -- a retype has no expression
      rw [hretype] at hname
      cases hname
      cases he
  exact hextends.maps (sound_compileCells env a _).keyed (sound_compileCells env a _).keyed hmaps

end Environment

/-! ## Retypes in the document -/

namespace Alignment

/-- **The mappings established for a target type** in the document of a compilation. The document does not
name the types of its mappings, but the registry it comes from does. -/
def established (a : Alignment) (source target : SchemaIndex) (config : Config) (type : QName) : List TypeMapping :=
  (((a.environment source target config).compileCells a a.typesFirst).registry.entries.filter
    (fun e => e.targetType = type)).map MappingEntry.mapping

/-- They are mappings of the document, in its order. -/
theorem established_sublist (a : Alignment) (source target : SchemaIndex) (config : Config) (type : QName) :
    (a.established source target config type).Sublist (a.compile source target config).document.mappings :=
  List.filter_sublist.map MappingEntry.mapping

/-- **Retypes are represented.** For the target type of a retype that compiles there is exactly one mapping in
the document, with the element of the type. Its source type is that of the first request for the target type,
among the requests of all cells that compile. So it is the source type of the retype, unless a cell before it
has asked with a different one. -/
theorem retype_represented (a : Alignment) (source target : SchemaIndex) (config : Config) {c : Cell} {s t : Entity}
    (hc : c ∈ (a.environment source target config).compiledCells a .start a.typesFirst)
    (hretype : Function.ofName? c.function = some .retype) (hs : c.primarySource = .ok s)
    (ht : c.targetEntity = .ok t) :
    ∃ m ∈ (a.compile source target config).document.mappings,
      a.established source target config t.type = [m] ∧
      ElementBound (a.environment source target config) t.type (a.compile source target config).document.namespaces
        m.targetElement ∧
      firstSource? (((a.environment source target config).compiledCells a .start a.typesFirst).flatMap
        (Cell.requests (a.environment source target config))) t.type = some m.sourceType ∧
      ∀ before after,
        (a.environment source target config).compiledCells a .start a.typesFirst = before ++ c :: after →
        (∀ d ∈ before, ∀ q ∈ d.requests (a.environment source target config),
          q.type = t.type → q.source.localName = s.type.localName) →
        m.sourceType = s.type.localName := by
  have hmaps := Environment.compiled_retype_maps hc hretype ht
  have htables := (Environment.sound_compileCells (a.environment source target config) a a.typesFirst).toTables
  have hbound := Environment.bound_compileCells (a.environment source target config) a a.typesFirst
  obtain ⟨e, he⟩ := hmaps.entry
  obtain ⟨hmem, htype⟩ := htables.keyed.held?_eq_some.1 he
  have hfirst : firstSource? (((a.environment source target config).compiledCells a .start a.typesFirst).flatMap
      (Cell.requests (a.environment source target config))) t.type = some e.mapping.sourceType := by
    rw [← Environment.sourceOf?_compileCells .typesFirst (List.prefix_refl _)]
    unfold Registry.sourceOf? Registry.mapping?
    rw [he]
    rfl
  have hone : a.established source target config t.type = [e.mapping] := by
    unfold established
    rw [← htype, htables.filter_entries hmem]
    rfl
  have hdocument : e.mapping ∈ (a.compile source target config).document.mappings :=
    (a.established_sublist source target config t.type).subset (by rw [hone]; exact List.mem_cons_self)
  refine ⟨e.mapping, hdocument, hone, htype ▸ hbound.elements e hmem, hfirst, ?_⟩
  intro before after hsplit hearlier
  rw [hsplit, List.flatMap_append, List.flatMap_cons, firstSource?_append, firstSource?_append,
    Cell.requests_retype hretype hs ht, firstSource?_singleton, if_pos rfl] at hfirst
  cases hbefore : firstSource? (before.flatMap (Cell.requests (a.environment source target config))) t.type with
  | none =>
    -- the request of the retype is the first one
    rw [hbefore] at hfirst
    exact (Option.some.inj hfirst).symm
  | some name =>
    rw [hbefore] at hfirst
    obtain ⟨q, hq, hqt, hname⟩ := firstSource?_eq_some hbefore
    obtain ⟨d, hd, hqd⟩ := List.mem_flatMap.1 hq
    have hsame := hearlier d hd q hqd hqt
    rw [← Option.some.inj hfirst, ← hname, hsame]

end Alignment

namespace Roads

/-- The configuration of the case. -/
def config : Config := ⟨.empty, "LINK", none, false, .xml⟩

/-- Lanes from the rows that the join takes them from. -/
def lanes : Cell := ⟨"lanes", "retype", [.ofType ⟨"LaneRow"⟩], [.ofType ⟨"Lane"⟩], .empty⟩

/-- Lanes from the rows of roads. -/
def roadLanes : Cell := ⟨"lanes", "retype", [.ofType ⟨"RoadRow"⟩], [.ofType ⟨"Lane"⟩], .empty⟩

/-- All cells compile, the type cells first. -/
theorem compiled_lanes :
    ((alignment lanes).environment source target config).compiledCells (alignment lanes) .start
      (alignment lanes).typesFirst = [join, lanes, leftWidth] := rfl

theorem lanes_represented :
    ∃ m ∈ ((alignment lanes).compile source target config).document.mappings,
      (alignment lanes).established source target config ⟨"Lane"⟩ = [m] ∧ m.sourceType = "LaneRow" := by
  have hmem : lanes ∈ ((alignment lanes).environment source target config).compiledCells (alignment lanes) .start
      (alignment lanes).typesFirst := by
    rw [compiled_lanes]
    simp
  obtain ⟨m, hm, hone, -, -, hsource⟩ :=
    Alignment.retype_represented (alignment lanes) source target config hmem rfl rfl rfl
  -- the join has asked for lanes before, with the same source type
  exact ⟨m, hm, hone, hsource [join] [leftWidth] compiled_lanes (by decide +kernel)⟩

/-- Here, too, all cells compile. -/
theorem compiled_roadLanes :
    ((alignment roadLanes).environment source target config).compiledCells (alignment roadLanes) .start
      (alignment roadLanes).typesFirst = [join, roadLanes, leftWidth] := rfl

/-- **A retype that comes too late.** It compiles, but the join before it has asked for the mapping of lanes
with another source type. -/
theorem road_lanes_not_represented :
    roadLanes ∈ ((alignment roadLanes).environment source target config).compiledCells (alignment roadLanes) .start
        (alignment roadLanes).typesFirst ∧
      Function.ofName? roadLanes.function = some .retype ∧
      roadLanes.primarySource = .ok (.ofType ⟨"RoadRow"⟩) ∧ roadLanes.targetEntity = .ok (.ofType ⟨"Lane"⟩) ∧
      ¬ ∃ m ∈ ((alignment roadLanes).compile source target config).document.mappings,
        (alignment roadLanes).established source target config ⟨"Lane"⟩ = [m] ∧ m.sourceType = "RoadRow" := by
  refine ⟨by rw [compiled_roadLanes]; simp, rfl, rfl, rfl, ?_⟩
  rintro ⟨m, -, hone, hsource⟩
  have hlanes : ((alignment roadLanes).established source target config ⟨"Lane"⟩).map TypeMapping.sourceType =
      ["LaneRow"] := by
    decide +kernel
  rw [hone, List.map_singleton, hsource] at hlanes
  revert hlanes
  decide

end Roads

end FeatureAlignment
