import FeatureAlignment.Proofs.Compilation.Bound
import FeatureAlignment.Proofs.Compilation.History

/-!
# Links in the final document

Joins install links in attributes that other cells may write as well. In the document of a
run, each attribute has the value and the link that were written to it last.

* `JoinPlan.BothSides`: both sides of a link are as a plan has them, and its element is that of the nested
  type.
* `Environment.join_sides`: what is found of the plans of a compiled join, and when it is both
  sides.
* `Environment.crossings_linked`: what is found where the path of a compiled property cell
  crosses into another type, and what the cell has changed.
-/

namespace FeatureAlignment

open Registry (Records Names changed)

variable {env : Environment} {a : Alignment} {c : Cell} {r s : Registry} {ws : List Write}

/-! ## Sides of a join -/

/-- **Both sides of a link**, as a plan has them: in the document, the container has the link and
the base key under the rendered path, and the nested type has the foreign key under the link
field. The element of the link is that of the nested type, as the document writes it. -/
structure JoinPlan.BothSides (env : Environment) (r : Registry) (p : JoinPlan) (l : FeatureLink) : Prop where
  element : ElementBound env p.nestedType r.document.namespaces l.linkElement
  container : ∃ m ∈ r.document.mappings, r.mapping? p.containerType = some m ∧
    ∃ x, m.attribute? (r.pathText env p.segments) = some x ∧ x.linkElement = some l.linkElement ∧
      x.linkField = some l.linkField ∧ x.isMultiple = true ∧ x.sourceExpression = some p.baseKey
  nested : ∃ m ∈ r.document.mappings, r.mapping? p.nestedType = some m ∧
    ∃ x, m.attribute? l.linkField = some x ∧ x.sourceExpression = some p.foreignKey

/-- **What has become of a plan** after the writes `ws`: its link is registered, with the element of the
nested type, and the attributes of both sides are there, with the values and the link that were written
to them last. So they are as planned exactly if these last writes agree with the plan. -/
structure JoinPlan.SidesLast (env : Environment) (r : Registry) (ws : List Write) (p : JoinPlan)
    (l : FeatureLink) : Prop where
  link : r.link? p.containerType p.nestedType = some l
  element : ElementBound env p.nestedType r.document.namespaces l.linkElement
  container : ∃ m ∈ r.document.mappings, r.mapping? p.containerType = some m ∧
    ∃ x, m.attribute? (r.pathText env p.segments) = some x ∧ x.isMultiple = true ∧
      x.linkElement =
        (lastLink? ws p.containerType (r.pathText env p.segments)).map FeatureLink.linkElement ∧
      x.linkField = (lastLink? ws p.containerType (r.pathText env p.segments)).map FeatureLink.linkField ∧
      x.sourceExpression =
        (lastWrite? ws p.containerType (r.pathText env p.segments)).map Write.expression
  nested : ∃ m ∈ r.document.mappings, r.mapping? p.nestedType = some m ∧
    ∃ x, m.attribute? l.linkField = some x ∧
      x.sourceExpression = (lastWrite? ws p.nestedType l.linkField).map Write.expression
  both : p.BothSides env r l ↔
    lastLink? ws p.containerType (r.pathText env p.segments) = some l ∧
      (lastWrite? ws p.containerType (r.pathText env p.segments)).map Write.expression = some p.baseKey ∧
      (lastWrite? ws p.nestedType l.linkField).map Write.expression = some p.foreignKey

/-- The attributes that a registry finds are sound. -/
theorem Registry.Tables.attribute_sound {type : QName} {key : String} {x : AttributeMapping}
    (h : Registry.Tables env r) (hx : r.attribute? type key = some x) : x.Sound := by
  obtain ⟨e, he, hx⟩ := Option.bind_eq_some_iff.1 hx
  obtain ⟨hmem, -⟩ := h.keyed.held?_eq_some.1 he
  obtain ⟨i, -, hi⟩ := Option.bind_eq_some_iff.1 hx
  exact (h.entries e hmem).attributes x (List.mem_of_getElem? hi)

/-- **What was written is in the document**, as it was written last. -/
theorem Registry.Records.find {w : Write} (h : Records ws r) (hr : r.Tables env) (hw : w ∈ ws) :
    ∃ m ∈ r.document.mappings, r.mapping? w.type = some m ∧ ∃ x, m.attribute? w.key = some x ∧ x.Sound ∧
      x.sourceExpression = (lastWrite? ws w.type w.key).map Write.expression ∧
      x.linkElement = (lastLink? ws w.type w.key).map FeatureLink.linkElement ∧
      x.linkField = (lastLink? ws w.type w.key).map FeatureLink.linkField := by
  obtain ⟨x, hx, hwritten⟩ := h.written.find hw
  obtain ⟨m, hm, hmapping, hattribute⟩ := hr.document (Registry.maps_of_attribute? hx)
  exact ⟨m, hm, hmapping, x, by rw [hattribute, hx], hr.attribute_sound hx, hwritten⟩

/-- The last link at an attribute is the one whose field the attribute has. -/
theorem Registry.Records.link_iff {type : QName} {key : String} {l : FeatureLink} (h : Records ws r)
    (hr : r.Tables env) (hl : l ∈ r.links) :
    (lastLink? ws type key).map FeatureLink.linkField = some l.linkField ↔ lastLink? ws type key = some l := by
  constructor
  · intro hf
    obtain ⟨l', hl', hfield⟩ := Option.map_eq_some_iff.1 hf
    obtain ⟨w, hw, -, -, hlink⟩ := lastLink?_mem hl'
    rw [hl', hr.link_eq (h.registered w hw l' hlink).1 hl hfield]
  · intro hl'
    rw [hl']; rfl

namespace Environment

/-- A compiled cell has its effect on the registry at that time, which the final one extends; what
it writes is in the history. -/
theorem compiled_effect {cells : List Cell} (hc : c ∈ env.compiledCells a .start cells) :
    ∃ before after, cells = before ++ c :: after ∧
      c.Effect env (env.compileCells a before).registry (env.compileCells a (before ++ [c])).registry ∧
      (env.compileCells a (before ++ [c])).registry.Extends (env.compileCells a cells).registry ∧
      env.history a .start before <+: env.history a .start cells ∧
      ∀ w ∈ c.writes env (env.compileCells a (before ++ [c])).registry, w ∈ env.history a .start cells := by
  obtain ⟨before, after, rfl, hcompiles⟩ := mem_compiledCells hc
  change env.compiles a (env.compileCells a before) c = true at hcompiles
  obtain ⟨hp, s, ho⟩ := compiles_ok hcompiles
  have heffect := outcome_effect (sound_compileCells env a before) ho
  have hregistry : (env.compileCells a (before ++ [c])).registry = s := by
    rw [compileCells_concat, compileCell_ok hp ho]
  -- the history is cut behind the cell
  have hhistory : env.history a .start (before ++ c :: after) = env.history a .start before ++
      (c.writes env s ++ env.history a (env.compileCells a (before ++ [c])) after) := by
    rw [← hregistry, compileCells_concat, history_append]
    change _ ++ env.history a (env.compileCells a before) (c :: after) = _
    rw [history, if_pos hcompiles]
  refine ⟨before, after, rfl, ?_, ?_, ?_, fun w hw => ?_⟩
  · rw [hregistry]; exact heffect
  · rw [List.append_cons before c after]
    exact extends_compileCells env a (before ++ [c]) after
  · rw [hhistory]; exact List.prefix_append _ _
  · rw [hregistry] at hw
    rw [hhistory]
    exact List.mem_append_right _ (List.mem_append_left _ hw)

end Environment

/-- **A plan whose writes are in the history** has become what was written last. -/
theorem JoinPlan.sidesLast {p : JoinPlan} {l : FeatureLink} (h : Records ws r) (hr : r.Bound env)
    (hlink : r.link? p.containerType p.nestedType = some l) (hw : ∀ w ∈ p.writes env r, w ∈ ws) :
    p.SidesLast env r ws l := by
  have hwrites : p.writes env r =
      [⟨p.containerType, r.pathText env p.segments, p.baseKey, some l⟩,
        ⟨p.nestedType, l.linkField, p.foreignKey, none⟩] := by
    unfold writes; rw [hlink]
  rw [hwrites] at hw
  have hwc := hw _ (List.mem_cons_self ..)
  have hwn := hw _ (List.mem_cons_of_mem _ (List.mem_cons_self ..))
  obtain ⟨mc, hmc, hmapc, x, hx, hsound, hxe, hxl, hxf⟩ := h.find hr.toTables hwc
  obtain ⟨mn, hmn, hmapn, y, hy, -, hye, -, -⟩ := h.find hr.toTables hwn
  -- what has a link repeats
  have hrepeats : x.isMultiple = true := by
    refine hsound.repeats ?_
    rw [hxf, Option.isSome_map]
    exact lastLink?_isSome hwc rfl
  obtain ⟨hl, -, hnested⟩ := Registry.link?_eq_some hlink
  have helement : ElementBound env p.nestedType r.document.namespaces l.linkElement := by
    rw [← hnested]
    exact (hr.linked l hl).1
  refine ⟨hlink, helement, ⟨mc, hmc, hmapc, x, hx, hrepeats, hxl, hxf, hxe⟩, ⟨mn, hmn, hmapn, y, hy, hye⟩, ?_, ?_⟩
  · -- the field of the attribute belongs to one link only
    rintro ⟨-, ⟨mc', -, hmapc', x', hx', -, hfield, -, hbase⟩, mn', -, hmapn', y', hy', hforeign⟩
    rw [hmapc] at hmapc'; cases hmapc'
    rw [hx] at hx'; cases hx'
    rw [hmapn] at hmapn'; cases hmapn'
    rw [hy] at hy'; cases hy'
    exact ⟨(h.link_iff hr.toTables hl).1 (hxf.symm.trans hfield), hxe.symm.trans hbase, hye.symm.trans hforeign⟩
  · rintro ⟨hlast, hbase, hforeign⟩
    simp only at hxl hxf hxe hye
    rw [hlast] at hxl hxf
    exact ⟨helement, ⟨mc, hmc, hmapc, x, hx, hxl, hxf, hrepeats, hxe.trans hbase⟩,
      mn, hmn, hmapn, y, hy, hye.trans hforeign⟩

/-- **The sides of compiled joins.** Each plan of a join that compiled has a link with the element of its
nested type and both its attributes in the document, and they have what was written to them last: by this
plan, by a later condition on the same path or the same types, or by a cell that maps the containing element
itself. -/
theorem Environment.join_sides {cells : List Cell} {plans : List JoinPlan} {p : JoinPlan}
    (hc : c ∈ env.compiledCells a .start cells) (hj : Function.ofName? c.function = some .join)
    (hplan : c.plan env = .ok plans) (hp : p ∈ plans) :
    ∃ l, p.SidesLast env (env.compileCells a cells).registry (env.history a .start cells) l := by
  obtain ⟨before, after, -, heffect, hgrows, -, hwrites⟩ := compiled_effect hc
  have hrecords := records_history env a cells
  have hbound := bound_compileCells env a cells
  cases heffect with
  | retyped _ hname => rw [hj] at hname; cases hname
  | placed f _ _ _ _ _ _ hname hother => rw [hj] at hname; cases hname; exact absurd rfl hother
  | joined plans' target t _ hplan' _ hinstall _ hq _ =>
    rw [hplan] at hplan'
    cases hplan'
    obtain ⟨-, hall⟩ := JoinPlan.installAll_records (sound_compileCells env a before)
      (Cell.plan_nests hplan) (records_history env a before) hinstall hq.grows
    obtain ⟨l, key, hlink, hkey⟩ := hall p hp
    -- link and path are settled when the cell compiles, so its writes are the same in the end
    have hnaming := Registry.naming_renderPath env p.segments
    have hwrites' : p.writes env (env.compileCells a cells).registry =
        p.writes env (env.compileCells a (before ++ [c])).registry := by
      rw [JoinPlan.writes_eq hlink hkey,
        JoinPlan.writes_eq (hgrows.link? hlink) (hkey.grow hnaming hgrows)]
    refine ⟨l, JoinPlan.sidesLast hrecords hbound (hgrows.link? hlink) fun w hw => hwrites w ?_⟩
    rw [hwrites'] at hw
    unfold Cell.writes
    rw [hj]
    simp only [hplan]
    exact List.mem_flatMap.2 ⟨p, hp, hw⟩

namespace Roads

/-- A name for the left side as such, which goes to the element that holds the lanes. -/
def side : Cell := rename "side" "RoadRow" "name" ["left"]

/-- The plan of the join: lanes are on the left. -/
def leftPlan : JoinPlan :=
  ⟨⟨"Road"⟩, ⟨"RoadRow"⟩, ⟨"Lane"⟩, ⟨"LaneRow"⟩, [⟨⟨"left"⟩, none⟩], "id", "road", false⟩

/-- The link of roads and lanes. -/
def laneLink : FeatureLink := ⟨⟨"Road"⟩, ⟨"Lane"⟩, "Lane", "LINK[1]"⟩

/-- What is written in compiling such an alignment. -/
def log (c : Cell) : List Write := (environment c).history (alignment c) .start (alignment c).typesFirst

/-- All cells compile. -/
theorem compiled_side :
    (environment side).compiledCells (alignment side) .start (alignment side).typesFirst =
      [join, leftWidth, side] := rfl

theorem plan_side : join.plan (environment side) = .ok [leftPlan] := rfl

theorem left_side_as_written :
    ∃ l, leftPlan.SidesLast (environment side) (final side) (log side) l :=
  Environment.join_sides (by rw [compiled_side]; exact List.mem_cons_self ..) (show _ = _ from rfl) plan_side
    (List.mem_singleton.2 rfl)

/-- **The name takes the place of the key.** Both cells compile, and the attribute of the left side
has the link, but not the base key of the join. -/
theorem left_side_overwritten :
    join ∈ (environment side).compiledCells (alignment side) .start (alignment side).typesFirst ∧
      Function.ofName? join.function = some .join ∧ join.plan (environment side) = .ok [leftPlan] ∧
      (final side).link? leftPlan.containerType leftPlan.nestedType = some laneLink ∧
      ¬ leftPlan.BothSides (environment side) (final side) laneLink := by
  refine ⟨by rw [compiled_side]; exact List.mem_cons_self .., rfl, plan_side, by decide +kernel, ?_⟩
  rintro ⟨-, ⟨m, -, hm, x, hx, -, -, -, hkey⟩, -⟩
  have hname : (((final side).mapping? leftPlan.containerType).bind
      (·.attribute? ((final side).pathText (environment side) leftPlan.segments))).bind
        AttributeMapping.sourceExpression = some "name" := by decide +kernel
  rw [hm, Option.bind_some, hx, Option.bind_some, hkey] at hname
  revert hname
  decide

end Roads

/-! ## Crossings of a path -/

/-- **A chained crossing**, after the writes `ws`, of which `earlier` came before its cell. Its
link is registered, and an earlier join has installed it at some element of the container. The
element that the path goes through has the link exactly if it was the last one written there. -/
structure Crossing.Chained (env : Environment) (r : Registry) (earlier ws : List Write) (x : Crossing)
    (l : FeatureLink) : Prop where
  link : r.link? x.container x.nested = some l
  installed : ∃ w ∈ earlier, w.type = x.container ∧ w.link = some l ∧
    ∃ m ∈ r.document.mappings, r.mapping? x.container = some m ∧
      ∃ y, m.attribute? w.key = some y ∧ y.isMultiple = true
  through : (∃ m ∈ r.document.mappings, r.mapping? x.container = some m ∧
      ∃ y, m.attribute? (r.pathText env x.segments) = some y ∧ y.linkField = some l.linkField) ↔
    lastLink? ws x.container (r.pathText env x.segments) = some l
  nested : ∃ m ∈ r.document.mappings, r.mapping? x.nested = some m ∧ ∃ y, m.attribute? l.linkField = some y

/-- **An expression stored at its place**: one attribute of the owner is written, and no other
attribute of any type. -/
def Cell.Stores (place : ResolvedPath) (text : String) (r s : Registry) : Prop :=
  ∃ key node client crs,
    s.attribute? = changed r.attribute? place.owner key (Cell.write place text node client crs)

/-- A crossing whose link was registered before its cell is chained. -/
theorem Crossing.chained {earlier : List Write} {x : Crossing} {l : FeatureLink} (h : Records ws r)
    (hr : r.Sound env) (hs : Records earlier s) (hearlier : earlier <+: ws) (hgrows : s.Extends r)
    (hl : s.link? x.container x.nested = some l) : x.Chained env r earlier ws l := by
  have hlink := hgrows.link? hl
  obtain ⟨hmem, hc, hn⟩ := Registry.link?_eq_some hl
  obtain ⟨hmem', -, -⟩ := Registry.link?_eq_some hlink
  have hmaps := (hr.ends l hmem').1
  rw [hc] at hmaps
  obtain ⟨m, hm, hmap, hattribute⟩ := hr.toTables.document hmaps
  have hfield := h.written.field x.container (r.pathText env x.segments)
  refine ⟨hlink, ?_, ⟨?_, fun hlast => ?_⟩, ?_⟩
  · -- the link was registered before the cell, so it was installed then
    obtain ⟨w, hw, hwt, hwl⟩ := hs.installed l hmem
    have hww := hearlier.subset hw
    obtain ⟨m', hm', hmap', y, hy, hsound, -, -, hyf⟩ := h.find hr.toTables hww
    rw [hwt, hc] at hmap'
    refine ⟨w, hw, hwt.trans hc, hwl, m', hm', hmap', y, hy, hsound.repeats ?_⟩
    rw [hyf, Option.isSome_map]
    exact lastLink?_isSome hww hwl
  · rintro ⟨m', -, hmap', y, hy, hyf⟩
    rw [hmap] at hmap'; cases hmap'
    rw [hattribute] at hy
    rw [hy, Option.bind_some, hyf] at hfield
    exact (h.link_iff hr.toTables hmem').1 hfield.symm
  · rw [hlast] at hfield
    obtain ⟨y, hy, hyf⟩ := Option.bind_eq_some_iff.1 hfield
    exact ⟨m, hm, hmap, y, by rw [hattribute, hy], hyf⟩
  · obtain ⟨w, hw, hwt, hwk⟩ := hs.keyed l hmem
    obtain ⟨m', hm', hmap', y, hy, -⟩ := h.find hr.toTables (hearlier.subset hw)
    rw [hwt, hn] at hmap'
    rw [hwk] at hy
    exact ⟨m', hm', hmap', y, hy⟩

/-- **The crossings of compiled property cells.** When a property cell other than a join compiles,
each crossing on its path has been linked before, and its expression is stored in the mapping of
the last nested type only. -/
theorem Environment.crossings_linked {cells : List Cell} (hc : c ∈ env.compiledCells a .start cells)
    (hj : Function.ofName? c.function ≠ some .join) (ht : c.isTypeCell = false) :
    ∃ before after target place f e restricted, cells = before ++ c :: after ∧
      c.targetEntity = .ok target ∧ env.target.resolve target.type target.path = .ok place ∧
      Function.ofName? c.function = some f ∧ c.expression env.source f = .ok e ∧
      c.guarded place.guards e = .ok restricted ∧
      (∀ x ∈ place.crossings, ∃ l, x.Chained env (env.compileCells a cells).registry
        (env.history a .start before) (env.history a .start cells) l) ∧
      place.owner = (place.crossings.getLast?.map Crossing.nested).getD target.type ∧
      Cell.Stores place restricted.render (env.compileCells a before).registry
        (env.compileCells a (before ++ [c])).registry := by
  obtain ⟨before, after, hsplit, heffect, hgrows, hearlier, -⟩ := compiled_effect hc
  cases heffect with
  | retyped _ _ htype => rw [ht] at htype; cases htype
  | joined _ _ _ hname => exact absurd hname hj
  | placed f target e restricted place t key hname _ _ htarget he hq _ hd hdep =>
    obtain ⟨hplace, hlinks, hguarded⟩ := Cell.destination_ok hd
    have hleads := SchemaIndex.leads_resolve hplace
    refine ⟨before, after, target, place, f, e, restricted, hsplit, htarget, hplace, hname, he, hguarded,
      fun x hx => ?_, hleads.owner_eq, ?_⟩
    · obtain ⟨l, hl⟩ := hlinks x hx
      rw [hq.link?] at hl
      have hgrows' := (hq.grows.trans hdep.grows).trans hgrows
      exact ⟨l, Crossing.chained (records_history env a cells) (sound_compileCells env a cells)
        (records_history env a before) hearlier hgrows' hl⟩
    · obtain ⟨node, client, crs, hattributes⟩ := hdep.attributes
      exact ⟨key, node, client, crs, by rw [hattributes, hq.attributes]⟩

namespace Roads

/-- The width of the lanes on the right, where no join has put any. -/
def rightWidth : Cell := rename "right" "LaneRow" "width" ["right", "Lane", "width"]

/-- The crossing from the right side of a road into its lanes. -/
def rightCrossing : Crossing := ⟨⟨"Road"⟩, [⟨⟨"right"⟩, none⟩], ⟨"Lane"⟩, ⟨"Lane"⟩⟩

/-- All cells compile. -/
theorem compiled_right :
    (environment rightWidth).compiledCells (alignment rightWidth) .start (alignment rightWidth).typesFirst =
      [join, leftWidth, rightWidth] := rfl

theorem rename_right : Function.ofName? rightWidth.function ≠ some .join := by
  rw [show Function.ofName? rightWidth.function = some .rename from rfl]
  decide

theorem right_width_linked :
    ∃ before after target place f e restricted,
      (alignment rightWidth).typesFirst = before ++ rightWidth :: after ∧
      rightWidth.targetEntity = .ok target ∧
      (environment rightWidth).target.resolve target.type target.path = .ok place ∧
      Function.ofName? rightWidth.function = some f ∧
      rightWidth.expression (environment rightWidth).source f = .ok e ∧
      rightWidth.guarded place.guards e = .ok restricted ∧
      (∀ x ∈ place.crossings, ∃ l, x.Chained (environment rightWidth) (final rightWidth)
        ((environment rightWidth).history (alignment rightWidth) .start before) (log rightWidth) l) ∧
      place.owner = (place.crossings.getLast?.map Crossing.nested).getD target.type ∧
      Cell.Stores place restricted.render
        ((environment rightWidth).compileCells (alignment rightWidth) before).registry
        ((environment rightWidth).compileCells (alignment rightWidth) (before ++ [rightWidth])).registry :=
  Environment.crossings_linked (by rw [compiled_right]; simp) rename_right rfl

/-- **Lanes on the right are not chained.** The cell compiles, since roads and lanes are linked, but
the document has nothing at the right side of the road. -/
theorem right_side_unchained :
    rightWidth ∈ (environment rightWidth).compiledCells (alignment rightWidth) .start
        (alignment rightWidth).typesFirst ∧
      Function.ofName? rightWidth.function ≠ some .join ∧ rightWidth.isTypeCell = false ∧
      (∃ target place, rightWidth.targetEntity = .ok target ∧
        (environment rightWidth).target.resolve target.type target.path = .ok place ∧
        rightCrossing ∈ place.crossings) ∧
      (final rightWidth).link? rightCrossing.container rightCrossing.nested = some laneLink ∧
      ¬ ∃ m ∈ (final rightWidth).document.mappings,
        (final rightWidth).mapping? rightCrossing.container = some m ∧
        ∃ y, m.attribute? ((final rightWidth).pathText (environment rightWidth) rightCrossing.segments) =
            some y ∧ y.linkField = some laneLink.linkField := by
  refine ⟨by rw [compiled_right]; simp, rename_right, rfl, ⟨_, _, rfl, rfl, List.mem_singleton.2 rfl⟩,
    by decide +kernel, ?_⟩
  rintro ⟨m, -, hm, y, hy, -⟩
  have hnone : ((final rightWidth).mapping? rightCrossing.container).bind
      (·.attribute? ((final rightWidth).pathText (environment rightWidth) rightCrossing.segments)) = none := by
    decide +kernel
  rw [hm, Option.bind_some, hy] at hnone
  cases hnone

end Roads

end FeatureAlignment
