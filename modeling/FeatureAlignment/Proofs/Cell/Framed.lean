import FeatureAlignment.Proofs.Cell.Labels
import FeatureAlignment.Proofs.Compilation.Order
import FeatureAlignment.Proofs.Registry.Built
import FeatureAlignment.Proofs.Registry.Framed

/-!
# What placing an expression leaves alone

A cell whose expression is placed writes one attribute of one mapping, and of this attribute the fields that
its placement is about. Cells that meet on an attribute rely on this: the identifier of a geometry and its
value go to one attribute, in any order, and neither touches what the other has written.

* `Cell.Placed`: what a placement does to an attribute, field by field (`Cell.placed_write`).
* `Registry.RootMapped`: the mapping of the root type, which may be new and is empty then.
* `Cell.Framed`: what placing an expression does to a registry, and all that it leaves as it was.
* `Cell.place_framed`: a placement that succeeds does that, in every registry built by its operations.
-/

namespace FeatureAlignment

open Registry (Built changed)

variable {env : Environment} {r s : Registry}

/-! ## One attribute -/

namespace Cell

variable {place : ResolvedPath} {key text : String} {node client : Option String}

/-- **What a placement does to client properties.** One as a client property sets just this. One as an element
sets the name of the reference system, for a geometry if a system is configured. Otherwise they are kept. -/
inductive ClientsPlaced (env : Environment) (place : ResolvedPath) (text : String) (client : Option String)
    (old new : List ClientProperty) : Prop
  | property (name : QName) (rendered : String) : place.placement = .clientProperty name →
      client = some rendered → ClientSet rendered text old new → ClientsPlaced env place text client old new
  | system (crs : String) : place.placement = .element → place.geometry = true →
      env.config.targetCrs = some crs → ClientSet "srsName" (Expr.quote crs) old new →
      ClientsPlaced env place text client old new
  | kept : (∀ name, place.placement ≠ .clientProperty name) →
      ¬ (place.placement = .element ∧ place.geometry = true ∧ env.config.targetCrs.isSome = true) →
      new = old → ClientsPlaced env place text client old new

/-- **An expression placed in an attribute**, field by field. Whether the attribute repeats is added up. A
placement as an element changes the value and the node, one as an identifier the identifier; client
properties change as `ClientsPlaced` says, and nothing else does. -/
structure Placed (env : Environment) (place : ResolvedPath) (text : String) (node client : Option String)
    (old new : AttributeMapping) : Prop where
  target : new.targetAttribute = old.targetAttribute
  linkElement : new.linkElement = old.linkElement
  linkField : new.linkField = old.linkField
  multiple : new.isMultiple = (old.isMultiple || place.isMultiple)
  source : new.sourceExpression = if place.placement = .element then some text else old.sourceExpression
  node : new.targetNode = if place.placement = .element then node else old.targetNode
  identifier : new.idExpression = if place.placement = .identifier then some text else old.idExpression
  clients : ClientsPlaced env place text client old.clientProperties new.clientProperties

/-- A geometry under a configured reference system, and any other value. -/
theorem systemAt_element (env : Environment) (hplacement : place.placement = .element) :
    (∃ crs, place.geometry = true ∧ env.config.targetCrs = some crs ∧
      systemAt env place = some (Expr.quote crs)) ∨
    (¬ (place.geometry = true ∧ env.config.targetCrs.isSome = true) ∧ systemAt env place = none) := by
  unfold systemAt
  rw [hplacement]
  cases place.geometry with
  | false => exact .inr ⟨fun h => Bool.false_ne_true h.1, rfl⟩
  | true =>
    cases env.config.targetCrs with
    | none => exact .inr ⟨fun h => Bool.false_ne_true h.2, rfl⟩
    | some crs => exact .inl ⟨crs, rfl, rfl, rfl⟩

theorem lacksSystem_iff : lacksSystem env place = true ↔
    place.placement = .element ∧ place.geometry = true ∧ env.config.targetCrs = none := by
  unfold lacksSystem
  simp only [Bool.and_eq_true, beq_iff_eq, Option.isNone_iff_eq_none]
  constructor
  · rintro ⟨⟨hgeometry, hplacement⟩, hcrs⟩
    exact ⟨hplacement, hgeometry, hcrs⟩
  · rintro ⟨hplacement, hgeometry, hcrs⟩
    exact ⟨⟨hgeometry, hplacement⟩, hcrs⟩

/-- The client properties after an expression was written. -/
theorem clients_write (h : Labels env place r key node client) (text : String) (a : AttributeMapping) :
    ClientsPlaced env place text client a.clientProperties
      (write place text node client (systemAt env place) a).clientProperties := by
  unfold write
  cases hplacement : place.placement with
  | element =>
    have hno : ∀ name, place.placement ≠ .clientProperty name := by
      intro name hname
      rw [hplacement] at hname
      cases hname
    rcases systemAt_element env hplacement with ⟨crs, hgeometry, hcrs, hsystem⟩ | ⟨hnone, hsystem⟩
    · rw [hsystem]
      exact .system crs hplacement hgeometry hcrs (AttributeMapping.set_setAmong _ _ _)
    · rw [hsystem]
      exact .kept hno (fun hall => hnone hall.2) rfl
  | identifier =>
    refine .kept (fun name hname => ?_) (fun hall => ?_) rfl
    · rw [hplacement] at hname
      cases hname
    · rw [hplacement] at hall
      cases hall.1
  | clientProperty name =>
    -- the name of the client property has been rendered
    have hclient := h.client
    rw [hplacement] at hclient
    unfold clientName at hclient
    rw [Build.on_state_bind, Build.on_pure] at hclient
    obtain ⟨hsome, -⟩ := Prod.mk.inj hclient
    have hrendered := (Except.ok.inj hsome).symm
    rw [hrendered]
    exact .property name _ hplacement rfl (AttributeMapping.set_setAmong _ _ _)

/-- **Writing an expression** places it. -/
theorem placed_write (h : Labels env place r key node client) (text : String) (a : AttributeMapping) :
    Placed env place text node client a (write place text node client (systemAt env place) a) := by
  refine ⟨?_, ?_, ?_, ?_, ?_, ?_, ?_, clients_write h text a⟩
  all_goals
    unfold write
    cases place.placement with
    | element => cases systemAt env place <;> rfl
    | identifier => rfl
    | clientProperty name => rfl

end Cell

/-! ## The registry -/

/-- **The mappings with that of a root type.** It is there, or it comes to the end, named by its rendered
element, and has no attribute yet. -/
inductive Registry.RootMapped (env : Environment) (type source : QName) (r s : Registry) :
    List MappingEntry → Prop
  | found : r.Maps type → RootMapped env type source r s r.entries
  | created (element : String) : ¬ r.Maps type → (Registry.renderElement env type).on s = (.ok element, s) →
      RootMapped env type source r s (r.entries ++ [⟨type, ⟨source.localName, element, []⟩, []⟩])

namespace Cell

/-- **What placing an expression does to a registry.** The attribute of the place is written, in the mapping
of the type where the path ends and under the key of the place; the root type has a mapping. Links and all
other mappings and attributes are as they were, namespaces come to the end, and so does a warning, for a
geometry without a configured reference system. -/
structure Framed (env : Environment) (c : Cell) (target : Entity) (source : QName) (place : ResolvedPath)
    (text key : String) (node client : Option String) (r s : Registry) (a : AttributeMapping) : Prop where
  resolved : env.target.resolve target.type target.path = .ok place
  labels : Labels env place s key node client
  links : s.links = r.links
  namespaces : r.namespaces <+: s.namespaces
  mappings : ∃ entries, Registry.RootMapped env target.type source r s entries ∧
    WritesAmong place.owner key ((r.attribute? place.owner key).getD (.ofTarget key)) a entries s.entries
  found : s.attribute? place.owner key = some a
  others : ∀ type k, ¬ (type = place.owner ∧ k = key) → s.attribute? type k = r.attribute? type k
  fields : Placed env place text node client ((r.attribute? place.owner key).getD (.ofTarget key)) a
  warnings : s.warnings = r.warnings ++
    if place.placement = .element ∧ place.geometry = true ∧ env.config.targetCrs = none then
      [c.nativeCrsWarning key] else []

variable {c typeCell : Cell} {e : Expr} {a : AttributeMapping} {place : ResolvedPath} {text : String}

/-- **A placement that succeeds**, step by step. -/
theorem place_run (h : (c.place env typeCell e).on r = (.ok a, s)) :
    ∃ target source m u place restricted, c.targetEntity = .ok target ∧ typeCell.rootSource = .ok source ∧
      (Registry.ensureMapping env target.type source).on r = (.ok m, u) ∧
      c.destination env u target e = .ok (place, restricted) ∧
      (c.deposit env place restricted.render).on u = (.ok a, s) := by
  unfold Cell.place at h
  obtain ⟨target, htarget, h⟩ := Build.on_except_bind_ok.1 h
  obtain ⟨typeTarget, -, h⟩ := Build.on_except_bind_ok.1 h
  split at h
  · rw [Build.on_throw_bind] at h; cases h
  obtain ⟨source, hsource, h⟩ := Build.on_except_bind_ok.1 h
  obtain ⟨m, u, hm, h⟩ := Build.on_bind_ok.1 h
  rw [Build.on_get_bind] at h
  obtain ⟨⟨place, restricted⟩, hd, h⟩ := Build.on_except_bind_ok.1 h
  exact ⟨target, source, m, u, place, restricted, htarget, hsource, hm, hd, h⟩

/-- The root type has its mapping before the attribute is written. -/
theorem rootMapped {type source : QName} {m : TypeMapping} {u : Registry}
    (hm : (Registry.ensureMapping env type source).on r = (.ok m, u)) (hs : u.namespaces <+: s.namespaces) :
    Registry.RootMapped env type source r s u.entries := by
  rcases Registry.ensureMapping_ok hm with ⟨hr, rfl⟩ | ⟨v, hr, hrendered, -, rfl⟩
  · exact .found (Option.isSome_iff_exists.2 ⟨m, hr⟩)
  · have hnot : ¬ r.Maps type := by
      unfold Registry.Maps
      rw [hr]
      exact Bool.false_ne_true
    have hagain := (Registry.naming_renderElement env type).again hrendered hs
    have hentries := (Registry.renderElement_renamed hrendered).entries
    have hnew : Registry.RootMapped env type source r s
        (r.entries ++ [⟨type, ⟨source.localName, m.targetElement, []⟩, []⟩]) :=
      .created m.targetElement hnot hagain
    rw [← hentries] at hnew
    exact hnew

/-- **A deposit that succeeds** has written one attribute, under settled names. -/
theorem deposit_framed {u : Registry} (hu : u.Keyed)
    (h : (c.deposit env place text).on u = (.ok a, s)) :
    ∃ key node client, Labels env place s key node client ∧ s.links = u.links ∧
      u.namespaces <+: s.namespaces ∧ s.warnings = (c.warned env place key u).warnings ∧
        s.attribute? = changed u.attribute? place.owner key
          (write place text node client (systemAt env place)) ∧
        a = write place text node client (systemAt env place)
          ((u.attribute? place.owner key).getD (.ofTarget key)) ∧
        WritesAmong place.owner key ((u.attribute? place.owner key).getD (.ofTarget key)) a u.entries s.entries := by
  rcases deposit_on h with ⟨failure, -, hno, -⟩ | ⟨key, node, client, v, hn, hlabels, hup⟩
  · cases hno
  let f := write place text node client (systemAt env place)
  -- naming and the warning leave attributes and entries as they were
  let w := c.warned env place key v
  have hkeyed : w.Keyed := ⟨(hu.renamed hn).slots, (hu.renamed hn).entries⟩
  have hview : w.attribute? = u.attribute? := funext fun type => funext fun k => hn.attribute? type k
  have hwarnings : w.warnings = (c.warned env place key u).warnings := by
    show v.warnings ++ _ = u.warnings ++ _
    rw [hn.warnings]
  rw [Registry.upsert_on] at hup
  cases hslot : w.slots.lookup place.owner with
  | none =>
    rw [hslot] at hup
    cases hup
  | some slot =>
    rw [hslot] at hup
    obtain ⟨ha, hs⟩ := Prod.mk.inj hup
    have ha : f ((w.attribute? place.owner key).getD (.ofTarget key)) = a := Except.ok.inj ha
    have hs : w.changeAt slot key f = s := hs
    have hwritten := hkeyed.writes_changeAt hslot key f
    have hfound : (w.changeAt slot key f).attribute? = changed w.attribute? place.owner key f :=
      hkeyed.attribute?_changeAt hslot key
    have hentries : w.entries = u.entries := hn.entries
    rw [ha, hs, hview, hentries] at hwritten
    rw [hs, hview] at hfound
    rw [hview] at ha
    subst hs
    exact ⟨key, node, client, hlabels.grow (List.prefix_refl _), hn.links, hn.namespaces, hwarnings, hfound,
      ha.symm, hwritten⟩

/-- **A placement that succeeds** in a registry with keys has written the expression, under the guards of the
cell, into one attribute, and has left all else as it was. -/
theorem framed_place (hr : r.Keyed) (h : (c.place env typeCell e).on r = (.ok a, s)) :
    ∃ target source place restricted key node client,
      c.targetEntity = .ok target ∧ typeCell.rootSource = .ok source ∧
        c.guarded place.guards e = .ok restricted ∧
          Framed env c target source place restricted.render key node client r s a := by
  obtain ⟨target, source, m, u, place, restricted, htarget, hsource, hm, hd, hdeposit⟩ := place_run h
  obtain ⟨hplace, -, hguarded⟩ := destination_ok hd
  have hcalm := (hr.ensureMapping_ok hm).1
  obtain ⟨key, node, client, hlabels, hlinks, hnamespaces, hwarnings, hfound, ha, hwritten⟩ :=
    deposit_framed hcalm.keyed hdeposit
  rw [hcalm.attributes] at hfound ha hwritten
  refine ⟨target, source, place, restricted, key, node, client, htarget, hsource, hguarded, hplace, hlabels,
    hlinks.trans hcalm.links, hcalm.grows.namespaces.trans hnamespaces,
    ⟨u.entries, rootMapped hm hnamespaces, hwritten⟩, ?_, ?_, ?_, ?_⟩
  · rw [hfound, Registry.changed_self, ← ha]
  · intro type k hother
    rw [hfound, Registry.changed_other _ hother]
  · rw [ha]
    exact placed_write hlabels restricted.render _
  · rw [hwarnings, warned, Registry.ensureMapping_warnings hm]
    simp only [lacksSystem_iff]

/-- **The frame of a placement.** In every registry built by its operations, a placement that succeeds has
written the expression, under the guards of the cell, into one attribute, and has left all else as it was. -/
theorem place_framed (hr : r.Built env) (h : (c.place env typeCell e).on r = (.ok a, s)) :
    ∃ target source place restricted key node client,
      c.targetEntity = .ok target ∧ typeCell.rootSource = .ok source ∧
        c.guarded place.guards e = .ok restricted ∧
          Framed env c target source place restricted.render key node client r s a := framed_place hr.keyed h

end Cell

namespace Springs

/-- A registry in which the location of springs has an identifier, but no value yet. -/
def located : Registry :=
  ((Registry.upsert (water "SpringType") "w:location" (fun a => { a with idExpression := some "key" })).on
    ((Registry.ensureMapping (alignment.environment source target config) (water "SpringType") ⟨"Row"⟩).on
      .empty).2).2

/-- **The point of a spring** goes beside its identifier, which is kept. -/
theorem point_beside_key :
    ∃ s, (point.place (alignment.environment source target config) springs (.property "point")).on located =
        (.ok ⟨"w:location", some "gml:PointType", some "point", some "key", false, none, none,
          [⟨"srsName", "'EPSG:25832'"⟩]⟩, s) ∧
      ∃ entity type place restricted key node client, point.targetEntity = .ok entity ∧
        springs.rootSource = .ok type ∧ point.guarded place.guards (.property "point") = .ok restricted ∧
          Cell.Framed (alignment.environment source target config) point entity type place restricted.render
            key node client located s ⟨"w:location", some "gml:PointType", some "point", some "key", false, none,
              none, [⟨"srsName", "'EPSG:25832'"⟩]⟩ := by
  have hbuilt : located.Built (alignment.environment source target config) :=
    .upsert _ _ _ (.ensureMapping _ _ .empty)
  have hplaced : (point.place (alignment.environment source target config) springs (.property "point")).on
      located = (.ok ⟨"w:location", some "gml:PointType", some "point", some "key", false, none, none,
        [⟨"srsName", "'EPSG:25832'"⟩]⟩, _) := rfl
  exact ⟨_, hplaced, Cell.place_framed hbuilt hplaced⟩

end Springs

end FeatureAlignment
