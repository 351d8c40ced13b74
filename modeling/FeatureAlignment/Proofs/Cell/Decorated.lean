import FeatureAlignment.Proofs.Cell.Framed
import FeatureAlignment.Proofs.Schema.Nodes

/-!
# XML attributes at the end of a path

A step to an XML attribute leads nowhere else: it says what the value becomes at the place reached before. This
depends on all of the path, for the identifier of a geometry goes beside the geometry only if the geometry stands
for an abstract element. So the value of an element and its identifier are deposited in one attribute.

* `Position.foldlM_substituted`: on every path, a geometry is substituted exactly if its type is kept as the node.
* `ResolvedPath.Decorated`: a place with an XML attribute on it.
* `Cell.SharesKey`: places whose attributes have one key, whichever of them is rendered first.
* `Cell.attribute_decorates`: a step to an XML attribute decorates the place before it, and shares its key.
-/

namespace FeatureAlignment

section

variable {index : SchemaIndex} {root : QName} {p q : Position} {s a : PathStep} {steps : List PathStep}
  {found : Located} {d : PropertyDefinition}

namespace Position

/-! ## Substituted geometries -/

theorem enterElement_substituted (p : Position) (e : PropertyDefinition) (children : List Child)
    (head : Option QName) (i : Option UInt64) :
    (p.enterElement e (index.propertyType? e) children head i).substituted =
      (p.enterElement e (index.propertyType? e) children head i).node.isSome := by
  unfold enterElement
  cases head.or p.head with
  | none => rfl
  | some name =>
    cases hgeometry : ((index.propertyType? e).map TypeDefinition.geometry).getD false with
    | false => rfl
    | true =>
      -- only an element with a type is a geometry
      cases htype : e.type with
      | none => rw [SchemaIndex.propertyType?, htype] at hgeometry; cases hgeometry
      | some type => rfl

theorem step?_substituted (h : p.substituted = p.node.isSome) (hs : p.step? index s = some q) :
    q.substituted = q.node.isSome := by
  cases step?_eq_some.1 hs with
  | group found header children hfound hc => exact h
  | ending found d hfound hc ha => exact h
  | crossing found e nested hfound hc ha ht hf hne => rfl
  | element found e hfound hc ha hstays => exact enterElement_substituted _ e _ _ _

/-- **A geometry is substituted exactly if its type is kept as the node**, on every path from a type. -/
theorem foldlM_substituted {t : TypeDefinition} (hp : steps.foldlM (step? index) (.start t) = some p) :
    p.substituted = p.node.isSome := foldlM_keeps step?_substituted (p := .start t) rfl hp

end Position

/-! ## A place with an XML attribute -/

/-- **A place with an XML attribute on it**, which a step has reached in groups that no step names. The place stays
what it is, but for what the step notes and what the value becomes. -/
structure ResolvedPath.Decorated (place : ResolvedPath) (a : PathStep) (d : PropertyDefinition)
    (headers : List GroupHeader) (longer : ResolvedPath) : Prop where
  owner : longer.owner = place.owner
  segments : longer.segments = place.segments
  node : longer.node = place.node
  geometry : longer.geometry = place.geometry
  crossings : longer.crossings = place.crossings
  lastElement : longer.lastElement = place.lastElement
  guards : longer.guards = place.guards ++ a.condition.toList
  isMultiple : longer.isMultiple = (place.isMultiple || (headers.any GroupHeader.repeatable && a.index.isNone))
  placement : longer.placement =
    if d.name.isGmlId = true ∧ (place.segments = [] ∨ place.node.isSome = true) then .identifier
    else .clientProperty d.name

/-- The end of a path at an XML attribute decorates the place of its last element. -/
theorem Position.decorated_endAt {headers : List GroupHeader} (h : p.substituted = p.node.isSome)
    (c : Child) :
    p.place.Decorated a d headers ((p.noted a (.within headers c)).endAt d).place where
  owner := rfl
  segments := rfl
  node := rfl
  geometry := rfl
  crossings := rfl
  lastElement := rfl
  guards := rfl
  isMultiple := rfl
  placement := by
    show (if d.name.isGmlId && (p.segments.isEmpty || p.substituted) then Placement.identifier
      else .clientProperty d.name) = _
    rw [h]
    simp only [Bool.and_eq_true, Bool.or_eq_true, List.isEmpty_iff]
    rfl

namespace Cell

variable {env : Environment} {place longer : ResolvedPath}

/-! ## One key -/

/-- **The second place shares the key of the first**: once the key of the first place is rendered, that of the
second one is the same, whatever is named in between. -/
def SharesKey (env : Environment) (first second : ResolvedPath) : Prop :=
  ∀ r, ∃ key s, (ownerKey env first).on r = (.ok key, s) ∧
    ∀ t : Registry, s.namespaces <+: t.namespaces → (ownerKey env second).on t = (.ok key, t)

/-- Places share a key if they are at the same segments of the same type. -/
theorem sharesKey_of_eq (hk : env.target.Knows place.owner) (howner : longer.owner = place.owner)
    (hsegments : longer.segments = place.segments) : SharesKey env place longer := by
  intro r
  obtain ⟨key, s, hkey⟩ := ownerKey_succeeds hk r
  have hsame : ownerKey env longer = ownerKey env place := by unfold ownerKey; rw [howner, hsegments]
  refine ⟨key, s, hkey, fun t ht => ?_⟩
  rw [hsame]
  exact (naming_ownerKey env place).again hkey ht

/-- **A step to an XML attribute only decorates.** Behind a path that resolves, a step that finds an XML attribute
leads to the same place, with the condition of the step, the repetition of the groups on the way, and what the
value becomes there. Whichever of the two paths goes first, their values go to an attribute with the same key. -/
theorem attribute_decorates {t : TypeDefinition} (h : env.target.resolve root steps = .ok place)
    (ht : env.target.get? root = some t) (hp : steps.foldlM (Position.step? env.target) (.start t) = some p)
    (ha : p.Finds a found) (hc : found.child = .property d) (hattribute : d.isAttribute = true) :
    ∃ headers longer, found = .within headers (.property d) ∧
      (.property d, headers) ∈ Child.sitesAmong p.children ∧
      env.target.resolve root (steps ++ [a]) = .ok longer ∧ place.Decorated a d headers longer ∧
      SharesKey env place longer ∧ SharesKey env longer place := by
  obtain ⟨-, t', p', ht', hp', rfl⟩ := SchemaIndex.resolve_eq_ok.1 h
  cases ht.symm.trans ht'
  cases hp.symm.trans hp'
  obtain ⟨headers, hsite, hwithin, -⟩ := Child.locate?_site ha.2
  rw [hc] at hsite hwithin
  subst hwithin
  have hstep : p.step? env.target a = some ((p.noted a (.within headers (.property d))).endAt d) :=
    Position.step?_eq_some.2 (.ending _ d ha rfl hattribute)
  have hlonger : env.target.resolve root (steps ++ [a]) =
      .ok ((p.noted a (.within headers (.property d))).endAt d).place :=
    SchemaIndex.resolve_eq_ok.2 ⟨by simp, t, _, ht, (Position.foldlM_concat hp a).trans hstep, rfl⟩
  have hdecorated : p.place.Decorated a d headers ((p.noted a (.within headers (.property d))).endAt d).place :=
    Position.decorated_endAt (Position.foldlM_substituted hp) (.property d)
  have hknown : env.target.Knows p.owner := (SchemaIndex.leads_resolve h).knows_owner
  exact ⟨headers, _, rfl, hsite, hlonger, hdecorated, sharesKey_of_eq hknown hdecorated.owner hdecorated.segments,
    sharesKey_of_eq (hdecorated.owner ▸ hknown) hdecorated.owner.symm hdecorated.segments.symm⟩

end Cell

end

namespace Springs

/-- The place of the point of a spring: the location, with the type of the point as its node. -/
def pointPlace : ResolvedPath :=
  ⟨water "SpringType", [⟨water "location", none⟩], some (gml "PointType"), .element, false, [], true, [],
    some ⟨gml "Point", some (gml "PointType"), false, false⟩⟩

/-- The steps to the point. -/
def toPoint : List PathStep := [⟨water "location", none, none⟩, ⟨gml "Point", none, none⟩]

/-- The step from there to its identifier. -/
def toKey : PathStep := ⟨gml "id", none, none⟩

/-- The cells of the point and of its identifier go to one attribute, whichever goes first. -/
theorem key_shares_point :
    point.target = [⟨none, water "SpringType", toPoint, none⟩] ∧
      key.target = [⟨none, water "SpringType", toPoint ++ [toKey], none⟩] ∧
      target.resolve (water "SpringType") toPoint = .ok pointPlace ∧
      target.resolve (water "SpringType") (toPoint ++ [toKey]) =
        .ok { pointPlace with placement := .identifier } ∧
      Cell.SharesKey (alignment.environment source target config) pointPlace
        { pointPlace with placement := .identifier } ∧
      Cell.SharesKey (alignment.environment source target config)
        { pointPlace with placement := .identifier } pointPlace := by
  have hpoint : (alignment.environment source target config).target.resolve (water "SpringType") toPoint =
    .ok pointPlace := rfl
  have hkey : target.resolve (water "SpringType") (toPoint ++ [toKey]) =
    .ok { pointPlace with placement := .identifier } := rfl
  obtain ⟨-, longer, -, -, hlonger, -, hfirst, hsecond⟩ :=
    Cell.attribute_decorates (a := toKey) hpoint rfl rfl ⟨rfl, rfl⟩ rfl rfl
  cases hlonger.symm.trans hkey
  exact ⟨rfl, rfl, hpoint, hkey, hfirst, hsecond⟩

end Springs

end FeatureAlignment
