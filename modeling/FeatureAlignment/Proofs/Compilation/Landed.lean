import FeatureAlignment.Proofs.Compilation.Guarded

/-!
# Where values land

A value goes to an element. On the way to it groups leave no segment, and a crossing starts the segments anew, but
an element that stays in the feature type always leaves one, or is folded into one that is there. So what ends
without segments is at the feature itself: at its identifier, at one of its XML attributes, or at a nested feature.

There is one more case. A path that names groups only goes nowhere, and is not refused: its value lands on the
element of the feature.

* `Child.GroupsTo`: steps that name groups only.
* `SchemaIndex.EntersElement`: a path with an element step in the feature type where it ends.
* `SchemaIndex.value_lands`: the place of a value is without segments just if the path names groups only.
* `Environment.values_land`: a compiled cell that stores a value has an element step, or names groups only.
-/

namespace FeatureAlignment

/-- **Steps that name groups only**, from children to those of the last group. -/
inductive Child.GroupsTo (children : List Child) : List PathStep → List Child → Prop
  | here : GroupsTo children [] children
  | group (steps : List PathStep) (outer : List Child) (s : PathStep) (found : Located) (header : GroupHeader)
      (inner : List Child) : GroupsTo children steps outer → Child.locate? outer s.name = some found →
      found.child = .group header inner → GroupsTo children (steps ++ [s]) inner

/-- **A path that names groups only.** -/
def Child.OnlyGroups (children : List Child) (steps : List PathStep) : Prop := ∃ inner, GroupsTo children steps inner

variable {index : SchemaIndex} {t : TypeDefinition} {steps : List PathStep} {p q : Position} {s : PathStep}

/-- **A path with an element step** in the feature type where it ends: behind all crossings, some step finds an
element that stays in this type. -/
inductive SchemaIndex.EntersElement (index : SchemaIndex) (t : TypeDefinition) (steps : List PathStep) (owner : QName)
    (crossings : List Crossing) : Prop
  | intro (before : List PathStep) (s : PathStep) (after : List PathStep) (p : Position) (found : Located)
      (e : PropertyDefinition) : steps = before ++ s :: after →
      before.foldlM (Position.step? index) (.start t) = some p → p.owner = owner → p.crossings = crossings →
      p.Finds s found → found.child = .property e → e.isAttribute = false → index.StaysIn owner e →
      EntersElement index t steps owner crossings

namespace Position

/-- An element leaves a segment, or is folded into the one of the element around it. -/
theorem enterElement_segments (h : p.segments = [] → p.parent = none) (e : PropertyDefinition)
    (type : Option TypeDefinition) (children : List Child) (head : Option QName) (i : Option UInt64) :
    (p.enterElement e type children head i).segments ≠ [] ∧
      (p.enterElement e type children head i).parent = some e := by
  have hpush : ∀ name : QName, (p.push ⟨name, i⟩).segments ≠ [] := by
    intro name
    exact List.append_ne_nil_of_right_ne_nil _ (List.cons_ne_nil _ _)
  unfold enterElement
  cases head.or p.head with
  | none => exact ⟨hpush e.name, rfl⟩
  | some name =>
    cases (type.map TypeDefinition.geometry).getD false with
    | false => exact ⟨hpush e.name, rfl⟩
    | true =>
      cases hfolded : p.isFolded with
      | false => exact ⟨hpush name, rfl⟩
      | true =>
        refine ⟨fun hnil => ?_, rfl⟩
        -- there is an element around it, and so a segment
        unfold isFolded at hfolded
        rw [h hnil] at hfolded
        cases hfolded

/-- **What a path has come to** from a type: without segments it is in no element, and if nothing is crossed either,
all steps named groups; with segments, some step led into an element. -/
structure Landed (index : SchemaIndex) (t : TypeDefinition) (steps : List PathStep) (p : Position) : Prop where
  outside : p.segments = [] → p.parent = none
  groups : p.segments = [] → p.crossings = [] → p.ending = none → Child.GroupsTo t.children steps p.children
  element : p.segments ≠ [] → index.EntersElement t steps p.owner p.crossings

/-- A step more keeps the element step. -/
theorem extend_entersElement {owner : QName} {crossings : List Crossing}
    (h : index.EntersElement t steps owner crossings) (s : PathStep) :
    index.EntersElement t (steps ++ [s]) owner crossings := by
  cases h with
  | intro before s' after p found e hsplit hp howner hcrossings hfound hc ha hstays =>
    refine .intro before s' (after ++ [s]) p found e ?_ hp howner hcrossings hfound hc ha hstays
    rw [hsplit, List.append_assoc, List.cons_append]

theorem Landed.step (h : p.Landed index t steps) (hp : steps.foldlM (step? index) (.start t) = some p)
    (hs : p.step? index s = some q) : q.Landed index t (steps ++ [s]) := by
  cases step?_eq_some.1 hs with
  | group found header children hfound hc =>
    refine ⟨h.outside, fun hsegments hcrossings _ => ?_, fun hsegments => extend_entersElement (h.element hsegments) s⟩
    exact .group steps p.children s found header children (h.groups hsegments hcrossings hfound.1) hfound.2 hc
  | ending found a hfound hc ha =>
    exact ⟨h.outside, fun _ _ hending => (by cases hending),
      fun hsegments => extend_entersElement (h.element hsegments) s⟩
  | crossing found e nested hfound hc ha ht hf hne =>
    refine ⟨fun _ => rfl, fun _ hcrossings _ => ?_, fun hsegments => absurd rfl hsegments⟩
    exact absurd hcrossings (List.append_ne_nil_of_right_ne_nil _ (List.cons_ne_nil _ _))
  | element found e hfound hc ha hstays =>
    have houtside : (p.noted s found).segments = [] → (p.noted s found).parent = none := h.outside
    obtain ⟨hsegments, -⟩ := enterElement_segments houtside e (index.propertyType? e) (index.propertyChildren e)
      found.head s.index
    obtain ⟨howner, hcrossings⟩ := (p.noted s found).enterElement_crossings e (index.propertyType? e)
      (index.propertyChildren e) found.head s.index
    refine ⟨fun hnil => absurd hnil hsegments, fun hnil => absurd hnil hsegments, fun _ => ?_⟩
    rw [howner, hcrossings]
    exact .intro steps s [] p found e rfl hp rfl rfl hfound hc ha hstays

/-- **Every path has come to something** in this sense. -/
theorem landed_foldlM (hp : steps.foldlM (step? index) (.start t) = some p) : p.Landed index t steps := by
  induction steps using List.reverseRecOn generalizing p with
  | nil =>
    cases hp
    exact ⟨fun _ => rfl, fun _ _ _ => .here, fun hsegments => absurd rfl hsegments⟩
  | append_singleton steps s ih =>
    rw [List.foldlM_append] at hp
    obtain ⟨q, hq, hs⟩ := Option.bind_eq_some_iff.1 hp
    rw [List.foldlM_cons] at hs
    obtain ⟨q', hq', hs⟩ := Option.bind_eq_some_iff.1 hs
    cases hs
    exact (ih hq).step hq hq'

/-- **Steps that name groups only** can be taken, and leave nothing behind. -/
theorem foldlM_groupsTo (index : SchemaIndex) {inner : List Child} (h : Child.GroupsTo t.children steps inner) :
    ∃ p, steps.foldlM (step? index) (.start t) = some p ∧ p.children = inner ∧ p.segments = [] ∧
      p.crossings = [] ∧ p.ending = none := by
  induction h with
  | here => exact ⟨.start t, rfl, rfl, rfl, rfl, rfl⟩
  | group steps outer s found header inner hsteps hfound hc ih =>
    obtain ⟨p, hp, rfl, hsegments, hcrossings, hending⟩ := ih
    have hs := step?_eq_some.2 (.group found header inner ⟨hending, hfound⟩ hc : Taken index p s _)
    exact ⟨_, (foldlM_concat hp s).trans hs, rfl, hsegments, hcrossings, hending⟩

end Position

namespace SchemaIndex

variable {root : QName} {place : ResolvedPath}

/-- **Values land on elements.** Where a path ends as an element, and not at a nested feature, it has no segments
just if it names groups only; with segments, one of its steps is an element step in the feature type where it ends. -/
theorem value_lands (ht : index.get? root = some t) (h : index.resolve root steps = .ok place)
    (hvalue : place.placement = .element) (hends : place.endsAtFeature = false) :
    (place.segments = [] ↔ Child.OnlyGroups t.children steps) ∧
      (place.segments ≠ [] → index.EntersElement t steps place.owner place.crossings) := by
  obtain ⟨-, t', p, ht', hp, rfl⟩ := resolve_eq_ok.1 h
  cases ht.symm.trans ht'
  have hlanded := Position.landed_foldlM hp
  have hending : p.ending = none := by
    cases hending : p.ending with
    | none => rfl
    | some a =>
      change p.placement = .element at hvalue
      unfold Position.placement at hvalue
      rw [hending] at hvalue
      simp only at hvalue
      split at hvalue <;> cases hvalue
  refine ⟨⟨fun hsegments => ?_, fun honly => ?_⟩, hlanded.element⟩
  · have hcrossings : p.crossings = [] := by
      unfold ResolvedPath.endsAtFeature ResolvedPath.crossesTypes at hends
      rw [hsegments, hvalue] at hends
      simpa [Position.place] using hends
    exact ⟨p.children, hlanded.groups hsegments hcrossings hending⟩
  · obtain ⟨inner, hinner⟩ := honly
    obtain ⟨p', hp', -, hsegments, -⟩ := Position.foldlM_groupsTo index hinner
    cases hp.symm.trans hp'
    exact hsegments

end SchemaIndex

/-! ## Compiled cells -/

variable {env : Environment} {a : Alignment} {c : Cell} {r u : Registry}

/-- A destination is not a nested feature. -/
theorem Cell.destination_ends {target : Entity} {place : ResolvedPath} {e restricted : Expr}
    (h : c.destination env r target e = .ok (place, restricted)) : place.endsAtFeature = false := by
  unfold destination at h
  obtain ⟨place', -, h⟩ := Build.except_bind_ok.1 h
  cases hunlinked : unlinked? r place'.crossings with
  | some x => rw [hunlinked] at h; cases h
  | none =>
    rw [hunlinked] at h
    simp only at h
    split at h
    · cases h
    · rename_i hends
      obtain ⟨restricted', -, h⟩ := Build.except_bind_ok.1 h
      cases h
      exact Bool.not_eq_true _ ▸ hends

/-- **Where a property cell has stored its expression**, from one registry to the next: in the attribute of its
place, and in no other. As a value it is stored only behind an element step in the type of that attribute, or for
a target path that names groups only; otherwise the value there is kept. -/
structure Cell.Lands (env : Environment) (c : Cell) (r s : Registry) (target : Entity) (t : TypeDefinition)
    (place : ResolvedPath) (key : String) (x : AttributeMapping) : Prop where
  targeted : c.targetEntity = .ok target
  known : env.target.get? target.type = some t
  resolved : env.target.resolve target.type target.path = .ok place
  settled : (Cell.ownerKey env place).on s = (.ok key, s)
  found : s.attribute? place.owner key = some x
  others : ∀ type k, ¬ (type = place.owner ∧ k = key) → s.attribute? type k = r.attribute? type k
  kept : place.placement ≠ .element →
    x.sourceExpression = (r.attribute? place.owner key).bind AttributeMapping.sourceExpression
  element : place.placement = .element → ¬ Child.OnlyGroups t.children target.path →
    place.segments ≠ [] ∧ env.target.EntersElement t target.path place.owner place.crossings
  own : place.placement = .element → (place.segments = [] ↔ Child.OnlyGroups t.children target.path)

/-- **A placement that succeeds** has stored its expression so. -/
theorem Cell.lands_place {typeCell : Cell} {e : Expr} {x : AttributeMapping} (hr : r.Keyed)
    (h : (c.place env typeCell e).on r = (.ok x, u)) : ∃ target t place key, Lands env c r u target t place key x := by
  obtain ⟨target, source, place, restricted, key, node, client, htarget, -, -, hframed⟩ := framed_place hr h
  obtain ⟨target', -, -, v, place', restricted', htarget', -, -, hdestination, -⟩ := place_run h
  cases htarget.symm.trans htarget'
  cases hframed.resolved.symm.trans (destination_ok hdestination).1
  have hends := destination_ends hdestination
  obtain ⟨-, t, p, ht, -, -⟩ := SchemaIndex.resolve_eq_ok.1 hframed.resolved
  refine ⟨target, t, place, key, htarget, ht, hframed.resolved, hframed.labels.key, hframed.found, hframed.others,
    fun hno => ?_, fun hvalue honly => ?_, fun hvalue => ?_⟩
  · rw [hframed.fields.source, if_neg hno]
    cases r.attribute? place.owner key <;> rfl
  · obtain ⟨hown, helement⟩ := SchemaIndex.value_lands ht hframed.resolved hvalue hends
    have hsegments : place.segments ≠ [] := fun hnil => honly (hown.1 hnil)
    exact ⟨hsegments, helement hsegments⟩
  · exact (SchemaIndex.value_lands ht hframed.resolved hvalue hends).1

/-- **Values land on elements.** A place for values that is not a nested feature is without segments just if its path
names groups only, and has an element step otherwise. A property cell other than a join that compiles stores a value
at such a place, and nothing but identifiers and client properties elsewhere. -/
theorem Environment.values_land (env : Environment) :
    (∀ root t steps place, env.target.get? root = some t → env.target.resolve root steps = .ok place →
      place.placement = .element → place.endsAtFeature = false →
        (place.segments = [] ↔ Child.OnlyGroups t.children steps) ∧
          (place.segments ≠ [] → env.target.EntersElement t steps place.owner place.crossings)) ∧
    ∀ (a : Alignment) (cells : List Cell), ∀ c ∈ env.compiledCells a .start cells,
      Function.ofName? c.function ≠ some .join → c.isTypeCell = false →
        ∃ before after target t place key x, cells = before ++ c :: after ∧
          c.Lands env (env.compileCells a before).registry (env.compileCells a (before ++ [c])).registry target t
            place key x := by
  refine ⟨fun root t steps place => SchemaIndex.value_lands, fun a cells c hc hjoin htype => ?_⟩
  obtain ⟨before, after, f, e, typeCell, x, hsplit, -, -, hplaced⟩ := compiled_placed hc hjoin htype
  have hkeyed := (sound_compileCells env a before).keyed
  obtain ⟨target, t, place, key, hlands⟩ := Cell.lands_place hkeyed hplaced
  exact ⟨before, after, target, t, place, key, x, hsplit, hlands⟩

namespace Gauges

/-- A column. -/
def column (name : String) : Child := .property ⟨⟨name⟩, none, false, false⟩

/-- Readings. -/
def source : SchemaIndex := ⟨[⟨⟨"GaugeRow"⟩, none, false, false, [column "level", column "date"]⟩], .empty⟩

/-- Gauges: the level is in a group. -/
def target : SchemaIndex :=
  ⟨[⟨⟨"Gauge"⟩, none, true, false, [.group ⟨⟨"state"⟩, false, false, none⟩ [column "level"]]⟩], .empty⟩

/-- Readings are gauges. -/
def gauge : Cell := ⟨"gauge", "retype", [.ofType ⟨"GaugeRow"⟩], [.ofType ⟨"Gauge"⟩], .empty⟩

/-- A column goes to a place in the gauge. -/
def rename (id name : String) (path : List String) : Cell :=
  ⟨id, "rename", [⟨none, ⟨"GaugeRow"⟩, [⟨⟨name⟩, none, none⟩], none⟩],
    [⟨none, ⟨"Gauge"⟩, path.map (fun step => ⟨⟨step⟩, none, none⟩), none⟩], .empty⟩

/-- The level goes to its element. -/
def level : Cell := rename "level" "level" ["state", "level"]

/-- The date goes to the group. -/
def date : Cell := rename "date" "date" ["state"]

/-- The alignment of gauges. -/
def alignment : Alignment := ⟨none, [gauge, level, date]⟩

/-- What compiling it reads. -/
def environment : Environment := alignment.environment source target ⟨.empty, "LINK", none, false, .xml⟩

/-- All cells compile. -/
theorem compiled_cells : environment.compiledCells alignment .start alignment.cells = [gauge, level, date] := rfl

/-- The level lands on its element. -/
theorem level_lands :
    ∃ before after target t place key x, alignment.cells = before ++ level :: after ∧
      level.Lands environment (environment.compileCells alignment before).registry
        (environment.compileCells alignment (before ++ [level])).registry target t place key x := by
  have hc : level ∈ environment.compiledCells alignment .start alignment.cells := by
    rw [compiled_cells]
    simp
  refine (Environment.values_land environment).2 alignment alignment.cells level hc ?_ rfl
  rw [show Function.ofName? level.function = some .rename from rfl]
  decide

/-- **A value without an element.** The date goes to a path that names a group only. The path resolves as an element,
not at a nested feature, and has no segments; the date is stored as the value of the gauge itself. -/
theorem date_lands_nowhere :
    (∃ place, environment.target.resolve ⟨"Gauge"⟩ [⟨⟨"state"⟩, none, none⟩] = .ok place ∧
      place.placement = .element ∧ place.endsAtFeature = false ∧ place.segments = []) ∧
    date ∈ environment.compiledCells alignment .start alignment.cells ∧
    (environment.compileCells alignment [gauge, level]).registry.attribute? ⟨"Gauge"⟩ "Gauge" = none ∧
    ((environment.compileCells alignment alignment.cells).registry.attribute? ⟨"Gauge"⟩ "Gauge").bind
      AttributeMapping.sourceExpression = some "date" := by
  refine ⟨⟨_, rfl, rfl, rfl, rfl⟩, ?_, rfl, rfl⟩
  rw [compiled_cells]
  simp

end Gauges

end FeatureAlignment
