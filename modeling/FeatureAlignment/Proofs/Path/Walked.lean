import Mathlib.Algebra.GroupWithZero.Nat
import FeatureAlignment.Cell.Expression
import FeatureAlignment.Join.Plan
import FeatureAlignment.Proofs.Build
import FeatureAlignment.Proofs.Schema.Nodes

/-!
# What a source path names

A source path is walked through the children of its type, name by name. A name may find a group, which is entered,
but only properties count for what the path ends at. The text of the path is made of all its names.

So the text is that of the properties on the way just if no group is named.

* `SchemaIndex.Walks`: the children that names find, one after the other; `SchemaIndex.properties`: those that count.
* `SchemaIndex.walk_ok`: walking is going such a way, and the last property on it is found.
* `Entity.Accepted`: a source that is read or checked as a key; `Entity.accepted_iff_way`: it finds a property.
* `Entity.Names`, `Entity.accepted_names`: what the text of an accepted source names.
-/

namespace FeatureAlignment

/-- The property that a child is, if it is no group. -/
def Child.property? : Child → Option PropertyDefinition
  | .property p => some p
  | .group _ _ => none

namespace SchemaIndex

variable {index : SchemaIndex} {root : QName} {children way : List Child} {names : List QName}
  {p : PropertyDefinition}

/-- The children behind a child: those of the type of a property, and those of a group. -/
def behind (index : SchemaIndex) : Child → List Child
  | .property p => index.propertyChildren p
  | .group _ inner => inner

/-- **A walk** from children: each name finds a child, among those behind the one before. -/
inductive Walks (index : SchemaIndex) : List Child → List QName → List Child → Prop
  | here (children : List Child) : Walks index children [] []
  | on (children : List Child) (name : QName) (c : Child) (names : List QName) (way : List Child) :
      Child.find? children name = some c → Walks index (index.behind c) names way →
      Walks index children (name :: names) (c :: way)

/-- The properties on a way, without the groups. -/
def properties (way : List Child) : List PropertyDefinition := way.filterMap Child.property?

/-- **Walking names is going a way**, at the end of which the last property counts. -/
theorem walkFrom_ok {found : Option PropertyDefinition} {done : List QName} :
    index.walkFrom root found done children names = .ok p ↔
      ∃ way, index.Walks children names way ∧ (properties way).getLast?.or found = some p := by
  induction names generalizing found done children with
  | nil =>
    unfold walkFrom
    constructor
    · intro h
      refine ⟨[], .here children, ?_⟩
      cases found with
      | none => cases h
      | some q => cases h; rfl
    · rintro ⟨way, hway, h⟩
      cases hway
      have hfound : found = some p := h
      rw [hfound]
  | cons name names ih =>
    unfold walkFrom
    cases hc : Child.find? children name with
    | none =>
      refine ⟨nofun, ?_⟩
      rintro ⟨way, hway, -⟩
      cases hway with
      | on _ _ c _ way hfind _ =>
        rw [hc] at hfind
        cases hfind
    | some c =>
      have hsplit : (∃ way, index.Walks children (name :: names) way ∧ (properties way).getLast?.or found = some p) ↔
          ∃ way, index.Walks (index.behind c) names way ∧ (properties (c :: way)).getLast?.or found = some p := by
        constructor
        · rintro ⟨way, hway, h⟩
          cases hway with
          | on _ _ d _ way hfind hrest =>
            cases hc.symm.trans hfind
            exact ⟨way, hrest, h⟩
        · rintro ⟨way, hway, h⟩
          exact ⟨c :: way, .on children name c names way hc hway, h⟩
      rw [hsplit]
      cases c with
      | property q =>
        show index.walkFrom root (some q) (done ++ [name]) (index.propertyChildren q) names = .ok p ↔ _
        rw [ih]
        refine exists_congr fun way => and_congr Iff.rfl ?_
        show _ ↔ (q :: properties way).getLast?.or found = some p
        rw [List.getLast?_cons]
        cases (properties way).getLast? <;> rfl
      | group header inner =>
        show index.walkFrom root found (done ++ [name]) inner names = .ok p ↔ _
        rw [ih]
        rfl

theorem walk_ok {t : TypeDefinition} :
    index.walk t names = .ok p ↔
      ∃ way, index.Walks t.children names way ∧ (properties way).getLast? = some p := by
  unfold walk
  rw [walkFrom_ok]
  simp only [Option.or_none]

/-- A walk finds one child for each name, and the name stands for it. -/
theorem Walks.answers (h : index.Walks children names way) :
    List.Forall₂ (fun name c => Child.Answers name c) names way := by
  induction h with
  | here children => exact .nil
  | on children name c names way hfind _ ih => exact .cons (Child.find?_some hfind).2 ih

/-- The last name stands for the last child. -/
theorem Walks.last (h : index.Walks children names way) {c : Child} (hc : way.getLast? = some c) :
    ∃ name ∈ names.getLast?, c.Answers name := by
  have hreverse := List.forall₂_reverse_iff.2 h.answers
  rw [List.getLast?_eq_head?_reverse] at hc ⊢
  generalize names.reverse = backNames at hreverse
  generalize way.reverse = backWay at hreverse hc
  cases hreverse with
  | nil => cases hc
  | cons hanswers _ =>
    cases hc
    exact ⟨_, rfl, hanswers⟩

/-- Names lead one way only. -/
theorem Walks.unique {way' : List Child} (h : index.Walks children names way) (h' : index.Walks children names way') :
    way' = way := by
  induction h generalizing way' with
  | here children => cases h'; rfl
  | on children name c names way hfind _ ih =>
    cases h' with
    | on _ _ d _ way' hfind' hrest' =>
      cases hfind.symm.trans hfind'
      rw [ih hrest']

/-- **The text of names is that of what they find.** -/
theorem Walks.path_eq (h : index.Walks children names way) :
    QName.path names = QName.path (way.map Child.name) := by
  have hlocal : names.map QName.localName = (way.map Child.name).map QName.localName := by
    have hanswers := h.answers
    clear h
    induction hanswers with
    | nil => rfl
    | cons hname _ ih => rw [List.map_cons, List.map_cons, List.map_cons, hname.localName, ih]
  unfold QName.path
  rw [hlocal]

end SchemaIndex

/-! ## Texts with and without groups -/

namespace Text

/-- **The length of joined texts**: each counts with one separator, but for the last. -/
theorem length_join {ss : List String} (hne : ss ≠ []) :
    (join "/" ss).length + 1 = (ss.map (fun s => s.length + 1)).sum := by
  induction ss with
  | nil => exact absurd rfl hne
  | cons s ss ih =>
    cases ss with
    | nil => rfl
    | cons s' ss =>
      have hrest := ih (List.cons_ne_nil s' ss)
      have hslash : "/".length = 1 := rfl
      rw [List.map_cons, List.sum_cons, ← hrest, join, String.length_append, String.length_append, hslash]
      omega

end Text

namespace SchemaIndex

variable {way : List Child}

/-- **A way without groups.** -/
def Groupless (way : List Child) : Prop := ∀ c ∈ way, c.property?.isSome

/-- How long the local name of a child is, with a separator. -/
def nameLength (c : Child) : Nat := c.name.localName.length + 1

/-- The properties on a way make a shorter text than the whole way, unless there is no group. -/
theorem nameLength_properties (way : List Child) :
    (((properties way).map Child.property).map nameLength).sum ≤ (way.map nameLength).sum ∧
      ((((properties way).map Child.property).map nameLength).sum = (way.map nameLength).sum → Groupless way) := by
  induction way with
  | nil => exact ⟨Nat.le_refl _, fun _ c hc => (List.not_mem_nil hc).elim⟩
  | cons c way ih =>
    obtain ⟨hle, hgroupless⟩ := ih
    cases c with
    | property p =>
      have hfirst : properties (.property p :: way) = p :: properties way := rfl
      rw [hfirst, List.map_cons, List.map_cons, List.map_cons, List.sum_cons, List.sum_cons]
      refine ⟨Nat.add_le_add_left hle _, fun h => ?_⟩
      exact List.forall_mem_cons.2 ⟨rfl, hgroupless (Nat.add_left_cancel h)⟩
    | group header inner =>
      have hfirst : properties (.group header inner :: way) = properties way := rfl
      have hpositive : 0 < nameLength (.group header inner) := Nat.succ_pos _
      rw [hfirst, List.map_cons, List.sum_cons]
      refine ⟨by omega, fun h => ?_⟩
      omega

/-- A way without groups is its properties. -/
theorem Groupless.properties (h : Groupless way) : (properties way).map Child.property = way := by
  induction way with
  | nil => rfl
  | cons c way ih =>
    obtain ⟨hc, hway⟩ := List.forall_mem_cons.1 h
    cases c with
    | property p => exact congrArg (List.cons (.property p)) (ih hway)
    | group header inner => cases hc

/-- **A way has the text of its properties just if there is no group on it.** -/
theorem path_properties_iff (hne : properties way ≠ []) :
    QName.path (way.map Child.name) = QName.path ((properties way).map PropertyDefinition.name) ↔ Groupless way := by
  have hnames : (properties way).map PropertyDefinition.name =
      ((properties way).map Child.property).map Child.name := by
    rw [List.map_map]
    rfl
  rw [hnames]
  constructor
  · intro h
    have hway : way ≠ [] := by
      rintro rfl
      exact hne rfl
    have hlength : ∀ cs : List Child, cs ≠ [] →
        (QName.path (cs.map Child.name)).length + 1 = (cs.map nameLength).sum := by
      intro cs hcs
      have hlocal : (cs.map Child.name).map QName.localName ≠ [] := by simpa using hcs
      have hjoin := Text.length_join hlocal
      rw [List.map_map, List.map_map] at hjoin
      unfold QName.path
      rw [List.map_map, hjoin]
      rfl
    refine (nameLength_properties way).2 ?_
    rw [← hlength way hway, ← hlength _ (by simpa using hne), h]
  · intro h
    rw [h.properties]

end SchemaIndex

/-! ## Accepted sources -/

open SchemaIndex (properties Groupless)

namespace Entity

variable {source : SchemaIndex} {e : Entity} {t : TypeDefinition} {way : List Child} {p : PropertyDefinition}

/-- **A source that is accepted**: its property is read, or checked as the key of a join. -/
inductive Accepted (source : SchemaIndex) (e : Entity) : Prop
  | property (x : Expr) : e.property source = .ok x → Accepted source e
  | key (c : Cell) : c.checkKey source e = .ok () → Accepted source e

/-- A property is read where its names can be walked. -/
theorem property_ok {x : Expr} :
    e.property source = .ok x ↔
      (∃ t p, source.get? e.type = some t ∧ source.walk t e.names = .ok p) ∧ x = .property e.expression := by
  unfold Entity.property SchemaIndex.require
  cases source.get? e.type with
  | none => exact ⟨nofun, by rintro ⟨⟨t, p, ht, -⟩, -⟩; cases ht⟩
  | some t =>
    simp only [Option.some.injEq, exists_and_left, exists_eq_left']
    show (source.walk t e.names).bind (fun _ => .ok (.property e.expression)) = .ok x ↔ _
    cases source.walk t e.names with
    | error failure => exact ⟨nofun, by rintro ⟨⟨p, hp⟩, -⟩; cases hp⟩
    | ok p => exact ⟨fun h => ⟨⟨p, rfl⟩, (Except.ok.inj h).symm⟩, fun h => congrArg Except.ok h.2.symm⟩

/-- **What is accepted can be walked**, by whomever it is accepted. -/
theorem accepted_iff :
    e.Accepted source ↔ ∃ t p, source.get? e.type = some t ∧ source.walk t e.names = .ok p := by
  constructor
  · intro h
    cases h with
    | property x hx => exact (property_ok.1 hx).1
    | key c hc =>
      unfold Cell.checkKey at hc
      split at hc
      · cases hc
      · rename_i t ht
        split at hc
        · rename_i p hp
          exact ⟨t, p, ht, hp⟩
        · cases hc
        · cases hc
  · intro h
    exact .property _ (property_ok.2 ⟨h, rfl⟩)

/-- **What is accepted finds a property.** A path that finds groups only is rejected. -/
theorem accepted_iff_way :
    e.Accepted source ↔ ∃ t way, source.get? e.type = some t ∧ source.Walks t.children e.names way ∧
      properties way ≠ [] := by
  rw [accepted_iff]
  constructor
  · rintro ⟨t, p, ht, hp⟩
    obtain ⟨way, hwalks, hlast⟩ := SchemaIndex.walk_ok.1 hp
    refine ⟨t, way, ht, hwalks, fun hnil => ?_⟩
    rw [hnil] at hlast
    cases hlast
  · rintro ⟨t, way, ht, hwalks, hne⟩
    exact ⟨t, _, ht, SchemaIndex.walk_ok.2 ⟨way, hwalks, List.getLast?_eq_some_getLast hne⟩⟩

/-- **What the text of a source names.** The names go one way from the type, and the property that was checked is the
last one on it. The last name stands for this property unless it finds a group. The text is made of all that the
names find, and it is that of the properties on the way just if no group is among them. -/
structure Names (source : SchemaIndex) (e : Entity) (t : TypeDefinition) (way : List Child)
    (p : PropertyDefinition) : Prop where
  type : source.get? e.type = some t
  walks : source.Walks t.children e.names way
  only : ∀ way', source.Walks t.children e.names way' → way' = way
  walked : source.walk t e.names = .ok p
  read : e.property source = .ok (.property e.expression)
  checked : (properties way).getLast? = some p
  last : (∃ header inner, way.getLast? = some (.group header inner)) ∨
    way.getLast? = some (.property p) ∧ ∃ name ∈ e.names.getLast?, (Child.property p).Answers name
  text : e.expression = QName.path (way.map Child.name)
  properties_iff : e.expression = QName.path ((properties way).map PropertyDefinition.name) ↔ Groupless way

/-- A way that ends at a property ends at the last one. -/
theorem getLast?_properties (hp : (properties way).getLast? = some p) :
    (∃ header inner, way.getLast? = some (.group header inner)) ∨ way.getLast? = some (.property p) := by
  rcases List.eq_nil_or_concat way with rfl | ⟨init, c, rfl⟩
  · cases hp
  · rw [List.concat_eq_append] at hp ⊢
    cases c with
    | group header inner => exact .inl ⟨header, inner, List.getLast?_concat⟩
    | property q =>
      have hlast : properties (init ++ [.property q]) = properties init ++ [q] := List.filterMap_append
      rw [hlast, List.getLast?_concat] at hp
      cases hp
      exact .inr List.getLast?_concat

/-- **What is accepted is what is named**, up to groups. The text of an accepted source names the children on the way
to the property that was checked, which are its properties if no name stands for a group. -/
theorem accepted_names (h : e.Accepted source) : ∃ t way p, e.Names source t way p := by
  obtain ⟨t, way, ht, hwalks, hne⟩ := accepted_iff_way.1 h
  have hlast := List.getLast?_eq_some_getLast hne
  have hp := SchemaIndex.walk_ok.2 ⟨way, hwalks, hlast⟩
  have htext : e.expression = QName.path (way.map Child.name) := hwalks.path_eq
  refine ⟨t, way, _, ht, hwalks, fun way' hwalks' => hwalks.unique hwalks', hp,
    property_ok.2 ⟨⟨t, _, ht, hp⟩, rfl⟩, hlast, ?_, htext, ?_⟩
  · exact (getLast?_properties hlast).imp id fun hway => ⟨hway, hwalks.last hway⟩
  · rw [htext]
    exact SchemaIndex.path_properties_iff hne

end Entity

/-- **The keys of a planned join** are the texts of two accepted sources. -/
theorem Cell.planCondition_keys {env : Environment} {c : Cell} {spec : JoinSpec} {targets : List (QName × QName)}
    {condition : JoinCondition} {plan : JoinPlan} (h : planCondition env c spec targets condition = .ok plan) :
    (condition.base.Accepted env.source ∧ plan.baseKey = condition.base.expression) ∧
      condition.join.Accepted env.source ∧ plan.foreignKey = condition.join.expression := by
  unfold planCondition at h
  obtain ⟨_, hbase, h⟩ := Build.except_bind_ok.1 h
  obtain ⟨_, hjoin, h⟩ := Build.except_bind_ok.1 h
  simp only at h
  split at h
  · cases h
  · split at h
    · cases h
    · split at h
      · cases h
      · cases h
        exact ⟨⟨.key c hbase, rfl⟩, .key c hjoin, rfl⟩

/-! ## Wells with an owner at a site -/

namespace Wells

/-- A column. -/
def column (name : String) (type : Option String) : Child := .property ⟨⟨name⟩, type.map QName.mk, false, false⟩

/-- Columns in a group. -/
def columns (name : String) (children : List Child) : Child := .group ⟨⟨name⟩, false, false, none⟩ children

/-- Wells: what is known of the owner is in a group, and so is the street of the site. -/
def source : SchemaIndex :=
  ⟨[⟨⟨"WellRow"⟩, none, false, false, [column "depth" none, columns "owner" [column "name" none],
      column "site" (some "Site")]⟩,
    ⟨⟨"Site"⟩, none, false, false, [columns "place" [column "street" none]]⟩], .empty⟩

/-- A source of wells. -/
def well (names : List String) : Entity := ⟨none, ⟨"WellRow"⟩, names.map (fun name => ⟨⟨name⟩, none, none⟩), none⟩

/-- The street of a well, on the way to which there is a group. -/
theorem street_named :
    (well ["site", "place", "street"]).Accepted source ∧
      ∃ t way p, (well ["site", "place", "street"]).Names source t way p := by
  have haccepted : (well ["site", "place", "street"]).Accepted source := .property _ rfl
  exact ⟨haccepted, Entity.accepted_names haccepted⟩

/-- **Groups are accepted, and named in the text.** The name of the owner is in a group, and the text has the name
of the group too. A path may even end at a group behind a property, which it does not name then. -/
theorem groups_named :
    ((well ["owner", "name"]).property source = .ok (.property "owner/name") ∧
      ∃ t way, source.get? ⟨"WellRow"⟩ = some t ∧ source.Walks t.children (well ["owner", "name"]).names way ∧
        properties way = [⟨⟨"name"⟩, none, false, false⟩]) ∧
    ((well ["site", "place"]).property source = .ok (.property "site/place") ∧
      ∃ t way, source.get? ⟨"WellRow"⟩ = some t ∧ source.Walks t.children (well ["site", "place"]).names way ∧
        properties way = [⟨⟨"site"⟩, some ⟨"Site"⟩, false, false⟩]) :=
  ⟨⟨rfl, _, _, rfl, .on _ _ _ _ _ rfl (.on _ _ _ _ _ rfl (.here _)), rfl⟩,
    rfl, _, _, rfl, .on _ _ _ _ _ rfl (.on _ _ _ _ _ rfl (.here _)), rfl⟩

end Wells

end FeatureAlignment
