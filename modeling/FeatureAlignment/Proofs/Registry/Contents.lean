import Mathlib.Data.List.Nodup
import Mathlib.Data.List.Pairwise
import FeatureAlignment.Proofs.Registry.Growth

/-!
# What attributes contain

The client properties of an attribute stand in the order in which they were first set. Apart from this
order an attribute is its content. Expressions that go to different slots of attributes may be
deposited in any order: the contents are the same in the end.

* `AttributeMapping.content`, `AttributeMapping.Alike`: attributes up to the order of their client
  properties.
* `Deposit`, `Deposit.slots`: an expression with its place, and the parts of attributes that it sets.
* `Deposit.put_comm`, `Deposit.foldl_put`: deposits with disjoint slots commute, so any order of them
  leads to the same contents.
* `Registry.Tables.mappings_alike`: registries with the same mapped types and the same contents have
  alike mappings in their documents.
-/

namespace FeatureAlignment

open AttributeMapping (setAmong ofTarget)

/-! ## Contents -/

/-- **A part of an attribute** that an expression can set. -/
inductive Field
  | value
  | identifier
  | client (name : String)
  deriving DecidableEq, Repr

/-- **The content of an attribute**: whether it repeats, its parts, each with the node that goes with
it, and the rest of it. -/
structure Content where
  multiple : Bool
  parts : Field → Option String × Option String
  rest : AttributeMapping

namespace AttributeMapping

variable {a b : AttributeMapping}

/-- A part of an attribute. Only values have nodes. -/
def part (a : AttributeMapping) : Field → Option String × Option String
  | .value => (a.sourceExpression, a.targetNode)
  | .identifier => (a.idExpression, none)
  | .client name => (a.clientProperty? name, none)

/-- The content of an attribute. -/
def content (a : AttributeMapping) : Content :=
  ⟨a.isMultiple, a.part, { ofTarget a.targetAttribute with linkElement := a.linkElement, linkField := a.linkField }⟩

/-- **Alike attributes** differ at most in the order of their client properties. -/
structure Alike (a b : AttributeMapping) : Prop where
  rest : { a with clientProperties := [] } = { b with clientProperties := [] }
  clients : a.clientProperties.Perm b.clientProperties

theorem clientProperty?_setClientProperty (name value n : String) (a : AttributeMapping) :
    (a.setClientProperty name value).clientProperty? n =
      if n = name then some value else a.clientProperty? n := by
  have hset : ∀ ps : List ClientProperty, (setAmong name value ps).find? (fun p => p.name == n) =
      if n = name then some ⟨name, value⟩ else ps.find? (fun p => p.name == n) := by
    intro ps
    induction ps with
    | nil =>
      by_cases hn : n = name
      · simp [setAmong, hn]
      · simp [setAmong, hn, Ne.symm hn]
    | cons p ps ih =>
      unfold setAmong
      by_cases hp : p.name = name
      · by_cases hn : n = name
        · simp [hp, hn]
        · simp [hp, hn, Ne.symm hn]
      · by_cases hpn : p.name = n
        · have hn : ¬ n = name := fun h => hp (hpn.trans h)
          simp [hpn, hn]
        · simp only [hp, if_false, List.find?_cons, beq_eq_false_iff_ne.2 hpn]
          exact ih
  unfold clientProperty? setClientProperty
  simp only [hset]
  split <;> rfl

/-- The client properties of a sound attribute are found by their names. -/
theorem Sound.mem_clientProperties (h : a.Sound) {p : ClientProperty} :
    p ∈ a.clientProperties ↔ a.clientProperty? p.name = some p.value := by
  unfold clientProperty?
  constructor
  · intro hp
    obtain ⟨q, hq⟩ : ∃ q, a.clientProperties.find? (fun q => q.name == p.name) = some q :=
      Option.isSome_iff_exists.1 (List.find?_isSome.2 ⟨p, hp, by simp⟩)
    have hname : q.name = p.name := by simpa using List.find?_some hq
    have hsame : q = p := List.inj_on_of_nodup_map h.clients (List.mem_of_find?_eq_some hq) hp hname
    rw [hq, hsame]
    rfl
  · intro hp
    obtain ⟨q, hq, hvalue⟩ := Option.map_eq_some_iff.1 hp
    have hname : q.name = p.name := by simpa using List.find?_some hq
    have hsame : q = p := by cases q; cases p; simp_all
    rw [← hsame]
    exact List.mem_of_find?_eq_some hq

/-- **Sound attributes with the same content are alike.** -/
theorem Sound.alike (ha : a.Sound) (hb : b.Sound) (h : a.content = b.content) : a.Alike b := by
  obtain ⟨hmultiple, hparts, hrest⟩ := Content.mk.inj h
  obtain ⟨hvalue, hnode⟩ := Prod.mk.inj (congrFun hparts .value)
  obtain ⟨hidentifier, -⟩ := Prod.mk.inj (congrFun hparts .identifier)
  have hclients : ∀ n, a.clientProperty? n = b.clientProperty? n := fun n =>
    (Prod.mk.inj (congrFun hparts (.client n))).1
  refine ⟨?_, (List.perm_ext_iff_of_nodup ha.clients.of_map hb.clients.of_map).2 fun p => ?_⟩
  · cases a; cases b
    simp_all [ofTarget]
  · rw [ha.mem_clientProperties, hb.mem_clientProperties, hclients]

end AttributeMapping

/-! ## Deposits -/

/-- **A slot**: a part of the attribute with an owner key in the mapping of a type. -/
structure Slot where
  type : QName
  key : String
  field : Field
  deriving DecidableEq, Repr

instance (xs ys : List Slot) : Decidable (xs.Disjoint ys) :=
  decidable_of_iff (∀ s ∈ xs, s ∉ ys) ⟨fun h _ hs => h _ hs, fun h _ hs => h hs⟩

/-- **A deposit**: an expression with its place, the key of the attribute there, and the rendered names
that go with it. -/
structure Deposit where
  place : ResolvedPath
  key : String
  text : String
  node : Option String
  client : Option String
  crs : Option String

namespace Deposit

/-- What a deposit does to its attribute. -/
def write (d : Deposit) : AttributeMapping → AttributeMapping := Cell.write d.place d.text d.node d.client d.crs

/-- The parts of its attribute that a deposit sets. -/
def parts (d : Deposit) : List (Field × Option String × Option String) :=
  match d.place.placement with
  | .element =>
    (.value, some d.text, d.node) :: (d.crs.map (fun crs => (Field.client "srsName", some crs, none))).toList
  | .identifier => [(.identifier, some d.text, none)]
  | .clientProperty _ => [(.client (d.client.getD ""), some d.text, none)]

/-- The slots of a deposit. -/
def slots (d : Deposit) : List Slot := d.parts.map (fun p => ⟨d.place.owner, d.key, p.1⟩)

/-- What a deposit does to the content of its attribute. -/
def revise (d : Deposit) (x : Content) : Content :=
  ⟨x.multiple || d.place.isMultiple, fun f => (d.parts.lookup f).getD (x.parts f), x.rest⟩

theorem content_write (d : Deposit) (a : AttributeMapping) : (d.write a).content = d.revise a.content := by
  -- a client property is looked up by its name among the parts that are set
  have hclient : ∀ (name value n : String) (x : AttributeMapping),
      ((x.setClientProperty name value).clientProperty? n, (none : Option String)) =
        (([(Field.client name, some value, none)] : List (Field × Option String × Option String)).lookup
          (.client n)).getD (x.clientProperty? n, none) := by
    intro name value n x
    rw [AttributeMapping.clientProperty?_setClientProperty]
    by_cases hn : n = name
    · simp [hn]
    · have hother : (Field.client n == Field.client name) = false := by simpa using hn
      simp [List.lookup_cons, hn, hother]
  unfold write Cell.write revise parts
  cases d.place.placement with
  | element =>
    cases d.crs with
    | none =>
      refine Content.mk.injEq .. |>.mpr ⟨rfl, funext fun f => ?_, rfl⟩
      cases f <;> rfl
    | some crs =>
      refine Content.mk.injEq .. |>.mpr ⟨rfl, funext fun f => ?_, rfl⟩
      cases f with
      | value => rfl
      | identifier => rfl
      | client n => exact hclient "srsName" crs n _
  | identifier =>
    refine Content.mk.injEq .. |>.mpr ⟨rfl, funext fun f => ?_, rfl⟩
    cases f <;> rfl
  | clientProperty name =>
    refine Content.mk.injEq .. |>.mpr ⟨rfl, funext fun f => ?_, rfl⟩
    cases f with
    | value => rfl
    | identifier => rfl
    | client n => exact hclient (d.client.getD "") d.text n _

variable {d e : Deposit}

theorem mem_fields {f : Field} {v : Option String × Option String} (h : d.parts.lookup f = some v) :
    f ∈ d.parts.map Prod.fst := by
  obtain ⟨before, after, hsplit, -⟩ := List.lookup_eq_some_iff.1 h
  rw [hsplit]
  simp

/-- **Deposits in different parts of an attribute commute.** -/
theorem revise_comm (h : (d.parts.map Prod.fst).Disjoint (e.parts.map Prod.fst)) (x : Content) :
    e.revise (d.revise x) = d.revise (e.revise x) := by
  have hmultiple := Bool.or_right_comm x.multiple d.place.isMultiple e.place.isMultiple
  have hparts : ∀ f, (e.parts.lookup f).getD ((d.parts.lookup f).getD (x.parts f)) =
      (d.parts.lookup f).getD ((e.parts.lookup f).getD (x.parts f)) := by
    intro f
    cases hd : d.parts.lookup f with
    | none => rfl
    | some v =>
      cases he : e.parts.lookup f with
      | none => rfl
      | some w => exact absurd (mem_fields he) (h (mem_fields hd))
  unfold revise
  simp only [hmultiple, hparts]

/-- **Putting a deposit** among the contents of attributes; an attribute that is not there yet begins
with its target. -/
def put (view : QName → String → Option Content) (d : Deposit) : QName → String → Option Content :=
  fun t k =>
    if t = d.place.owner ∧ k = d.key then
      some (d.revise ((view d.place.owner d.key).getD (ofTarget d.key).content))
    else view t k

theorem slots_disjoint (h : d.slots.Disjoint e.slots) (howner : e.place.owner = d.place.owner)
    (hkey : e.key = d.key) : (d.parts.map Prod.fst).Disjoint (e.parts.map Prod.fst) := by
  intro f hd he
  obtain ⟨p, hp, rfl⟩ := List.mem_map.1 hd
  obtain ⟨q, hq, hpq⟩ := List.mem_map.1 he
  refine h (List.mem_map.2 ⟨p, hp, rfl⟩) (List.mem_map.2 ⟨q, hq, ?_⟩)
  rw [howner, hkey, hpq]

/-- **Deposits with disjoint slots commute.** -/
theorem put_comm (h : d.slots.Disjoint e.slots) (view : QName → String → Option Content) :
    put (put view d) e = put (put view e) d := by
  funext t k
  unfold put
  by_cases hsame : e.place.owner = d.place.owner ∧ e.key = d.key
  · -- both go to one attribute, in different parts of it
    obtain ⟨howner, hkey⟩ := hsame
    rw [howner, hkey]
    simp only [and_self, if_true, Option.getD_some]
    split
    · rw [revise_comm (slots_disjoint h howner hkey)]
    · rfl
  · have hother : ¬ (d.place.owner = e.place.owner ∧ d.key = e.key) := fun ⟨ho, hk⟩ => hsame ⟨ho.symm, hk.symm⟩
    simp only [hsame, hother, if_false]
    by_cases hd : t = d.place.owner ∧ k = d.key
    · have he : ¬ (t = e.place.owner ∧ k = e.key) := by
        rintro ⟨ho, hk⟩
        exact hsame ⟨ho.symm.trans hd.1, hk.symm.trans hd.2⟩
      rw [if_neg he, if_pos hd, if_pos hd]
    · rw [if_neg hd, if_neg hd]

/-- **Deposits in any order.** If their slots are pairwise disjoint, the contents are the same in the
end. -/
theorem foldl_put {ds es : List Deposit} (h : ds.Perm es)
    (hd : ds.Pairwise (fun d e => d.slots.Disjoint e.slots)) (view : QName → String → Option Content) :
    ds.foldl put view = es.foldl put view := by
  have : Std.Symm (fun d e : Deposit => d.slots.Disjoint e.slots) := ⟨fun _ _ h _ he hd => h hd he⟩
  refine h.foldl_eq' (fun d hmem e hmem' view => ?_) view
  by_cases hde : d = e
  · rw [hde]
  · exact put_comm (hd.forall hmem hmem' hde) view

end Deposit

/-! ## Contents of a registry -/

namespace Registry

/-- **The contents of the attributes** of a registry. -/
def contents (r : Registry) : QName → String → Option Content :=
  fun t k => (r.attribute? t k).map AttributeMapping.content

/-- A deposit in a registry is put among its contents. -/
theorem contents_changed {r s : Registry} {d : Deposit}
    (h : s.attribute? = changed r.attribute? d.place.owner d.key d.write) : s.contents = d.put r.contents := by
  funext t k
  unfold contents Deposit.put
  rw [h]
  unfold changed
  split
  · show some (d.write ((r.attribute? d.place.owner d.key).getD (ofTarget d.key))).content =
      some (d.revise (((r.attribute? d.place.owner d.key).map AttributeMapping.content).getD _))
    rw [Deposit.content_write]
    cases r.attribute? d.place.owner d.key <;> rfl
  · rfl

end Registry

/-! ## Mappings with the same contents -/

/-- **Alike mappings** are of the same types, and their attributes are alike up to order. -/
structure TypeMapping.Alike (m n : TypeMapping) : Prop where
  source : m.sourceType = n.sourceType
  element : m.targetElement = n.targetElement
  attributes : ∃ l, List.Forall₂ AttributeMapping.Alike m.attributes l ∧ l.Perm n.attributes

namespace MappingEntry

variable {e e' : MappingEntry}

/-- The attributes of a sound entry are found by their targets. -/
theorem Sound.attribute?_eq_some (h : e.Sound) {key : String} {x : AttributeMapping} :
    e.attribute? key = some x ↔ x ∈ e.mapping.attributes ∧ x.targetAttribute = key := by
  rw [h.attribute?_eq]
  unfold TypeMapping.attribute?
  constructor
  · intro hx
    exact ⟨List.mem_of_find?_eq_some hx, by simpa using List.find?_some hx⟩
  · rintro ⟨hx, rfl⟩
    obtain ⟨y, hy⟩ : ∃ y, e.mapping.attributes.find? (fun y => y.targetAttribute == x.targetAttribute) = some y :=
      Option.isSome_iff_exists.1 (List.find?_isSome.2 ⟨x, hx, by simp⟩)
    have htarget : y.targetAttribute = x.targetAttribute := by simpa using List.find?_some hy
    rw [hy, List.inj_on_of_nodup_map h.owners.nodup (List.mem_of_find?_eq_some hy) hx htarget]

/-- **Entries with the same contents** have the same attributes, alike and up to order. -/
theorem Sound.attributes_alike (h : e.Sound) (h' : e'.Sound)
    (hc : ∀ key, (e.attribute? key).map AttributeMapping.content = (e'.attribute? key).map AttributeMapping.content) :
    ∃ l, List.Forall₂ AttributeMapping.Alike e.mapping.attributes l ∧ l.Perm e'.mapping.attributes := by
  -- each attribute goes to the one with the same target
  have twin : ∀ x ∈ e.mapping.attributes, ∃ y, e'.attribute? x.targetAttribute = some y ∧ x.Alike y := by
    intro x hx
    have hkey := hc x.targetAttribute
    rw [h.attribute?_eq_some.2 ⟨hx, rfl⟩, Option.map_some] at hkey
    obtain ⟨y, hy, hcontent⟩ := Option.map_eq_some_iff.1 hkey.symm
    exact ⟨y, hy, (h.attributes x hx).alike (h'.attributes y (h'.attribute?_eq_some.1 hy).1) hcontent.symm⟩
  let partner : AttributeMapping → AttributeMapping := fun x => (e'.attribute? x.targetAttribute).getD x
  have hpartner : ∀ x ∈ e.mapping.attributes, e'.attribute? x.targetAttribute = some (partner x) ∧
      x.Alike (partner x) := by
    intro x hx
    obtain ⟨y, hy, hxy⟩ := twin x hx
    have hsame : partner x = y := by simp only [partner, hy, Option.getD_some]
    rw [hsame]
    exact ⟨hy, hxy⟩
  refine ⟨e.mapping.attributes.map partner,
    List.forall₂_map_right_iff.2 (List.forall₂_same.2 fun x hx => (hpartner x hx).2), ?_⟩
  have htargets : (e.mapping.attributes.map partner).map AttributeMapping.targetAttribute = e.targets := by
    rw [List.map_map]
    exact List.map_congr_left fun x hx => (h'.attribute?_eq_some.1 (hpartner x hx).1).2
  have hnodup : (e.mapping.attributes.map partner).Nodup :=
    List.Nodup.of_map AttributeMapping.targetAttribute (htargets ▸ h.owners.nodup)
  refine (List.perm_ext_iff_of_nodup hnodup h'.owners.nodup.of_map).2 fun y => ⟨fun hy => ?_, fun hy => ?_⟩
  · obtain ⟨x, hx, rfl⟩ := List.mem_map.1 hy
    exact (h'.attribute?_eq_some.1 (hpartner x hx).1).1
  · have hkey := hc y.targetAttribute
    rw [h'.attribute?_eq_some.2 ⟨hy, rfl⟩, Option.map_some] at hkey
    obtain ⟨x, hx, -⟩ := Option.map_eq_some_iff.1 hkey
    obtain ⟨hmem, htarget⟩ := h.attribute?_eq_some.1 hx
    refine List.mem_map.2 ⟨x, hmem, Option.some.inj ?_⟩
    rw [← (hpartner x hmem).1, htarget]
    exact h'.attribute?_eq_some.2 ⟨hy, rfl⟩

end MappingEntry

namespace Registry

variable {env : Environment} {base r s : Registry}

theorem Tables.attribute?_of_mem (h : Tables env r) {e : MappingEntry} (he : e ∈ r.entries) (key : String) :
    r.attribute? e.targetType key = e.attribute? key := by
  unfold Registry.attribute?
  rw [h.keyed.held?_eq_some.2 ⟨he, rfl⟩, Option.bind_some]

/-- **Registries that extend one another registry** by no new mapped types, and have the same contents,
have alike documents. -/
theorem Tables.mappings_alike (hr : Tables env r) (hs : Tables env s) (hbr : base.Extends r) (hbs : base.Extends s)
    (hrt : r.mappedTypes = base.mappedTypes) (hst : s.mappedTypes = base.mappedTypes)
    (hc : r.contents = s.contents) :
    List.Forall₂ TypeMapping.Alike r.document.mappings s.document.mappings := by
  unfold Registry.document
  rw [List.forall₂_map_left_iff, List.forall₂_map_right_iff, List.forall₂_iff_get]
  have hlength : ∀ {t : Registry}, t.mappedTypes = base.mappedTypes → t.entries.length = base.entries.length := by
    intro t ht
    have := congrArg List.length ht
    simpa [mappedTypes] using this
  refine ⟨(hlength hrt).trans (hlength hst).symm, fun i hi hi' => ?_⟩
  -- the entry of the registry that both extend stands at the same position
  have hib : i < base.entries.length := by rw [← hlength hrt]; exact hi
  obtain ⟨e, he, hbe⟩ := hbr.entries i base.entries[i] (List.getElem?_eq_getElem hib)
  obtain ⟨e', he', hbe'⟩ := hbs.entries i base.entries[i] (List.getElem?_eq_getElem hib)
  have hget : r.entries.get ⟨i, hi⟩ = e := by
    rw [List.getElem?_eq_getElem hi] at he
    exact Option.some.inj he
  have hget' : s.entries.get ⟨i, hi'⟩ = e' := by
    rw [List.getElem?_eq_getElem hi'] at he'
    exact Option.some.inj he'
  rw [hget, hget']
  have hmem := List.mem_of_getElem? he
  have hmem' := List.mem_of_getElem? he'
  refine ⟨hbe.source.trans hbe'.source.symm, hbe.element.trans hbe'.element.symm, ?_⟩
  refine (hr.entries e hmem).attributes_alike (hs.entries e' hmem') fun key => ?_
  have hkey := congrFun (congrFun hc e.targetType) key
  unfold contents at hkey
  rw [hr.attribute?_of_mem hmem] at hkey
  rw [hbe.target.trans hbe'.target.symm, hs.attribute?_of_mem hmem'] at hkey
  exact hkey

end Registry

end FeatureAlignment
