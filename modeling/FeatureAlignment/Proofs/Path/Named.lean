import FeatureAlignment.Proofs.Path.Steps
import FeatureAlignment.Proofs.Schema.Nodes

/-!
# Names on a path

A path takes its names from the schema: those of its segments, of the type that stands for an
abstract element, and of the XML attribute at its end.

* `SchemaIndex.names`: all names in a schema.
* `Position.Named`: the names that a position has taken are in the schema; `Named.step` keeps it.
* `SchemaIndex.named_resolve`: so are the names of a resolved place.
-/

namespace FeatureAlignment

variable {index : SchemaIndex} {p q : Position} {s : PathStep} {t : TypeDefinition}

namespace Child

/-- The names that a child mentions itself: its own, and the type of a property or the abstract
element of a group. -/
def mentions : Child → List QName
  | .property p => p.name :: p.type.toList
  | .group header _ => header.name :: header.substitutionHead.toList

variable {name : QName}

/-- **A skipped head is mentioned** by a group among the nodes. -/
theorem locate?_head {children : List Child} {found : Located} (h : locate? children name = some found) :
    ∀ n ∈ found.head, ∃ c ∈ nodesAmong children, n ∈ c.mentions := by
  obtain ⟨headers, hsite, hwithin, -⟩ := locate?_site h
  intro n hn
  rw [hwithin] at hn
  obtain ⟨header, hheader, hhead⟩ := GroupHeader.innermostHead?_some hn
  obtain ⟨inner, hgroup⟩ := site_header children hsite header hheader
  exact ⟨_, hgroup, List.mem_cons_of_mem _ (Option.mem_toList.2 hhead)⟩

end Child

namespace SchemaIndex

/-- **The names in a schema**: those of its types and of their elements, and all that their nodes
mention. -/
def names (index : SchemaIndex) : List QName :=
  index.types.flatMap (fun t =>
    t.name :: (t.element.toList ++ (Child.nodesAmong t.children).flatMap Child.mentions))

theorem elementName_mem (h : t ∈ index.types) : t.elementName ∈ index.names := by
  refine List.mem_flatMap.2 ⟨t, h, ?_⟩
  unfold TypeDefinition.elementName
  cases t.element <;> simp

theorem mentions_subset (h : t ∈ index.types) {c : Child} (hc : c ∈ Child.nodesAmong t.children) :
    c.mentions ⊆ index.names := fun _ hn =>
  List.mem_flatMap.2 ⟨t, h, List.mem_cons_of_mem _ (List.mem_append_right _ (List.mem_flatMap.2 ⟨c, hc, hn⟩))⟩

/-- The nodes below a property mention names of the schema. -/
theorem propertyChildren_subset (e : PropertyDefinition) :
    ∀ c ∈ Child.nodesAmong (index.propertyChildren e), c.mentions ⊆ index.names := by
  unfold propertyChildren
  cases ht : index.propertyType? e with
  | none => intro c hc; cases hc
  | some u => intro c hc; exact mentions_subset (mem_of_get? (propertyType?_get? ht)) hc

end SchemaIndex

namespace Position

/-- **A position with names of the schema**, in what it has come by and in what is before it. -/
structure Named (index : SchemaIndex) (p : Position) : Prop where
  children : ∀ c ∈ Child.nodesAmong p.children, c.mentions ⊆ index.names
  segments : ∀ s ∈ p.segments, s.name ∈ index.names
  node : ∀ n ∈ p.node, n ∈ index.names
  head : ∀ n ∈ p.head, n ∈ index.names
  ending : ∀ a ∈ p.ending, a.name ∈ index.names

theorem named_start (h : t ∈ index.types) : (start t).Named index where
  children := fun _ hc => SchemaIndex.mentions_subset h hc
  segments := fun _ hs => by cases hs
  node := fun _ hn => by cases hn
  head := fun _ hn => by cases hn
  ending := fun _ ha => by cases ha

theorem Named.enterElement (h : p.Named index) {e : PropertyDefinition}
    (he : (Child.property e).mentions ⊆ index.names) {head : Option QName}
    (hhead : ∀ n ∈ head, n ∈ index.names) (type : Option TypeDefinition) (i : Option UInt64) :
    (p.enterElement e type (index.propertyChildren e) head i).Named index := by
  have hname : e.name ∈ index.names := he List.mem_cons_self
  have htype : ∀ n ∈ e.type, n ∈ index.names := fun n hn => he (List.mem_cons_of_mem _ (Option.mem_toList.2 hn))
  -- the next segment is the element itself, or the abstract element for which it stands
  have pushed : ∀ n ∈ index.names, ∀ s ∈ p.segments ++ [⟨n, i⟩], s.name ∈ index.names := by
    intro n hn s hs
    rcases List.mem_append.1 hs with hs | hs
    · exact h.segments s hs
    · rw [List.mem_singleton.1 hs]; exact hn
  have no_name : ∀ n ∈ (none : Option QName), n ∈ index.names := fun _ hn => by cases hn
  have plain : ∀ {q : Position}, q.children = index.propertyChildren e → q.segments = p.segments ++ [⟨e.name, i⟩] →
      q.node = none → q.head = none → q.ending = p.ending → q.Named index := by
    intro q hc hs hn hh ha
    refine ⟨?_, ?_, ?_, ?_, ?_⟩
    · rw [hc]; exact SchemaIndex.propertyChildren_subset e
    · rw [hs]; exact pushed e.name hname
    · rw [hn]; exact no_name
    · rw [hh]; exact no_name
    · rw [ha]; exact h.ending
  unfold Position.enterElement
  cases hstep : head.or p.head with
  | none => exact plain rfl rfl rfl rfl rfl
  | some name =>
    have hstand : name ∈ index.names := by
      rcases Option.or_eq_some_iff.1 hstep with hn | ⟨-, hn⟩
      · exact hhead name hn
      · exact h.head name hn
    cases (type.map TypeDefinition.geometry).getD false with
    | false => exact plain rfl rfl rfl rfl rfl
    | true =>
      cases hfolded : p.isFolded with
      | true =>
        simp only [if_true]
        exact ⟨SchemaIndex.propertyChildren_subset e, h.segments, htype, no_name, h.ending⟩
      | false =>
        simp only [Bool.false_eq_true, if_false, if_true]
        exact ⟨SchemaIndex.propertyChildren_subset e, pushed name hstand, htype, no_name, h.ending⟩

/-- **A step takes names of the schema only.** -/
theorem Named.step (h : p.Named index) (hs : p.step? index s = some q) : q.Named index := by
  -- the child that is found is a node, and the heads of skipped groups are mentioned by nodes
  have found_mem : ∀ {found : Located}, p.Finds s found → found.child ∈ Child.nodesAmong p.children :=
    fun hfound => (Child.locate?_node hfound.2).1
  have head_mem : ∀ {found : Located}, p.Finds s found → ∀ n ∈ found.head, n ∈ index.names := by
    intro found hfound n hn
    obtain ⟨c, hc, hnc⟩ := Child.locate?_head hfound.2 n hn
    exact h.children c hc hnc
  have noted : ∀ found, (p.noted s found).Named index :=
    fun _ => ⟨h.children, h.segments, h.node, h.head, h.ending⟩
  cases step?_eq_some.1 hs with
  | group found header cs hfound hc =>
    have hmem := found_mem hfound
    rw [hc] at hmem
    refine ⟨fun c hc' => h.children c (Child.nodesAmong_subset _ hmem hc'), h.segments, h.node, ?_, h.ending⟩
    intro n hn
    rcases Option.or_eq_some_iff.1 hn with hn | ⟨-, hn⟩
    · rcases Option.or_eq_some_iff.1 hn with hn | ⟨-, hn⟩
      · exact h.children _ hmem (List.mem_cons_of_mem _ (Option.mem_toList.2 hn))
      · exact head_mem hfound n hn
    · exact h.head n hn
  | ending found a hfound hc _ =>
    have hmem := found_mem hfound
    rw [hc] at hmem
    refine ⟨h.children, h.segments, h.node, h.head, fun b hb => ?_⟩
    cases hb
    exact h.children _ hmem List.mem_cons_self
  | crossing found e nested _ _ _ ht _ _ =>
    have hstart := named_start (SchemaIndex.mem_of_get? (SchemaIndex.propertyType?_get? ht))
    exact ⟨hstart.children, hstart.segments, hstart.node, hstart.head, hstart.ending⟩
  | element found e hfound hc _ _ =>
    have hmem := found_mem hfound
    rw [hc] at hmem
    exact (noted found).enterElement (h.children _ hmem) (head_mem hfound) _ _

end Position

/-- **A place with names of the schema.** -/
structure ResolvedPath.Named (index : SchemaIndex) (place : ResolvedPath) : Prop where
  segments : ∀ s ∈ place.segments, s.name ∈ index.names
  node : ∀ n ∈ place.node, n ∈ index.names
  client : ∀ n, place.placement = .clientProperty n → n ∈ index.names

/-- **Resolved places have names of the schema.** -/
theorem SchemaIndex.named_resolve {root : QName} {steps : List PathStep} {place : ResolvedPath}
    (h : index.resolve root steps = .ok place) : place.Named index := by
  obtain ⟨-, t, p, ht, hp, rfl⟩ := resolve_eq_ok.1 h
  have hend := Position.foldlM_keeps (fun h hs => Position.Named.step h hs)
    (Position.named_start (mem_of_get? ht)) hp
  refine ⟨hend.segments, hend.node, fun n hn => ?_⟩
  change p.placement = .clientProperty n at hn
  unfold Position.placement at hn
  cases ha : p.ending with
  | none => rw [ha] at hn; cases hn
  | some a =>
    rw [ha] at hn
    simp only at hn
    split at hn
    · cases hn
    · cases hn
      exact hend.ending a ha

end FeatureAlignment
