import FeatureAlignment.Proofs.Path.Steps
import FeatureAlignment.Proofs.Schema.Nodes

/-!
# The way to a nested feature

From a feature type the way goes along elements that stay in it, with groups left out, up to an
element of another feature type. In a schema where names are unambiguous the segments of such a way
are steps that lead along it again.

* `SchemaIndex.Unambiguous`: names tell the nodes of each type apart.
* `SchemaIndex.Plain`: no geometries, and names that tell the nodes of each type apart.
* `SchemaIndex.Along`, `SchemaIndex.Holds`: a way within a type, and one to a nested feature.
* `SchemaIndex.Plain.told`: every path that is followed tells such a way.
* `SchemaIndex.Plain.resolve_way`: the segments of the way and one more step resolve, with the crossing
  from its end.
-/

namespace FeatureAlignment

/-- The step to a segment. -/
def Segment.step (s : Segment) : PathStep := ⟨s.name, s.index, none⟩

namespace SchemaIndex

/-- **A schema in which names are unambiguous**: the local names of all nodes of a type are pairwise distinct. -/
def Unambiguous (index : SchemaIndex) : Prop := ∀ t ∈ index.types, Child.Distinct t.children

/-- **A plain schema** has no geometries, and the local names of all nodes of a type are pairwise
distinct. -/
structure Plain (index : SchemaIndex) : Prop where
  geometry : ∀ t ∈ index.types, t.geometry = false
  distinct : ∀ t ∈ index.types, Child.Distinct t.children

/-- **A way within a type**, from its root to the children behind the last segment. Each segment is
an element that stays in the type, among the nodes behind the one before. -/
inductive Along (index : SchemaIndex) (t : TypeDefinition) : List Segment → List Child → Prop
  | here : Along index t [] t.children
  | element (segments : List Segment) (children : List Child) (e : PropertyDefinition) (i : Option UInt64) :
      Along index t segments children → .property e ∈ Child.nodesAmong children → e.isAttribute = false →
      index.StaysIn t.name e → Along index t (segments ++ [⟨e.name, i⟩]) (index.propertyChildren e)

/-- **A way to a nested feature**: behind the segments there is an element of another feature type. -/
inductive Holds (index : SchemaIndex) (t : TypeDefinition) (segments : List Segment)
    (nested : TypeDefinition) : Prop
  | intro (children : List Child) (e : PropertyDefinition) :
      Along index t segments children → .property e ∈ Child.nodesAmong children → e.isAttribute = false →
      index.propertyType? e = some nested → nested.feature = true → nested.name ≠ t.name →
      Holds index t segments nested

/-- **An element of a schema**: a property among the nodes of one of its types, and no XML attribute. -/
def Element (index : SchemaIndex) (e : PropertyDefinition) : Prop :=
  e.isAttribute = false ∧ ∃ t ∈ index.types, .property e ∈ Child.nodesAmong t.children

variable {index : SchemaIndex} {t nested : TypeDefinition} {root : QName} {segments : List Segment}
  {children : List Child} {e : PropertyDefinition} {p q : Position}

theorem Plain.propertyType?_geometry (hp : index.Plain) (e : PropertyDefinition) :
    ((index.propertyType? e).map TypeDefinition.geometry).getD false = false := by
  cases ht : index.propertyType? e with
  | none => rfl
  | some t => exact hp.geometry t (mem_of_get? (propertyType?_get? ht))

theorem Unambiguous.propertyChildren (hu : index.Unambiguous) (e : PropertyDefinition) :
    Child.Distinct (index.propertyChildren e) := by
  unfold SchemaIndex.propertyChildren
  cases ht : index.propertyType? e with
  | none => exact List.nodup_nil
  | some t => exact hu t (mem_of_get? (propertyType?_get? ht))

theorem Plain.unambiguous (hp : index.Plain) : index.Unambiguous := hp.distinct

theorem Along.distinct (hp : index.Plain) (ht : index.get? root = some t)
    (h : index.Along t segments children) : Child.Distinct children := by
  cases h with
  | here => exact hp.distinct t (mem_of_get? ht)
  | element segments children e i _ _ _ _ => exact hp.unambiguous.propertyChildren e

/-- What is behind a segment are nodes of some type. -/
theorem Along.element_of_mem (ht : index.get? root = some t) (h : index.Along t segments children)
    (he : .property e ∈ Child.nodesAmong children) (ha : e.isAttribute = false) : index.Element e := by
  refine ⟨ha, ?_⟩
  cases h with
  | here => exact ⟨t, mem_of_get? ht, he⟩
  | element segments children d i _ _ _ _ =>
    unfold SchemaIndex.propertyChildren at he
    cases hd : index.propertyType? d with
    | none => rw [hd] at he; cases he
    | some u =>
      rw [hd] at he
      exact ⟨u, mem_of_get? (propertyType?_get? hd), he⟩

end SchemaIndex

namespace Position

open SchemaIndex (Along Holds Plain)

variable {index : SchemaIndex} {t nested : TypeDefinition} {p q : Position} {s : PathStep}
  {segments : List Segment} {children : List Child} {e : PropertyDefinition}

/-- An element that is no geometry takes its own name as the next segment. -/
theorem enterElement_plain {type : Option TypeDefinition}
    (hg : (type.map TypeDefinition.geometry).getD false = false) (cs : List Child) (head : Option QName)
    (i : Option UInt64) :
    (p.enterElement e type cs head i).segments = p.segments ++ [⟨e.name, i⟩] ∧
      (p.enterElement e type cs head i).ending = p.ending := by
  unfold enterElement
  rw [hg]
  cases head.or p.head with
  | none => exact ⟨rfl, rfl⟩
  | some name => exact ⟨rfl, rfl⟩

/-! ## What a path tells -/

/-- **A position in the type where the path began**: behind the segments so far, in the last element
or in one of its groups. -/
structure Stays (index : SchemaIndex) (t : TypeDefinition) (p : Position) : Prop where
  owner : p.owner = t.name
  way : ∃ children, index.Along t p.segments children ∧
    Child.nodesAmong p.children ⊆ Child.nodesAmong children ∧
    ∀ e, p.parent = some e → children = index.propertyChildren e

/-- **What the path to a position tells** about the type where it began: the position is in it as long
as nothing is crossed, and the first crossing is at the end of a way to its nested type. -/
structure Tells (index : SchemaIndex) (t : TypeDefinition) (p : Position) : Prop where
  inside : p.crossings = [] → p.Stays index t
  first : ∀ x, p.crossings.head? = some x → ∃ nested, index.Holds t x.segments nested ∧ x.nested = nested.name

theorem tells_start (index : SchemaIndex) (t : TypeDefinition) : (start t).Tells index t where
  inside := fun _ => ⟨rfl, t.children, .here, fun _ h => h, fun e he => by cases he⟩
  first := fun x hx => by cases hx

theorem Tells.step (hp : index.Plain) (h : p.Tells index t) (hs : p.step? index s = some q) :
    q.Tells index t := by
  cases step?_eq_some.1 hs with
  | group found header cs hfound hc =>
    -- the nodes of a group are nodes of the children that it is among
    have hmem := (Child.locate?_node hfound.2).1
    rw [hc] at hmem
    have hsub : Child.nodesAmong cs ⊆ Child.nodesAmong p.children := Child.nodesAmong_subset _ hmem
    refine ⟨fun hx => ?_, h.first⟩
    obtain ⟨howner, children, halong, hchildren, hparent⟩ := h.inside hx
    exact ⟨howner, children, halong, List.Subset.trans hsub hchildren, hparent⟩
  | ending found a _ _ _ =>
    refine ⟨fun hx => ?_, h.first⟩
    obtain ⟨howner, children, halong, hchildren, hparent⟩ := h.inside hx
    exact ⟨howner, children, halong, hchildren, hparent⟩
  | crossing found e nested hfound hc ha ht hf hne =>
    have hmem := (Child.locate?_node hfound.2).1
    rw [hc] at hmem
    refine ⟨fun hx => absurd hx (by simp [cross]), fun x hx => ?_⟩
    cases hcrossings : p.crossings with
    | cons y ys => exact h.first x (by rw [← hx]; simp [cross, noted, guard, repeating, hcrossings])
    | nil =>
      obtain ⟨howner, children, halong, hchildren, -⟩ := h.inside hcrossings
      have hfirst : x = ⟨p.owner, p.segments, nested.name, nested.elementName⟩ := by
        simpa [cross, noted, guard, repeating, hcrossings] using hx.symm
      subst hfirst
      exact ⟨nested, .intro children e halong (hchildren hmem) ha ht hf (howner ▸ hne), rfl⟩
  | element found e hfound hc ha hstays =>
    have hmem := (Child.locate?_node hfound.2).1
    rw [hc] at hmem
    obtain ⟨howner', hcrossings⟩ := (p.noted s found).enterElement_crossings e (index.propertyType? e)
      (index.propertyChildren e) found.head s.index
    obtain ⟨hsegments, -⟩ := enterElement_plain (p := p.noted s found) (e := e) (hp.propertyType?_geometry e)
      (index.propertyChildren e) found.head s.index
    refine ⟨fun hx => ?_, fun x hx => h.first x (by rw [hcrossings] at hx; exact hx)⟩
    rw [hcrossings] at hx
    obtain ⟨howner, children, halong, hchildren, -⟩ := h.inside hx
    refine ⟨howner'.trans howner, index.propertyChildren e, ?_, fun _ h => h, ?_⟩
    · rw [hsegments]
      exact .element _ children e _ halong (hchildren hmem) ha (howner ▸ hstays)
    · intro e' he'
      cases he'
      rfl

end Position

namespace SchemaIndex

variable {index : SchemaIndex} {t nested : TypeDefinition} {root : QName} {segments : List Segment}
  {children : List Child} {e : PropertyDefinition} {p q : Position}

/-- **Every path tells a way.** -/
theorem Plain.told (hp : index.Plain) (h : p.Tells index t) {steps : List PathStep}
    (hs : steps.foldlM (Position.step? index) p = some q) : q.Tells index t :=
  Position.foldlM_keeps (fun h hs => Position.Tells.step hp h hs) h hs

/-! ## Following a way again -/

/-- A step by its name finds the node of this name. -/
theorem Plain.finds (hp : index.Plain) (ht : index.get? root = some t) (h : index.Along t segments children)
    (he : .property e ∈ Child.nodesAmong children) (hq : q.children = children) (hend : q.ending = none)
    (i : Option UInt64) : ∃ found, q.Finds (Segment.step ⟨e.name, i⟩) found ∧ found.child = .property e := by
  obtain ⟨found, hfound, hchild⟩ := (h.distinct hp ht).locate? he
  refine ⟨found, ⟨hend, ?_⟩, hchild⟩
  rw [hq]
  exact hfound

/-- **The segments of a way lead along it.** -/
theorem Plain.follow_way (hp : index.Plain) (ht : index.get? root = some t)
    (h : index.Along t segments children) :
    ∃ q, (segments.map Segment.step).foldlM (Position.step? index) (.start t) = some q ∧
      q.owner = t.name ∧ q.children = children ∧ q.segments = segments ∧ q.crossings = [] ∧
      q.ending = none := by
  induction h with
  | here => exact ⟨.start t, rfl, rfl, rfl, rfl, rfl, rfl⟩
  | element segments children e i halong he ha hstays ih =>
    obtain ⟨q, hq, howner, hchildren, hsegments, hcrossings, hend⟩ := ih
    obtain ⟨found, hfound, hchild⟩ := hp.finds ht halong he hchildren hend i
    have hstep := Position.step?_eq_some.2
      (.element found e hfound hchild ha (howner ▸ hstays : index.StaysIn q.owner e))
    obtain ⟨howner', hcrossings'⟩ := (q.noted (Segment.step ⟨e.name, i⟩) found).enterElement_crossings e
      (index.propertyType? e) (index.propertyChildren e) found.head i
    obtain ⟨hsegments', hend'⟩ := Position.enterElement_plain (p := q.noted (Segment.step ⟨e.name, i⟩) found)
      (e := e) (hp.propertyType?_geometry e) (index.propertyChildren e) found.head i
    refine ⟨_, ?_, howner'.trans howner, rfl, ?_, hcrossings'.trans hcrossings, hend'.trans hend⟩
    · rw [List.map_append]
      exact (Position.foldlM_concat hq _).trans hstep
    · rw [← hsegments]
      exact hsegments'

/-- **A way to a nested feature resolves**: its segments, and a step to the element behind them. The
only crossing is the one into the nested type, from the end of the way. -/
theorem Plain.resolve_way (hp : index.Plain) (ht : index.get? root = some t)
    (h : index.Holds t segments nested) :
    ∃ e, index.Element e ∧ index.propertyType? e = some nested ∧
      ∃ place, index.resolve root (segments.map Segment.step ++ [⟨e.name, none, none⟩]) = .ok place ∧
        place.crossings = [⟨root, segments, nested.name, nested.elementName⟩] := by
  cases h with
  | intro children e halong he ha htype hf hne =>
    obtain ⟨q, hq, howner, hchildren, hsegments, hcrossings, hend⟩ := hp.follow_way ht halong
    obtain ⟨found, hfound, hchild⟩ := hp.finds ht halong he hchildren hend none
    have hstep := Position.step?_eq_some.2
      (.crossing found e nested hfound hchild ha htype hf (howner ▸ hne : nested.name ≠ q.owner))
    have hroot : q.owner = root := howner.trans (get?_name ht)
    refine ⟨e, halong.element_of_mem ht he ha, htype,
      ((q.noted (Segment.step ⟨e.name, none⟩) found).cross nested).place,
      resolve_eq_ok.2 ⟨by simp, t, _, ht, (Position.foldlM_concat hq _).trans hstep, rfl⟩, ?_⟩
    show q.crossings ++ [⟨q.owner, q.segments, nested.name, nested.elementName⟩] = _
    rw [hcrossings, hroot, hsegments, List.nil_append]

end SchemaIndex

end FeatureAlignment
