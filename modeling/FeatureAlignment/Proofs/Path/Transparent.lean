import FeatureAlignment.Proofs.Path.Along
import FeatureAlignment.Proofs.Path.Behind

/-!
# Groups on a path

A group may be named by a step or left out. A position that has entered groups and one that has left them out
differ in what they look at next, in the heads that wait, and in the repetition noted so far. Where names tell the
nodes of a type apart, the next property is found from both, and the one that has left out the groups comes across
them then: the heads go together from the inside out and the repetitions are added up. So the two are at the same
place again.

* `Position.LeavesOut`: steps with some that name groups left out.
* `Position.Trails`: a position that has left out groups trails one that has entered them; `Trails.drop` and
  `Trails.keep` have it for a step that is left out and for one that is kept.
* `SchemaIndex.groups_transparent`: a path without group steps ends at the same place.
-/

namespace FeatureAlignment

section

variable {index : SchemaIndex} {root : QName} {p q p' : Position} {s : PathStep} {steps rest : List PathStep}

/-! ## Groups on the way -/

namespace Child

variable {children inner : List Child} {c : Child} {headers outer : List GroupHeader}

/-- **Children of a group** in other groups, the outermost of which comes first, or the children themselves. -/
inductive Inside (children : List Child) : List GroupHeader → List Child → Prop
  | here : Inside children [] children
  | group (outer : List GroupHeader) (header : GroupHeader) (inner : List Child) :
      (.group header inner, outer) ∈ sitesAmong children → Inside children (outer ++ [header]) inner

theorem Inside.site (h : Inside children outer inner) (hc : (c, headers) ∈ sitesAmong inner) :
    (c, outer ++ headers) ∈ sitesAmong children := by
  cases h with
  | here => exact hc
  | group outer header inner hgroup =>
    rw [List.append_assoc]
    exact site_inside children hgroup hc

end Child

namespace Position

open Child (Inside)

/-- **A step that names a group.** -/
def NamesGroup (p : Position) (s : PathStep) : Prop :=
  ∃ found header inner, p.Finds s found ∧ found.child = .group header inner

/-- **Steps with some group steps left out.** A step that is left out names a group, and has neither an index nor
a condition. The last step does not name a group. -/
inductive LeavesOut (index : SchemaIndex) : Position → List PathStep → List PathStep → Prop
  | last (p : Position) (s : PathStep) : ¬ p.NamesGroup s → LeavesOut index p [s] [s]
  | keep (p q : Position) (s : PathStep) (steps rest : List PathStep) :
      p.step? index s = some q → LeavesOut index q steps rest → LeavesOut index p (s :: steps) (s :: rest)
  | drop (p q : Position) (s : PathStep) (steps rest : List PathStep) :
      p.step? index s = some q → p.NamesGroup s → s.index = none → s.condition = none →
      LeavesOut index q steps rest → LeavesOut index p (s :: steps) rest

/-- **A position inside groups**: it looks among other children, the innermost head waits, and the repetition may
be another one. -/
def within (outer : List GroupHeader) (inner : List Child) (repeats : Bool) (q : Position) : Position :=
  { q with
    children := inner
    head := (GroupHeader.innermostHead? outer).or q.head
    isMultiple := repeats }

/-- **The position `q` trails `p`**, which is inside groups that `q` has left out, and otherwise at the same place.
`Plain` is what the steps have to be for the repetitions to agree. -/
inductive Trails (Plain : Prop) (p q : Position) : Prop
  | intro (outer : List GroupHeader) (inner : List Child) (repeats : Bool) :
      Child.Distinct q.children → Inside q.children outer inner → p = q.within outer inner repeats →
      (Plain → repeats = (q.isMultiple || outer.any GroupHeader.repeatable)) → Trails Plain p q

variable {Plain : Prop} {outer headers : List GroupHeader} {inner : List Child} {repeats : Bool} {c : Child}

/-- A position trails itself, also with another repetition: inside no groups. -/
theorem trails_here (hd : Child.Distinct q.children) (repeats : Bool) (hm : Plain → repeats = q.isMultiple) :
    Trails Plain { q with isMultiple := repeats } q := by
  refine .intro [] q.children repeats hd .here rfl fun hplain => ?_
  rw [hm hplain, List.any_nil, Bool.or_false]

theorem trails_refl (hd : Child.Distinct q.children) : Trails Plain q q := trails_here hd q.isMultiple fun _ => rfl

/-- **A step from inside groups is taken from outside**, to the same child. -/
theorem Finds.outside {found : Located} (hd : Child.Distinct q.children) (hi : Inside q.children outer inner)
    (h : (q.within outer inner repeats).Finds s found) (hc : found.child = c) :
    ∃ headers, found = .within headers c ∧ q.Finds s (.within (outer ++ headers) c) ∧
      (c, outer ++ headers) ∈ Child.sitesAmong q.children := by
  subst hc
  obtain ⟨hending, hlocate⟩ := h
  obtain ⟨headers, hsite, hwithin, hanswers⟩ := Child.locate?_site hlocate
  have hsite' := hi.site hsite
  exact ⟨headers, hwithin, ⟨hending, hd.locate?_eq hsite' hanswers⟩, hsite'⟩

theorem noted_within :
    (q.within outer inner repeats).noted s (.within headers c) =
      (q.noted s (.within (outer ++ headers) c)).within outer inner
        (repeats || (headers.any GroupHeader.repeatable && s.index.isNone)) := rfl

/-- The heads of groups around groups, the innermost first, before one that waits. -/
theorem heads_within (head waiting : Option QName) :
    (head.or (GroupHeader.innermostHead? headers)).or ((GroupHeader.innermostHead? outer).or waiting) =
      (head.or (GroupHeader.innermostHead? (outer ++ headers))).or waiting := by
  rw [GroupHeader.innermostHead?_append, Option.or_assoc, Option.or_assoc, Option.or_assoc]

/-- Entering a group from inside groups. -/
theorem enterGroup_within (header : GroupHeader) (cs : List Child) :
    (q.within outer inner repeats).enterGroup header cs (GroupHeader.innermostHead? headers) =
      { q.enterGroup header cs (GroupHeader.innermostHead? (outer ++ headers)) with isMultiple := repeats } := by
  have hhead : (header.substitutionHead.or (GroupHeader.innermostHead? headers)).or
        (q.within outer inner repeats).head =
      (header.substitutionHead.or (GroupHeader.innermostHead? (outer ++ headers))).or q.head :=
    heads_within header.substitutionHead q.head
  unfold enterGroup
  rw [hhead]
  rfl

/-- Entering an element from inside groups. -/
theorem enterElement_within (e : PropertyDefinition) (type : Option TypeDefinition) (children : List Child)
    (i : Option UInt64) :
    (q.within outer inner repeats).enterElement e type children (GroupHeader.innermostHead? headers) i =
      { q.enterElement e type children (GroupHeader.innermostHead? (outer ++ headers)) i with
        isMultiple := repeats || (e.repeatable && i.isNone) } := by
  have hhead : (GroupHeader.innermostHead? headers).or (q.within outer inner repeats).head =
      (GroupHeader.innermostHead? (outer ++ headers)).or q.head := heads_within none q.head
  have hfolded : (q.within outer inner repeats).isFolded = q.isFolded := rfl
  unfold enterElement
  rw [hhead, hfolded]
  cases (GroupHeader.innermostHead? (outer ++ headers)).or q.head with
  | none => rfl
  | some name =>
    cases (type.map TypeDefinition.geometry).getD false with
    | false => rfl
    | true => cases q.isFolded <;> rfl

/-- What a step to a group does. -/
theorem step?_group (hs : p.step? index s = some p') (hgroup : p.NamesGroup s) :
    ∃ found header cs, p.Finds s found ∧ found.child = .group header cs ∧
      p' = ((p.noted s found).repeating (header.repeatable && s.index.isNone)).enterGroup header cs found.head := by
  obtain ⟨found, header, cs, hfound, hc⟩ := hgroup
  have hgroup := step?_eq_some.2 (.group found header cs hfound hc : Taken index p s _)
  rw [hs] at hgroup
  exact ⟨found, header, cs, hfound, hc, Option.some.inj hgroup⟩

/-- **A group step that is left out**: the position trails from further outside. -/
theorem Trails.drop (h : Trails Plain p q) (hs : p.step? index s = some p') (hgroup : p.NamesGroup s)
    (hcondition : s.condition = none) (hindex : s.index = none) : Trails Plain p' q := by
  obtain ⟨outer, inner, repeats, hd, hi, rfl, hm⟩ := h
  obtain ⟨found, header, cs, hfound, hc, rfl⟩ := step?_group hs hgroup
  obtain ⟨headers, rfl, -, hsite⟩ := hfound.outside hd hi hc
  refine .intro (outer ++ headers ++ [header]) cs (repeats || headers.any GroupHeader.repeatable || header.repeatable)
    hd (.group _ header cs hsite) ?_ fun hplain => ?_
  · have hhead : (header.substitutionHead.or (GroupHeader.innermostHead? headers)).or
          ((GroupHeader.innermostHead? outer).or q.head) =
        (GroupHeader.innermostHead? (outer ++ headers ++ [header])).or q.head := by
      rw [GroupHeader.innermostHead?_append]
      exact heads_within header.substitutionHead q.head
    simp only [within, noted, guard, repeating, enterGroup, Located.within, hcondition, hindex, hhead,
      Option.toList_none, List.append_nil, Option.isNone_none, Bool.and_true]
  · rw [hm hplain, List.any_append, List.any_append, List.any_cons, List.any_nil, Bool.or_false]
    simp only [Bool.or_assoc]

/-- **A step that is kept** is taken from both positions. Afterwards the one still trails the other, and the
repetitions agree, for the step has found all groups in between. -/
theorem Trails.keep (hu : index.Unambiguous) (h : Trails Plain p q) (hs : p.step? index s = some p')
    (hplain : Plain → s.index = none) :
    ∃ q', q.step? index s = some q' ∧ Trails Plain p' q' ∧ (Plain → p'.isMultiple = q'.isMultiple) := by
  obtain ⟨outer, inner, repeats, hd, hi, rfl, hm⟩ := h
  -- what is noted of the groups that were entered and of those on the way comes to the same
  have hrepeats : ∀ headers : List GroupHeader, Plain →
      (repeats || (headers.any GroupHeader.repeatable && s.index.isNone)) =
        (q.isMultiple || ((outer ++ headers).any GroupHeader.repeatable && s.index.isNone)) := by
    intro headers hp
    rw [hm hp, hplain hp, List.any_append]
    simp only [Option.isNone_none, Bool.and_true, Bool.or_assoc]
  cases step?_eq_some.1 hs with
  | group found header cs hfound hc =>
    obtain ⟨headers, rfl, hfinds, hsite⟩ := hfound.outside hd hi hc
    have hmultiple : Plain →
        (repeats || (headers.any GroupHeader.repeatable && s.index.isNone) ||
          (header.repeatable && s.index.isNone)) =
        (q.isMultiple || ((outer ++ headers).any GroupHeader.repeatable && s.index.isNone) ||
          (header.repeatable && s.index.isNone)) := fun hp => by rw [hrepeats headers hp]
    refine ⟨_, step?_eq_some.2 (.group _ header cs hfinds rfl), ?_, hmultiple⟩
    change Trails Plain ((((q.noted s (.within (outer ++ headers) (.group header cs))).repeating
      (header.repeatable && s.index.isNone)).within outer inner _).enterGroup header cs _) _
    exact enterGroup_within header cs ▸ trails_here (hd.inside (Child.site_node hsite)) _ hmultiple
  | ending found a hfound hc ha =>
    obtain ⟨headers, rfl, hfinds, -⟩ := hfound.outside hd hi hc
    refine ⟨_, step?_eq_some.2 (.ending _ a hfinds rfl ha), ?_, hrepeats headers⟩
    refine .intro outer inner (repeats || (headers.any GroupHeader.repeatable && s.index.isNone)) hd hi rfl ?_
    intro hp
    rw [hrepeats headers hp]
    change _ = (q.isMultiple || ((outer ++ headers).any GroupHeader.repeatable && s.index.isNone) ||
      outer.any GroupHeader.repeatable)
    rw [hplain hp, List.any_append]
    cases outer.any GroupHeader.repeatable <;> simp
  | crossing found e nested hfound hc ha ht hf hne =>
    obtain ⟨headers, rfl, hfinds, -⟩ := hfound.outside hd hi hc
    -- behind a crossing nothing is left of the groups in front of it
    exact ⟨_, step?_eq_some.2 (.crossing _ e nested hfinds rfl ha ht hf hne),
      trails_refl (hu nested (SchemaIndex.mem_of_get? (SchemaIndex.propertyType?_get? ht))), fun _ => rfl⟩
  | element found e hfound hc ha hstays =>
    obtain ⟨headers, rfl, hfinds, -⟩ := hfound.outside hd hi hc
    have hmultiple : Plain →
        (repeats || (headers.any GroupHeader.repeatable && s.index.isNone) || (e.repeatable && s.index.isNone)) =
        (q.isMultiple || ((outer ++ headers).any GroupHeader.repeatable && s.index.isNone) ||
          (e.repeatable && s.index.isNone)) := fun hp => by rw [hrepeats headers hp]
    refine ⟨_, step?_eq_some.2 (.element _ e hfinds rfl ha hstays), ?_, hmultiple⟩
    rw [noted_within]
    exact (enterElement_within e _ _ s.index).symm ▸ trails_here (hu.propertyChildren e) _ hmultiple

/-- **Positions that trail end at the same place**, up to the repetition. -/
theorem Trails.place (h : Trails Plain p q) : p.place = { q.place with isMultiple := p.isMultiple } := by
  obtain ⟨outer, inner, repeats, -, -, rfl, -⟩ := h
  rfl

/-- **Steps without some of the group steps** lead as far: along the steps that remain, the one position trails the
other to the end, where the repetitions agree. -/
theorem Trails.run (hu : index.Unambiguous) (hl : LeavesOut index p steps rest) (h : Trails Plain p q)
    (hp : steps.foldlM (step? index) p = some p') (hplain : Plain → ∀ s ∈ steps, s.index = none) :
    rest ≠ [] ∧ ∃ q', rest.foldlM (step? index) q = some q' ∧ Trails Plain p' q' ∧
      (Plain → p'.isMultiple = q'.isMultiple) := by
  induction hl generalizing q with
  | last p s _ =>
    rw [List.foldlM_cons] at hp
    obtain ⟨r, hr, hp⟩ := Option.bind_eq_some_iff.1 hp
    cases hp
    obtain ⟨q', hq', htrails⟩ := h.keep hu hr fun hplain' => hplain hplain' s List.mem_cons_self
    refine ⟨List.cons_ne_nil _ _, q', ?_, htrails⟩
    rw [List.foldlM_cons, hq']
    rfl
  | keep p r s steps rest hr hl ih =>
    rw [List.foldlM_cons, hr] at hp
    obtain ⟨q', hq', htrails, -⟩ := h.keep hu hr fun hplain' => hplain hplain' s List.mem_cons_self
    obtain ⟨-, whole⟩ := ih htrails hp fun hplain' t ht => hplain hplain' t (List.mem_cons_of_mem s ht)
    refine ⟨List.cons_ne_nil _ _, ?_⟩
    rw [List.foldlM_cons, hq']
    exact whole
  | drop p r s steps rest hr hgroup hindex hcondition hl ih =>
    rw [List.foldlM_cons, hr] at hp
    exact ih (h.drop hr hgroup hcondition hindex) hp fun hplain' t ht => hplain hplain' t (List.mem_cons_of_mem s ht)

end Position

namespace SchemaIndex

/-- **A path with some group steps left out**, from a type. -/
def LeavesOut (index : SchemaIndex) (root : QName) (steps rest : List PathStep) : Prop :=
  ∃ t, index.get? root = some t ∧ Position.LeavesOut index (.start t) steps rest

/-- **Groups are transparent.** In a schema in which names are unambiguous, a path that ends at a property resolves
to the same place when any of its group steps are left out. Only the repetition may be another one, and this only
if some step carries an index. -/
theorem groups_transparent {place : ResolvedPath} (hu : index.Unambiguous) (h : index.resolve root steps = .ok place)
    (hl : index.LeavesOut root steps rest) :
    ∃ multiple, index.resolve root rest = .ok { place with isMultiple := multiple } ∧
      ((∀ s ∈ steps, s.index = none) → multiple = place.isMultiple) := by
  obtain ⟨t, ht, hl⟩ := hl
  obtain ⟨-, t', p, ht', hp, rfl⟩ := resolve_eq_ok.1 h
  rw [ht] at ht'
  cases ht'
  have hstart : Position.Trails (∀ s ∈ steps, s.index = none) (.start t) (.start t) :=
    Position.trails_refl (hu t (mem_of_get? ht))
  obtain ⟨hne, q, hq, htrails, hmultiple⟩ := hstart.run hu hl hp id
  refine ⟨q.isMultiple, resolve_eq_ok.2 ⟨hne, t, q, ht, hq, ?_⟩, fun hplain => (hmultiple hplain).symm⟩
  rw [htrails.place]
  rfl

end SchemaIndex

end

namespace Rivers

/-- Rivers in parts, each of which has a shape. A line has a direction. -/
def shapes : SchemaIndex :=
  ⟨[⟨⟨"River"⟩, none, true, false,
      [.group ⟨⟨"parts"⟩, false, true, some ⟨"AbstractPart"⟩⟩
        [.group ⟨⟨"choice"⟩, true, false, some ⟨"AbstractShape"⟩⟩
          [element "Line" (some "Line") false, element "Area" none false]]]⟩,
    ⟨⟨"Line"⟩, none, false, true,
      [.group ⟨⟨"marks"⟩, false, false, none⟩ [.property ⟨⟨"direction"⟩, none, false, true⟩]]⟩], .empty⟩

/-- The place of the direction of a line, which is rendered as what it stands for. -/
def direction : ResolvedPath :=
  ⟨⟨"River"⟩, [⟨⟨"AbstractShape"⟩, none⟩], some ⟨"Line"⟩, .clientProperty ⟨"direction"⟩, true, [], true, [],
    some ⟨⟨"Line"⟩, some ⟨"Line"⟩, false, false⟩⟩

/-- The groups of shapes are left out, the group of marks is named. -/
theorem direction_leavesOut :
    shapes.LeavesOut ⟨"River"⟩ (steps ["parts", "choice", "Line", "marks", "direction"])
      (steps ["Line", "marks", "direction"]) := by
  refine ⟨_, rfl, .drop _ _ _ _ _ rfl ⟨_, _, _, ⟨rfl, rfl⟩, rfl⟩ rfl rfl ?_⟩
  refine .drop _ _ _ _ _ rfl ⟨_, _, _, ⟨rfl, rfl⟩, rfl⟩ rfl rfl ?_
  refine .keep _ _ _ _ _ rfl (.keep _ _ _ _ _ rfl (.last _ _ ?_))
  rintro ⟨found, header, inner, ⟨-, hfound⟩, hc⟩
  cases hfound
  cases hc

theorem direction_without_groups :
    shapes.Unambiguous ∧
      shapes.resolve ⟨"River"⟩ (steps ["parts", "choice", "Line", "marks", "direction"]) = .ok direction ∧
      shapes.LeavesOut ⟨"River"⟩ (steps ["parts", "choice", "Line", "marks", "direction"])
        (steps ["Line", "marks", "direction"]) ∧
      shapes.resolve ⟨"River"⟩ (steps ["Line", "marks", "direction"]) = .ok direction := by
  have hu : shapes.Unambiguous := by unfold SchemaIndex.Unambiguous; decide
  have hresolve :
      shapes.resolve ⟨"River"⟩ (steps ["parts", "choice", "Line", "marks", "direction"]) = .ok direction := rfl
  obtain ⟨multiple, hrest, hmultiple⟩ := SchemaIndex.groups_transparent hu hresolve direction_leavesOut
  rw [hmultiple (by decide)] at hrest
  exact ⟨hu, hresolve, direction_leavesOut, hrest⟩

end Rivers

end FeatureAlignment
