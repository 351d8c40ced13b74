import FeatureAlignment.Proofs.Path.Steps

/-!
# Paths behind a crossing

Behind a crossing a path goes on as if it started in the nested type. What was known of the
container is gone, but for the crossings and the conditions on the way there.

* `Position.behind xs gs p`: the position `p` with crossings `xs` and conditions `gs` before its
  own. `foldlM_behind`: they make no difference to the steps that follow.
* `SchemaIndex.EndsCrossing`: a path whose last step crosses.
* `SchemaIndex.resolve_append_crossing`: resolving over a crossing is resolving behind it.
* `Rivers`: a small schema for theorems about paths.
-/

namespace FeatureAlignment

variable {index : SchemaIndex} {root nested : QName} {p q : Position} {s : PathStep}
  {xs : List Crossing} {gs : List Condition}

namespace Position

/-- **A position behind others**: crossings and conditions of the way there come before its own. -/
def behind (xs : List Crossing) (gs : List Condition) (p : Position) : Position :=
  { p with crossings := xs ++ p.crossings, guards := gs ++ p.guards }

theorem noted_behind (found : Located) :
    (p.behind xs gs).noted s found = (p.noted s found).behind xs gs := by
  simp only [noted, guard, repeating, behind, List.append_assoc]

theorem cross_behind (t : TypeDefinition) : (p.behind xs gs).cross t = (p.cross t).behind xs gs := by
  simp only [cross, behind, List.append_assoc]

theorem enterElement_behind (e : PropertyDefinition) (type : Option TypeDefinition) (children : List Child)
    (head : Option QName) (i : Option UInt64) :
    (p.behind xs gs).enterElement e type children head i =
      (p.enterElement e type children head i).behind xs gs := by
  -- neither the waiting head nor the property around it is about the way there
  have hhead : (p.behind xs gs).head = p.head := rfl
  have hfolded : (p.behind xs gs).isFolded = p.isFolded := rfl
  unfold enterElement
  rw [hhead, hfolded]
  cases head.or p.head with
  | none => rfl
  | some name =>
    cases (type.map TypeDefinition.geometry).getD false with
    | false => rfl
    | true => cases p.isFolded <;> rfl

theorem enter_behind (found : Located) (i : Option UInt64) :
    enter index (p.behind xs gs) found i = (enter index p found i).behind xs gs := by
  unfold enter
  cases found.child with
  | group header children => rfl
  | property e =>
    cases ha : e.isAttribute with
    | true => simp only [ha, if_true]; rfl
    | false =>
      simp only [ha, Bool.false_eq_true, if_false]
      have howner : (p.behind xs gs).owner = p.owner := rfl
      rw [howner]
      cases (index.propertyType? e).filter (fun t => t.feature && t.name ≠ p.owner) with
      | none => exact enterElement_behind e _ _ _ i
      | some t => exact cross_behind t

/-- **A step does not look back.** -/
theorem step?_behind : (p.behind xs gs).step? index s = (p.step? index s).map (behind xs gs) := by
  have hending : (p.behind xs gs).ending = p.ending := rfl
  have hchildren : (p.behind xs gs).children = p.children := rfl
  unfold step?
  rw [hending, hchildren]
  cases p.ending with
  | some a => rfl
  | none =>
    cases Child.locate? p.children s.name with
    | none => rfl
    | some found =>
      have hnoted : enter index ((p.behind xs gs).noted s found) found s.index =
          (enter index (p.noted s found) found s.index).behind xs gs := by
        rw [noted_behind, enter_behind]
      exact congrArg some hnoted

/-- **Steps do not look back.** -/
theorem foldlM_behind (steps : List PathStep) :
    steps.foldlM (step? index) (p.behind xs gs) = (steps.foldlM (step? index) p).map (behind xs gs) := by
  induction steps generalizing p with
  | nil => rfl
  | cons s steps ih =>
    rw [List.foldlM_cons, List.foldlM_cons, step?_behind]
    cases p.step? index s with
    | none => rfl
    | some p' => exact ih

/-- A step that adds a crossing starts a new path in the nested type. -/
theorem step?_crossing {x : Crossing} (hs : p.step? index s = some q) (hx : q.crossings = p.crossings ++ [x]) :
    ∃ t, index.get? x.nested = some t ∧ (start t).behind q.crossings q.guards = q := by
  cases step?_eq_some.1 hs with
  | group found header children _ _ => exact absurd hx (by simp [enterGroup, repeating, noted, guard])
  | ending found a _ _ _ => exact absurd hx (by simp [endAt, repeating, noted, guard])
  | element found e _ _ _ _ =>
    have hsame := (enterElement_crossings (p.noted s found) e (index.propertyType? e)
      (index.propertyChildren e) found.head s.index).2
    rw [hsame] at hx
    exact absurd hx (by simp [repeating, noted, guard])
  | crossing found e t _ _ _ ht _ _ =>
    have hlast : x.nested = t.name := by
      have := List.append_cancel_left hx
      cases this
      rfl
    refine ⟨t, ?_, ?_⟩
    · rw [hlast]; exact SchemaIndex.propertyType?_get? ht
    · simp [cross, behind, start]

end Position

/-- **A place behind another one**: the crossings and conditions on the way to the other one come
before its own. -/
def ResolvedPath.behind (outer inner : ResolvedPath) : ResolvedPath :=
  { inner with crossings := outer.crossings ++ inner.crossings, guards := outer.guards ++ inner.guards }

namespace SchemaIndex

/-- **A path whose last step crosses** into a feature type: the step adds a crossing to those
before it. -/
inductive EndsCrossing (index : SchemaIndex) (root : QName) : List PathStep → QName → Prop
  | intro (t : TypeDefinition) (before : List PathStep) (last : PathStep) (p q : Position) (x : Crossing) :
      index.get? root = some t → before.foldlM (Position.step? index) (.start t) = some p →
      p.step? index last = some q → q.crossings = p.crossings ++ [x] →
      EndsCrossing index root (before ++ [last]) x.nested

/-- **Resolving over a crossing is resolving behind it.** A path that goes on behind a crossing into
`nested` resolves exactly if the rest of it resolves from `nested`, and then to the same place, with
the crossings and conditions of the way there before those of the rest. -/
theorem resolve_append_crossing {before rest : List PathStep} {outer : ResolvedPath}
    (hb : index.resolve root before = .ok outer) (hx : index.EndsCrossing root before nested) (hr : rest ≠ [])
    (whole : ResolvedPath) :
    index.resolve root (before ++ rest) = .ok whole ↔
      ∃ inner, index.resolve nested rest = .ok inner ∧ whole = outer.behind inner := by
  cases hx with
  | intro t init last p q x ht hp hq hx =>
  obtain ⟨d, hd, hqd⟩ := Position.step?_crossing hq hx
  have hinit : (init ++ [last]).foldlM (Position.step? index) (.start t) = some q := by
    rw [Position.foldlM_concat hp, hq]
  -- the place of the first part is that of the crossing step
  have houter : outer = q.place := by
    obtain ⟨-, t', q', ht', hq', rfl⟩ := resolve_eq_ok.1 hb
    rw [ht] at ht'
    cases ht'
    rw [hinit] at hq'
    cases hq'
    rfl
  have hwhole : (init ++ [last] ++ rest).foldlM (Position.step? index) (.start t) =
      (rest.foldlM (Position.step? index) (.start d)).map (Position.behind q.crossings q.guards) :=
    calc (init ++ [last] ++ rest).foldlM (Position.step? index) (.start t)
      _ = rest.foldlM (Position.step? index) q := by rw [List.foldlM_append, hinit]; rfl
      _ = rest.foldlM (Position.step? index) ((Position.start d).behind q.crossings q.guards) := by rw [hqd]
      _ = (rest.foldlM (Position.step? index) (.start d)).map (Position.behind q.crossings q.guards) :=
        Position.foldlM_behind rest
  rw [resolve_eq_ok]
  constructor
  · rintro ⟨-, t', r, ht', hwalk, rfl⟩
    rw [ht] at ht'
    cases ht'
    rw [hwhole] at hwalk
    obtain ⟨r', hr', rfl⟩ := Option.map_eq_some_iff.1 hwalk
    refine ⟨r'.place, resolve_eq_ok.2 ⟨hr, d, r', hd, hr', rfl⟩, ?_⟩
    rw [houter]
    rfl
  · rintro ⟨inner, hinner, rfl⟩
    obtain ⟨-, d', r', hd', hr', rfl⟩ := resolve_eq_ok.1 hinner
    rw [hd] at hd'
    cases hd'
    refine ⟨by simp, t, _, ht, by rw [hwhole, hr']; rfl, ?_⟩
    rw [houter]
    rfl

end SchemaIndex

/-! ## Rivers, banks and trees

A small case for the theorems about paths: a river has a bank on its left and on its right, and
trees grow on the banks. -/

namespace Rivers

/-- An element. -/
def element (name : String) (type : Option String) (repeatable : Bool) : Child :=
  .property ⟨⟨name⟩, type.map QName.mk, repeatable, false⟩

/-- Rivers with banks, and banks with trees. A bank may also be referred to. -/
def target : SchemaIndex :=
  ⟨[⟨⟨"River"⟩, none, true, false, [element "left" (some "Side") false, element "right" (some "Side") false]⟩,
    ⟨⟨"Side"⟩, none, false, false,
      [.property ⟨.qualified QName.xlink "href", none, false, true⟩, element "Bank" (some "Bank") false]⟩,
    ⟨⟨"Bank"⟩, none, true, false, [element "height" none false, element "growth" (some "Growth") true]⟩,
    ⟨⟨"Growth"⟩, none, false, false, [element "Tree" (some "Tree") false]⟩,
    ⟨⟨"Tree"⟩, none, true, false, [element "height" none true]⟩], .empty⟩

/-- Steps by their names. -/
def steps (names : List String) : List PathStep := names.map (fun name => ⟨⟨name⟩, none, none⟩)

/-- The way to the left bank of a river, on a condition. -/
def toBank : List PathStep :=
  ⟨⟨"left"⟩, none, some (.literal (.text "dry"))⟩ :: steps ["Bank"]

/-- The place of the left bank. -/
def bank : ResolvedPath :=
  ⟨⟨"Bank"⟩, [], none, .element, false, [.literal (.text "dry")], false,
    [⟨⟨"River"⟩, [⟨⟨"left"⟩, none⟩], ⟨"Bank"⟩, ⟨"Bank"⟩⟩], none⟩

theorem toBank_crosses : target.EndsCrossing ⟨"River"⟩ toBank ⟨"Bank"⟩ :=
  .intro ⟨⟨"River"⟩, none, true, false, [element "left" (some "Side") false, element "right" (some "Side") false]⟩
    [⟨⟨"left"⟩, none, some (.literal (.text "dry"))⟩] ⟨⟨"Bank"⟩, none, none⟩ _ _
    ⟨⟨"River"⟩, [⟨⟨"left"⟩, none⟩], ⟨"Bank"⟩, ⟨"Bank"⟩⟩ rfl rfl rfl rfl

/-- The place of the height of trees on a bank. Trees may have several heights. -/
def treeHeight : ResolvedPath :=
  ⟨⟨"Tree"⟩, [⟨⟨"height"⟩, none⟩], none, .element, true, [], false,
    [⟨⟨"Bank"⟩, [⟨⟨"growth"⟩, none⟩], ⟨"Tree"⟩, ⟨"Tree"⟩⟩], some ⟨⟨"height"⟩, none, true, false⟩⟩

theorem tree_height_behind_bank :
    target.resolve ⟨"River"⟩ toBank = .ok bank ∧ target.EndsCrossing ⟨"River"⟩ toBank ⟨"Bank"⟩ ∧
      target.resolve ⟨"Bank"⟩ (steps ["growth", "Tree", "height"]) = .ok treeHeight ∧
      target.resolve ⟨"River"⟩ (toBank ++ steps ["growth", "Tree", "height"]) = .ok (bank.behind treeHeight) :=
  ⟨rfl, toBank_crosses, rfl,
    (SchemaIndex.resolve_append_crossing rfl toBank_crosses (by decide) _).2 ⟨treeHeight, rfl, rfl⟩⟩

end Rivers

end FeatureAlignment
