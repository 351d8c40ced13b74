import FeatureAlignment.Proofs.Join.Planned
import FeatureAlignment.Proofs.Path.Behind

/-!
# Who tells where a joined type goes

A join asks the property cells of the container, in the order of the alignment, and takes the answer
of the first one that has any. A cell answers by the first crossing of its path, or, if nothing is
crossed, by the feature inside the last element. Cells of other types are not asked, even if their
paths come through the container and cross from it. The schema answers only if no cell does.

* `Cell.Tells`: what a cell tells; `Nesting.ofCell?_eq_some` has it for the planner.
* `Cell.crossingFrom?`: where the path of a cell crosses from a type, at whatever depth.
* `Cell.planCondition_eq`: planning a key equality is checking it, and finding the place.
* `Cell.planCondition_told`: the first cell that tells decides, and the schema decides if none does. A
  crossing decides if its cell begins in the container.
-/

namespace FeatureAlignment

/-! ## What a cell tells -/

section

variable {target : SchemaIndex} {container joined : QName} {c : Cell} {n : Nesting}

/-- **A cell that is asked** about a joined type in a container: a property cell of the container that
reads the type. Its path leads to `place`. -/
structure Cell.Asked (target : SchemaIndex) (container joined : QName) (c : Cell) (place : ResolvedPath) :
    Prop where
  property : c.isTypeCell = false
  reads : c.reads joined = true
  path : ∃ e, c.targetEntity = .ok e ∧ e.type = container ∧ target.resolve container e.path = .ok place

/-- **What a cell tells** about the place of a joined type in a container. -/
inductive Cell.Tells (target : SchemaIndex) (container joined : QName) (c : Cell) : Nesting → Prop
  | crossing (place : ResolvedPath) (x : Crossing) :
      c.Asked target container joined place → place.crossings.head? = some x →
      Tells target container joined c ⟨x.segments, x.nested, false⟩
  | around (place : ResolvedPath) (last element : PropertyDefinition) (nested : TypeDefinition) :
      c.Asked target container joined place → place.crossings = [] → place.lastElement = some last →
      target.containedFeature? last container = some (element, nested) →
      Tells target container joined c ⟨place.segments, nested.name, Nesting.isLink place⟩

theorem Nesting.ofCell?_asked {place : ResolvedPath} (h : c.Asked target container joined place) :
    ofCell? target container joined c = (ofCrossing? place).or (ofLastElement? target container place) := by
  obtain ⟨e, he, htype, hplace⟩ := h.path
  unfold Cell.targetEntity at he
  unfold ofCell?
  rw [h.property]
  cases ht : c.target with
  | nil => rw [ht] at he; cases he
  | cons e' es =>
    rw [ht] at he
    cases he
    simp only [Bool.false_eq_true, if_false, htype, h.reads, and_self, if_true, hplace]

theorem Nesting.asked_of_ofCell? (h : ofCell? target container joined c = some n) :
    ∃ place, c.Asked target container joined place := by
  unfold ofCell? at h
  split at h
  · cases h
  rename_i hproperty
  split at h
  · cases h
  rename_i e es htarget
  split at h
  · rename_i hasked
    split at h
    · rename_i place hplace
      have htargetEntity : c.targetEntity = .ok e := by
        unfold Cell.targetEntity
        rw [htarget]
      exact ⟨place, Bool.eq_false_iff.2 hproperty, hasked.2, e, htargetEntity, hasked.1, hplace⟩
    · cases h
  · cases h

/-- **The planner hears what a cell tells**, and nothing else. -/
theorem Nesting.ofCell?_eq_some :
    ofCell? target container joined c = some n ↔ c.Tells target container joined n := by
  constructor
  · intro h
    obtain ⟨place, hasked⟩ := asked_of_ofCell? h
    rw [ofCell?_asked hasked] at h
    rcases Option.or_eq_some_iff.1 h with h | ⟨hnone, h⟩
    · obtain ⟨x, hx, rfl⟩ := Option.map_eq_some_iff.1 h
      exact .crossing place x hasked hx
    · have hcrossings : place.crossings = [] := List.head?_eq_none_iff.1 (Option.map_eq_none_iff.1 hnone)
      obtain ⟨⟨element, nested⟩, hfound, rfl⟩ := Option.map_eq_some_iff.1 h
      obtain ⟨last, hlast, hfound⟩ := Option.bind_eq_some_iff.1 hfound
      exact .around place last element nested hasked hcrossings hlast hfound
  · intro h
    cases h with
    | crossing place x hasked hx =>
      rw [ofCell?_asked hasked]
      unfold ofCrossing?
      rw [hx]
      rfl
    | around place last element nested hasked hcrossings hlast hfound =>
      rw [ofCell?_asked hasked]
      unfold ofCrossing? ofLastElement?
      rw [hcrossings, hlast, Option.bind_some, hfound]
      rfl

theorem Nesting.ofCell?_eq_none :
    ofCell? target container joined c = none ↔ ∀ n, ¬ c.Tells target container joined n := by
  rw [Option.eq_none_iff_forall_ne_some]
  exact forall_congr' fun n => not_congr ofCell?_eq_some

/-! ## Crossings at any depth -/

namespace Cell

/-- The first crossing from a type, at whatever depth, on the path of a property cell that reads a
joined type. -/
def crossingFrom? (target : SchemaIndex) (type joined : QName) (c : Cell) : Option Crossing :=
  if c.isTypeCell || !c.reads joined then none
  else
    match c.targetEntity with
    | .error _ => none
    | .ok e =>
      match target.resolve e.type e.path with
      | .error _ => none
      | .ok place => place.crossings.find? (fun x => x.container = type)

/-- **A cell that begins in a type**: its target path starts there. -/
def BeginsIn (type : QName) (c : Cell) : Prop := ∃ e, c.targetEntity = .ok e ∧ e.type = type

/-- What crosses from a type lies on the path of a property cell that reads the joined type. -/
theorem crossingFrom?_eq_some {x : Crossing} (h : c.crossingFrom? target container joined = some x) :
    c.isTypeCell = false ∧ c.reads joined = true ∧ ∃ e place, c.targetEntity = .ok e ∧
      target.resolve e.type e.path = .ok place ∧ place.crossings.find? (fun y => y.container = container) = some x := by
  unfold crossingFrom? at h
  split at h
  · cases h
  rename_i hasked
  rw [Bool.or_eq_true, not_or, Bool.not_eq_true, Bool.not_eq_true, Bool.not_eq_false'] at hasked
  split at h
  · cases h
  rename_i e he
  split at h
  · cases h
  rename_i place hplace
  exact ⟨hasked.1, hasked.2, e, place, he, hplace, h⟩

/-- The first crossing of a path that begins in a type is one from this type. -/
theorem find?_crossings {e : Entity} {place : ResolvedPath} (h : target.resolve e.type e.path = .ok place) :
    place.crossings.find? (fun x => x.container = e.type) = place.crossings.head? := by
  have hhead := (SchemaIndex.leads_resolve h).head
  cases hcrossings : place.crossings with
  | nil => rfl
  | cons x xs =>
    rw [hcrossings] at hhead
    have hx : x.container = e.type := hhead x rfl
    rw [List.find?_cons_of_pos (by simpa using hx), List.head?_cons]

/-- The first crossing of a cell that is asked is one from the container. -/
theorem Asked.crossingFrom?_eq {place : ResolvedPath} (h : c.Asked target container joined place) :
    c.crossingFrom? target container joined = place.crossings.head? := by
  obtain ⟨e, he, rfl, hplace⟩ := h.path
  unfold crossingFrom?
  rw [h.property, h.reads, he, ← find?_crossings hplace]
  simp only [Bool.not_true, Bool.or_self, Bool.false_eq_true, if_false, hplace]

/-- **A cell that crosses nothing tells by its last element.** -/
theorem Tells.around_of_none (h : c.Tells target container joined n)
    (hnone : c.crossingFrom? target container joined = none) :
    ∃ place, c.Asked target container joined place ∧ place.crossings = [] ∧ n.segments = place.segments := by
  cases h with
  | crossing place x hasked hx =>
    rw [hasked.crossingFrom?_eq, hx] at hnone
    cases hnone
  | around place _ _ _ hasked hcrossings => exact ⟨place, hasked, hcrossings, rfl⟩

/-- **A cell that begins in the container tells what it crosses there.** -/
theorem crossingFrom?_tells {x : Crossing} (h : c.crossingFrom? target container joined = some x)
    (hb : c.BeginsIn container) : c.Tells target container joined ⟨x.segments, x.nested, false⟩ := by
  obtain ⟨hproperty, hreads, e, place, he, hplace, hfind⟩ := crossingFrom?_eq_some h
  obtain ⟨e', he', rfl⟩ := hb
  rw [he] at he'
  cases he'
  rw [find?_crossings hplace] at hfind
  exact .crossing place x ⟨hproperty, hreads, e, he, rfl, hplace⟩ hfind

end Cell

end

/-! ## Planning a key equality -/

section

variable {env : Environment} {a : Alignment} {c : Cell} {spec : JoinSpec} {targets : List (QName × QName)}
  {condition : JoinCondition} {container : QName}

namespace SchemaIndex

/-- Walking fails only at a step, or for want of one. -/
theorem walkFrom_error {index : SchemaIndex} {root : QName} {found : Option PropertyDefinition}
    {done names : List QName} {children : List Child} {failure : Failure}
    (h : index.walkFrom root found done children names = .error failure) :
    ∃ type path step, failure = .unresolvedPath type path step := by
  induction names generalizing found done children with
  | nil =>
    unfold walkFrom at h
    cases found with
    | none => cases h; exact ⟨_, _, _, rfl⟩
    | some p => cases h
  | cons name names ih =>
    unfold walkFrom at h
    split at h
    · exact ih h
    · exact ih h
    · cases h; exact ⟨_, _, _, rfl⟩

end SchemaIndex

namespace Cell

/-- Checking the keys of a key equality, and that the joined type takes part in the join. -/
def checkCondition (env : Environment) (c : Cell) (spec : JoinSpec) (condition : JoinCondition) :
    Except Failure Unit := do
  c.checkKey env.source condition.base
  c.checkKey env.source condition.join
  if !spec.types.contains condition.join.type then
    throw (.unresolvedJoinKey c.id (.notJoined condition.join.type))

/-- The plan of a key equality, at a place in the container. -/
def planAt (condition : JoinCondition) (container : QName) (n : Nesting) : JoinPlan :=
  ⟨container, condition.base.type, n.type, condition.join.type, n.segments, condition.base.expression,
    condition.join.expression, n.isReference⟩

/-- **Planning a key equality** is checking it, and finding the place of the nested type. -/
theorem planCondition_eq (hl : targets.lookup condition.base.type = some container) :
    planCondition env c spec targets condition =
      (do
        checkCondition env c spec condition
        match env.nesting? container condition.join.type with
        | some n => .ok (planAt condition container n)
        | none => .error (.unresolvedJoinKey c.id (.notNested condition.join.type container))) := by
  unfold planCondition checkCondition
  cases c.checkKey env.source condition.base with
  | error failure => rfl
  | ok _ =>
    cases c.checkKey env.source condition.join with
    | error failure => rfl
    | ok _ =>
      cases hj : !spec.types.contains condition.join.type with
      | true =>
        simp only [hj, if_true]
        rfl
      | false =>
        simp only [hj, hl]
        cases env.nesting? container condition.join.type <;> rfl

theorem checkKey_error {source : SchemaIndex} {key : Entity} {failure : Failure}
    (h : c.checkKey source key = .error failure) :
    ∃ fault, failure = .unresolvedJoinKey c.id fault ∧ ∀ type within, fault ≠ .notNested type within := by
  unfold checkKey at h
  split at h
  · cases h
    exact ⟨_, rfl, fun _ _ heq => by cases heq⟩
  · split at h
    · cases h
    · cases h
      exact ⟨_, rfl, fun _ _ heq => by cases heq⟩
    · -- no other failure comes from walking
      rename_i failure' hother hwalk
      obtain ⟨type, path, step, rfl⟩ := SchemaIndex.walkFrom_error hwalk
      exact absurd rfl (hother type path step)

/-- Checks do not look for the place of the nested type. -/
theorem checkCondition_error {failure : Failure} (h : checkCondition env c spec condition = .error failure) :
    ∃ fault, failure = .unresolvedJoinKey c.id fault ∧ ∀ type within, fault ≠ .notNested type within := by
  unfold checkCondition at h
  cases hb : c.checkKey env.source condition.base with
  | error failure' => rw [hb] at h; cases h; exact checkKey_error hb
  | ok _ =>
    cases hj : c.checkKey env.source condition.join with
    | error failure' => rw [hb, hj] at h; cases h; exact checkKey_error hj
    | ok _ =>
      rw [hb, hj] at h
      cases hm : !spec.types.contains condition.join.type with
      | true =>
        simp only [hm] at h
        cases h
        exact ⟨_, rfl, fun _ _ heq => by cases heq⟩
      | false => simp only [hm] at h; cases h

/-- **A place that is told** is where a key equality is planned, once its keys are checked. -/
theorem planCondition_at (c : Cell) (spec : JoinSpec) (ha : env.alignment = some a)
    (hl : targets.lookup condition.base.type = some container) {n : Nesting}
    (hn : a.cells.findSome? (Nesting.ofCell? env.target container condition.join.type) = some n) :
    planCondition env c spec targets condition =
        (checkCondition env c spec condition).map (fun _ => planAt condition container n) ∧
      ∀ id type within, planCondition env c spec targets condition ≠
        .error (.unresolvedJoinKey id (.notNested type within)) := by
  have hplace : env.nesting? container condition.join.type = some n := by
    unfold Environment.nesting?
    rw [ha]
    exact congrArg (Option.or · _) hn
  have hplan : planCondition env c spec targets condition =
      (checkCondition env c spec condition).map (fun _ => planAt condition container n) := by
    rw [planCondition_eq hl, hplace]
    cases checkCondition env c spec condition <;> rfl
  refine ⟨hplan, fun id type within herror => ?_⟩
  rw [hplan] at herror
  cases hcheck : checkCondition env c spec condition with
  | ok _ => rw [hcheck] at herror; cases herror
  | error failure =>
    obtain ⟨fault, rfl, hfault⟩ := checkCondition_error hcheck
    rw [hcheck] at herror
    cases herror
    exact hfault type within rfl

/-- **The first crossing decides** if its cell begins in the container: the key equality is planned there,
unless a cell before it tells a place by its last element. -/
theorem planCondition_crossing (ha : env.alignment = some a)
    (hl : targets.lookup condition.base.type = some container) {before after : List Cell} {d : Cell}
    {x : Crossing} (hcells : a.cells = before ++ d :: after)
    (hbefore : ∀ e ∈ before, e.crossingFrom? env.target container condition.join.type = none)
    (hx : d.crossingFrom? env.target container condition.join.type = some x) (hd : d.BeginsIn container) :
    (∀ id type within, planCondition env c spec targets condition ≠
        .error (.unresolvedJoinKey id (.notNested type within))) ∧
      ∃ n, planCondition env c spec targets condition =
          (checkCondition env c spec condition).map (fun _ => planAt condition container n) ∧
        (n = ⟨x.segments, x.nested, false⟩ ∨
          ∃ e ∈ before, e.Tells env.target container condition.join.type n ∧
            ∃ place, e.Asked env.target container condition.join.type place ∧ place.crossings = [] ∧
              n.segments = place.segments) := by
  have htold := Nesting.ofCell?_eq_some.2 (crossingFrom?_tells hx hd)
  cases hearlier : before.findSome? (Nesting.ofCell? env.target container condition.join.type) with
  | none =>
    have hfirst : a.cells.findSome? (Nesting.ofCell? env.target container condition.join.type) =
        some ⟨x.segments, x.nested, false⟩ := by
      rw [hcells, List.findSome?_append, hearlier, Option.none_or, List.findSome?_cons, htold]
    obtain ⟨hplan, hfound⟩ := planCondition_at c spec ha hl hfirst
    exact ⟨hfound, _, hplan, .inl rfl⟩
  | some n =>
    have hfirst : a.cells.findSome? (Nesting.ofCell? env.target container condition.join.type) = some n := by
      rw [hcells, List.findSome?_append, hearlier, Option.some_or]
    obtain ⟨hplan, hfound⟩ := planCondition_at c spec ha hl hfirst
    obtain ⟨e, he, htold⟩ := List.exists_of_findSome?_eq_some hearlier
    have htells := Nesting.ofCell?_eq_some.1 htold
    exact ⟨hfound, n, hplan, .inr ⟨e, he, htells, htells.around_of_none (hbefore e he)⟩⟩

/-- **The first cell that tells decides.** If any cell of the alignment tells where the joined type goes
in the container, planning does not fail to find the place: once its keys are checked, the key equality
is planned at the place told by the first such cell. If the first cell that crosses from the container, at
whatever depth of its path, begins in the container, then planning does not fail to find the place, and it
is that of the crossing unless an earlier cell tells one by its last element. If no cell tells, the schema
decides. -/
theorem planCondition_told (ha : env.alignment = some a)
    (hl : targets.lookup condition.base.type = some container) :
    ((∃ d ∈ a.cells, ∃ n, d.Tells env.target container condition.join.type n) →
      (∃ before d after n, a.cells = before ++ d :: after ∧
        (∀ e ∈ before, ∀ m, ¬ e.Tells env.target container condition.join.type m) ∧
        d.Tells env.target container condition.join.type n ∧
        planCondition env c spec targets condition =
          (checkCondition env c spec condition).map (fun _ => planAt condition container n)) ∧
      ∀ id type within, planCondition env c spec targets condition ≠
        .error (.unresolvedJoinKey id (.notNested type within))) ∧
    (∀ before d after x, a.cells = before ++ d :: after →
      (∀ e ∈ before, e.crossingFrom? env.target container condition.join.type = none) →
      d.crossingFrom? env.target container condition.join.type = some x → d.BeginsIn container →
      (∀ id type within, planCondition env c spec targets condition ≠
        .error (.unresolvedJoinKey id (.notNested type within))) ∧
      ∃ n, planCondition env c spec targets condition =
          (checkCondition env c spec condition).map (fun _ => planAt condition container n) ∧
        (n = ⟨x.segments, x.nested, false⟩ ∨
          ∃ e ∈ before, e.Tells env.target container condition.join.type n ∧
            ∃ place, e.Asked env.target container condition.join.type place ∧ place.crossings = [] ∧
              n.segments = place.segments)) ∧
    ((∀ d ∈ a.cells, ∀ n, ¬ d.Tells env.target container condition.join.type n) →
      planCondition env c spec targets condition =
        (do
          checkCondition env c spec condition
          match Nesting.ofSchema? env.target a container condition.join.type with
          | some n => .ok (planAt condition container n)
          | none => .error (.unresolvedJoinKey c.id (.notNested condition.join.type container)))) := by
  refine ⟨?_, fun before d after x hcells hbefore hx hd => planCondition_crossing ha hl hcells hbefore hx hd,
    fun hnone => ?_⟩
  · rintro ⟨d, hd, n, htells⟩
    -- the place is that of the first cell for which one is found
    have hsome : (a.cells.findSome? (Nesting.ofCell? env.target container condition.join.type)).isSome :=
      List.findSome?_isSome_iff.2 ⟨d, hd, Option.isSome_iff_exists.2 ⟨n, Nesting.ofCell?_eq_some.2 htells⟩⟩
    obtain ⟨m, hm⟩ := Option.isSome_iff_exists.1 hsome
    obtain ⟨hplan, hfound⟩ := planCondition_at c spec ha hl hm
    obtain ⟨before, d', after, hcells, hd', hbefore⟩ := List.findSome?_eq_some_iff.1 hm
    exact ⟨⟨before, d', after, m, hcells, fun e he => Nesting.ofCell?_eq_none.1 (hbefore e he),
      Nesting.ofCell?_eq_some.1 hd', hplan⟩, hfound⟩
  · have hsilent : a.cells.findSome? (Nesting.ofCell? env.target container condition.join.type) = none :=
      List.findSome?_eq_none_iff.2 fun d hd => Nesting.ofCell?_eq_none.2 (hnone d hd)
    have hplace : env.nesting? container condition.join.type =
        Nesting.ofSchema? env.target a container condition.join.type := by
      unfold Environment.nesting?
      rw [ha]
      exact congrArg (Option.or · _) hsilent
    rw [planCondition_eq hl, hplace]

end Cell

end

/-! ## Joins of rivers, banks and trees -/

namespace Rivers

/-- A property of a type. -/
def property (type : String) (names : List String) : Entity := ⟨none, ⟨type⟩, steps names, none⟩

/-- The tables of rivers, of their banks and of the trees there. -/
def source : SchemaIndex :=
  ⟨[⟨⟨"RiverRow"⟩, none, false, false, [element "id" none false]⟩,
    ⟨⟨"BankRow"⟩, none, false, false, [element "id" none false, element "river" none false]⟩,
    ⟨⟨"TreeRow"⟩, none, false, false, [element "bank" none false, element "height" none false]⟩], .empty⟩

/-- Banks are joined to their river. -/
def bankCondition : JoinCondition := ⟨property "RiverRow" ["id"], property "BankRow" ["river"]⟩

/-- Trees are joined to their bank. -/
def treeCondition : JoinCondition := ⟨property "BankRow" ["id"], property "TreeRow" ["bank"]⟩

/-- Both joins. -/
def spec : JoinSpec := ⟨[⟨"RiverRow"⟩, ⟨"BankRow"⟩, ⟨"TreeRow"⟩], [bankCondition, treeCondition]⟩

/-- The cell of both joins. -/
def join : Cell :=
  ⟨"join", "join", [.ofType ⟨"RiverRow"⟩, .ofType ⟨"BankRow"⟩, .ofType ⟨"TreeRow"⟩], [.ofType ⟨"River"⟩],
    ⟨[("join", [.join spec])]⟩⟩

/-- A source property goes to a place in the river. -/
def rename (id type name : String) (names : List String) : Cell :=
  ⟨id, "rename", [property type [name]], [property "River" names], .empty⟩

/-- The right side refers to its bank. The left side has its bank inside, and trees on it. -/
def alignment : Alignment :=
  ⟨none, [join, rename "right" "BankRow" "id" ["right", "href"],
    rename "left" "BankRow" "id" ["left", "Bank", "height"],
    rename "trees" "TreeRow" "height" ["left", "Bank", "growth", "Tree", "height"]]⟩

/-- What compiling it reads. -/
def environment : Environment := ⟨source, target, ⟨.empty, "LINK", none, false, .xml⟩, some alignment⟩

/-- The target types known to the second join. -/
def targets : List (QName × QName) := [(⟨"BankRow"⟩, ⟨"Bank"⟩), (⟨"RiverRow"⟩, ⟨"River"⟩)]

/-- The left side has its bank inside, and trees on it; nothing else is said of them. -/
def planted : Alignment :=
  ⟨none, [join, rename "left" "BankRow" "id" ["left", "Bank", "height"],
    rename "trees" "TreeRow" "height" ["left", "Bank", "growth", "Tree", "height"]]⟩

/-- **The first cell that tells** about banks is the one that refers to them. Where there is none, banks are
planned where the left side crosses into them. -/
theorem bank_told :
    targets.lookup bankCondition.base.type = some ⟨"River"⟩ ∧
      ((∃ d ∈ alignment.cells, ∃ n, d.Tells target ⟨"River"⟩ ⟨"BankRow"⟩ n) ∧
        ∃ before d after n, alignment.cells = before ++ d :: after ∧
          (∀ e ∈ before, ∀ m, ¬ e.Tells target ⟨"River"⟩ ⟨"BankRow"⟩ m) ∧
          d.Tells target ⟨"River"⟩ ⟨"BankRow"⟩ n ∧
          Cell.planCondition environment join spec targets bankCondition =
            (Cell.checkCondition environment join spec bankCondition).map
              (fun _ => Cell.planAt bankCondition ⟨"River"⟩ n)) ∧
      Cell.planCondition { environment with alignment := some planted } join spec targets bankCondition =
        (Cell.checkCondition { environment with alignment := some planted } join spec bankCondition).map
          (fun _ => Cell.planAt bankCondition ⟨"River"⟩ ⟨[⟨⟨"left"⟩, none⟩], ⟨"Bank"⟩, false⟩) := by
  have htold : ∃ d ∈ alignment.cells, ∃ n, d.Tells target ⟨"River"⟩ ⟨"BankRow"⟩ n :=
    ⟨rename "right" "BankRow" "id" ["right", "href"], by simp [alignment], ⟨[⟨⟨"right"⟩, none⟩], ⟨"Bank"⟩, true⟩,
      Nesting.ofCell?_eq_some.1 rfl⟩
  have hlookup : targets.lookup bankCondition.base.type = some ⟨"River"⟩ := rfl
  have hplanned := @Cell.planCondition_told environment alignment join spec targets bankCondition _ rfl hlookup
  have hplanted := (@Cell.planCondition_told { environment with alignment := some planted } planted join spec
    targets bankCondition _ rfl hlookup).2.1 [join] _ _ ⟨⟨"River"⟩, [⟨⟨"left"⟩, none⟩], ⟨"Bank"⟩, ⟨"Bank"⟩⟩ rfl
    (fun e he => by rw [List.mem_singleton.1 he]; rfl) rfl ⟨_, rfl, rfl⟩
  refine ⟨hlookup, ⟨htold, (hplanned.1 htold).1⟩, ?_⟩
  obtain ⟨-, n, hplan, rfl | ⟨e, he, -, place, hasked, -⟩⟩ := hplanted
  · exact hplan
  · -- the join is no property cell, so it tells nothing
    obtain rfl := List.mem_singleton.1 he
    exact absurd hasked.property (by decide)

/-- **Crossings of deeper types are not heard.** The path of the trees crosses from banks into trees, and no
cell tells another place, but no place is found for trees in banks, since the path begins in rivers. And the
first crossing from rivers for banks is on the left, but they are planned on the right where an earlier
cell refers to them. -/
theorem crossings_pass_unheard :
    (planted.cells.findSome? (Cell.crossingFrom? target ⟨"Bank"⟩ ⟨"TreeRow"⟩) =
        some ⟨⟨"Bank"⟩, [⟨⟨"growth"⟩, none⟩], ⟨"Tree"⟩, ⟨"Tree"⟩⟩ ∧
      (∀ d ∈ planted.cells, ∀ n, ¬ d.Tells target ⟨"Bank"⟩ ⟨"TreeRow"⟩ n) ∧
      Cell.planCondition { environment with alignment := some planted } join spec targets treeCondition =
        .error (.unresolvedJoinKey "join" (.notNested ⟨"TreeRow"⟩ ⟨"Bank"⟩))) ∧
    (alignment.cells.findSome? (Cell.crossingFrom? target ⟨"River"⟩ ⟨"BankRow"⟩) =
        some ⟨⟨"River"⟩, [⟨⟨"left"⟩, none⟩], ⟨"Bank"⟩, ⟨"Bank"⟩⟩ ∧
      Cell.planCondition environment join spec targets bankCondition =
        .ok (Cell.planAt bankCondition ⟨"River"⟩ ⟨[⟨⟨"right"⟩, none⟩], ⟨"Bank"⟩, true⟩)) := by
  refine ⟨⟨rfl, fun d hd => Nesting.ofCell?_eq_none.1 ?_, rfl⟩, rfl, rfl⟩
  have hsilent : planted.cells.findSome? (Nesting.ofCell? target ⟨"Bank"⟩ ⟨"TreeRow"⟩) = none := rfl
  exact List.findSome?_eq_none_iff.1 hsilent d hd

end Rivers

end FeatureAlignment
