import FeatureAlignment.Proofs.Compilation.Bound
import FeatureAlignment.Proofs.Compilation.Order

/-!
# Where a run writes

The attributes of a mapping are found by texts, but what a cell writes to can be told without any text: a property
cell writes to a path in the type where its target path ends, and a join to a path in the container and to the
link field in the nested type. The attributes after a run are those of the cells that compiled, and no others.

* `Spot`: what an attribute stands for; `Spot.Settled`: its text.
* `Cell.Touches`: the spots of a cell.
* `Registry.Furnished`: a registry whose attributes are those at given spots.
* `Environment.furnished_compileCells`: after any cells they are those at the spots of the compiled ones.
-/

namespace FeatureAlignment

open Registry (Names Quiet changed)

variable {env : Environment} {a : Alignment} {c : Cell} {r s : Registry}

/-! ## Spots -/

/-- **What an attribute of a type stands for**: a path below the type, or the link from a container. -/
inductive Spot
  | path (segments : List Segment)
  | field (container : QName)

/-- **The text of a spot** in a type, settled in a registry. -/
def Spot.Settled (env : Environment) (r : Registry) (type : QName) (key : String) : Spot → Prop
  | .path segments => Names (Registry.renderPath env segments) r key
  | .field container => ∃ l, r.link? container type = some l ∧ l.linkField = key

namespace Spot

variable {spot : Spot} {type : QName} {key key' : String}

/-- A settled text stays. -/
theorem Settled.grow (h : spot.Settled env r type key) (hg : r.Extends s) : spot.Settled env s type key := by
  cases spot with
  | path segments => exact Names.grow h (Registry.naming_renderPath env segments) hg
  | field container =>
    obtain ⟨l, hl, hkey⟩ := h
    exact ⟨l, hg.link? hl, hkey⟩

/-- There is one text for a spot. -/
theorem Settled.unique (h : spot.Settled env r type key) (h' : spot.Settled env r type key') : key = key' := by
  cases spot with
  | path segments =>
    have hsame : (key, r) = (key', r) := Eq.trans (Eq.symm h) h'
    exact (Prod.mk.inj hsame).1
  | field container =>
    obtain ⟨l, hl, rfl⟩ := h
    obtain ⟨l', hl', rfl⟩ := h'
    rw [Option.some.inj (hl.symm.trans hl')]

end Spot

/-- **The segments that tell a place** in the type where it is. A place without segments is told by the element of
the type. -/
def SchemaIndex.addressed (index : SchemaIndex) (place : ResolvedPath) : List Segment :=
  if place.segments.isEmpty then ((index.get? place.owner).map (fun t => ⟨t.elementName, none⟩)).toList
  else place.segments

/-- A path of one segment without a number is rendered as a name. -/
theorem Registry.renderPath_singleton (env : Environment) (name : QName) :
    Registry.renderPath env [⟨name, none⟩] = Registry.renderName env name := by
  simp [Registry.renderPath, Registry.renderSegment, Text.join]

/-- **The key of a place** is the text of the segments that tell it. -/
theorem Cell.names_of_ownerKey {place : ResolvedPath} {key : String} (h : (ownerKey env place).on r = (.ok key, r)) :
    Names (Registry.renderPath env (env.target.addressed place)) r key := by
  unfold ownerKey at h
  unfold SchemaIndex.addressed
  by_cases hsegments : place.segments.isEmpty = true
  · rw [if_pos hsegments] at h ⊢
    rw [Registry.renderElement_on] at h
    cases ht : env.target.get? place.owner with
    | none =>
      rw [ht] at h
      cases h
    | some t =>
      rw [ht] at h
      simp only [Prod.mk.injEq, Except.ok.injEq] at h
      simp only [Option.map_some, Option.toList_some]
      rw [Registry.renderPath_singleton]
      exact Prod.ext h.1 h.2
  · rw [if_neg hsegments] at h ⊢
    rw [Build.on_state] at h
    simp only [Prod.mk.injEq, Except.ok.injEq] at h
    exact Prod.ext h.1 h.2

/-- A settled path is bound next to the table. -/
theorem Registry.Bound.pathBound (h : r.Bound env) {segments : List Segment} {key : String}
    (hkey : Names (Registry.renderPath env segments) r key) : PathBound segments r.namespaces key := by
  obtain ⟨-, hpath⟩ := Registry.renders_renderPath noPreference segments r h.table
  rw [show (Registry.renderPath env segments).run r = (key, r) from hkey] at hpath
  exact hpath

theorem pathBound_nil {table : List Namespace} {text : String} : PathBound [] table text ↔ text = "" := by
  constructor
  · rintro ⟨texts, htexts, rfl⟩
    rw [List.forall₂_nil_left_iff.1 htexts]
    rfl
  · rintro rfl
    exact ⟨[], .nil, rfl⟩

theorem pathBound_singleton {table : List Namespace} {name : QName} {text : String} :
    PathBound [⟨name, none⟩] table text ↔ name.Bound table text := by
  constructor
  · rintro ⟨texts, htexts, rfl⟩
    obtain ⟨t, rest, ⟨bound, hbound, rfl⟩, hrest, rfl⟩ := List.forall₂_cons_left_iff.1 htexts
    rw [List.forall₂_nil_left_iff.1 hrest]
    exact hbound
  · intro hbound
    exact ⟨[text], .cons ⟨text, hbound, rfl⟩ .nil, rfl⟩

/-- **The spots of a plan**: the place in the container, and the link field in the nested type. -/
inductive JoinPlan.Touches (p : JoinPlan) : QName → Spot → Prop
  | container : p.Touches p.containerType (.path p.segments)
  | nested : p.Touches p.nestedType (.field p.containerType)

/-- **The spots of a cell**: those of its plans for a join, the place where its target path ends for any other
property cell, and none for a retype. -/
inductive Cell.Touches (env : Environment) (c : Cell) : QName → Spot → Prop
  | plan (plans : List JoinPlan) (p : JoinPlan) (type : QName) (spot : Spot) :
      Function.ofName? c.function = some .join → c.plan env = .ok plans → p ∈ plans → p.Touches type spot →
      Touches env c type spot
  | place (target : Entity) (place : ResolvedPath) :
      Function.ofName? c.function ≠ some .join → c.isTypeCell = false → c.targetEntity = .ok target →
      env.target.resolve target.type target.path = .ok place →
      Touches env c place.owner (.path (env.target.addressed place))

/-! ## Attributes at spots -/

/-- **Furnished for spots**: each attribute is at the text of one of them, and each of them has a text with an
attribute. -/
structure Registry.Furnished (env : Environment) (r : Registry) (touched : QName → Spot → Prop) : Prop where
  only : ∀ type key, (r.attribute? type key).isSome = true →
    ∃ spot, touched type spot ∧ spot.Settled env r type key
  every : ∀ type spot, touched type spot →
    ∃ key, spot.Settled env r type key ∧ (r.attribute? type key).isSome = true

namespace Registry

variable {touched more : QName → Spot → Prop}

theorem furnished_empty (env : Environment) : Furnished env .empty (fun _ _ => False) where
  only := fun type key hx => by
    have hnone : Registry.empty.attribute? type key = none := rfl
    rw [hnone] at hx
    cases hx
  every := fun _ _ hspot => absurd hspot not_false

/-- Only the spots matter. -/
theorem Furnished.congr (h : Furnished env r touched) (hsame : ∀ type spot, touched type spot ↔ more type spot) :
    Furnished env r more := by
  refine ⟨fun type key hx => ?_, fun type spot hspot => h.every type spot ((hsame type spot).2 hspot)⟩
  obtain ⟨spot, hspot, hkey⟩ := h.only type key hx
  exact ⟨spot, (hsame type spot).1 hspot, hkey⟩

/-- **More attributes at more spots**, in a registry that has grown. -/
theorem Furnished.grow (h : Furnished env r touched) (hg : r.Extends s)
    (hkept : ∀ type key, (r.attribute? type key).isSome = true → (s.attribute? type key).isSome = true)
    (hnew : ∀ type key, (s.attribute? type key).isSome = true → (r.attribute? type key).isSome = true ∨
      ∃ spot, more type spot ∧ spot.Settled env s type key)
    (hmore : ∀ type spot, more type spot →
      ∃ key, spot.Settled env s type key ∧ (s.attribute? type key).isSome = true) :
    Furnished env s (fun type spot => touched type spot ∨ more type spot) := by
  refine ⟨fun type key hx => ?_, fun type spot hspot => ?_⟩
  · rcases hnew type key hx with hold | ⟨spot, hspot, hkey⟩
    · obtain ⟨spot, hspot, hkey⟩ := h.only type key hold
      exact ⟨spot, .inl hspot, hkey.grow hg⟩
    · exact ⟨spot, .inr hspot, hkey⟩
  · rcases hspot with hspot | hspot
    · obtain ⟨key, hkey, hx⟩ := h.every type spot hspot
      exact ⟨key, hkey.grow hg, hkept type key hx⟩
    · exact hmore type spot hspot

/-- Quiet steps furnish nothing. -/
theorem Furnished.quiet (h : Furnished env r touched) (hq : Quiet env r s) : Furnished env s touched := by
  refine ⟨fun type key hx => ?_, fun type spot hspot => ?_⟩
  · rw [hq.attributes] at hx
    obtain ⟨spot, hspot, hkey⟩ := h.only type key hx
    exact ⟨spot, hspot, hkey.grow hq.grows⟩
  · obtain ⟨key, hkey, hx⟩ := h.every type spot hspot
    refine ⟨key, hkey.grow hq.grows, ?_⟩
    rw [hq.attributes]
    exact hx

theorem isSome_changed {view : QName → String → Option AttributeMapping} {type t : QName} {key k : String}
    {f : AttributeMapping → AttributeMapping} :
    (changed view type key f t k).isSome = true ↔ (t = type ∧ k = key) ∨ (view t k).isSome = true := by
  unfold changed
  by_cases hat : t = type ∧ k = key
  · rw [if_pos hat]
    exact ⟨fun _ => .inl hat, fun _ => rfl⟩
  · rw [if_neg hat]
    exact ⟨.inr, fun h => h.resolve_left hat⟩

end Registry

open Registry (Furnished isSome_changed)

variable {touched : QName → Spot → Prop}

/-! ## Steps -/

/-- **An installed plan** has furnished its spots. -/
theorem JoinPlan.Installed.furnished {p : JoinPlan} {l : FeatureLink} {key href : String}
    (h : JoinPlan.Installed env p r s l key href) (hr : Furnished env r touched) :
    Furnished env s (fun type spot => touched type spot ∨ p.Touches type spot) := by
  have hcontainer : (Spot.path p.segments).Settled env s p.containerType key := h.path
  have hnested : (Spot.field p.containerType).Settled env s p.nestedType l.linkField := ⟨l, h.link, rfl⟩
  have hfound : ∀ t k, (s.attribute? t k).isSome = true ↔ (t = p.nestedType ∧ k = l.linkField) ∨
      (t = p.containerType ∧ k = key) ∨ (r.attribute? t k).isSome = true := by
    intro t k
    rw [h.attributes, isSome_changed, isSome_changed]
  refine hr.grow h.grows (fun t k hx => (hfound t k).2 (.inr (.inr hx))) (fun t k hx => ?_) (fun t spot hspot => ?_)
  · rcases (hfound t k).1 hx with ⟨rfl, rfl⟩ | ⟨rfl, rfl⟩ | hold
    · exact .inr ⟨_, .nested, hnested⟩
    · exact .inr ⟨_, .container, hcontainer⟩
    · exact .inl hold
  · cases hspot with
    | container => exact ⟨key, hcontainer, (hfound _ _).2 (.inr (.inl ⟨rfl, rfl⟩))⟩
    | nested => exact ⟨l.linkField, hnested, (hfound _ _).2 (.inl ⟨rfl, rfl⟩)⟩

/-- **Installed plans** have furnished their spots, one plan after the other. -/
theorem JoinPlan.furnished_installAll {plans : List JoinPlan} (hs : r.Sound env)
    (hn : ∀ p ∈ plans, env.Nests p.containerType p.nestedType) (hr : Furnished env r touched)
    (hi : (installAll env plans).on r = (.ok (), s)) :
    Furnished env s (fun type spot => touched type spot ∨ ∃ p ∈ plans, p.Touches type spot) := by
  induction plans generalizing r touched with
  | nil =>
    cases hi
    exact hr.congr fun type spot => by simp
  | cons p ps ih =>
    obtain ⟨s1, l, key, href, h1, hinst⟩ := install_ok hs (hn p (List.mem_cons_self ..))
    have hps : (installAll env ps).on s1 = (.ok (), s) := by
      obtain ⟨_, s1', h1', h2⟩ := Build.on_bind_ok.1 hi
      rw [h1] at h1'
      cases h1'
      exact h2
    have hrest := ih hinst.sound (fun q hq => hn q (List.mem_cons_of_mem _ hq)) (hinst.furnished hr) hps
    exact hrest.congr fun type spot => by simp [or_assoc]

/-- **A deposit** has furnished the place where it is. -/
theorem Cell.Deposited.furnished {place : ResolvedPath} {text key : String} (h : Cell.Deposited env place text r s key)
    (hr : Furnished env r touched) :
    Furnished env s (fun type spot => touched type spot ∨
      (type = place.owner ∧ spot = .path (env.target.addressed place))) := by
  have hsettled : (Spot.path (env.target.addressed place)).Settled env s place.owner key :=
    Cell.names_of_ownerKey h.named
  have hfound : ∀ t k, (s.attribute? t k).isSome = true ↔
      (t = place.owner ∧ k = key) ∨ (r.attribute? t k).isSome = true := by
    obtain ⟨node, client, crs, hattributes⟩ := h.attributes
    intro t k
    rw [hattributes, isSome_changed]
  refine hr.grow h.grows (fun t k hx => (hfound t k).2 (.inr hx)) (fun t k hx => ?_) (fun t spot hspot => ?_)
  · rcases (hfound t k).1 hx with ⟨rfl, rfl⟩ | hold
    · exact .inr ⟨_, ⟨rfl, rfl⟩, hsettled⟩
    · exact .inl hold
  · obtain ⟨rfl, rfl⟩ := hspot
    exact ⟨key, hsettled, (hfound _ _).2 (.inl ⟨rfl, rfl⟩)⟩

/-- **A cell that compiles** has furnished its spots, and nothing else. -/
theorem Cell.Effect.furnished (h : c.Effect env r s) (hs : r.Sound env) (hr : Furnished env r touched) :
    Furnished env s (fun type spot => touched type spot ∨ c.Touches env type spot) := by
  cases h with
  | retyped target hname htype _ hq _ =>
    refine (hr.quiet hq).congr fun type spot => ⟨.inl, fun htouched => htouched.resolve_right fun hspot => ?_⟩
    cases hspot with
    | plan _ _ _ _ hjoin =>
      rw [hname] at hjoin
      cases hjoin
    | place _ _ _ hproperty =>
      rw [htype] at hproperty
      cases hproperty
  | joined plans target t hname hplan _ hinstall _ hq _ =>
    refine ((JoinPlan.furnished_installAll hs (plan_nests hplan) hr hinstall).quiet hq).congr fun type spot => ?_
    refine or_congr_right ⟨fun ⟨p, hp, hspot⟩ => .plan plans p type spot hname hplan hp hspot, fun hspot => ?_⟩
    cases hspot with
    | plan plans' p _ _ _ hplan' hp hspot =>
      rw [hplan] at hplan'
      cases hplan'
      exact ⟨p, hp, hspot⟩
    | place _ _ hjoin => exact absurd hname hjoin
  | placed f target e restricted place t key hname hjoin htype htarget _ hq _ hd hdep =>
    have hplace := (destination_ok hd).1
    refine (hdep.furnished (hr.quiet hq)).congr fun type spot => or_congr_right ⟨?_, fun hspot => ?_⟩
    · rintro ⟨rfl, rfl⟩
      exact .place target place (fun h => hjoin (Option.some.inj (hname.symm.trans h))) htype htarget hplace
    · cases hspot with
      | plan _ _ _ _ hname' =>
        rw [hname] at hname'
        exact absurd (Option.some.inj hname') hjoin
      | place target' place' _ _ htarget' hplace' =>
        rw [htarget] at htarget'
        cases htarget'
        rw [hplace] at hplace'
        cases hplace'
        exact ⟨rfl, rfl⟩

/-! ## Runs -/

namespace Environment

/-- The spots of the cells that have compiled. -/
def Touched (env : Environment) (a : Alignment) (cells : List Cell) (type : QName) (spot : Spot) : Prop :=
  ∃ c ∈ env.compiledCells a .start cells, c.Touches env type spot

/-- **After any cells, the attributes are those at the spots of compiled cells.** -/
theorem furnished_compileCells (env : Environment) (a : Alignment) (cells : List Cell) :
    Furnished env (env.compileCells a cells).registry (env.Touched a cells) := by
  -- cell by cell: one that compiles furnishes its spots, and one that does not changes no attribute
  induction cells using List.reverseRecOn with
  | nil => exact (Registry.furnished_empty env).congr fun type spot => by simp [Touched, compiledCells]
  | append_singleton cells c ih =>
    have hsound := sound_compileCells env a cells
    have hcompiled : env.compiledCells a .start (cells ++ [c]) = env.compiledCells a .start cells ++
        (if env.compiles a (env.compileCells a cells) c then [c] else []) := by
      rw [compiledCells_append]
      congr 1
      exact List.append_nil _
    rw [compileCells_concat]
    cases hc : env.compiles a (env.compileCells a cells) c with
    | false =>
      refine (ih.quiet (compileCell_not hsound hc).2).congr fun type spot => ?_
      simp [Touched, hcompiled, hc]
    | true =>
      obtain ⟨hp, s, ho⟩ := compiles_ok hc
      have heffect := outcome_effect hsound ho
      rw [registry_compileCell hp, ho]
      refine (heffect.furnished hsound ih).congr fun type spot => ?_
      simp [Touched, hcompiled, hc, or_and_right, exists_or]

end Environment

end FeatureAlignment
