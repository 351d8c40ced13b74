import FeatureAlignment.Compilation.Run
import FeatureAlignment.Proofs.Registry.Growth
import FeatureAlignment.Proofs.Registry.Operations

/-!
# What a cell does to a registry

A cell writes to the registry by few elementary steps only: it gives a namespace its prefix,
adds a mapping for a type that has none, changes an attribute of a mapped type, adds a link
between two types that have none, or adds a warning.

* `Registry.Elementary env R`: the relation `R` holds for each elementary step, and for
  sequences of them.
* `Elementary.outcome`: then it holds for the registries before and after any cell, whether
  the cell compiles or fails.
* `elementary_extends`: registries only grow.
-/

namespace FeatureAlignment

open AttributeMapping (Change)
open Build (Keeps)

namespace Registry

/-- **A relation that the elementary steps respect.** -/
structure Elementary (env : Environment) (R : Registry → Registry → Prop) : Prop where
  refl : ∀ r, R r r
  trans : ∀ {r s t}, R r s → R s t → R r t
  label : ∀ uri preferred r, R r ((label env uri preferred).run r).2
  newMapping : ∀ {r type}, r.mapping? type = none →
    ∀ source element, R r (r.addMapping type ⟨source, element, []⟩)
  change : ∀ {r type slot f}, r.slots.lookup type = some slot → Change f →
    ∀ key, R r (r.changeAt slot key f)
  newLink : ∀ {r container nested}, r.link? container nested = none →
    ∀ element, R r (r.addLink ⟨container, nested, element, env.config.linkField (r.links.length + 1)⟩)
  warning : ∀ message r, R r ((warn message).run r).2

variable {env : Environment} {R : Registry → Registry → Prop}

namespace Elementary

variable {α β : Type}

theorem bind (h : Elementary env R) {x : Build α} {f : α → Build β} (hx : x.Keeps R)
    (hf : ∀ a, (f a).Keeps R) : (x >>= f).Keeps R := Keeps.bind (R := R) h.trans hx hf

theorem pure (h : Elementary env R) (a : α) : (Pure.pure a : Build α).Keeps R := Keeps.pure h.refl a

theorem throw (h : Elementary env R) (e : Failure) : (MonadExcept.throw e : Build α).Keeps R :=
  Keeps.throw h.refl e

theorem get (h : Elementary env R) : (MonadState.get : Build Registry).Keeps R := Keeps.get h.refl

theorem except (h : Elementary env R) (e : Except Failure α) : (liftM e : Build α).Keeps R :=
  Keeps.except h.refl e

/-! ## Operations of the registry -/

theorem renderName (h : Elementary env R) (name : QName) (r : Registry) :
    R r ((Registry.renderName env name).run r).2 := h.label name.uri none r

theorem renderSegment (h : Elementary env R) (s : Segment) (r : Registry) :
    R r ((Registry.renderSegment env s).run r).2 := h.renderName s.name r

theorem renderSegments (h : Elementary env R) :
    ∀ (segments : List Segment) (r : Registry), R r ((segments.mapM (Registry.renderSegment env)).run r).2 := by
  intro segments
  induction segments with
  | nil => intro r; rw [List.mapM_nil]; exact h.refl r
  | cons s segments ih =>
    intro r
    rw [List.mapM_cons]
    exact h.trans (h.renderSegment s r) (ih _)

theorem renderPath (h : Elementary env R) (segments : List Segment) (r : Registry) :
    R r ((Registry.renderPath env segments).run r).2 := h.renderSegments segments r

theorem renderElement (h : Elementary env R) (type : QName) :
    (Registry.renderElement env type).Keeps R := by
  unfold Registry.renderElement
  refine h.bind (h.except _) fun t => ?_
  exact Keeps.state (h.renderName t.elementName)

theorem ensureMapping (h : Elementary env R) (type source : QName) :
    (Registry.ensureMapping env type source).Keeps R := by
  intro r
  rw [Registry.ensureMapping_on]
  cases hm : r.mapping? type with
  | some m => exact h.refl r
  | none =>
    cases he : (Registry.renderElement env type).on r with
    | mk result s =>
      have hs := h.renderElement type r
      rw [he] at hs
      cases result with
      | error e => exact hs
      | ok element =>
        -- the type has no mapping yet once the element is rendered
        refine h.trans hs (h.newMapping ?_ source.localName element)
        rw [(renderElement_renamed he).mapping?, hm]

theorem registerLink (h : Elementary env R) (container nested : QName) :
    (Registry.registerLink env container nested).Keeps R := by
  intro r
  rw [Registry.registerLink_on]
  cases hl : r.link? container nested with
  | some l => exact h.refl r
  | none =>
    cases he : (Registry.renderElement env nested).on r with
    | mk result s =>
      have hs := h.renderElement nested r
      rw [he] at hs
      cases result with
      | error e => exact hs
      | ok element =>
        refine h.trans hs (h.newLink ?_ element)
        rw [(renderElement_renamed he).link?, hl]

theorem upsert (h : Elementary env R) {f : AttributeMapping → AttributeMapping} (hf : Change f)
    (type : QName) (key : String) : (Registry.upsert type key f).Keeps R := by
  intro r
  rw [Registry.upsert_on]
  cases hs : r.slots.lookup type with
  | none => exact h.refl r
  | some slot => exact h.change hs hf key

/-! ## Joins -/

theorem install (h : Elementary env R) (p : JoinPlan) : (p.install env).Keeps R := by
  unfold JoinPlan.install
  refine h.bind (h.registerLink _ _) fun link => ?_
  refine h.bind (h.ensureMapping _ _) fun _ => ?_
  refine h.bind (h.ensureMapping _ _) fun _ => ?_
  refine h.bind (Keeps.state (h.renderPath _)) fun key => ?_
  refine h.bind (Keeps.state (h.renderName _)) fun href => ?_
  refine h.bind (h.upsert (p.change_linkContainer link href) _ _) fun _ => ?_
  exact h.bind (h.upsert p.change_linkNested _ _) fun _ => h.pure _

theorem installAll (h : Elementary env R) (plans : List JoinPlan) :
    (JoinPlan.installAll env plans).Keeps R := by
  induction plans with
  | nil => exact h.pure _
  | cons p plans ih => exact h.bind (h.install p) fun _ => ih

theorem joined (h : Elementary env R) (c : Cell) : (c.link env).Keeps R := by
  unfold Cell.link
  refine h.bind (h.except _) fun plans => ?_
  exact h.bind (h.installAll plans) fun _ => h.pure _

/-! ## Property cells -/

theorem ownerKey (h : Elementary env R) (place : ResolvedPath) : (Cell.ownerKey env place).Keeps R := by
  unfold Cell.ownerKey
  split
  · exact h.renderElement _
  · exact Keeps.state (h.renderPath _)

theorem nodeName (h : Elementary env R) (node : Option QName) : (Cell.nodeName env node).Keeps R := by
  unfold Cell.nodeName
  split
  · exact h.bind (Keeps.state (h.renderName _)) fun _ => h.pure _
  · exact h.pure _

theorem clientName (h : Elementary env R) (placement : Placement) :
    (Cell.clientName env placement).Keeps R := by
  unfold Cell.clientName
  split
  · exact h.bind (Keeps.state (h.renderName _)) fun _ => h.pure _
  · exact h.pure _

theorem referenceSystem (h : Elementary env R) (c : Cell) (place : ResolvedPath) (key : String) :
    (c.referenceSystem env place key).Keeps R := by
  unfold Cell.referenceSystem
  split
  · split
    · exact h.pure _
    · exact h.bind (Keeps.state (h.warning _)) fun _ => h.pure _
  · exact h.pure _

theorem deposit (h : Elementary env R) (c : Cell) (place : ResolvedPath) (text : String) :
    (c.deposit env place text).Keeps R := by
  unfold Cell.deposit
  refine h.bind (h.ownerKey _) fun key => ?_
  refine h.bind (h.nodeName _) fun node => ?_
  refine h.bind (h.clientName _) fun client => ?_
  refine h.bind (h.referenceSystem _ _ _) fun crs => ?_
  exact h.upsert (Cell.change_write place text node client crs) _ _

theorem place (h : Elementary env R) (c typeCell : Cell) (e : Expr) : (c.place env typeCell e).Keeps R := by
  unfold Cell.place
  refine h.bind (h.except _) fun target => ?_
  refine h.bind (h.except _) fun typeTarget => ?_
  split
  · exact h.bind (h.throw _) fun _ => h.bind (h.except _) fun source => by
      refine h.bind (h.ensureMapping _ _) fun _ => h.bind h.get fun s => h.bind (h.except _) fun d => ?_
      exact h.deposit c d.1 d.2.render
  · refine h.bind (h.except _) fun source => ?_
    refine h.bind (h.ensureMapping _ _) fun _ => h.bind h.get fun s => h.bind (h.except _) fun d => ?_
    exact h.deposit c d.1 d.2.render

/-! ## Cells -/

theorem retype (h : Elementary env R) (c : Cell) : (c.retype env).Keeps R := by
  unfold Cell.retype
  refine h.bind (h.except _) fun source => h.bind (h.except _) fun target => ?_
  split
  · exact h.bind (h.throw _) fun _ => h.bind (h.except _) fun _ => h.ensureMapping _ _
  · exact h.bind (h.except _) fun _ => h.ensureMapping _ _

theorem joinTypes (h : Elementary env R) (c : Cell) : (c.joinTypes env).Keeps R := by
  unfold Cell.joinTypes
  refine h.bind (h.joined c) fun plans => ?_
  refine h.bind (h.except _) fun target => h.bind (h.except _) fun base => ?_
  exact h.ensureMapping _ _

theorem joinProperty (h : Elementary env R) (c : Cell) : (c.joinProperty env).Keeps R := by
  unfold Cell.joinProperty
  refine h.bind (h.joined c) fun plans => ?_
  split
  · exact h.throw _
  · refine h.bind (Keeps.state (h.renderPath _)) fun key => h.bind h.get fun s => ?_
    split
    · exact h.pure _
    · exact h.throw _

theorem establish (h : Elementary env R) (c : Cell) (f : Function) : (c.establish env f).Keeps R := by
  unfold Cell.establish
  split
  · exact h.retype c
  · exact h.joinTypes c
  · exact h.throw _

theorem fill (h : Elementary env R) (c typeCell : Cell) (f : Function) :
    (c.fill env typeCell f).Keeps R := by
  unfold Cell.fill
  split
  · exact h.joinProperty c
  · exact h.bind (h.except _) fun e => h.place c typeCell e

theorem compileType (h : Elementary env R) (c : Cell) : (env.compileType c).Keeps R := by
  unfold Environment.compileType
  refine h.bind (h.except _) fun f => ?_
  exact h.bind (h.establish c f) fun _ => h.pure _

theorem compileProperty (h : Elementary env R) (a : Alignment) (p : Progress) (c : Cell) :
    (env.compileProperty a p c).Keeps R := by
  unfold Environment.compileProperty
  refine h.bind (h.except _) fun f => ?_
  split
  · exact h.bind (h.throw _) fun _ => h.bind (h.except _) fun t => h.bind (h.fill c t f) fun _ => h.pure _
  · exact h.bind (h.except _) fun t => h.bind (h.fill c t f) fun _ => h.pure _

/-- **Every cell is made of elementary steps**, also one that fails. -/
theorem outcome (h : Elementary env R) (a : Alignment) (p : Progress) (c : Cell) :
    R p.registry (env.outcome a p c).2 := by
  unfold Environment.outcome
  split
  · exact h.compileType c p.registry
  · exact h.compileProperty a p c p.registry

end Elementary

/-- **Registries only grow.** -/
theorem elementary_extends (env : Environment) : Elementary env Extends where
  refl := Extends.refl
  trans := Extends.trans
  label uri preferred r := ((naming_label env uri preferred).renamed r).extends
  newMapping _ _ _ := extends_addMapping _ _ _
  change _ hf key := extends_changeAt hf _ _ key
  newLink _ _ := extends_addLink _ _
  warning message r := extends_warned r [message]

end Registry

/-- Installing plans extends the registry, also when it fails. -/
theorem JoinPlan.installAll_extends {env : Environment} {plans : List JoinPlan} {r s : Registry}
    {result : Except Failure Unit} (h : (installAll env plans).on r = (result, s)) : r.Extends s := by
  have hg := (Registry.elementary_extends env).installAll plans r
  rw [h] at hg
  exact hg

end FeatureAlignment
