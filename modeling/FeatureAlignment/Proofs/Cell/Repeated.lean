import FeatureAlignment.Proofs.Cell.Labels
import FeatureAlignment.Proofs.Compilation.History
import FeatureAlignment.Proofs.Join.Repeated
import FeatureAlignment.Proofs.Registry.Built

/-!
# Cells transformed again

A transformation may be run again right where it has ended. It comes to the same, also when it has failed on
the way: mappings, links and names that it has asked for are found, and what it writes into attributes is
there already. Only a warning is given once more.

* `Registry.Noted`: nothing but warnings is new.
* `Build.Repeats`: run again, a computation comes to the same and notes warnings at most.
* `Cell.write_again`, `Registry.Keyed.upsert_again`: an expression that is written again.
* `Cell.transformations_repeat`: so it is with every transformation of a cell, in every registry built by its
  operations.
-/

namespace FeatureAlignment

open Registry (Built Calm Renamed Shaped changed)

variable {env : Environment} {r s t : Registry} {α : Type}

/-! ## Repeated computations -/

/-- **Nothing but warnings is new.** -/
structure Registry.Noted (r s : Registry) : Prop where
  namespaces : s.namespaces = r.namespaces
  entries : s.entries = r.entries
  slots : s.slots = r.slots
  links : s.links = r.links
  warnings : r.warnings <+: s.warnings

theorem Registry.Noted.refl (r : Registry) : r.Noted r := ⟨rfl, rfl, rfl, rfl, List.prefix_refl _⟩

/-- **A computation repeats from a registry**: run again where it has ended, it has the same result, whether
it succeeds or fails, and nothing but warnings is new. -/
def Build.Repeats (x : Build α) (r : Registry) : Prop :=
  ∃ t, x.on (x.on r).2 = ((x.on r).1, t) ∧ (x.on r).2.Noted t

theorem Build.repeats_iff {x : Build α} {result : Except Failure α} (h : x.on r = (result, s)) :
    x.Repeats r ↔ ∃ t, x.on s = (result, t) ∧ s.Noted t := by
  unfold Build.Repeats
  rw [h]

/-- A computation that leaves the registry as it has left it repeats. -/
theorem Build.repeats_of_same {x : Build α} {result : Except Failure α} (h : x.on r = (result, s))
    (hs : x.on s = (result, s)) : x.Repeats r := (repeats_iff h).2 ⟨s, hs, .refl s⟩

theorem Build.repeats_throw (e : Failure) (r : Registry) : (throw e : Build α).Repeats r :=
  ⟨r, rfl, .refl r⟩

theorem Build.repeats_throw_bind {β : Type} (e : Failure) (f : β → Build α) (r : Registry) :
    ((throw e : Build β) >>= f).Repeats r := repeats_of_same (on_throw_bind e f r) (on_throw_bind e f r)

/-- **A check before a computation** is made again with the same answer. -/
theorem Build.repeats_except_bind {β : Type} {e : Except Failure β} {f : β → Build α}
    (h : ∀ a, e = .ok a → (f a).Repeats r) : ((liftM e : Build β) >>= f).Repeats r := by
  cases e with
  | error failure => exact repeats_of_same (on_except_bind ..) (on_except_bind ..)
  | ok a =>
    have hrun : ∀ v, ((liftM (Except.ok a : Except Failure β) : Build β) >>= f).on v = (f a).on v := by
      intro v
      rw [on_except_bind]
    obtain ⟨t, ht, hnoted⟩ := h a rfl
    unfold Build.Repeats
    rw [hrun]
    exact ⟨t, (hrun _).trans ht, hnoted⟩

/-! ## Attributes written again -/

theorem AttributeMapping.setAmong_again (name value : String) (ps : List ClientProperty) :
    setAmong name value (setAmong name value ps) = setAmong name value ps := by
  induction ps with
  | nil => simp [setAmong]
  | cons p ps ih =>
    by_cases hp : p.name = name
    · simp [setAmong, hp]
    · simp [setAmong, hp, ih]

/-- **An expression written again** changes nothing. -/
theorem Cell.write_again (place : ResolvedPath) (text : String) (node client crs : Option String)
    (a : AttributeMapping) :
    write place text node client crs (write place text node client crs a) =
      write place text node client crs a := by
  have hmultiple : ∀ b : Bool, ((b || place.isMultiple) || place.isMultiple) = (b || place.isMultiple) := by
    intro b
    rw [Bool.or_assoc, Bool.or_self]
  unfold write
  cases place.placement with
  | element =>
    cases crs with
    | none => simp only [hmultiple]
    | some crs => simp only [AttributeMapping.setClientProperty, AttributeMapping.setAmong_again, hmultiple]
  | identifier => simp only [hmultiple]
  | clientProperty name =>
    simp only [AttributeMapping.setClientProperty, AttributeMapping.setAmong_again, hmultiple]

namespace Registry

variable {type : QName} {key : String} {f : AttributeMapping → AttributeMapping}

/-- A change made again leaves the view of attributes as it is. -/
theorem changed_again (hf : ∀ a, f (f a) = f a) (view : QName → String → Option AttributeMapping) :
    changed (changed view type key f) type key f = changed view type key f := by
  funext t k
  by_cases h : t = type ∧ k = key
  · obtain ⟨rfl, rfl⟩ := h
    rw [changed_self, changed_self, Option.getD_some, hf]
  · rw [changed_other _ h]

/-- **A change made again**, in any registry with the entries that it has left, has the same answer or fails
in the same way. It leaves that registry as it is. -/
theorem Keyed.upsert_again (h : r.Keyed) (hf : ∀ a, f (f a) = f a) {result : Except Failure AttributeMapping}
    (hup : (Registry.upsert type key f).on r = (result, s)) (hentries : t.entries = s.entries)
    (hslots : t.slots = s.slots) :
    (Registry.upsert type key f).on t = (result, t) := by
  rw [upsert_on] at hup ⊢
  cases hr : r.slots.lookup type with
  | none =>
    rw [hr] at hup
    cases hup
    rw [hslots, hr]
  | some slot =>
    rw [hr] at hup
    cases hup
    have hs : (r.changeAt slot key f).slots.lookup type = some slot := hr
    have hview : (r.changeAt slot key f).attribute? = changed r.attribute? type key f :=
      h.attribute?_changeAt hr key
    have hfound : (r.changeAt slot key f).attribute? type key =
        some (f ((r.attribute? type key).getD (.ofTarget key))) := by
      rw [hview, changed_self]
    have hkeyed := h.changeAt slot key f
    -- the attribute is there, and it is changed into what it is
    have hagain : ((r.changeAt slot key f).changeAt slot key f).entries = (r.changeAt slot key f).entries := by
      refine hkeyed.entries_eq (shaped_changeAt hs hfound) ?_
      rw [hkeyed.attribute?_changeAt hs key, hview, changed_again hf]
    have hmodified : t.entries.modify slot (MappingEntry.upsert key f) = t.entries := by
      rw [hentries]
      exact hagain
    have hsame : t.changeAt slot key f = t := by
      unfold Registry.changeAt
      rw [hmodified]
    have hattribute : t.attribute? type key = some (f ((r.attribute? type key).getD (.ofTarget key))) := by
      rw [← hfound]
      unfold Registry.attribute? held?
      rw [hentries, hslots]
    rw [hslots, hs]
    simp only [hsame, hattribute, Option.getD_some, hf]

end Registry

/-! ## Property cells -/

namespace Cell

variable {c typeCell : Cell} {place : ResolvedPath} {text : String} {e : Expr}

theorem noted_warned (env : Environment) (c : Cell) (place : ResolvedPath) (key : String) (r : Registry) :
    r.Noted (c.warned env place key r) := ⟨rfl, rfl, rfl, rfl, List.prefix_append _ _⟩

/-- **A deposit is made again**: the same is deposited, and at most the warning about the geometry is new. -/
theorem deposit_again (hr : r.Keyed) {result : Except Failure AttributeMapping}
    (h : (c.deposit env place text).on r = (result, s)) :
    s.Keyed ∧ s.links = r.links ∧ r.slots = s.slots ∧
      ∃ t, (c.deposit env place text).on s = (result, t) ∧ s.Noted t := by
  rcases deposit_on h with ⟨failure, -, -, rfl⟩ | ⟨key, node, client, u, hn, hlabels, hup⟩
  · exact ⟨hr, rfl, rfl, s, h, .refl s⟩
  have hu := hr.renamed hn
  have hw : (c.warned env place key u).Keyed := ⟨hu.slots, hu.entries⟩
  have hs := hw.on_upsert place.owner key (write place text node client (systemAt env place))
  rw [hup] at hs
  -- the change keeps names, links and positions
  have hframe : s.namespaces = u.namespaces ∧ s.links = u.links ∧ s.slots = u.slots := by
    rw [Registry.upsert_on] at hup
    cases hslot : (c.warned env place key u).slots.lookup place.owner with
    | none =>
      rw [hslot] at hup
      cases hup
      exact ⟨rfl, rfl, rfl⟩
    | some slot =>
      rw [hslot] at hup
      cases hup
      exact ⟨rfl, rfl, rfl⟩
  obtain ⟨hnamespaces, hlinks, hslots⟩ := hframe
  refine ⟨hs, hlinks.trans hn.links, (hslots.trans hn.slots).symm, c.warned env place key s, ?_,
    noted_warned env c place key s⟩
  have hprefix : u.namespaces <+: s.namespaces := hnamespaces ▸ List.prefix_refl _
  rw [(hlabels.grow hprefix).deposit_on]
  exact hw.upsert_again (write_again place text node client _) hup rfl rfl

/-- What a placement does once it is checked is done again: the mapping of the root type is found, and the
destination, which depends on the links, is the same. -/
theorem settle_repeats (hr : r.Keyed) (c : Cell) (target : Entity) (source : QName) (e : Expr) :
    Build.Repeats (do
      let _ ← Registry.ensureMapping env target.type source
      let (place, restricted) ← c.destination env (← get) target e
      c.deposit env place restricted.render) r := by
  generalize hx : (do
      let _ ← Registry.ensureMapping env target.type source
      let (place, restricted) ← c.destination env (← get) target e
      c.deposit env place restricted.render : Build AttributeMapping) = x
  have hrun : ∀ v w m, (Registry.ensureMapping env target.type source).on v = (.ok m, w) → x.on v =
      match c.destination env w target e with
      | .ok d => (c.deposit env d.1 d.2.render).on w
      | .error failure => (.error failure, w) := by
    intro v w m hm
    rw [← hx, Build.on_bind, hm]
    simp only
    rw [Build.on_get_bind, Build.on_except_bind]
    cases c.destination env w target e <;> rfl
  rcases hm : (Registry.ensureMapping env target.type source).on r with ⟨failure | m, u⟩
  · -- without the mapping nothing is done, and it is asked for in vain again
    have hu := Registry.ensureMapping_error hm
    subst hu
    have hx : x.on u = (.error failure, u) := by
      rw [← hx, Build.on_bind, hm]
    exact Build.repeats_of_same hx hx
  · obtain ⟨hcalm, hmapped⟩ := hr.ensureMapping_ok hm
    have hmaps : u.Maps target.type := Option.isSome_iff_exists.2 ⟨m, hmapped⟩
    have hagain : ∀ v, v.Maps target.type →
        ∃ m', (Registry.ensureMapping env target.type source).on v = (.ok m', v) := by
      intro v hv
      obtain ⟨m', -, hm'⟩ := hv.ensureMapping env source
      exact ⟨m', hm'⟩
    cases hd : c.destination env u target e with
    | error failure =>
      have hfirst : x.on r = (.error failure, u) := by
        rw [hrun r u m hm, hd]
      obtain ⟨m', hm'⟩ := hagain u hmaps
      have hsecond : x.on u = (.error failure, u) := by
        rw [hrun u u m' hm', hd]
      exact Build.repeats_of_same hfirst hsecond
    | ok d =>
      rcases hdeposit : (c.deposit env d.1 d.2.render).on u with ⟨result, s⟩
      obtain ⟨hs, hlinks, hslots, t, ht, hnoted⟩ := deposit_again hcalm.keyed hdeposit
      -- a type with a position is mapped
      obtain ⟨slot, hslot⟩ := hmaps.slot
      have hmaps' : s.Maps target.type := hs.maps_of_slot (hslots ▸ hslot)
      obtain ⟨m', hm'⟩ := hagain s hmaps'
      have hfirst : x.on r = (result, s) := by
        rw [hrun r u m hm, hd]
        exact hdeposit
      have hsecond : x.on s = (result, t) := by
        rw [hrun s s m' hm', destination_links hlinks, hd]
        exact ht
      exact (Build.repeats_iff hfirst).2 ⟨t, hsecond, hnoted⟩

/-- **A placement is made again.** -/
theorem place_repeats (hr : r.Keyed) (c typeCell : Cell) (e : Expr) : (c.place env typeCell e).Repeats r := by
  unfold Cell.place
  refine Build.repeats_except_bind fun target _ => Build.repeats_except_bind fun typeTarget _ => ?_
  split
  · exact Build.repeats_throw_bind _ _ r
  · exact Build.repeats_except_bind fun source _ => settle_repeats hr c target source e

/-! ## Type cells and joins -/

theorem retype_repeats (hr : r.Keyed) (c : Cell) : (c.retype env).Repeats r := by
  unfold retype
  refine Build.repeats_except_bind fun source _ => Build.repeats_except_bind fun target _ => ?_
  split
  · exact Build.repeats_throw_bind _ _ r
  · refine Build.repeats_except_bind fun _ _ => ?_
    rcases hm : (Registry.ensureMapping env target.type source.type).on r with ⟨result, s⟩
    exact Build.repeats_of_same hm (hr.ensureMapping_again hm)

/-- **A calm computation**: it takes calm steps only, and does nothing more when it is run again. -/
def Settles (x : Build α) (r : Registry) : Prop :=
  ∃ result s, x.on r = (result, s) ∧ Calm r s ∧ x.on s = (result, s)

theorem settles_except_bind {β : Type} {e : Except Failure β} {f : β → Build α} (hr : r.Keyed)
    (h : ∀ a, Settles (f a) r) : Settles ((liftM e : Build β) >>= f) r := by
  cases e with
  | error failure => exact ⟨_, r, Build.on_except_bind .., hr.calm, Build.on_except_bind ..⟩
  | ok a =>
    obtain ⟨result, s, hfirst, hcalm, hsecond⟩ := h a
    refine ⟨result, s, ?_, hcalm, ?_⟩
    · rw [Build.on_except_bind]
      exact hfirst
    · rw [Build.on_except_bind]
      exact hsecond

theorem settles_ensureMapping (hr : r.Keyed) (type source : QName) :
    Settles (Registry.ensureMapping env type source) r := by
  rcases hm : (Registry.ensureMapping env type source).on r with ⟨failure | m, s⟩
  · have hs := Registry.ensureMapping_error hm
    subst hs
    exact ⟨_, s, hm, hr.calm, hm⟩
  · exact ⟨_, s, hm, (hr.ensureMapping_ok hm).1, hr.ensureMapping_again hm⟩

/-- **A join repeats** with what follows it, if that is calm. -/
theorem link_bind_repeats (hr : r.Keyed) {f : List JoinPlan → Build α}
    (hf : ∀ plans s, s.Keyed → Settles (f plans) s) : (c.link env >>= f).Repeats r := by
  rcases hl : (c.link env).on r with ⟨failure | plans, s⟩
  · have hs := link_error hr hl
    subst hs
    have hx : (c.link env >>= f).on s = (.error failure, s) := by
      rw [Build.on_bind, hl]
    exact Build.repeats_of_same hx hx
  · obtain ⟨hs, hagain⟩ := link_again hr hl
    obtain ⟨result, t, hfirst, hcalm, hsecond⟩ := hf plans s hs
    have hx : (c.link env >>= f).on r = (result, t) := by
      rw [Build.on_bind, hl]
      exact hfirst
    -- the join is installed again after what followed, and leaves that as it is
    have hagain : (c.link env >>= f).on t = (result, t) := by
      rw [Build.on_bind, hagain t hcalm]
      exact hsecond
    exact Build.repeats_of_same hx hagain

theorem joinTypes_repeats (hr : r.Keyed) (c : Cell) : (c.joinTypes env).Repeats r := by
  refine link_bind_repeats hr fun plans s hs => ?_
  refine settles_except_bind hs fun target => settles_except_bind hs fun base => ?_
  exact settles_ensureMapping hs target.type base

theorem joinProperty_repeats (hr : r.Keyed) (c : Cell) : (c.joinProperty env).Repeats r := by
  refine link_bind_repeats hr fun plans s hs => ?_
  cases plans with
  | nil => exact ⟨_, s, Build.on_throw .., hs.calm, Build.on_throw ..⟩
  | cons p ps =>
    -- the path of the first plan is named, and then the attribute is looked up
    have hnaming := Registry.naming_renderPath env p.segments
    have hagain := hnaming.names s
    have hcalm := (hnaming.renamed s).calm hs
    rcases hfirst : (Registry.renderPath env p.segments).run s with ⟨key, t⟩
    rw [hfirst] at hagain hcalm
    cases ha : t.attribute? p.containerType key with
    | some a =>
      refine ⟨.ok a, t, ?_, hcalm, ?_⟩
      · rw [Build.on_state_bind, hfirst, Build.on_get_bind, ha]
        rfl
      · rw [Build.on_state_bind, hagain, Build.on_get_bind, ha]
        rfl
    | none =>
      refine ⟨.error (.noLinkAttribute key), t, ?_, hcalm, ?_⟩
      · rw [Build.on_state_bind, hfirst, Build.on_get_bind, ha]
        rfl
      · rw [Build.on_state_bind, hagain, Build.on_get_bind, ha]
        rfl

/-- **Every transformation of a cell repeats**, in every registry built by its operations. Made again where it
has ended, whether it has succeeded or failed, it has the same result, and nothing but warnings is new. -/
theorem transformations_repeat (hr : r.Built env) (c typeCell : Cell) (f : Function) :
    (c.establish env f).Repeats r ∧ (c.fill env typeCell f).Repeats r := by
  have hkeyed := hr.keyed
  constructor
  · unfold establish
    split
    · exact retype_repeats hkeyed c
    · exact joinTypes_repeats hkeyed c
    · exact Build.repeats_throw _ r
  · unfold fill
    split
    · exact joinProperty_repeats hkeyed c
    · exact Build.repeats_except_bind fun e _ => place_repeats hkeyed c typeCell e

end Cell

namespace Roads

/-- Lanes are joined to their road by two equalities, which share the left side and the link field. -/
def doubled : Cell :=
  ⟨"doubled", "join", [.ofType ⟨"RoadRow"⟩, .ofType ⟨"LaneRow"⟩], [.ofType ⟨"Road"⟩],
    ⟨[("join", [.join ⟨[⟨"RoadRow"⟩, ⟨"LaneRow"⟩],
      [⟨property "RoadRow" ["id"], property "LaneRow" ["road"]⟩,
        ⟨property "RoadRow" ["name"], property "LaneRow" ["width"]⟩]⟩])]⟩⟩

/-- **Two equalities for one link**: the second one has the last word, also when both are installed again. -/
theorem doubled_again :
    ((doubled.establish (environment doubled) .join).on .empty).1 =
        .ok ⟨"RoadRow", "Road", [⟨"left", none, some "name", none, true, some "Lane", some "LINK[1]", []⟩]⟩ ∧
      (doubled.establish (environment doubled) .join).Repeats .empty ∧
      (doubled.fill (environment doubled) doubled .join).Repeats .empty :=
  ⟨rfl, Cell.transformations_repeat .empty doubled doubled .join⟩

end Roads

end FeatureAlignment
