import FeatureAlignment.Proofs.Join.Installed
import FeatureAlignment.Proofs.Registry.Framed
import Mathlib.Data.List.Basic

/-!
# Joins installed again

The plans of a join may write into the same attributes, in turns. Of several expressions and links the last
one stays, of several references the first one. So all that the plans have written into one attribute is one
change of the same kind, and such a change made again changes nothing. The second time all links, mappings and
names are found, so nothing else is written either.

* `LinkChange`: what joins write into an attribute; changes go together into one (`apply_andThen`) and are
  made once (`apply_again`).
* `writeAll`: attributes after writes, `writeAll_again`: the same writes made again.
* `Registry.Rewritten`: only attributes that are there were written.
* `JoinPlan.Laid.again`, `Cell.link_again`: a join installed again leaves the registry as it is.
-/

namespace FeatureAlignment

open Registry (Calm Names Shaped changed)

variable {env : Environment} {r s t : Registry} {href : String}

/-! ## Changes of one attribute -/

/-- **What joins write into an attribute**: an expression, the link of a container, and the target of a
reference. -/
structure LinkChange where
  expression : String
  link : Option FeatureLink
  reference : Option String

namespace LinkChange

/-- Client properties that refer to a feature; those that do so already are kept. -/
def refer (href : String) (reference : Option String) (ps : List ClientProperty) : List ClientProperty :=
  match reference with
  | some value =>
    if (ps.find? (fun p => p.name == href)).isNone then AttributeMapping.setAmong href value ps else ps
  | none => ps

/-- **The changed attribute.** -/
def apply (href : String) (w : LinkChange) (a : AttributeMapping) : AttributeMapping :=
  { a with
    sourceExpression := some w.expression
    linkElement := (w.link.map FeatureLink.linkElement).or a.linkElement
    linkField := (w.link.map FeatureLink.linkField).or a.linkField
    isMultiple := a.isMultiple || w.link.isSome
    clientProperties := refer href w.reference a.clientProperties }

/-- **Two changes in one.** The later expression and link count, and the earlier reference. -/
def andThen (w w' : LinkChange) : LinkChange :=
  ⟨w'.expression, w'.link.or w.link, w.reference.or w'.reference⟩

theorem find?_setAmong (name value : String) (ps : List ClientProperty) :
    ((AttributeMapping.setAmong name value ps).find? (fun p => p.name == name)).isSome = true := by
  have hfound := (AttributeMapping.set_setAmong name value ps).found
  cases hp : (AttributeMapping.setAmong name value ps).find? (fun p => p.name == name) with
  | none =>
    rw [hp] at hfound
    cases hfound
  | some p => rfl

/-- Client properties that refer go on as they are. -/
theorem refer_present {ps : List ClientProperty} (h : (ps.find? (fun p => p.name == href)).isSome = true)
    (reference : Option String) : refer href reference ps = ps := by
  cases reference with
  | none => rfl
  | some value =>
    unfold refer
    cases hf : ps.find? (fun p => p.name == href) with
    | none =>
      rw [hf] at h
      cases h
    | some p => rfl

/-- **The first reference stays.** -/
theorem refer_refer (first second : Option String) (ps : List ClientProperty) :
    refer href second (refer href first ps) = refer href (first.or second) ps := by
  cases first with
  | none => rfl
  | some value =>
    -- after the first one the client properties refer, whatever they did before
    refine refer_present ?_ second
    cases hfound : ps.find? (fun p => p.name == href) with
    | none =>
      simp only [refer, hfound, Option.isNone_none, if_true]
      exact find?_setAmong href value ps
    | some p => simp only [refer, hfound, Option.isNone_some, Bool.false_eq_true, if_false, Option.isSome_some]

/-- **Changes go together.** -/
theorem apply_andThen (w w' : LinkChange) (a : AttributeMapping) :
    (w.andThen w').apply href a = w'.apply href (w.apply href a) := by
  have hmultiple : (a.isMultiple || (w'.link.or w.link).isSome) =
      ((a.isMultiple || w.link.isSome) || w'.link.isSome) := by
    cases w'.link <;> cases w.link <;> simp
  have hlink : ∀ (part : FeatureLink → String) (old : Option String),
      ((w'.link.or w.link).map part).or old = (w'.link.map part).or ((w.link.map part).or old) := by
    intro part old
    cases w'.link <;> rfl
  unfold apply andThen
  simp only [hmultiple, hlink, refer_refer]

theorem andThen_self (w : LinkChange) : w.andThen w = w := by
  unfold andThen
  rw [Option.or_self, Option.or_self]

/-- **A change made again** changes nothing. -/
theorem apply_again (w : LinkChange) (a : AttributeMapping) : w.apply href (w.apply href a) = w.apply href a := by
  rw [← apply_andThen, andThen_self]

end LinkChange

/-! ## Changes of many attributes -/

/-- A change of the attribute of a type under a key. -/
structure LinkWrite where
  type : QName
  key : String
  change : LinkChange

/-- **Attributes after writes**, one after the other. -/
def writeAll (href : String) (ws : List LinkWrite) (view : QName → String → Option AttributeMapping) :
    QName → String → Option AttributeMapping :=
  ws.foldl (fun view w => changed view w.type w.key (w.change.apply href)) view

theorem writeAll_cons (w : LinkWrite) (ws : List LinkWrite) (view : QName → String → Option AttributeMapping) :
    writeAll href (w :: ws) view = writeAll href ws (changed view w.type w.key (w.change.apply href)) := rfl

theorem writeAll_append (ws ws' : List LinkWrite) (view : QName → String → Option AttributeMapping) :
    writeAll href (ws ++ ws') view = writeAll href ws' (writeAll href ws view) := List.foldl_append

/-- **All writes into one attribute are one change**: either there are none, or together they are what a
single change does, whatever was there before. -/
theorem writeAll_at (href : String) (ws : List LinkWrite) (type : QName) (key : String) :
    ((∀ w ∈ ws, ¬ (type = w.type ∧ key = w.key)) ∧ ∀ view, writeAll href ws view type key = view type key) ∨
      ∃ change : LinkChange, ∀ view,
        writeAll href ws view type key = some (change.apply href ((view type key).getD (.ofTarget key))) := by
  induction ws with
  | nil => exact .inl ⟨fun w hw => (List.not_mem_nil hw).elim, fun view => rfl⟩
  | cons w ws ih =>
    by_cases hw : type = w.type ∧ key = w.key
    · -- the first write is here, and what follows goes together with it
      obtain ⟨rfl, rfl⟩ := hw
      refine .inr ?_
      rcases ih with ⟨-, hkept⟩ | ⟨later, hlater⟩
      · refine ⟨w.change, fun view => ?_⟩
        rw [writeAll_cons, hkept, Registry.changed_self]
      · refine ⟨w.change.andThen later, fun view => ?_⟩
        rw [writeAll_cons, hlater, Registry.changed_self, Option.getD_some, LinkChange.apply_andThen]
    · have helsewhere : ∀ view : QName → String → Option AttributeMapping,
          changed view w.type w.key (w.change.apply href) type key = view type key :=
        fun view => Registry.changed_other view hw
      rcases ih with ⟨hnone, hkept⟩ | ⟨later, hlater⟩
      · refine .inl ⟨fun w' hw' => ?_, fun view => ?_⟩
        · rcases List.mem_cons.1 hw' with rfl | hw'
          · exact hw
          · exact hnone w' hw'
        · rw [writeAll_cons, hkept, helsewhere]
      · refine .inr ⟨later, fun view => ?_⟩
        rw [writeAll_cons, hlater, helsewhere]

/-- **Writes made again** change nothing. -/
theorem writeAll_again (ws : List LinkWrite) (view : QName → String → Option AttributeMapping) :
    writeAll href ws (writeAll href ws view) = writeAll href ws view := by
  funext type key
  rcases writeAll_at href ws type key with ⟨-, hkept⟩ | ⟨change, hchange⟩
  · rw [hkept]
  · rw [hchange, hchange, Option.getD_some, LinkChange.apply_again]

/-- An attribute that was written is there. -/
theorem writeAll_isSome {ws : List LinkWrite} {w : LinkWrite} (hw : w ∈ ws)
    (view : QName → String → Option AttributeMapping) : (writeAll href ws view w.type w.key).isSome = true := by
  rcases writeAll_at href ws w.type w.key with ⟨hnone, -⟩ | ⟨change, hchange⟩
  · exact absurd ⟨rfl, rfl⟩ (hnone w hw)
  · rw [hchange]
    rfl

/-- Attributes that are there are not lost by writes. -/
theorem writeAll_keeps (ws : List LinkWrite) {view : QName → String → Option AttributeMapping} {type : QName}
    {key : String} (h : (view type key).isSome = true) : (writeAll href ws view type key).isSome = true := by
  rcases writeAll_at href ws type key with ⟨-, hkept⟩ | ⟨change, hchange⟩
  · rw [hkept]
    exact h
  · rw [hchange]
    rfl

namespace JoinPlan

/-- What a plan writes into the attribute of the container. -/
def containerChange (p : JoinPlan) (l : FeatureLink) : LinkChange :=
  ⟨p.baseKey, some l, if p.isReference then some p.foreignKey else none⟩

/-- What a plan writes into the attribute of the nested type. -/
def nestedChange (p : JoinPlan) : LinkChange := ⟨p.foreignKey, none, none⟩

theorem linkContainer_eq (p : JoinPlan) (l : FeatureLink) (href : String) :
    p.linkContainer l href = (p.containerChange l).apply href := by
  funext a
  have hclient : ∀ ps : List ClientProperty,
      ((ps.find? (fun p => p.name == href)).map ClientProperty.value).isNone =
        (ps.find? (fun p => p.name == href)).isNone := by
    intro ps
    cases ps.find? (fun p => p.name == href) <;> rfl
  unfold linkContainer containerChange LinkChange.apply LinkChange.refer AttributeMapping.clientProperty?
  cases p.isReference with
  | false => simp
  | true =>
    simp only [Bool.true_and, hclient]
    split <;> simp [AttributeMapping.setClientProperty]

theorem linkNested_eq (p : JoinPlan) (href : String) : p.linkNested = p.nestedChange.apply href := by
  funext a
  unfold linkNested nestedChange LinkChange.apply LinkChange.refer
  simp

end JoinPlan

/-! ## Attributes rewritten in place -/

namespace Registry

variable {type : QName} {key : String} {f : AttributeMapping → AttributeMapping}

/-- **Attributes were rewritten.** The mappings have the same attributes as before, which may hold other
values, and all else in the registry is the same. -/
structure Rewritten (r s : Registry) : Prop where
  keyed : s.Keyed
  grows : r.Extends s
  shaped : Shaped r s
  namespaces : s.namespaces = r.namespaces
  links : s.links = r.links
  warnings : s.warnings = r.warnings

theorem Keyed.rewritten (h : r.Keyed) : Rewritten r r := ⟨h, .refl r, .refl r, rfl, rfl, rfl⟩

theorem Rewritten.trans (h : Rewritten r s) (h' : Rewritten s t) : Rewritten r t :=
  ⟨h'.keyed, h.grows.trans h'.grows, h.shaped.trans h'.shaped, h'.namespaces.trans h.namespaces,
    h'.links.trans h.links, h'.warnings.trans h.warnings⟩

/-- **An attribute that is there is rewritten.** -/
theorem Keyed.upsert_found (h : r.Keyed) (hf : AttributeMapping.Change f)
    (ha : (r.attribute? type key).isSome = true) :
    ∃ a s, (Registry.upsert type key f).on r = (.ok a, s) ∧ Rewritten r s ∧
      s.attribute? = changed r.attribute? type key f := by
  obtain ⟨a, ha⟩ := Option.isSome_iff_exists.1 ha
  obtain ⟨slot, hslot⟩ := (maps_of_attribute? ha).slot
  rw [upsert_on, hslot]
  have hrewritten : Rewritten r (r.changeAt slot key f) :=
    ⟨h.changeAt slot key f, extends_changeAt hf r slot key, shaped_changeAt hslot ha, rfl, rfl, rfl⟩
  exact ⟨_, _, rfl, hrewritten, h.attribute?_changeAt hslot key⟩

/-- **Rewritten with the same values**, a registry is the same. -/
theorem Keyed.rewritten_eq (h : r.Keyed) (hs : Rewritten r s) (hfound : s.attribute? = r.attribute?) : s = r := by
  have hentries := h.entries_eq hs.shaped hfound
  cases r
  cases s
  simp only [Registry.mk.injEq]
  exact ⟨hs.namespaces, hentries, hs.shaped.slots, hs.links, hs.warnings⟩

end Registry

/-! ## Plans in place -/

namespace JoinPlan

/-- **A plan in place**: its types are linked and mapped, and its names are settled. -/
structure InPlace (env : Environment) (s : Registry) (p : JoinPlan) : Prop where
  link : ∃ l, s.link? p.containerType p.nestedType = some l
  container : s.Maps p.containerType
  nested : s.Maps p.nestedType
  path : Names (Registry.renderPath env p.segments) s (s.pathText env p.segments)
  reference : Names (Registry.renderName env hrefName) s (s.nameText env hrefName)

/-- **What a plan writes**, read off a registry in which it is in place. -/
def linkWrites (env : Environment) (s : Registry) (p : JoinPlan) : List LinkWrite :=
  match s.link? p.containerType p.nestedType with
  | some l =>
    [⟨p.containerType, s.pathText env p.segments, p.containerChange l⟩,
      ⟨p.nestedType, l.linkField, p.nestedChange⟩]
  | none => []

variable {p : JoinPlan} {plans : List JoinPlan} {l : FeatureLink} {key : String}

theorem linkWrites_eq (hl : s.link? p.containerType p.nestedType = some l) :
    p.linkWrites env s =
      [⟨p.containerType, s.pathText env p.segments, p.containerChange l⟩,
        ⟨p.nestedType, l.linkField, p.nestedChange⟩] := by
  unfold linkWrites
  rw [hl]

/-- **A plan stays in place**, and its writes are the same. -/
theorem InPlace.grow (h : InPlace env s p) (hs : s.Keyed) (ht : t.Keyed) (hg : s.Extends t) :
    InPlace env t p ∧ p.linkWrites env t = p.linkWrites env s ∧
      t.nameText env hrefName = s.nameText env hrefName := by
  obtain ⟨l, hl⟩ := h.link
  have hpath := h.path.grow (Registry.naming_renderPath env p.segments) hg
  have href := h.reference.grow (Registry.naming_renderName env hrefName) hg
  have hkey := Registry.pathText_eq hpath
  have hname := Registry.nameText_eq href
  refine ⟨⟨⟨l, hg.link? hl⟩, hg.maps hs ht h.container, hg.maps hs ht h.nested, ?_, ?_⟩, ?_, hname⟩
  · rw [hkey]
    exact hpath
  · rw [hname]
    exact href
  · rw [linkWrites_eq (hg.link? hl), linkWrites_eq hl, hkey]

/-- **A plan that has been put in place** has made its writes. -/
theorem Joined.written (h : Joined env p r s l key href) :
    InPlace env s p ∧ s.attribute? = writeAll (s.nameText env hrefName) (p.linkWrites env s) r.attribute? := by
  have hkey := Registry.pathText_eq h.path
  have hname := Registry.nameText_eq h.reference
  refine ⟨⟨⟨l, h.link⟩, h.container, h.nested, ?_, ?_⟩, ?_⟩
  · rw [hkey]
    exact h.path
  · rw [hname]
    exact h.reference
  · rw [h.attributes, linkWrites_eq h.link, hkey, hname, p.linkContainer_eq l href, p.linkNested_eq href]
    rfl

/-- **Plans that have been put in place**, one after the other, with all that they have written. -/
structure Laid (env : Environment) (plans : List JoinPlan) (r s : Registry) : Prop where
  keyed : s.Keyed
  grows : r.Extends s
  places : ∀ p ∈ plans, InPlace env s p
  attributes : s.attribute? =
    writeAll (s.nameText env hrefName) (plans.flatMap (linkWrites env s)) r.attribute?

/-- **Installed plans are in place.** -/
theorem installAll_laid (h : r.Keyed) (hn : ∀ p ∈ plans, env.Nests p.containerType p.nestedType)
    (hs : (installAll env plans).on r = (.ok (), s)) : Laid env plans r s := by
  induction plans generalizing r with
  | nil =>
    cases hs
    exact ⟨h, .refl s, fun p hp => (List.not_mem_nil hp).elim, rfl⟩
  | cons p ps ih =>
    obtain ⟨s1, l, key, href, h1, hj⟩ := install_joined h (hn p (List.mem_cons_self ..))
    have hps : (installAll env ps).on s1 = (.ok (), s) := by
      obtain ⟨⟨⟩, s1', h1', h2⟩ := Build.on_bind_ok.1 hs
      rw [h1] at h1'
      cases h1'
      exact h2
    have hrest := ih hj.keyed (fun q hq => hn q (List.mem_cons_of_mem _ hq)) hps
    -- the first plan stays in place while the others are installed
    obtain ⟨hplace, hwritten⟩ := hj.written
    obtain ⟨hplace', hwrites, hname⟩ := hplace.grow hj.keyed hrest.keyed hrest.grows
    refine ⟨hrest.keyed, hj.grows.trans hrest.grows, fun q hq => ?_, ?_⟩
    · rcases List.mem_cons.1 hq with rfl | hq
      · exact hplace'
      · exact hrest.places q hq
    · rw [List.flatMap_cons, writeAll_append, hwrites, hname, ← hwritten, ← hname]
      exact hrest.attributes

/-! ## Installing again -/

/-- The writes of a plan have been made at some time: all attributes that it changes are there. -/
def Found (env : Environment) (s : Registry) (p : JoinPlan) : Prop :=
  ∀ w ∈ p.linkWrites env s, (s.attribute? w.type w.key).isSome = true

/-- **A plan in place is installed again**: nothing but its writes is done. -/
theorem InPlace.install (h : InPlace env r p) (hr : r.Keyed) (hf : Found env r p) :
    ∃ s, (p.install env).on r = (.ok (), s) ∧ Registry.Rewritten r s ∧
      s.attribute? = writeAll (r.nameText env hrefName) (p.linkWrites env r) r.attribute? := by
  obtain ⟨l, hl⟩ := h.link
  obtain ⟨mc, -, hmc⟩ := h.container.ensureMapping env p.containerSource
  obtain ⟨mn, -, hmn⟩ := h.nested.ensureMapping env p.nestedSource
  let key := r.pathText env p.segments
  let href := r.nameText env hrefName
  unfold Found at hf
  rw [linkWrites_eq hl] at hf ⊢
  have hcontainer := hf _ (List.mem_cons_self ..)
  have hnested := hf _ (List.mem_cons_of_mem _ (List.mem_cons_self ..))
  -- the attribute of the container first, and then that of the nested type, which is still there
  obtain ⟨ac, s1, h1, hw1, ha1⟩ := hr.upsert_found (p.change_linkContainer l href) hcontainer
  have hnested1 : (s1.attribute? p.nestedType l.linkField).isSome = true := by
    rw [ha1, p.linkContainer_eq l href]
    exact writeAll_keeps [⟨p.containerType, key, p.containerChange l⟩] hnested
  obtain ⟨an, s2, h2, hw2, ha2⟩ := hw1.keyed.upsert_found p.change_linkNested hnested1
  refine ⟨s2, ?_, hw1.trans hw2, ?_⟩
  · unfold JoinPlan.install
    refine Build.on_bind_ok.2 ⟨l, r, Registry.registerLink_again hl env, ?_⟩
    refine Build.on_bind_ok.2 ⟨mc, r, hmc, Build.on_bind_ok.2 ⟨mn, r, hmn, ?_⟩⟩
    rw [Build.on_state_bind, h.path, Build.on_state_bind, h.reference]
    exact Build.on_bind_ok.2 ⟨ac, s1, h1, Build.on_bind_ok.2 ⟨an, s2, h2, rfl⟩⟩
  · rw [ha2, ha1, p.linkContainer_eq l href, p.linkNested_eq href]
    rfl

/-- **Plans in place are installed again**: nothing but their writes is done, one after the other. -/
theorem installAll_rewritten (hr : r.Keyed) (hp : ∀ p ∈ plans, InPlace env r p)
    (hf : ∀ p ∈ plans, Found env r p) :
    ∃ s, (installAll env plans).on r = (.ok (), s) ∧ Registry.Rewritten r s ∧
      s.attribute? = writeAll (r.nameText env hrefName) (plans.flatMap (linkWrites env r)) r.attribute? := by
  induction plans generalizing r with
  | nil => exact ⟨r, rfl, hr.rewritten, rfl⟩
  | cons p ps ih =>
    have hplace := hp p (List.mem_cons_self ..)
    obtain ⟨s1, h1, hw1, ha1⟩ := hplace.install hr (hf p (List.mem_cons_self ..))
    -- the other plans stay in place, and their attributes are still there
    have hgrow : ∀ q ∈ ps, InPlace env s1 q ∧ q.linkWrites env s1 = q.linkWrites env r ∧
        s1.nameText env hrefName = r.nameText env hrefName :=
      fun q hq => (hp q (List.mem_cons_of_mem _ hq)).grow hr hw1.keyed hw1.grows
    have hname := (hplace.grow hr hw1.keyed hw1.grows).2.2
    have hfound : ∀ q ∈ ps, Found env s1 q := by
      intro q hq w hw
      rw [(hgrow q hq).2.1] at hw
      rw [ha1]
      exact writeAll_keeps _ (hf q (List.mem_cons_of_mem _ hq) w hw)
    obtain ⟨s, h2, hw2, ha2⟩ := ih hw1.keyed (fun q hq => (hgrow q hq).1) hfound
    have hwrites : ps.flatMap (linkWrites env s1) = ps.flatMap (linkWrites env r) :=
      List.flatMap_congr fun q hq => (hgrow q hq).2.1
    refine ⟨s, Build.on_bind_ok.2 ⟨(), s1, h1, h2⟩, hw1.trans hw2, ?_⟩
    rw [ha2, ha1, hwrites, hname, List.flatMap_cons, writeAll_append]

/-- **Plans that have been put in place are installed again**, at once or after calm steps. The registry is
as it was. -/
theorem Laid.again (h : Laid env plans r s) (hc : Calm s t) : (installAll env plans).on t = (.ok (), t) := by
  have hgrow : ∀ p ∈ plans, InPlace env t p ∧ p.linkWrites env t = p.linkWrites env s ∧
      t.nameText env hrefName = s.nameText env hrefName :=
    fun p hp => (h.places p hp).grow h.keyed hc.keyed hc.grows
  have hfound : ∀ p ∈ plans, Found env t p := by
    intro p hp w hw
    rw [(hgrow p hp).2.1] at hw
    rw [hc.attributes, h.attributes]
    exact writeAll_isSome (List.mem_flatMap.2 ⟨p, hp, hw⟩) _
  obtain ⟨u, hu, hw, ha⟩ := installAll_rewritten hc.keyed (fun p hp => (hgrow p hp).1) hfound
  have hwrites : plans.flatMap (linkWrites env t) = plans.flatMap (linkWrites env s) :=
    List.flatMap_congr fun p hp => (hgrow p hp).2.1
  -- the writes that were made come to the same attributes when they are made again
  have hsame : u.attribute? = t.attribute? := by
    cases plans with
    | nil => exact ha
    | cons p ps =>
      rw [ha, hwrites, (hgrow p (List.mem_cons_self ..)).2.2, hc.attributes, h.attributes, writeAll_again]
  rw [hc.keyed.rewritten_eq hw hsame] at hu
  exact hu

end JoinPlan

/-- **A join made again** changes nothing, at once or after calm steps. -/
theorem Cell.link_again {c : Cell} {plans : List JoinPlan} (h : r.Keyed)
    (hl : (c.link env).on r = (.ok plans, s)) :
    s.Keyed ∧ ∀ t, Calm s t → (c.link env).on t = (.ok plans, t) := by
  obtain ⟨hplan, hinstall⟩ := link_run hl
  have hlaid := JoinPlan.installAll_laid h (plan_nests hplan) hinstall
  refine ⟨hlaid.keyed, fun t hc => ?_⟩
  unfold link
  rw [Build.on_except_bind, hplan]
  exact Build.on_bind_ok.2 ⟨(), t, hlaid.again hc, rfl⟩

end FeatureAlignment
