import FeatureAlignment.Join.Install
import FeatureAlignment.Proofs.Join.Planned
import FeatureAlignment.Proofs.Registry.Quiet

/-!
# Installed joins

In a registry with keys a plan whose types are known is installed in full: nothing is missing on
the way. A sound registry is sound again afterwards.

* `JoinPlan.Joined`: what installing a plan has done to a registry.
* `JoinPlan.Installed`: what it has done to a sound registry.
* `JoinPlan.install_joined`, `JoinPlan.install_ok`, `JoinPlan.installAll_ok`: installing succeeds.
* `Cell.link_error`: a join that fails has failed in planning, before anything was written.
-/

namespace FeatureAlignment

open Registry (Calm Names changed)

variable {env : Environment} {r s : Registry}

namespace JoinPlan

/-- **A plan that is in place.** Its types are linked and mapped. The container has the link under the
rendered path, the nested type has the foreign key under the link field, and no other attribute is changed. -/
structure Joined (env : Environment) (p : JoinPlan) (r s : Registry) (l : FeatureLink) (key href : String) :
    Prop where
  keyed : s.Keyed
  grows : r.Extends s
  links : ∀ l' ∈ s.links, l' ∈ r.links ∨ l' = l
  link : s.link? p.containerType p.nestedType = some l
  container : s.Maps p.containerType
  nested : s.Maps p.nestedType
  path : Names (Registry.renderPath env p.segments) s key
  reference : Names (Registry.renderName env hrefName) s href
  attributes : s.attribute? =
    changed (changed r.attribute? p.containerType key (p.linkContainer l href)) p.nestedType l.linkField
      p.linkNested

/-- **A plan whose types are known is put in place.** -/
theorem install_joined {p : JoinPlan} (h : r.Keyed) (hn : env.Nests p.containerType p.nestedType) :
    ∃ s l key href, (p.install env).on r = (.ok (), s) ∧ Joined env p r s l key href := by
  obtain ⟨l, s1, h1, hk1, hg1, ha1, hl1, hls⟩ := h.registerLink hn.inner p.containerType
  obtain ⟨mc, s2, h2, hc2, hmc⟩ := hk1.ensureMapping hn.outer p.containerSource
  obtain ⟨mn, s3, h3, hc3, hmn⟩ := hc2.keyed.ensureMapping hn.inner p.nestedSource
  have hpath := Registry.naming_renderPath env p.segments
  have hhref := Registry.naming_renderName env hrefName
  -- both names are rendered before the attributes are changed
  let s4 := ((Registry.renderPath env p.segments).run s3).2
  let key := ((Registry.renderPath env p.segments).run s3).1
  let s5 := ((Registry.renderName env hrefName).run s4).2
  let href := ((Registry.renderName env hrefName).run s4).1
  have hc4 : Calm s3 s4 := (hpath.renamed s3).calm hc3.keyed
  have hc5 : Calm s4 s5 := (hhref.renamed s4).calm hc4.keyed
  have hc : Calm s1 s5 := ((hc2.trans hc3).trans hc4).trans hc5
  have hC5 : s5.Maps p.containerType :=
    ((hc3.trans hc4).trans hc5).maps hc2.keyed (Option.isSome_iff_exists.2 ⟨mc, hmc⟩)
  have hN5 : s5.Maps p.nestedType := (hc4.trans hc5).maps hc3.keyed (Option.isSome_iff_exists.2 ⟨mn, hmn⟩)
  -- both types have mappings now, so both attributes can be changed
  obtain ⟨ac, s6, h6, hk6, hg6, ha6, -, hl6⟩ := hc5.keyed.upsert (p.change_linkContainer l href) hC5 key
  have hN6 := hg6.maps hc5.keyed hk6 hN5
  obtain ⟨an, s7, h7, hk7, hg7, ha7, -, hl7⟩ := hk6.upsert p.change_linkNested hN6 l.linkField
  have hg57 := hg6.trans hg7
  have hg17 := hc.grows.trans hg57
  have hlinks : ∀ l' ∈ s7.links, l' ∈ r.links ∨ l' = l := by
    rw [hl7, hl6, hc.links]
    intro l' hl'
    rcases hls with hls | hls
    · rw [hls] at hl'; exact .inl hl'
    · rw [hls] at hl'; simpa using hl'
  refine ⟨s7, l, key, href, ?_, hk7, hg1.trans hg17, hlinks, hg17.link? hl1, hg57.maps hc5.keyed hk7 hC5,
    hg57.maps hc5.keyed hk7 hN5, (hpath.names s3).grow hpath (hc5.grows.trans hg57),
    (hhref.names s4).grow hhref hg57, ?_⟩
  · unfold install
    refine Build.on_bind_ok.2 ⟨l, s1, h1, Build.on_bind_ok.2 ⟨mc, s2, h2, Build.on_bind_ok.2 ⟨mn, s3, h3, ?_⟩⟩⟩
    rw [Build.on_state_bind, Build.on_state_bind]
    exact Build.on_bind_ok.2 ⟨ac, s6, h6, Build.on_bind_ok.2 ⟨an, s7, h7, rfl⟩⟩
  · rw [ha7, ha6, hc.attributes, ha1]

/-- **Plans whose types are known are put in place**, one after the other. -/
theorem installAll_keyed {plans : List JoinPlan} (h : r.Keyed)
    (hn : ∀ p ∈ plans, env.Nests p.containerType p.nestedType) :
    ∃ s, (installAll env plans).on r = (.ok (), s) ∧ s.Keyed := by
  induction plans generalizing r with
  | nil => exact ⟨r, rfl, h⟩
  | cons p ps ih =>
    obtain ⟨s, l, key, href, hi, hs⟩ := install_joined h (hn p (List.mem_cons_self ..))
    obtain ⟨t, ha, ht⟩ := ih hs.keyed fun q hq => hn q (List.mem_cons_of_mem _ hq)
    exact ⟨t, Build.on_bind_ok.2 ⟨(), s, hi, ha⟩, ht⟩

/-- **An installed plan.** The container has the link under the rendered path, the nested type
has the foreign key under the link field, and no other attribute is changed. -/
structure Installed (env : Environment) (p : JoinPlan) (r s : Registry) (l : FeatureLink) (key href : String) :
    Prop where
  sound : s.Sound env
  grows : r.Extends s
  links : ∀ l' ∈ s.links, l' ∈ r.links ∨ l' = l
  link : s.link? p.containerType p.nestedType = some l
  path : Names (Registry.renderPath env p.segments) s key
  attributes : s.attribute? =
    changed (changed r.attribute? p.containerType key (p.linkContainer l href)) p.nestedType l.linkField
      p.linkNested

theorem install_ok {p : JoinPlan} (h : r.Sound env) (hn : env.Nests p.containerType p.nestedType) :
    ∃ s l key href, (p.install env).on r = (.ok (), s) ∧ Installed env p r s l key href := by
  obtain ⟨s, l, key, href, hs, hj⟩ := install_joined h.keyed hn
  have htables : Registry.Tables env s := (Registry.elementary_tables env).install p |>.of_on hs h.toTables
  refine ⟨s, l, key, href, hs, ⟨htables, fun l' hl' => ?_⟩, hj.grows, hj.links, hj.link, hj.path, hj.attributes⟩
  -- the ends of older links had mappings before, those of the new one have got them
  rcases hj.links l' hl' with hend | rfl
  · obtain ⟨hc, hn⟩ := h.ends l' hend
    exact ⟨hj.grows.maps h.keyed hj.keyed hc, hj.grows.maps h.keyed hj.keyed hn⟩
  · obtain ⟨-, hc, hn⟩ := Registry.link?_eq_some hj.link
    rw [hc, hn]
    exact ⟨hj.container, hj.nested⟩

/-- **Installing plans one after the other succeeds.** -/
theorem installAll_ok {plans : List JoinPlan} (h : r.Sound env)
    (hn : ∀ p ∈ plans, env.Nests p.containerType p.nestedType) :
    ∃ s, (installAll env plans).on r = (.ok (), s) ∧ s.Sound env := by
  induction plans generalizing r with
  | nil => exact ⟨r, rfl, h⟩
  | cons p ps ih =>
    obtain ⟨s, l, key, href, hi, hs⟩ := install_ok h (hn p (List.mem_cons_self ..))
    obtain ⟨t, ha, ht⟩ := ih hs.sound fun q hq => hn q (List.mem_cons_of_mem _ hq)
    exact ⟨t, Build.on_bind_ok.2 ⟨(), s, hi, ha⟩, ht⟩

end JoinPlan

namespace Cell

variable {c : Cell} {plans : List JoinPlan}

/-- **A join is planned, and then installed in full.** -/
theorem link_on (h : r.Sound env) (hp : c.plan env = .ok plans) :
    ∃ s, (c.link env).on r = (.ok plans, s) ∧ (JoinPlan.installAll env plans).on r = (.ok (), s) ∧
      s.Sound env := by
  obtain ⟨s, hs, hsound⟩ := JoinPlan.installAll_ok h (plan_nests hp)
  refine ⟨s, ?_, hs, hsound⟩
  unfold link
  rw [Build.on_except_bind, hp]
  exact Build.on_bind_ok.2 ⟨(), s, hs, rfl⟩

/-- A join that succeeds, step by step. -/
theorem link_run (hl : (c.link env).on r = (.ok plans, s)) :
    c.plan env = .ok plans ∧ (JoinPlan.installAll env plans).on r = (.ok (), s) := by
  unfold link at hl
  obtain ⟨plans', hp, hl⟩ := Build.on_except_bind_ok.1 hl
  obtain ⟨⟨⟩, t, ha, hl⟩ := Build.on_bind_ok.1 hl
  cases hl
  exact ⟨hp, ha⟩

theorem link_ok (h : r.Sound env) (hl : (c.link env).on r = (.ok plans, s)) :
    c.plan env = .ok plans ∧ (JoinPlan.installAll env plans).on r = (.ok (), s) ∧ s.Sound env := by
  obtain ⟨hp, ha⟩ := link_run hl
  obtain ⟨t, ht, hs⟩ := JoinPlan.installAll_ok h (plan_nests hp)
  rw [ha] at ht
  cases ht
  exact ⟨hp, ha, hs⟩

/-- **A join that fails has written nothing.** It has failed in planning. -/
theorem link_error (h : r.Keyed) {e : Failure} (he : (c.link env).on r = (.error e, s)) : s = r := by
  unfold link at he
  rcases Build.on_except_bind_error.1 he with ⟨-, hs⟩ | ⟨plans, hp, he⟩
  · exact hs
  · -- what was planned is installed
    obtain ⟨t, ht, -⟩ := JoinPlan.installAll_keyed h (plan_nests hp)
    rw [Build.on_bind, ht] at he
    cases he

end Cell

end FeatureAlignment
