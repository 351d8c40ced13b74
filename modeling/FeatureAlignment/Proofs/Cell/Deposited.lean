import FeatureAlignment.Proofs.Cell.Labels
import FeatureAlignment.Proofs.Registry.Quiet

/-!
# Deposited expressions

An expression goes to the type where its target path ends. All crossings on the path are
linked, so that type has a mapping whenever the type of the cell has one, and nothing can fail
any more.

* `Cell.destination_ok`, `Cell.destination_maps`: what is known about a destination.
* `Cell.Deposited`: what depositing an expression has done to a registry.
* `Cell.deposit_ok`: depositing succeeds at every destination.
-/

namespace FeatureAlignment

open Registry (Tables Quiet changed)

variable {env : Environment} {r s t : Registry} {c : Cell} {place : ResolvedPath}

namespace Cell

theorem unlinked?_none {crossings : List Crossing} (h : unlinked? r crossings = none) :
    ∀ x ∈ crossings, ∃ l, r.link? x.container x.nested = some l := by
  intro x hx
  have := List.find?_eq_none.1 h x hx
  rw [Option.isNone_iff_eq_none] at this
  exact Option.ne_none_iff_exists'.1 this

/-- **A destination** is a resolved place whose crossings are all linked. -/
theorem destination_ok {target : Entity} {e restricted : Expr}
    (h : c.destination env r target e = .ok (place, restricted)) :
    env.target.resolve target.type target.path = .ok place ∧
      (∀ x ∈ place.crossings, ∃ l, r.link? x.container x.nested = some l) ∧
      c.guarded place.guards e = .ok restricted := by
  unfold destination at h
  obtain ⟨place', hplace, h⟩ := Build.except_bind_ok.1 h
  cases hu : unlinked? r place'.crossings with
  | some x => rw [hu] at h; cases h
  | none =>
    rw [hu] at h
    simp only at h
    split at h
    · cases h
    · obtain ⟨restricted', hrestricted, h⟩ := Build.except_bind_ok.1 h
      cases h
      exact ⟨hplace, unlinked?_none hu, hrestricted⟩

/-- **The owner of a destination is known and has a mapping** if the type of the cell has one. -/
theorem destination_maps {target : Entity} {e restricted : Expr} (hr : r.Sound env)
    (hm : r.Maps target.type) (h : c.destination env r target e = .ok (place, restricted)) :
    env.target.Knows place.owner ∧ r.Maps place.owner := by
  obtain ⟨hplace, hlinks, -⟩ := destination_ok h
  have hl := SchemaIndex.leads_resolve hplace
  -- a nested type is the end of a link, and both ends of a link have mappings
  refine ⟨hl.knows_owner, hl.owner_of hm fun x hx => ?_⟩
  obtain ⟨l, hlink⟩ := hlinks x hx
  obtain ⟨hmem, -, hn⟩ := Registry.link?_eq_some hlink
  rw [← hn]
  exact (hr.ends l hmem).2

/-! ## Deposits -/

/-- **A deposited expression.** The attribute of its place is written, and no other one. -/
structure Deposited (env : Environment) (place : ResolvedPath) (text : String) (r s : Registry) (key : String) :
    Prop where
  tables : Tables env s
  grows : r.Extends s
  links : s.links = r.links
  named : (ownerKey env place).on s = (.ok key, s)
  attributes : ∃ node client crs,
    s.attribute? = changed r.attribute? place.owner key (write place text node client crs)

/-- **Depositing succeeds** where the owner is known and mapped. -/
theorem deposit_ok (h : Tables env r) (hk : env.target.Knows place.owner) (hm : r.Maps place.owner)
    (c : Cell) (text : String) :
    ∃ a s key, (c.deposit env place text).on r = (.ok a, s) ∧ Deposited env place text r s key := by
  obtain ⟨key, u, hkey⟩ := ownerKey_succeeds hk r
  obtain ⟨node, client, v, hn, hlabels, hrun⟩ := deposit_named hkey c text
  -- naming and the warning are quiet, and then the attribute is written
  have hv := hn.quiet h
  have hq : Quiet env r (c.warned env place key v) := hv.trans (hv.tables.quiet_warned _)
  have hmaps := hq.grows.maps h.keyed hq.tables.keyed hm
  obtain ⟨a, s, hs, ht, hg, ha, -, hl⟩ :=
    hq.tables.upsert (change_write place text node client (systemAt env place)) hmaps key
  refine ⟨a, s, key, hrun.trans hs, ht, hq.grows.trans hg, hl.trans hq.links, (hlabels.grow hg.namespaces).key,
    node, client, systemAt env place, ?_⟩
  rw [ha, hq.attributes]

end Cell

end FeatureAlignment
