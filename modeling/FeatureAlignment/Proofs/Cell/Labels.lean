import FeatureAlignment.Cell.Placement
import FeatureAlignment.Proofs.Registry.Calm

/-!
# What a deposit comes to

A deposit first renders the names that it needs and then writes a single attribute. The names are settled
from then on, so the same deposit made again finds them and goes straight to the attribute.

* `Build.Naming x`: the computation `x` only names, also when it fails, and its answer is stable.
* `Cell.Labels`: the names that a deposit needs, settled in a registry.
* `Cell.referenceSystem_on`: the reference system of a value, and the warning when there is none.
* `Cell.deposit_named`, `Cell.deposit_on`: a deposit fails on the key of its place, or it is one change of
  one attribute.
-/

namespace FeatureAlignment

open Registry (Renamed)

variable {env : Environment} {r s : Registry}

namespace Build

variable {α β : Type}

/-- **A stable naming computation** that may fail. It enters new namespaces at most, and comes to the same in
every registry whose table goes on from the one it has left. -/
def Naming (x : Build α) : Prop :=
  ∀ r, Renamed r (x.on r).2 ∧ ∀ t, (x.on r).2.namespaces <+: t.namespaces → x.on t = ((x.on r).1, t)

theorem naming_state {m : StateM Registry α} (h : Registry.Naming m) : Naming (liftM m : Build α) := by
  intro r
  refine ⟨h.renamed r, fun t ht => ?_⟩
  rw [on_state, on_state, h.stable ht]

theorem naming_pure (a : α) : Naming (pure a : Build α) := fun r => ⟨.refl r, fun _ _ => rfl⟩

theorem naming_except (e : Except Failure α) : Naming (liftM e : Build α) := fun r => ⟨.refl r, fun _ _ => rfl⟩

theorem Naming.bind {x : Build α} {f : α → Build β} (hx : Naming x) (hf : ∀ a, Naming (f a)) :
    Naming (x >>= f) := by
  intro r
  obtain ⟨hr, hstable⟩ := hx r
  rw [on_bind]
  rcases h : x.on r with ⟨e | a, s⟩
  · rw [h] at hr hstable
    refine ⟨hr, fun t ht => ?_⟩
    rw [on_bind, hstable t ht]
  · rw [h] at hr hstable
    obtain ⟨hs, hstable'⟩ := hf a s
    -- the table after both computations goes on from the one after the first
    refine ⟨hr.trans hs, fun t ht => ?_⟩
    rw [on_bind, hstable t (hs.namespaces.trans ht)]
    exact hstable' t ht

/-- **What was named once is named again**, in every registry whose table goes on. -/
theorem Naming.again {x : Build α} (h : Naming x) {result : Except Failure α} (hx : x.on r = (result, s))
    {t : Registry} (ht : s.namespaces <+: t.namespaces) : x.on t = (result, t) := by
  have hstable := (h r).2 t
  rw [hx] at hstable
  exact hstable ht

theorem Naming.renamed {x : Build α} (h : Naming x) {result : Except Failure α} (hx : x.on r = (result, s)) :
    Renamed r s := by
  have hr := (h r).1
  rwa [hx] at hr

end Build

theorem Registry.naming_renderElement (env : Environment) (type : QName) :
    (Registry.renderElement env type).Naming :=
  (Build.naming_except _).bind fun t => Build.naming_state (Registry.naming_renderName env t.elementName)

namespace Cell

variable {place : ResolvedPath} {text key : String} {node client : Option String}

theorem naming_ownerKey (env : Environment) (place : ResolvedPath) : (ownerKey env place).Naming := by
  unfold ownerKey
  split
  · exact Registry.naming_renderElement env place.owner
  · exact Build.naming_state (Registry.naming_renderPath env place.segments)

theorem naming_nodeName (env : Environment) (node : Option QName) : (nodeName env node).Naming := by
  unfold nodeName
  split
  · exact (Build.naming_state (Registry.naming_renderName env _)).bind fun _ => Build.naming_pure _
  · exact Build.naming_pure none

theorem naming_clientName (env : Environment) (placement : Placement) : (clientName env placement).Naming := by
  unfold clientName
  split
  · exact (Build.naming_state (Registry.naming_renderName env _)).bind fun _ => Build.naming_pure _
  · exact Build.naming_pure none

/-- The key of a known owner is rendered. -/
theorem ownerKey_succeeds (hk : env.target.Knows place.owner) (r : Registry) :
    ∃ key s, (ownerKey env place).on r = (.ok key, s) := by
  unfold ownerKey
  split
  · obtain ⟨key, s, hkey, -⟩ := Registry.renderElement_ok hk r
    exact ⟨key, s, hkey⟩
  · exact ⟨_, _, rfl⟩

theorem nodeName_succeeds (env : Environment) (node : Option QName) (r : Registry) :
    ∃ name s, (nodeName env node).on r = (.ok name, s) := by
  cases node with
  | none => exact ⟨none, r, rfl⟩
  | some name => exact ⟨_, _, rfl⟩

theorem clientName_succeeds (env : Environment) (placement : Placement) (r : Registry) :
    ∃ name s, (clientName env placement).on r = (.ok name, s) := by
  cases placement with
  | element => exact ⟨none, r, rfl⟩
  | identifier => exact ⟨none, r, rfl⟩
  | clientProperty name => exact ⟨_, _, rfl⟩

/-- **The names that a deposit needs**, settled: the key of the place, its node, and its client property. -/
structure Labels (env : Environment) (place : ResolvedPath) (r : Registry) (key : String)
    (node client : Option String) : Prop where
  key : (ownerKey env place).on r = (.ok key, r)
  node : (nodeName env place.node).on r = (.ok node, r)
  client : (clientName env place.placement).on r = (.ok client, r)

/-- Settled names stay. -/
theorem Labels.grow (h : Labels env place r key node client) (hs : r.namespaces <+: s.namespaces) :
    Labels env place s key node client :=
  ⟨(naming_ownerKey env place).again h.key hs, (naming_nodeName env place.node).again h.node hs,
    (naming_clientName env place.placement).again h.client hs⟩

/-- **The reference system of a value** at a place, if it is a geometry and one is configured. -/
def systemAt (env : Environment) (place : ResolvedPath) : Option String :=
  if place.geometry && place.placement == .element then env.config.targetCrs.map Expr.quote else none

/-- Whether a value at a place is a geometry without a configured reference system. -/
def lacksSystem (env : Environment) (place : ResolvedPath) : Bool :=
  place.geometry && place.placement == .element && env.config.targetCrs.isNone

/-- The registry with the warning about a geometry without a reference system, if the value is one. -/
def warned (env : Environment) (c : Cell) (place : ResolvedPath) (key : String) (r : Registry) : Registry :=
  { r with warnings := r.warnings ++ if lacksSystem env place then [c.nativeCrsWarning key] else [] }

/-- **The reference system is found**, or its absence is noted. -/
theorem referenceSystem_on (env : Environment) (c : Cell) (place : ResolvedPath) (key : String) (r : Registry) :
    (c.referenceSystem env place key).on r = (.ok (systemAt env place), c.warned env place key r) := by
  unfold referenceSystem systemAt warned lacksSystem
  cases place.geometry && place.placement == .element with
  | false => simp
  | true =>
    cases env.config.targetCrs with
    | some crs => simp
    | none => rfl

/-- **A deposit under settled names** is one change of one attribute. -/
theorem Labels.deposit_on (h : Labels env place r key node client) (c : Cell) (text : String) :
    (c.deposit env place text).on r =
      (Registry.upsert place.owner key (write place text node client (systemAt env place))).on
        (c.warned env place key r) := by
  unfold deposit
  rw [Build.on_bind, h.key]
  simp only
  rw [Build.on_bind, h.node]
  simp only
  rw [Build.on_bind, h.client]
  simp only
  rw [Build.on_bind, referenceSystem_on]

/-- **A deposit whose key is rendered** settles the names first, and then it is one change of one attribute. -/
theorem deposit_named {u : Registry} (hkey : (ownerKey env place).on r = (.ok key, u)) (c : Cell)
    (text : String) :
    ∃ node client v, Renamed r v ∧ Labels env place v key node client ∧
      (c.deposit env place text).on r =
        (Registry.upsert place.owner key (write place text node client (systemAt env place))).on
          (c.warned env place key v) := by
  obtain ⟨node, v, hnode⟩ := nodeName_succeeds env place.node u
  obtain ⟨client, w, hclient⟩ := clientName_succeeds env place.placement v
  have hn1 := (naming_ownerKey env place).renamed hkey
  have hn2 := (naming_nodeName env place.node).renamed hnode
  have hn3 := (naming_clientName env place.placement).renamed hclient
  -- the later names leave the earlier ones as they are
  have hlabels : Labels env place w key node client :=
    ⟨(naming_ownerKey env place).again hkey (hn2.namespaces.trans hn3.namespaces),
      (naming_nodeName env place.node).again hnode hn3.namespaces,
      (naming_clientName env place.placement).again hclient (List.prefix_refl _)⟩
  refine ⟨node, client, w, (hn1.trans hn2).trans hn3, hlabels, ?_⟩
  unfold deposit
  rw [Build.on_bind, hkey]
  simp only
  rw [Build.on_bind, hnode]
  simp only
  rw [Build.on_bind, hclient]
  simp only
  rw [Build.on_bind, referenceSystem_on]

/-- **What a deposit comes to.** Without a key for its place it fails and has written nothing. Otherwise the
names are settled first, and then it is one change of one attribute. -/
theorem deposit_on {result : Except Failure AttributeMapping} {c : Cell}
    (h : (c.deposit env place text).on r = (result, s)) :
    (∃ failure, (ownerKey env place).on r = (.error failure, r) ∧ result = .error failure ∧ s = r) ∨
      ∃ key node client u, Renamed r u ∧ Labels env place u key node client ∧
        (Registry.upsert place.owner key (write place text node client (systemAt env place))).on
          (c.warned env place key u) = (result, s) := by
  rcases hkey : (ownerKey env place).on r with ⟨failure | key, u⟩
  · -- the key is rendered first, and an unknown owner enters no namespace
    have hsame : u = r := by
      unfold ownerKey at hkey
      split at hkey
      · rw [Registry.renderElement_on] at hkey
        cases ht : env.target.get? place.owner with
        | none =>
          rw [ht] at hkey
          exact (Prod.mk.inj hkey).2.symm
        | some t =>
          rw [ht] at hkey
          cases hkey
      · cases hkey
    subst hsame
    unfold deposit at h
    rw [Build.on_bind, hkey] at h
    cases h
    exact .inl ⟨failure, rfl, rfl, rfl⟩
  · obtain ⟨node, client, v, hn, hlabels, hrun⟩ := deposit_named hkey c text
    rw [hrun] at h
    exact .inr ⟨key, node, client, v, hn, hlabels, h⟩

end Cell

end FeatureAlignment
