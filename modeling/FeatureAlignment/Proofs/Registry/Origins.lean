import FeatureAlignment.Join.Install
import FeatureAlignment.Proofs.Registry.Quiet

/-!
# Where mappings come from

A target type has one mapping. It is created when the type is first asked for, with the source type that it is
asked for with then; whoever asks later gets the same mapping, whatever source type he has in mind.

* `MappingRequest`, `firstSource?`: requests for mappings, and the source of the first one for a type.
* `Registry.Asks`: a computation that makes requests, and leaves the source types of mappings alone
  otherwise. Computations in sequence make their requests one after the other (`Asks.bind`).
* `Registry.asks_ensureMapping`, `JoinPlan.asks_installAll`: a mapping that is needed is asked for, and a plan
  asks for both of its sides.
-/

namespace FeatureAlignment

/-- **A request for the mapping of a target type**, for a source type. -/
structure MappingRequest where
  type : QName
  source : QName
  deriving DecidableEq, Repr

/-- **The source of the first request** for a type. -/
def firstSource? (requests : List MappingRequest) (type : QName) : Option String :=
  (requests.find? (fun q => q.type = type)).map (fun q => q.source.localName)

theorem firstSource?_append (requests more : List MappingRequest) (type : QName) :
    firstSource? (requests ++ more) type = (firstSource? requests type).or (firstSource? more type) := by
  unfold firstSource?
  rw [List.find?_append]
  cases requests.find? (fun q => q.type = type) with
  | none => rfl
  | some q => rfl

theorem firstSource?_singleton (type source t : QName) :
    firstSource? [⟨type, source⟩] t = if type = t then some source.localName else none := by
  unfold firstSource?
  by_cases h : type = t
  · simp [h]
  · simp [h]

theorem firstSource?_eq_some {requests : List MappingRequest} {type : QName} {name : String}
    (h : firstSource? requests type = some name) : ∃ q ∈ requests, q.type = type ∧ q.source.localName = name := by
  unfold firstSource? at h
  obtain ⟨q, hq, hname⟩ := Option.map_eq_some_iff.1 h
  have htype : q.type = type := by simpa using List.find?_some hq
  exact ⟨q, List.mem_of_find?_eq_some hq, htype, hname⟩

namespace Registry

variable {env : Environment} {r s : Registry} {α β : Type} {qs qs' : List MappingRequest}
  {f : AttributeMapping → AttributeMapping}

/-- The source type of the mapping of a target type. -/
def sourceOf? (r : Registry) (type : QName) : Option String := (r.mapping? type).map TypeMapping.sourceType

/-- **One entry for each mapped type.** -/
theorem Tables.filter_entries (h : Tables env r) {e : MappingEntry} (he : e ∈ r.entries) :
    r.entries.filter (fun x => x.targetType = e.targetType) = [e] := by
  -- the entry splits the list, and no type comes twice
  obtain ⟨before, after, hsplit⟩ := List.append_of_mem he
  have hnodup : (r.entries.map MappingEntry.targetType).Nodup := h.slots.nodup
  rw [hsplit, List.map_append, List.map_cons] at hnodup
  obtain ⟨-, hafter, hapart⟩ := List.nodup_append.1 hnodup
  have hbefore : before.filter (fun x => x.targetType = e.targetType) = [] := by
    refine List.filter_eq_nil_iff.2 fun x hx => ?_
    simpa using hapart x.targetType (List.mem_map_of_mem hx) e.targetType List.mem_cons_self
  have hrest : after.filter (fun x => x.targetType = e.targetType) = [] := by
    refine List.filter_eq_nil_iff.2 fun x hx => ?_
    have hne : x.targetType ≠ e.targetType := by
      intro heq
      exact (List.nodup_cons.1 hafter).1 (heq ▸ List.mem_map_of_mem hx)
    simpa using hne
  rw [hsplit, List.filter_append, List.filter_cons, hbefore, hrest]
  simp

/-- **From one registry to another by requests**: a source type that was there stays, and any other is that of
the first request. -/
def Requested (env : Environment) (qs : List MappingRequest) (r s : Registry) : Prop :=
  Tables env s ∧ ∀ type, s.sourceOf? type = (r.sourceOf? type).or (firstSource? qs type)

theorem Requested.trans {t : Registry} (h : Requested env qs r s) (h' : Requested env qs' s t) :
    Requested env (qs ++ qs') r t := by
  refine ⟨h'.1, fun type => ?_⟩
  rw [h'.2, h.2, firstSource?_append, Option.or_assoc]

/-- Nothing is asked for where the mappings stay. -/
theorem Requested.of_mapping? (h : Tables env s) (hm : ∀ type, s.sourceOf? type = r.sourceOf? type) :
    Requested env [] r s := by
  refine ⟨h, fun type => ?_⟩
  rw [hm type]
  exact (Option.or_none).symm

theorem Renamed.requested (h : Renamed r s) (hr : Tables env r) : Requested env [] r s := by
  refine .of_mapping? (hr.renamed h) fun type => ?_
  unfold sourceOf?
  rw [h.mapping?]

theorem Tables.requested_addMapping (h : Tables env r) {type : QName} (hm : r.mapping? type = none) (source : QName)
    (element : String) :
    Requested env [⟨type, source⟩] r (r.addMapping type ⟨source.localName, element, []⟩) := by
  refine ⟨h.addMapping hm _ _, fun t => ?_⟩
  rw [firstSource?_singleton]
  unfold sourceOf? mapping?
  rw [h.keyed.held?_addMapping]
  by_cases ht : t = type
  · -- the new mapping has the source type of the request
    subst ht
    have hnone : r.held? t = none := by simpa [mapping?] using hm
    simp [hnone]
  · simp [ht, Ne.symm ht]

/-- A changed attribute leaves the source types alone. -/
theorem Tables.requested_changeAt (h : Tables env r) (hf : AttributeMapping.Change f) {type : QName} {slot : Nat}
    (hs : r.slots.lookup type = some slot) (key : String) : Requested env [] r (r.changeAt slot key f) := by
  have hsource : ∀ e : MappingEntry, (e.upsert key f).mapping.sourceType = e.mapping.sourceType := by
    intro e
    unfold MappingEntry.upsert
    cases e.owners.lookup key with
    | none => rfl
    | some i => rfl
  refine .of_mapping? (h.changeAt hf slot key) fun t => ?_
  unfold sourceOf? mapping?
  rw [h.keyed.held?_changeAt hs]
  by_cases ht : t = type
  · subst ht
    cases r.held? t with
    | none => simp
    | some e => simp [hsource]
  · simp [ht]

/-! ## Computations -/

/-- **A computation that asks for mappings**, if it succeeds: for these, in this order, and for no others. -/
def Asks (env : Environment) (qs : List MappingRequest) (x : Build α) : Prop :=
  ∀ r a s, Tables env r → x.on r = (.ok a, s) → Requested env qs r s

theorem Asks.bind {x : Build α} {g : α → Build β} (hx : Asks env qs x) (hg : ∀ a, Asks env qs' (g a)) :
    Asks env (qs ++ qs') (x >>= g) := by
  intro r b t hr h
  obtain ⟨a, s, hs, ht⟩ := Build.on_bind_ok.1 h
  have hfirst := hx r a s hr hs
  exact hfirst.trans (hg a s b t hfirst.1 ht)

theorem asks_pure (a : α) : Asks env [] (pure a) := by
  intro r b s hr h
  cases h
  exact (Renamed.refl r).requested hr

theorem asks_naming {m : StateM Registry α} (hm : Naming m) : Asks env [] (liftM m : Build α) := by
  intro r a s hr h
  cases h
  exact (hm.renamed r).requested hr

theorem asks_renderElement (type : QName) : Asks env [] (renderElement env type) :=
  fun _ _ _ hr h => (renderElement_renamed h).requested hr

/-- **A mapping that is needed is asked for.** -/
theorem asks_ensureMapping (type source : QName) : Asks env [⟨type, source⟩] (ensureMapping env type source) := by
  intro r m s hr h
  rw [ensureMapping_on] at h
  cases hm : r.mapping? type with
  | some m' =>
    -- it is there, with the source type of an earlier request
    rw [hm] at h
    cases h
    refine ⟨hr, fun t => ?_⟩
    rw [firstSource?_singleton]
    by_cases ht : type = t
    · subst ht
      simp [sourceOf?, hm]
    · simp [ht]
  | none =>
    rw [hm] at h
    rcases he : (renderElement env type).on r with ⟨failure | element, t⟩
    · rw [he] at h
      cases h
    · rw [he] at h
      cases h
      have hrenamed := renderElement_renamed he
      have hnone : t.mapping? type = none := by rw [hrenamed.mapping?, hm]
      exact (hrenamed.requested hr).trans ((hr.renamed hrenamed).requested_addMapping hnone source element)

theorem asks_registerLink (container nested : QName) : Asks env [] (registerLink env container nested) := by
  intro r l s hr h
  rw [registerLink_on] at h
  cases hl : r.link? container nested with
  | some l' =>
    rw [hl] at h
    cases h
    exact (Renamed.refl r).requested hr
  | none =>
    rw [hl] at h
    rcases he : (renderElement env nested).on r with ⟨failure | element, t⟩
    · rw [he] at h
      cases h
    · rw [he] at h
      cases h
      have hrenamed := renderElement_renamed he
      have hnone : t.link? container nested = none := by rw [hrenamed.link?, hl]
      exact ⟨(hr.renamed hrenamed).addLink hnone element, (hrenamed.requested hr).2⟩

theorem asks_upsert (hf : AttributeMapping.Change f) (type : QName) (key : String) :
    Asks env [] (upsert type key f) := by
  intro r a s hr h
  rw [upsert_on] at h
  cases hs : r.slots.lookup type with
  | none =>
    rw [hs] at h
    cases h
  | some slot =>
    rw [hs] at h
    cases h
    exact hr.requested_changeAt hf hs key

theorem asks_warn (message : String) : Asks env [] (liftM (warn message) : Build Unit) := by
  intro r a s hr h
  cases h
  exact .of_mapping? (hr.quiet_warned [message]).tables fun _ => rfl

end Registry

/-! ## Joins -/

namespace JoinPlan

variable {env : Environment}

/-- **The requests of a plan**: for its container, and then for its nested type. -/
def requests (p : JoinPlan) : List MappingRequest :=
  [⟨p.containerType, p.containerSource⟩, ⟨p.nestedType, p.nestedSource⟩]

open Registry (Asks)

/-- **A plan asks for both of its sides.** -/
theorem asks_install (p : JoinPlan) : Asks env p.requests (p.install env) := by
  unfold install
  refine (Registry.asks_registerLink _ _).bind fun link => ?_
  refine Asks.bind (Registry.asks_ensureMapping p.containerType p.containerSource) fun _ => ?_
  refine Asks.bind (Registry.asks_ensureMapping p.nestedType p.nestedSource) fun _ => ?_
  refine (Registry.asks_naming (Registry.naming_renderPath env _)).bind fun key => ?_
  refine (Registry.asks_naming (Registry.naming_renderName env _)).bind fun href => ?_
  refine (Registry.asks_upsert (p.change_linkContainer link href) _ _).bind fun _ => ?_
  exact (Registry.asks_upsert p.change_linkNested _ _).bind fun _ => Registry.asks_pure ()

theorem asks_installAll (plans : List JoinPlan) : Asks env (plans.flatMap requests) (installAll env plans) := by
  induction plans with
  | nil => exact Registry.asks_pure ()
  | cons p plans ih =>
    rw [List.flatMap_cons]
    exact p.asks_install.bind fun _ => ih

end JoinPlan

end FeatureAlignment
