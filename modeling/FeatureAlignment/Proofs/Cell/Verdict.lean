import FeatureAlignment.Proofs.Cell.Effect
import FeatureAlignment.Proofs.Compilation.History
import FeatureAlignment.Proofs.Registry.Contents
import FeatureAlignment.Proofs.Registry.Settled

/-!
# Verdicts on property cells

Whether a property cell other than a join compiles depends on the type cells and on the links, and not
on other property cells. If it does, what it writes is settled beforehand too, as long as the prefixes
are.

* `Environment.verdict`: the failure of a property cell, or its place and its guarded expression.
* `Environment.compileProperty_eq`: compiling a property cell is its verdict, and then a deposit.
* `Cell.depositAt`, `Cell.deposit_settled`: the deposit at a place, in any settled registry.
* `Cell.slots`, `Environment.verdict_slots`: the slots of a compiled cell, read off a registry, are those
  of its deposit.
-/

namespace FeatureAlignment

open Registry (Tables Settled)

variable {env : Environment} {r s : Registry} {a : Alignment} {p q : Progress} {c : Cell}

/-! ## Verdicts -/

/-- **The judgement on an expression** under a type cell: why it cannot be placed, or its place and the
guarded expression. -/
def Cell.judge (env : Environment) (r : Registry) (c typeCell : Cell) (e : Expr) :
    Except Failure (ResolvedPath × Expr) := do
  let target ← c.targetEntity
  let typeTarget ← typeCell.targetEntity
  if target.type ≠ typeTarget.type then
    throw (.invalidCell c.id (.otherTypeCell target.type typeCell.id typeTarget.type))
  let _ ← typeCell.rootSource
  c.destination env r target e

/-- Placing an expression is judging it, and then a deposit, if the type cell has mapped its target
type. -/
theorem Cell.place_eq {t : Cell} (hm : ∀ target, t.targetEntity = .ok target → r.Maps target.type) (c : Cell)
    (e : Expr) :
    (c.place env t e).on r =
      match c.judge env r t e with
      | .error failure => (.error failure, r)
      | .ok (place, restricted) => (c.deposit env place restricted.render).on r := by
  unfold Cell.place judge
  rw [Build.on_except_bind]
  cases c.targetEntity with
  | error failure => rfl
  | ok target =>
    simp only [Build.except_ok_bind]
    rw [Build.on_except_bind]
    cases htype : t.targetEntity with
    | error failure => rfl
    | ok typeTarget =>
      simp only [Build.except_ok_bind]
      by_cases hsame : target.type ≠ typeTarget.type
      · rw [if_pos hsame, if_pos hsame]
        rfl
      · rw [if_neg hsame, if_neg hsame]
        have hmaps := hm typeTarget htype
        rw [← Decidable.not_not.1 hsame] at hmaps
        rw [Build.on_except_bind]
        cases t.rootSource with
        | error failure => rfl
        | ok source =>
          -- the mapping is there, so it is only found again
          obtain ⟨m, -, hfound⟩ := hmaps.ensureMapping env source
          simp only [Build.except_ok_bind]
          rw [Build.on_bind, hfound]
          simp only [Build.on_get_bind]
          rw [Build.on_except_bind]
          cases c.destination env r target e <;> rfl

/-- **Ready for property cells**: usable type cells have mapped their target types. -/
def Progress.Ready (a : Alignment) (p : Progress) : Prop :=
  ∀ c t target, Environment.usableTypeCell a p c = .ok t → t.targetEntity = .ok target → p.registry.Maps target.type

namespace Environment

/-- **The verdict on a property cell** other than a join: why it fails, or its place and its guarded
expression. -/
def verdict (env : Environment) (a : Alignment) (p : Progress) (c : Cell) :
    Except Failure (ResolvedPath × Expr) := do
  let f ← Function.require c.function
  if !f.supports .propertyTransformation then
    throw (.unsupportedCapability c.function .propertyTransformation)
  let t ← usableTypeCell a p c
  let e ← c.expression env.source f
  c.judge env p.registry t e

theorem usableTypeCell_congr (he : q.established = p.established) (hf : q.failed = p.failed) (c : Cell) :
    usableTypeCell a q c = usableTypeCell a p c := by
  unfold usableTypeCell
  rw [he, hf]

/-- A verdict depends on the type cells and on the links. -/
theorem verdict_congr (he : q.established = p.established) (hf : q.failed = p.failed)
    (hl : q.registry.links = p.registry.links) (c : Cell) : env.verdict a q c = env.verdict a p c := by
  unfold verdict Cell.judge
  simp only [usableTypeCell_congr he hf, Cell.destination_links hl]

/-- **Compiling a property cell** other than a join is its verdict, and then a deposit. -/
theorem compileProperty_eq (hj : Function.ofName? c.function ≠ some .join) (hu : p.Ready a) :
    (env.compileProperty a p c).on p.registry =
      match env.verdict a p c with
      | .error failure => (.error failure, p.registry)
      | .ok (place, restricted) =>
        ((c.deposit env place restricted.render) >>= fun _ => pure ()).on p.registry := by
  unfold compileProperty verdict
  rw [Build.on_except_bind]
  cases hf : Function.require c.function with
  | error failure => rfl
  | ok f =>
    have hnot : f ≠ .join := by
      rintro rfl
      exact hj (Function.require_ok hf)
    simp only [Build.except_ok_bind]
    by_cases hsupports : (!f.supports .propertyTransformation) = true
    · rw [if_pos hsupports, if_pos hsupports]
      rfl
    · rw [if_neg hsupports, if_neg hsupports, Build.on_except_bind]
      cases ht : usableTypeCell a p c with
      | error failure => rfl
      | ok t =>
        simp only [Build.except_ok_bind, Cell.fill, hnot, if_false]
        rw [Build.on_bind, Build.on_except_bind]
        cases c.expression env.source f with
        | error failure => rfl
        | ok e =>
          simp only [Build.except_ok_bind]
          rw [Cell.place_eq (fun target => hu c t target ht)]
          rcases c.judge env p.registry t e with failure | ⟨place, restricted⟩
          · rfl
          · simp only [Build.on_bind]

end Environment

/-! ## Deposits with settled prefixes -/

namespace Cell

open Registry (Answers)

variable {place : ResolvedPath} {restricted : Expr}

/-- The key of a place with names of the schema is the same in all settled registries. -/
theorem answers_ownerKey (hs : env.Settles) (hn : place.Named env.target) (hk : env.target.Knows place.owner) :
    Answers env (ownerKey env place) (keyText env .empty place) := by
  obtain ⟨key, hkey⟩ : ∃ key, Answers env (ownerKey env place) key := by
    unfold ownerKey
    split
    · obtain ⟨d, hd⟩ := hk.exists_type
      exact ⟨_, Registry.answers_renderElement hs hd⟩
    · exact ⟨_, (Registry.steady_renderPath hs hn.segments).answers (Registry.naming_renderPath env _)⟩
  obtain ⟨s, hempty, -⟩ := hkey .empty (Registry.settled_empty env)
  have : keyText env .empty place = key := by
    unfold keyText
    rw [hempty]
  rw [this]
  exact hkey

theorem keyText_settled (hs : env.Settles) (hn : place.Named env.target) (hk : env.target.Knows place.owner)
    (hr : Settled env r) : keyText env r place = keyText env .empty place := by
  obtain ⟨s, hkey, -⟩ := answers_ownerKey hs hn hk r hr
  rw [keyText, hkey]

/-- **The deposit of an expression at a place**, with settled prefixes. -/
def depositAt (env : Environment) (place : ResolvedPath) (text : String) : Deposit where
  place := place
  key := keyText env .empty place
  text := text
  node := place.node.map (Registry.empty.nameText env)
  client :=
    match place.placement with
    | .clientProperty name => some (Registry.empty.nameText env name)
    | _ => none
  crs := if place.geometry && place.placement == .element then env.config.targetCrs.map Expr.quote else none

theorem answers_nodeName (hs : env.Settles) (hn : place.Named env.target) (text : String) :
    Answers env (nodeName env place.node) (depositAt env place text).node := by
  unfold depositAt nodeName
  cases hnode : place.node with
  | none => exact Registry.answers_pure env none
  | some name =>
    exact (Registry.answers_renderName hs (hn.node name hnode)).bind (Registry.answers_pure env _)

theorem answers_clientName (hs : env.Settles) (hn : place.Named env.target) (text : String) :
    Answers env (clientName env place.placement) (depositAt env place text).client := by
  unfold depositAt clientName
  cases hplacement : place.placement with
  | element => exact Registry.answers_pure env none
  | identifier => exact Registry.answers_pure env none
  | clientProperty name =>
    exact (Registry.answers_renderName hs (hn.client name hplacement)).bind (Registry.answers_pure env _)

theorem answers_referenceSystem (c : Cell) (place : ResolvedPath) (key text : String) :
    Answers env (c.referenceSystem env place key) (depositAt env place text).crs := by
  unfold depositAt referenceSystem
  split
  · cases env.config.targetCrs with
    | some crs => exact Registry.answers_pure env _
    | none => exact fun r hr => ⟨_, rfl, rfl, rfl, rfl, hr.of_namespaces rfl⟩
  · exact Registry.answers_pure env none

/-- **Depositing with settled prefixes.** It succeeds at a known and mapped owner, the prefixes stay
settled, and the deposit is put among the contents. -/
theorem deposit_settled (hs : env.Settles) (h : Tables env r) (hr : Settled env r)
    (hn : place.Named env.target) (hk : env.target.Knows place.owner) (hm : r.Maps place.owner) (c : Cell)
    (text : String) :
    ∃ a s, (c.deposit env place text).on r = (.ok a, s) ∧ Settled env s ∧ s.links = r.links ∧
      s.mappedTypes = r.mappedTypes ∧ s.contents = (depositAt env place text).put r.contents := by
  obtain ⟨t, hnames, hidle⟩ : ∃ t, (c.deposit env place text).on r = (Registry.upsert place.owner
      (depositAt env place text).key (depositAt env place text).write).on t ∧ Registry.Idle env r t := by
    obtain ⟨s1, h1, hi1⟩ := answers_ownerKey hs hn hk r hr
    obtain ⟨s2, h2, hi2⟩ := answers_nodeName hs hn text s1 hi1.settled
    obtain ⟨s3, h3, hi3⟩ := answers_clientName hs hn text s2 hi2.settled
    obtain ⟨s4, h4, hi4⟩ := answers_referenceSystem c place (keyText env .empty place) text s3 hi3.settled
    refine ⟨s4, ?_, ((hi1.trans hi2).trans hi3).trans hi4⟩
    unfold deposit
    simp only [Build.on_bind, h1, h2, h3, h4]
    rfl
  obtain ⟨slot, hslot⟩ := hm.slot
  rw [← hidle.slots] at hslot
  rw [hnames, Registry.upsert_on, hslot]
  refine ⟨_, _, rfl, hidle.settled.of_namespaces rfl, hidle.links, ?_, Registry.contents_changed ?_⟩
  · rw [Registry.changeAt_mappedTypes, hidle.mappedTypes]
  · rw [(hidle.tables h).keyed.attribute?_changeAt hslot, hidle.attribute?]
    rfl

end Cell

/-! ## Slots of cells -/

/-- **The fields that an expression takes** at a place, with the names that a registry has for them. -/
def ResolvedPath.fields (env : Environment) (r : Registry) (place : ResolvedPath) : List Field :=
  match place.placement with
  | .element => .value :: if place.geometry && env.config.targetCrs.isSome then [.client "srsName"] else []
  | .identifier => [.identifier]
  | .clientProperty name => [.client (r.nameText env name)]

/-- **The slots of a compiled cell**, read off the registry that a run leaves. -/
def Cell.slots (env : Environment) (r : Registry) (c : Cell) : List Slot :=
  match (Function.ofName? c.function).map (c.located env r) with
  | some (.ok (place, _)) => (place.fields env r).map (fun f => ⟨place.owner, Cell.keyText env r place, f⟩)
  | _ => []

namespace Cell

theorem located_links (h : s.links = r.links) (c : Cell) (f : Function) : c.located env s f = c.located env r f := by
  unfold located
  simp only [destination_links h]

/-- At a place with names of the schema, the fields with their key are the slots of the deposit. -/
theorem fields_depositAt (hs : env.Settles) (hr : Settled env r) {place : ResolvedPath} (text : String)
    (hn : place.Named env.target) (hk : env.target.Knows place.owner) :
    (place.fields env r).map (fun f => Slot.mk place.owner (keyText env r place) f) =
      (depositAt env place text).slots := by
  have hclient : ∀ name, place.placement = .clientProperty name →
      r.nameText env name = Registry.empty.nameText env name :=
    fun name h => Registry.nameText_settled hs (hn.client name h) hr
  unfold Deposit.slots Deposit.parts ResolvedPath.fields depositAt
  rw [keyText_settled hs hn hk hr]
  cases hplacement : place.placement with
  | element => cases place.geometry <;> cases env.config.targetCrs <;> simp
  | identifier => rfl
  | clientProperty name =>
    simp only [hclient name hplacement]
    rfl

end Cell

/-! ## Favourable verdicts -/

namespace Environment

variable {place : ResolvedPath} {restricted : Expr}

/-- **A favourable verdict** locates the cell, under a type cell with the same target type. -/
theorem verdict_ok (h : env.verdict a p c = .ok (place, restricted)) :
    (∃ f, Function.ofName? c.function = some f ∧ c.located env p.registry f = .ok (place, restricted)) ∧
      ∃ t target typeTarget, usableTypeCell a p c = .ok t ∧ c.targetEntity = .ok target ∧
        t.targetEntity = .ok typeTarget ∧ target.type = typeTarget.type := by
  unfold verdict at h
  obtain ⟨f, hf, h⟩ := Build.except_bind_ok.1 h
  simp only at h
  split at h
  · cases h
  obtain ⟨t, ht, h⟩ := Build.except_bind_ok.1 h
  obtain ⟨e, he, h⟩ := Build.except_bind_ok.1 h
  unfold Cell.judge at h
  obtain ⟨target, htarget, h⟩ := Build.except_bind_ok.1 h
  obtain ⟨typeTarget, htype, h⟩ := Build.except_bind_ok.1 h
  simp only at h
  split at h
  · cases h
  rename_i hsame
  obtain ⟨source, -, hd⟩ := Build.except_bind_ok.1 h
  refine ⟨⟨f, Function.require_ok hf, ?_⟩, t, target, typeTarget, ht, htarget, htype, Decidable.not_not.1 hsame⟩
  exact Build.except_bind_ok.2 ⟨target, htarget, Build.except_bind_ok.2 ⟨e, he, hd⟩⟩

/-- The place of a favourable verdict has names of the schema, and a known and mapped owner. -/
theorem verdict_place (hp : p.registry.Sound env) (hu : p.Ready a)
    (h : env.verdict a p c = .ok (place, restricted)) :
    place.Named env.target ∧ env.target.Knows place.owner ∧ p.registry.Maps place.owner := by
  obtain ⟨⟨f, -, hlocated⟩, t, target, typeTarget, ht, htarget, htype, hsame⟩ := verdict_ok h
  obtain ⟨target', htarget', hlocated⟩ := Build.except_bind_ok.1 hlocated
  obtain ⟨e, -, hd⟩ := Build.except_bind_ok.1 hlocated
  obtain rfl : target = target' := Except.ok.inj (htarget.symm.trans htarget')
  have hmaps : p.registry.Maps target.type := by
    rw [hsame]
    exact hu c t typeTarget ht htype
  exact ⟨SchemaIndex.named_resolve (Cell.destination_ok hd).1, Cell.destination_maps hp hmaps hd⟩

/-- **The slots of a cell with a favourable verdict** are those of its deposit, in every settled registry
with the same links. -/
theorem verdict_slots (hs : env.Settles) (hp : p.registry.Sound env) (hu : p.Ready a) (hr : Settled env r)
    (hl : r.links = p.registry.links) (h : env.verdict a p c = .ok (place, restricted)) :
    c.slots env r = (Cell.depositAt env place restricted.render).slots := by
  obtain ⟨⟨f, hname, hlocated⟩, -⟩ := verdict_ok h
  obtain ⟨hn, hk, -⟩ := verdict_place hp hu h
  rw [← Cell.located_links hl] at hlocated
  rw [← Cell.fields_depositAt hs hr restricted.render hn hk]
  unfold Cell.slots
  rw [hname, Option.map_some, hlocated]

end Environment

end FeatureAlignment
