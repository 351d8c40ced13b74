import FeatureAlignment.Proofs.Cell.Verdict
import FeatureAlignment.Proofs.Compilation.Atomicity

/-!
# The order of property cells

Type cells are compiled first. Without joins, what a property cell comes to then depends on the type
cells alone, and what it writes goes to its own slots of attributes. So if these slots are disjoint and
all prefixes are settled, property cells may come in any order.

* `Alignment.Reordered`, `Compilation.Alike`: alignments up to the order of their property cells, and
  compilations up to the order of compiled cells, failures, attributes and client properties.
* `Environment.Prepared`, `Environment.prepared_compileCells`: a run that is prepared for property cells,
  as it is after the type cells.
* `Environment.Filled`: how far property cells have brought a run, told from its beginning. `Filled.compileCell`
  is the step, `Prepared.foldl` the run.
* `Alignment.compile_order_independent`: the main statement.
-/

namespace FeatureAlignment

open Registry (Settled)

variable {env : Environment} {a b : Alignment} {base p q : Progress} {c : Cell} {cells : List Cell}

/-! ## Alignments without joins -/

/-- A cell whose function is not a join. -/
def Cell.NoJoin (c : Cell) : Prop := Function.ofName? c.function ≠ some .join

instance (c : Cell) : Decidable c.NoJoin := inferInstanceAs (Decidable (_ ≠ _))

theorem Function.require_ne {name : String} {f : Function} (hj : ofName? name ≠ some .join)
    (h : require name = .ok f) : f ≠ .join := by
  rintro rfl
  exact hj (require_ok h)

namespace Cell

variable {f : Function}

theorem place_alignment (env : Environment) (x : Option Alignment) (c t : Cell) (e : Expr) :
    c.place { env with alignment := x } t e = c.place env t e := rfl

theorem fill_alignment (env : Environment) (x : Option Alignment) (hf : f ≠ .join) (c t : Cell) :
    c.fill { env with alignment := x } t f = c.fill env t f := by
  unfold fill
  rw [if_neg hf, if_neg hf]
  simp only [place_alignment]

theorem establish_alignment (env : Environment) (x : Option Alignment) (hf : f ≠ .join) (c : Cell) :
    c.establish { env with alignment := x } f = c.establish env f := by
  cases f
  all_goals first | exact absurd rfl hf | rfl

end Cell

/-- **A cell that does not look at the alignment**: its function does the same in any other one. -/
def Cell.Overlooks (env : Environment) (x : Option Alignment) (c : Cell) : Prop :=
  ∀ f, Function.require c.function = .ok f →
    c.establish { env with alignment := x } f = c.establish env f ∧
      ∀ t, c.fill { env with alignment := x } t f = c.fill env t f

/-- Joins only look at the alignment. -/
theorem Cell.NoJoin.overlooks (hc : c.NoJoin) (env : Environment) (x : Option Alignment) :
    c.Overlooks env x := fun _ hf =>
  ⟨Cell.establish_alignment env x (Function.require_ne hc hf) c,
    fun t => Cell.fill_alignment env x (Function.require_ne hc hf) c t⟩

/-- **The alignment that is compiled** matters to cells that look at it only, but for its type cells. -/
theorem Environment.outcome_alignment (env : Environment) (x : Option Alignment)
    (ht : b.cells.filter Cell.isTypeCell = a.cells.filter Cell.isTypeCell) (p : Progress)
    (hc : c.Overlooks env x) : { env with alignment := x }.outcome b p c = env.outcome a p c := by
  have htype : ({ env with alignment := x }.compileType c).on p.registry = (env.compileType c).on p.registry := by
    unfold compileType
    rw [Build.on_except_bind, Build.on_except_bind]
    cases hf : Function.require c.function with
    | error failure => rfl
    | ok f => simp only [(hc f hf).1]
  have husable : usableTypeCell b p c = usableTypeCell a p c := by
    unfold usableTypeCell Alignment.owningTypeCell
    rw [ht]
  have hproperty : ({ env with alignment := x }.compileProperty b p c).on p.registry =
      (env.compileProperty a p c).on p.registry := by
    unfold compileProperty
    rw [Build.on_except_bind, Build.on_except_bind, husable]
    cases hf : Function.require c.function with
    | error failure => rfl
    | ok f => simp only [(hc f hf).2]
  unfold outcome
  split
  · exact htype
  · exact hproperty

theorem Environment.compileCells_overlooked (env : Environment) (x : Option Alignment)
    (ht : b.cells.filter Cell.isTypeCell = a.cells.filter Cell.isTypeCell)
    (hc : ∀ c ∈ cells, c.Overlooks env x) :
    { env with alignment := x }.compileCells b cells = env.compileCells a cells := by
  induction cells using List.reverseRecOn with
  | nil =>
    unfold compileCells
    rw [List.foldl_nil, List.foldl_nil]
  | append_singleton cells c ih =>
    rw [compileCells_concat, compileCells_concat, ih fun c h => hc c (List.mem_append_left _ h)]
    unfold compileCell
    rw [outcome_alignment env x ht _ (hc c (by simp))]

theorem Environment.compileCells_alignment (env : Environment) (x : Option Alignment)
    (ht : b.cells.filter Cell.isTypeCell = a.cells.filter Cell.isTypeCell) (hc : ∀ c ∈ cells, c.NoJoin) :
    { env with alignment := x }.compileCells b cells = env.compileCells a cells :=
  compileCells_overlooked env x ht fun c h => (hc c h).overlooks env x

namespace Environment

/-! ## After the type cells -/

/-- A run that does not fail fast comes to its end. -/
theorem running_compileCells (hf : env.config.failFast = false) (a : Alignment) (cells : List Cell) :
    (env.compileCells a cells).stopped = false := by
  induction cells using List.reverseRecOn with
  | nil => rfl
  | append_singleton cells c ih =>
    rw [compileCells_concat]
    rcases ho : env.outcome a (env.compileCells a cells) c with ⟨failure | u, s⟩
    · rw [compileCell_error ih ho]; exact hf
    · rw [compileCell_ok ih ho]; exact ih

theorem settled_compileType (hs : env.Settles) {r s : Registry} (hr : Settled env r) (hsound : r.Sound env)
    (hc : c.NoJoin) {result : Except Failure Unit} (h : (env.compileType c).on r = (result, s)) :
    Settled env s := by
  cases result with
  | error failure => rw [compileType_error hsound h]; exact hr
  | ok u =>
    unfold compileType at h
    obtain ⟨f, hf, h⟩ := Build.on_except_bind_ok.1 h
    obtain ⟨m, s', h, hs'⟩ := Build.on_bind_ok.1 h
    cases hs'
    unfold Cell.establish at h
    split at h
    · -- a retype does no more than give the target type its mapping
      unfold Cell.retype at h
      obtain ⟨source, -, h⟩ := Build.on_except_bind_ok.1 h
      obtain ⟨target, -, h⟩ := Build.on_except_bind_ok.1 h
      split at h
      · rw [Build.on_throw_bind] at h; cases h
      · obtain ⟨d, -, h⟩ := Build.on_except_bind_ok.1 h
        exact Registry.settled_ensureMapping hs hr h
    · exact absurd rfl (Function.require_ne hc hf)
    · cases h

/-- **Type cells leave all prefixes settled.** -/
theorem settled_compileCells (hs : env.Settles) (hf : env.config.failFast = false) (a : Alignment)
    (ht : ∀ c ∈ cells, c.isTypeCell = true ∧ c.NoJoin) : Settled env (env.compileCells a cells).registry := by
  induction cells using List.reverseRecOn with
  | nil => exact Registry.settled_empty env
  | append_singleton cells c ih =>
    obtain ⟨htype, hc⟩ := ht c (by simp)
    rw [compileCells_concat, registry_compileCell (running_compileCells hf a cells)]
    unfold outcome
    rw [if_pos htype]
    exact settled_compileType hs (ih fun c h => ht c (List.mem_append_left _ h))
      (sound_compileCells env a cells) hc rfl

/-- **Prepared for property cells**: the run goes on, prefixes are settled, and usable type cells have mapped
their target types. -/
structure Prepared (env : Environment) (a : Alignment) (p : Progress) : Prop where
  running : p.stopped = false
  settled : Settled env p.registry
  sound : p.registry.Sound env
  ready : p.Ready a

/-- **After the type cells** a run is prepared for property cells. -/
theorem prepared_compileCells (hs : env.Settles) (hf : env.config.failFast = false)
    (hj : ∀ c ∈ a.cells, c.NoJoin) : env.Prepared a (env.compileCells a (a.cells.filter Cell.isTypeCell)) where
  running := running_compileCells hf a _
  settled := settled_compileCells hs hf a fun c h => ⟨(List.mem_filter.1 h).2, hj c (List.mem_filter.1 h).1⟩
  sound := sound_compileCells env a _
  ready := by
    intro c t target ht htarget
    obtain ⟨⟨hmem, htype⟩, hfailed, -⟩ := usableTypeCell_ok ht
    rcases (tracks_compileCells env a (a.cells.filter Cell.isTypeCell)).typed (running_compileCells hf a _) t
      (List.mem_filter.2 ⟨hmem, htype⟩) htype with hf | ⟨target', htarget', hmaps⟩
    · exact absurd hf hfailed
    · rw [htarget] at htarget'
      cases htarget'
      exact hmaps

/-- The registry of a prepared run may grow. -/
theorem Prepared.grow (h : env.Prepared a p) (he : q.established = p.established) (hf : q.failed = p.failed)
    (hq : q.stopped = false) (hr : Settled env q.registry) (hs : q.registry.Sound env)
    (hg : p.registry.Extends q.registry) : env.Prepared a q := by
  refine ⟨hq, hr, hs, fun c t target ht htarget => ?_⟩
  rw [usableTypeCell_congr he hf] at ht
  exact hg.maps h.sound.keyed hs.keyed (h.ready c t target ht htarget)

/-! ## Property cells -/

/-- A property cell with an unfavourable verdict fails and writes nothing. -/
theorem Prepared.refused (hp : env.Prepared a p) (htype : c.isTypeCell = false) (hc : c.NoJoin)
    {failure : Failure} (hv : env.verdict a p c = .error failure) :
    env.outcome a p c = (.error failure, p.registry) := by
  have hcompile := @compileProperty_eq env a p c hc hp.ready
  rw [hv] at hcompile
  unfold outcome
  rw [htype]
  exact hcompile

/-- **A property cell with a favourable verdict** compiles, and makes its deposit. -/
theorem Prepared.favoured (hp : env.Prepared a p) (hs : env.Settles) (htype : c.isTypeCell = false)
    (hc : c.NoJoin) {place : ResolvedPath} {restricted : Expr}
    (hv : env.verdict a p c = .ok (place, restricted)) :
    ∃ s, env.outcome a p c = (.ok (), s) ∧ Settled env s ∧ s.links = p.registry.links ∧
      s.mappedTypes = p.registry.mappedTypes ∧
      s.contents = (Cell.depositAt env place restricted.render).put p.registry.contents := by
  obtain ⟨hn, hk, hm⟩ := verdict_place hp.sound hp.ready hv
  obtain ⟨x, s, hdeposit, hwritten⟩ :=
    Cell.deposit_settled hs hp.sound.toTables hp.settled hn hk hm c restricted.render
  have hcompile := @compileProperty_eq env a p c hc hp.ready
  rw [hv] at hcompile
  simp only [Build.on_bind, hdeposit, Build.on_pure] at hcompile
  refine ⟨s, ?_, hwritten⟩
  unfold outcome
  rw [htype]
  exact hcompile

/-- Whether a property cell has a favourable verdict. -/
def favours (env : Environment) (a : Alignment) (p : Progress) (c : Cell) : Bool := (env.verdict a p c).isOk

/-- The failure of a property cell that has none. -/
def refusal? (env : Environment) (a : Alignment) (p : Progress) (c : Cell) : Option CellFailure :=
  match env.verdict a p c with
  | .error failure => some (report c failure)
  | .ok _ => none

/-- The deposit of a property cell that has one. -/
def deposit? (env : Environment) (a : Alignment) (p : Progress) (c : Cell) : Option Deposit :=
  match env.verdict a p c with
  | .error _ => none
  | .ok (place, restricted) => some (Cell.depositAt env place restricted.render)

/-- **How far property cells have come** from a beginning. All of them are judged as at the beginning,
and the deposits of those that compile are put among its contents. -/
structure Filled (env : Environment) (a : Alignment) (base : Progress) (cells : List Cell) (p : Progress) :
    Prop where
  prepared : env.Prepared a p
  established : p.established = base.established
  failed : p.failed = base.failed
  grows : base.registry.Extends p.registry
  links : p.registry.links = base.registry.links
  mapped : p.registry.mappedTypes = base.registry.mappedTypes
  compiled : p.compiled = base.compiled ++ (cells.filter (env.favours a base)).map Cell.id
  failures : p.failures = base.failures ++ cells.filterMap (env.refusal? a base)
  contents : p.registry.contents = (cells.filterMap (env.deposit? a base)).foldl Deposit.put base.registry.contents

theorem Prepared.filled (hb : env.Prepared a base) : env.Filled a base [] base :=
  ⟨hb, rfl, rfl, .refl _, rfl, rfl, by simp, by simp, rfl⟩

/-- A cell is judged as at the beginning. -/
theorem Filled.verdict (h : env.Filled a base cells p) (c : Cell) : env.verdict a p c = env.verdict a base c :=
  verdict_congr h.established h.failed h.links c

/-- **A further property cell.** -/
theorem Filled.compileCell (h : env.Filled a base cells p) (hs : env.Settles)
    (hf : env.config.failFast = false) (htype : c.isTypeCell = false) (hc : c.NoJoin) :
    env.Filled a base (cells ++ [c]) (env.compileCell a p c) := by
  cases hv : env.verdict a base c with
  | error failure =>
    -- nothing is written, and only the failures go on
    have hfailed : (if c.isTypeCell = true then c.id :: p.failed else p.failed) = p.failed := by simp [htype]
    rw [compileCell_error h.prepared.running (h.prepared.refused htype hc ((h.verdict c).trans hv)), hfailed]
    refine ⟨h.prepared.grow rfl rfl hf h.prepared.settled h.prepared.sound (.refl _), h.established, h.failed,
      h.grows, h.links, h.mapped, ?_, ?_, ?_⟩
    · simp [h.compiled, favours, hv, Except.isOk, Except.toBool]
    · simp [h.failures, refusal?, hv]
    · simp [h.contents, deposit?, hv]
  | ok placed =>
    -- the deposit comes after those of the cells before, and is the same as at the beginning
    obtain ⟨s, ho, hsettled, hlinks, hmapped, hcontents⟩ :=
      h.prepared.favoured hs htype hc ((h.verdict c).trans hv)
    have hsound := sound_outcome h.prepared.sound a c
    have hgrows := (Registry.elementary_extends env).outcome a p c
    rw [ho] at hsound hgrows
    have hestablished : (if c.isTypeCell = true then c.id :: p.established else p.established) = p.established := by
      simp [htype]
    rw [compileCell_ok h.prepared.running ho, hestablished]
    refine ⟨h.prepared.grow rfl rfl h.prepared.running hsettled hsound hgrows, h.established, h.failed,
      h.grows.trans hgrows, hlinks.trans h.links, hmapped.trans h.mapped, ?_, ?_, ?_⟩
    · simp [h.compiled, favours, hv, Except.isOk, Except.toBool]
    · simp [h.failures, refusal?, hv]
    · simp [hcontents, h.contents, deposit?, hv]

/-- A property cell compiles if it has a favourable verdict. -/
theorem Filled.compiles (h : env.Filled a base cells p) (hs : env.Settles) (htype : c.isTypeCell = false)
    (hc : c.NoJoin) : env.compiles a p c = env.favours a base c := by
  unfold Environment.compiles favours
  rw [h.prepared.running]
  cases hv : env.verdict a base c with
  | error failure => rw [h.prepared.refused htype hc ((h.verdict c).trans hv)]; rfl
  | ok placed =>
    obtain ⟨s, ho, -⟩ := h.prepared.favoured hs htype hc ((h.verdict c).trans hv)
    rw [ho]
    rfl

/-- **The cells that compile in two runs**, one after the other. -/
theorem compiledCells_append (env : Environment) (a : Alignment) (p : Progress) (xs ys : List Cell) :
    env.compiledCells a p (xs ++ ys) =
      env.compiledCells a p xs ++ env.compiledCells a (xs.foldl (env.compileCell a) p) ys := by
  induction xs generalizing p with
  | nil => rfl
  | cons c cs ih => rw [List.cons_append, compiledCells, ih, List.foldl_cons, compiledCells, List.append_assoc]

/-- **Property cells after a beginning**: what they come to, and which ones compile. -/
theorem Prepared.foldl (hb : env.Prepared a base) (hs : env.Settles) (hf : env.config.failFast = false)
    (hcells : ∀ c ∈ cells, c.isTypeCell = false ∧ c.NoJoin) :
    env.Filled a base cells (cells.foldl (env.compileCell a) base) ∧
      env.compiledCells a base cells = cells.filter (env.favours a base) := by
  induction cells using List.reverseRecOn with
  | nil => exact ⟨hb.filled, rfl⟩
  | append_singleton cells c ih =>
    obtain ⟨htype, hc⟩ := hcells c (by simp)
    obtain ⟨hfilled, hcompiled⟩ := ih fun c h => hcells c (List.mem_append_left _ h)
    constructor
    · rw [List.foldl_append]
      exact hfilled.compileCell hs hf htype hc
    · rw [compiledCells_append, hcompiled, List.filter_append]
      unfold compiledCells
      rw [hfilled.compiles hs htype hc]
      cases hv : env.favours a base c <;> simp [compiledCells, hv]

/-- The slots of a cell with a deposit are those of the deposit. -/
theorem Filled.slots (h : env.Filled a base cells p) (hb : env.Prepared a base) (hs : env.Settles) {d : Deposit}
    (hd : env.deposit? a base c = some d) :
    env.favours a base c = true ∧ c.slots env p.registry = d.slots := by
  unfold deposit? at hd
  unfold favours
  cases hv : env.verdict a base c with
  | error failure => rw [hv] at hd; cases hd
  | ok placed =>
    rw [hv] at hd
    cases hd
    exact ⟨rfl, verdict_slots hs hb.sound hb.ready h.prepared.settled h.links hv⟩

/-- So deposits have disjoint slots if the cells that compile have. -/
theorem Filled.deposits_disjoint (h : env.Filled a base cells p) (hb : env.Prepared a base) (hs : env.Settles)
    (hd : (cells.filter (env.favours a base)).Pairwise fun c d =>
      (c.slots env p.registry).Disjoint (d.slots env p.registry)) :
    (cells.filterMap (env.deposit? a base)).Pairwise fun d e => d.slots.Disjoint e.slots := by
  rw [List.pairwise_filterMap]
  refine (List.pairwise_filter.1 hd).imp fun {c c'} hdisjoint d hc e hc' => ?_
  obtain ⟨hfavours, hslots⟩ := h.slots hb hs hc
  obtain ⟨hfavours', hslots'⟩ := h.slots hb hs hc'
  rw [← hslots, ← hslots']
  exact hdisjoint hfavours hfavours'

end Environment

/-! ## Reordered alignments -/

/-- **A reordered alignment** has the same type cells in the same order, and the same property cells. -/
structure Alignment.Reordered (a b : Alignment) : Prop where
  types : b.cells.filter Cell.isTypeCell = a.cells.filter Cell.isTypeCell
  properties : (a.cells.filter (fun c => !c.isTypeCell)).Perm (b.cells.filter (fun c => !c.isTypeCell))

/-- The property cells that compile do so after all type cells. -/
theorem Environment.compiledCells_properties (env : Environment) (a : Alignment) :
    (env.compiledCells a .start a.typesFirst).filter (fun c => !c.isTypeCell) =
      env.compiledCells a (env.compileCells a (a.cells.filter Cell.isTypeCell))
        (a.cells.filter (fun c => !c.isTypeCell)) := by
  have hmem : ∀ {p : Progress} {cells : List Cell}, ∀ c ∈ env.compiledCells a p cells, c ∈ cells := by
    intro p cells c h
    obtain ⟨before, after, hsplit, -⟩ := mem_compiledCells h
    rw [hsplit]
    simp
  unfold Alignment.typesFirst
  rw [compiledCells_append, List.filter_append, List.filter_eq_nil_iff.2, List.filter_eq_self.2, List.nil_append]
  · rfl
  · intro c h
    exact (List.mem_filter.1 (hmem c h)).2
  · intro c h
    simp [(List.mem_filter.1 (hmem c h)).2]

/-- **Disjoint slots** of the property cells that compile, with the names of the compiled document. -/
def Environment.SlotsDisjoint (env : Environment) (a : Alignment) : Prop :=
  ((env.compiledCells a .start a.typesFirst).filter (fun c => !c.isTypeCell)).Pairwise fun c d =>
    (c.slots env (env.compileCells a a.typesFirst).registry).Disjoint
      (d.slots env (env.compileCells a a.typesFirst).registry)

instance (env : Environment) (a : Alignment) : Decidable (env.SlotsDisjoint a) :=
  inferInstanceAs (Decidable (List.Pairwise _ _))

/-- **Alike compilations** have the same compiled cells and failures, and alike mappings of the same types
in the same order. -/
structure Compilation.Alike (x y : Compilation) : Prop where
  compiled : x.report.compiled.Perm y.report.compiled
  failures : x.report.failures.Perm y.report.failures
  mappings : List.Forall₂ TypeMapping.Alike x.document.mappings y.document.mappings

/-- The same property cells in two orders, after one beginning. -/
theorem Environment.Filled.alike {xs ys : List Cell} (h : env.Filled a base xs p)
    (h' : env.Filled a base ys q) (hxy : xs.Perm ys)
    (hd : (xs.filterMap (env.deposit? a base)).Pairwise fun d e => d.slots.Disjoint e.slots) :
    p.finish.Alike q.finish where
  compiled := by
    show p.compiled.Perm q.compiled
    rw [h.compiled, h'.compiled]
    exact ((hxy.filter _).map _).append_left _
  failures := by
    show p.failures.Perm q.failures
    rw [h.failures, h'.failures]
    exact (hxy.filterMap _).append_left _
  mappings := by
    refine h.prepared.sound.toTables.mappings_alike h'.prepared.sound.toTables h.grows h'.grows h.mapped
      h'.mapped ?_
    rw [h.contents, h'.contents, Deposit.foldl_put (hxy.filterMap _) hd]

/-- **The order of property cells does not matter**, in an alignment without joins, if all prefixes are
settled and the property cells that compile have disjoint slots. -/
theorem Alignment.compile_order_independent {source target : SchemaIndex} {config : Config}
    (hj : ∀ c ∈ a.cells, c.NoJoin) (hs : (a.environment source target config).Settles)
    (hf : config.failFast = false) (hd : (a.environment source target config).SlotsDisjoint a)
    (hab : a.Reordered b) : (a.compile source target config).Alike (b.compile source target config) := by
  let env := a.environment source target config
  let base := env.compileCells a (a.cells.filter Cell.isTypeCell)
  have hproperties : ∀ c ∈ a.cells.filter (fun c => !c.isTypeCell), c.isTypeCell = false ∧ c.NoJoin := fun c h =>
    ⟨by simpa using (List.mem_filter.1 h).2, hj c (List.mem_filter.1 h).1⟩
  have hproperties' : ∀ c ∈ b.cells.filter (fun c => !c.isTypeCell), c.isTypeCell = false ∧ c.NoJoin :=
    fun c h => hproperties c (hab.properties.mem_iff.2 h)
  -- both compilations begin with the same type cells, and go on with the property cells in their orders
  have hbase : env.Prepared a base := Environment.prepared_compileCells hs hf hj
  obtain ⟨hfilled, hcompiled⟩ := hbase.foldl hs hf hproperties
  obtain ⟨hfilled', -⟩ := hbase.foldl hs hf hproperties'
  have hrun : env.compileCells a a.typesFirst =
      (a.cells.filter (fun c => !c.isTypeCell)).foldl (env.compileCell a) base := List.foldl_append ..
  have hrun' : (b.environment source target config).compileCells b b.typesFirst =
      (b.cells.filter (fun c => !c.isTypeCell)).foldl (env.compileCell a) base := by
    have hnone : ∀ c ∈ a.cells.filter Cell.isTypeCell ++ b.cells.filter (fun c => !c.isTypeCell), c.NoJoin :=
      fun c h => (List.mem_append.1 h).elim (fun h => hj c (List.mem_filter.1 h).1) fun h => (hproperties' c h).2
    unfold typesFirst
    rw [hab.types]
    exact (Environment.compileCells_alignment env (some b) hab.types hnone).trans (List.foldl_append ..)
  -- the slots are read off the registry of the first compilation
  unfold Environment.SlotsDisjoint at hd
  rw [Environment.compiledCells_properties, hcompiled, hrun] at hd
  unfold compile
  rw [hrun, hrun']
  exact hfilled.alike hfilled' hab.properties (hfilled.deposits_disjoint hbase hs hd)

/-! ## Springs

A small case: the location of a spring and its identifier go to one attribute, and so does the reference
system. -/

namespace Springs

/-- A name of the target schema. -/
def water (name : String) : QName := .qualified "urn:water" name

/-- A name of GML. -/
def gml (name : String) : QName := .qualified QName.gml32 name

/-- The table of springs. -/
def source : SchemaIndex :=
  ⟨[⟨⟨"Row"⟩, none, false, false, [Roads.element "key" none, Roads.element "point" none, Roads.element "name" none]⟩],
    .empty⟩

/-- Springs have a location, which is a point, and a name. -/
def target : SchemaIndex :=
  ⟨[⟨water "SpringType", some (water "Spring"), true, false,
      [.property ⟨water "location", some (gml "PointPropertyType"), false, false⟩,
        .property ⟨water "name", none, false, false⟩]⟩,
    ⟨gml "PointPropertyType", none, false, false,
      [.group ⟨⟨"choice"⟩, true, false, some (gml "AbstractGeometry")⟩
        [.property ⟨gml "Point", some (gml "PointType"), false, false⟩]]⟩,
    ⟨gml "PointType", none, false, true, [.property ⟨gml "id", none, false, true⟩]⟩],
    .ofList [("urn:water", "w")]⟩

/-- Points get a reference system. -/
def config : Config := ⟨.ofList [(QName.gml32, "gml")], "LINK", some "EPSG:25832", false, .xml⟩

/-- Rows become springs. -/
def springs : Cell := ⟨"springs", "retype", [.ofType ⟨"Row"⟩], [.ofType (water "SpringType")], .empty⟩

/-- A source property goes to a place in the spring. -/
def rename (id column : String) (steps : List QName) : Cell :=
  ⟨id, "rename", [Roads.property "Row" [column]],
    [⟨none, water "SpringType", steps.map (fun name => ⟨name, none, none⟩), none⟩], .empty⟩

/-- The point of a location. -/
def point : Cell := rename "point" "point" [water "location", gml "Point"]

/-- The identifier of the point. -/
def key : Cell := rename "key" "key" [water "location", gml "Point", gml "id"]

/-- The name. -/
def name : Cell := rename "name" "name" [water "name"]

/-- A place that springs do not have. -/
def depth : Cell := rename "depth" "name" [water "depth"]

/-- The alignment, with the point before its identifier. -/
def alignment : Alignment := ⟨none, [springs, point, key, name, depth]⟩

/-- The same property cells the other way round. -/
def turned : Alignment := ⟨none, [depth, name, key, springs, point]⟩

theorem target_namespaces : ∀ uri ∈ target.namespaces, uri = "urn:water" ∨ uri = QName.gml32 := by
  decide +kernel

theorem prefixes_settled : (alignment.environment source target config).Settles where
  suggested := by
    intro uri h
    rcases target_namespaces uri h with rfl | rfl
    · decide +kernel
    · decide +kernel
  distinct := by
    intro uri h uri' h'
    rcases target_namespaces uri h with rfl | rfl
    all_goals
      rcases target_namespaces uri' h' with rfl | rfl
      all_goals decide +kernel

/-- **Springs in another order**: the same attribute comes about, whether its identifier or its point goes
first. -/
theorem turned_alike :
    (∀ c ∈ alignment.cells, c.NoJoin) ∧ (alignment.environment source target config).Settles ∧
      config.failFast = false ∧ (alignment.environment source target config).SlotsDisjoint alignment ∧
      alignment.Reordered turned ∧
      (alignment.compile source target config).Alike (turned.compile source target config) := by
  have hj : ∀ c ∈ alignment.cells, c.NoJoin := by decide +kernel
  have hd : (alignment.environment source target config).SlotsDisjoint alignment := by decide +kernel
  have hab : alignment.Reordered turned := ⟨rfl, List.reverse_perm [depth, name, key, point]⟩
  exact ⟨hj, prefixes_settled, rfl, hd, hab,
    Alignment.compile_order_independent hj prefixes_settled rfl hd hab⟩

end Springs

end FeatureAlignment
