import FeatureAlignment.Proofs.Compilation.Run
import FeatureAlignment.Proofs.Registry.Written

/-!
# The history of a run

A run writes values and links cell by cell. Its history is the list of these writes, and it
tells what the attributes of the registry are in the end: what was written to them last.

* `Cell.writes`: what a cell that compiles writes, read off the registry that it leaves.
* `Environment.history`, `Environment.compiledCells`: the writes and the compiled cells of a
  run.
* `Cell.Effect.records`, `Environment.records_history`: the registry is as the history says.
* `Alignment.report_compiled`: the report lists the compiled cells.
-/

namespace FeatureAlignment

open Registry (Quiet Records Names changed)

variable {env : Environment} {r s t : Registry} {ws : List Write} {a : Alignment} {c : Cell}

/-! ## Writes of cells -/

/-- The key of a place as text. -/
def Cell.keyText (env : Environment) (r : Registry) (place : ResolvedPath) : String :=
  match (ownerKey env place).on r with
  | (.ok key, _) => key
  | (.error _, _) => ""

/-- **What an installed plan has written**: the base key and the link to the container, and the
foreign key to the nested type. -/
def JoinPlan.writes (env : Environment) (r : Registry) (p : JoinPlan) : List Write :=
  match r.link? p.containerType p.nestedType with
  | some l =>
    [⟨p.containerType, r.pathText env p.segments, p.baseKey, some l⟩,
      ⟨p.nestedType, l.linkField, p.foreignKey, none⟩]
  | none => []

/-- The place and the guarded expression of a property cell other than a join. -/
def Cell.located (env : Environment) (r : Registry) (c : Cell) (f : Function) :
    Except Failure (ResolvedPath × Expr) := do
  let target ← c.targetEntity
  let e ← c.expression env.source f
  c.destination env r target e

/-- What such a cell has written: its expression, if that is the value of an element. -/
def Cell.deposits (env : Environment) (r : Registry) (c : Cell) (f : Function) : List Write :=
  match c.located env r f with
  | .ok (place, restricted) =>
    if place.placement = .element then [⟨place.owner, keyText env r place, restricted.render, none⟩] else []
  | .error _ => []

/-- **What a compiled cell has written**, read off the registry that it left. -/
def Cell.writes (env : Environment) (r : Registry) (c : Cell) : List Write :=
  match Function.ofName? c.function with
  | some .join =>
    match c.plan env with
    | .ok plans => plans.flatMap (JoinPlan.writes env r)
    | .error _ => []
  | some f => if c.isTypeCell then [] else c.deposits env r f
  | none => []

namespace JoinPlan

variable {p : JoinPlan} {l : FeatureLink} {key href : String}

theorem writes_eq (hl : r.link? p.containerType p.nestedType = some l)
    (hk : Names (Registry.renderPath env p.segments) r key) :
    p.writes env r =
      [⟨p.containerType, key, p.baseKey, some l⟩, ⟨p.nestedType, l.linkField, p.foreignKey, none⟩] := by
  unfold writes
  rw [hl, Registry.pathText_eq hk]

/-- **An installed plan has made its writes.** -/
theorem Installed.records (h : Installed env p r s l key href) (hw : Records ws r) :
    Records (ws ++ p.writes env s) s := by
  have hcontainer : (Write.mk p.containerType key p.baseKey (some l)).Done (p.linkContainer l href) := by
    refine ⟨fun a => ?_, fun a => ?_, fun a => ?_⟩
    all_goals unfold linkContainer; simp only; split <;> rfl
  have hnested : (Write.mk p.nestedType l.linkField p.foreignKey none).Done p.linkNested :=
    ⟨fun _ => rfl, fun _ => rfl, fun _ => rfl⟩
  obtain ⟨hmem, hc, hn⟩ := Registry.link?_eq_some h.link
  rw [writes_eq h.link h.path]
  refine hw.append ?_ h.grows.links.subset (fun l' hl' => ?_) fun w hw' l' hl' => ?_
  · -- the two changes are the two writes, in this order
    have hwritten := (hw.written.change hcontainer).change hnested
    rw [List.append_assoc] at hwritten
    rw [h.attributes]
    exact hwritten
  · rcases h.links l' hl' with hold | rfl
    · exact .inl hold
    · exact .inr ⟨⟨_, List.mem_cons_self .., hc.symm, rfl⟩,
        _, List.mem_cons_of_mem _ (List.mem_cons_self ..), hn.symm, rfl⟩
  · -- only the write to the container has a link
    simp only [List.mem_cons, List.not_mem_nil, or_false] at hw'
    rcases hw' with rfl | rfl
    · cases hl'; exact ⟨hmem, hc.symm⟩
    · cases hl'

/-- **Installed plans have made their writes**, one plan after the other. What they wrote can be
read off any later registry. -/
theorem installAll_records {plans : List JoinPlan} (h : r.Sound env)
    (hn : ∀ p ∈ plans, env.Nests p.containerType p.nestedType) (hw : Records ws r)
    (hi : (installAll env plans).on r = (.ok (), s)) (hg : s.Extends t) :
    Records (ws ++ plans.flatMap (writes env t)) s ∧
      ∀ p ∈ plans, ∃ l key, t.link? p.containerType p.nestedType = some l ∧
        Names (Registry.renderPath env p.segments) t key := by
  induction plans generalizing r ws with
  | nil =>
    cases hi
    refine ⟨by simpa using hw, fun p hp => ?_⟩
    cases hp
  | cons p ps ih =>
    obtain ⟨s1, l, key, href, h1, hinst⟩ := install_ok h (hn p (List.mem_cons_self ..))
    have hps : (installAll env ps).on s1 = (.ok (), s) := by
      obtain ⟨_, s1', h1', h2⟩ := Build.on_bind_ok.1 hi
      rw [h1] at h1'; cases h1'
      exact h2
    have hg1 := installAll_extends hps
    -- the later plans leave the link and the rendered path of the first one as they are
    have hnaming := Registry.naming_renderPath env p.segments
    have hkey := hinst.path.grow hnaming (hg1.trans hg)
    have hlink := (hg1.trans hg).link? hinst.link
    have hwrites : p.writes env s1 = p.writes env t := by
      rw [writes_eq hinst.link hinst.path, writes_eq hlink hkey]
    have hw1 := hinst.records hw
    rw [hwrites] at hw1
    obtain ⟨hrest, hall⟩ := ih hinst.sound (fun q hq => hn q (List.mem_cons_of_mem _ hq)) hw1 hps
    refine ⟨?_, fun q hq => ?_⟩
    · rw [List.flatMap_cons, ← List.append_assoc]
      exact hrest
    · rcases List.mem_cons.1 hq with rfl | hq
      · exact ⟨l, key, hlink, hkey⟩
      · exact hall q hq

end JoinPlan

namespace Cell

variable {place : ResolvedPath} {key text : String}

theorem keyText_eq (h : (ownerKey env place).on r = (.ok key, r)) : keyText env r place = key := by
  unfold keyText; rw [h]

/-- A destination depends on the links only. -/
theorem destination_links (h : s.links = r.links) (c : Cell) (target : Entity) (e : Expr) :
    c.destination env s target e = c.destination env r target e := by
  unfold destination unlinked? Registry.link?; rw [h]

/-- **A deposited expression is a write** if it is the value of an element, and none else. -/
theorem Deposited.records (h : Deposited env place text r s key) (hw : Records ws r) :
    Records (ws ++ if place.placement = .element then [⟨place.owner, key, text, none⟩] else []) s := by
  obtain ⟨node, client, crs, hattributes⟩ := h.attributes
  refine hw.append ?_ h.grows.links.subset (fun l hl => ?_) fun w hw' l hl => ?_
  · rw [hattributes]
    split
    · rename_i helement
      have hdone : (Write.mk place.owner key text none).Done (write place text node client crs) := by
        refine ⟨fun a => ?_, fun a => ?_, fun a => ?_⟩
        all_goals
          unfold write
          rw [helement]
          cases crs <;> rfl
      exact hw.written.change hdone
    · rename_i hother
      rw [List.append_nil]
      refine hw.written.silent (fun a => ?_) (fun a => ?_) fun a => ?_
      all_goals
        unfold write
        cases hplacement : place.placement with
        | element => exact absurd hplacement hother
        | identifier => rfl
        | clientProperty name => rfl
  · rw [h.links] at hl
    exact .inl hl
  · split at hw'
    · rw [List.mem_singleton] at hw'; subst hw'; cases hl
    · cases hw'

/-- **A compiled cell has made its writes.** -/
theorem Effect.records (h : c.Effect env r s) (hr : r.Sound env) (hw : Records ws r) :
    Records (ws ++ c.writes env s) s := by
  cases h with
  | retyped target hname htype _ hq _ =>
    have hnone : c.writes env s = [] := by
      unfold writes; rw [hname]; simp only [htype, if_true]
    rw [hnone, List.append_nil]
    exact hw.quiet hq
  | joined plans target t hname hplan _ hinstall _ hq _ =>
    have hwrites : c.writes env s = plans.flatMap (JoinPlan.writes env s) := by
      unfold writes; rw [hname]; simp only [hplan]
    rw [hwrites]
    exact (JoinPlan.installAll_records hr (plan_nests hplan) hw hinstall hq.grows).1.quiet hq
  | placed f target e restricted place t key hname hjoin htype htarget he hq _ hd hdep =>
    -- depositing leaves the links, so the destination can be read off the registry afterwards
    have hlocated : c.located env s f = .ok (place, restricted) := by
      rw [← destination_links hdep.links] at hd
      exact Build.except_bind_ok.2 ⟨target, htarget, Build.except_bind_ok.2 ⟨e, he, hd⟩⟩
    have hwrites : c.writes env s =
        if place.placement = .element then [⟨place.owner, key, restricted.render, none⟩] else [] := by
      have hdeposits : c.deposits env s f =
          if place.placement = .element then [⟨place.owner, key, restricted.render, none⟩] else [] := by
        unfold deposits
        simp only [hlocated, keyText_eq hdep.named]
      rw [← hdeposits]
      unfold writes
      rw [hname]
      cases f
      all_goals first | exact absurd rfl hjoin | simp only [htype]; rfl
    rw [hwrites]
    exact hdep.records (hw.quiet hq)

end Cell

/-! ## Runs -/

namespace Environment

variable {p : Progress} {cells : List Cell}

/-- Whether the run comes to a cell, and the cell compiles. -/
def compiles (env : Environment) (a : Alignment) (p : Progress) (c : Cell) : Bool :=
  !p.stopped && (env.outcome a p c).1.isOk

/-- **The cells that compile** in a run, in order. -/
def compiledCells (env : Environment) (a : Alignment) (p : Progress) : List Cell → List Cell
  | [] => []
  | c :: cs => (if env.compiles a p c then [c] else []) ++ compiledCells env a (env.compileCell a p c) cs

/-- **The history of a run**: all that its compiled cells write, oldest first. -/
def history (env : Environment) (a : Alignment) (p : Progress) : List Cell → List Write
  | [] => []
  | c :: cs =>
    (if env.compiles a p c then c.writes env (env.compileCell a p c).registry else []) ++
      history env a (env.compileCell a p c) cs

theorem compiles_ok (h : env.compiles a p c = true) :
    p.stopped = false ∧ ∃ s, env.outcome a p c = (.ok (), s) := by
  unfold compiles at h
  rw [Bool.and_eq_true] at h
  obtain ⟨hp, ho⟩ := h
  refine ⟨by simpa using hp, ?_⟩
  rcases houtcome : env.outcome a p c with ⟨failure | u, s⟩
  · rw [houtcome] at ho; cases ho
  · exact ⟨s, rfl⟩

theorem compiles_of_ok {s : Registry} (hp : p.stopped = false) (ho : env.outcome a p c = (.ok (), s)) :
    env.compiles a p c = true := by
  unfold compiles; rw [hp, ho]; rfl

/-- A cell that does not compile leaves the list of compiled cells, and its registry has no new
values and links. -/
theorem compileCell_not (h : p.registry.Sound env) (hc : env.compiles a p c = false) :
    (env.compileCell a p c).compiled = p.compiled ∧ Quiet env p.registry (env.compileCell a p c).registry := by
  cases hp : p.stopped with
  | true => rw [compileCell_stopped hp]; exact ⟨rfl, h.toTables.quiet⟩
  | false =>
    rcases ho : env.outcome a p c with ⟨failure | u, s⟩
    · rw [compileCell_error hp ho]
      refine ⟨rfl, ?_⟩
      rcases outcome_error h ho with rfl | ⟨-, t, target, source, m, -, -, hm⟩
      · exact h.toTables.quiet
      · exact (h.toTables.ensureMapping_ok hm).1
    · rw [compiles_of_ok hp ho] at hc; cases hc

theorem compiled_foldl (h : p.registry.Sound env) :
    (cells.foldl (env.compileCell a) p).compiled = p.compiled ++ (env.compiledCells a p cells).map Cell.id := by
  induction cells generalizing p with
  | nil => simp [compiledCells]
  | cons c cs ih =>
    rw [List.foldl_cons, ih (sound_compileCell h a c), compiledCells]
    cases hc : env.compiles a p c with
    | false => rw [(compileCell_not h hc).1]; simp
    | true =>
      obtain ⟨hp, s, ho⟩ := compiles_ok hc
      rw [compileCell_ok hp ho]
      simp

/-- The cells that compile in a run are the ones that it comes to and that compile then. -/
theorem mem_compiledCells (h : c ∈ env.compiledCells a p cells) :
    ∃ before after, cells = before ++ c :: after ∧
      env.compiles a (before.foldl (env.compileCell a) p) c = true := by
  induction cells generalizing p with
  | nil => cases h
  | cons d cs ih =>
    rw [compiledCells] at h
    rcases List.mem_append.1 h with h | h
    · split at h
      · rename_i hd
        rw [List.mem_singleton] at h
        subst h
        exact ⟨[], cs, rfl, hd⟩
      · cases h
    · obtain ⟨before, after, hsplit, hc⟩ := ih h
      exact ⟨d :: before, after, by rw [hsplit]; rfl, hc⟩

theorem history_append (env : Environment) (a : Alignment) (p : Progress) (xs ys : List Cell) :
    env.history a p (xs ++ ys) = env.history a p xs ++ env.history a (xs.foldl (env.compileCell a) p) ys := by
  induction xs generalizing p with
  | nil => rfl
  | cons c cs ih =>
    rw [List.cons_append, history, ih, List.foldl_cons, history, List.append_assoc]

theorem extends_foldl (env : Environment) (a : Alignment) (p : Progress) (cells : List Cell) :
    p.registry.Extends (cells.foldl (env.compileCell a) p).registry := by
  induction cells generalizing p with
  | nil => exact .refl _
  | cons c cs ih => exact (extends_compileCell env a p c).trans (ih _)

/-- The registry only grows from cell to cell. -/
theorem extends_compileCells (env : Environment) (a : Alignment) (before after : List Cell) :
    (env.compileCells a before).registry.Extends (env.compileCells a (before ++ after)).registry := by
  unfold compileCells
  rw [List.foldl_append]
  exact extends_foldl env a _ after

/-- **A cell adds its writes to the history.** -/
theorem records_compileCell (h : p.registry.Sound env) (hw : Records ws p.registry) (a : Alignment) (c : Cell) :
    Records (ws ++ if env.compiles a p c then c.writes env (env.compileCell a p c).registry else [])
      (env.compileCell a p c).registry := by
  cases hc : env.compiles a p c with
  | false =>
    rw [if_neg Bool.false_ne_true, List.append_nil]
    exact hw.quiet (compileCell_not h hc).2
  | true =>
    obtain ⟨hp, s, ho⟩ := compiles_ok hc
    rw [if_pos rfl, compileCell_ok hp ho]
    exact (outcome_effect h ho).records h hw

theorem records_foldl (h : p.registry.Sound env) (hw : Records ws p.registry) :
    Records (ws ++ env.history a p cells) (cells.foldl (env.compileCell a) p).registry := by
  -- each cell adds its own writes, so the invariant is about all writes so far
  induction cells generalizing p ws with
  | nil => simpa [history] using hw
  | cons c cs ih =>
    rw [history, ← List.append_assoc]
    exact ih (sound_compileCell h a c) (records_compileCell h hw a c)

/-- **The registry is as the history of the run says.** -/
theorem records_history (env : Environment) (a : Alignment) (cells : List Cell) :
    Records (env.history a .start cells) (env.compileCells a cells).registry := by
  -- a run starts with the empty registry, to which nothing was written
  have hs : Progress.start.registry.Sound env := Registry.sound_empty env
  have hw : Records [] Progress.start.registry := Registry.records_empty
  have h : Records ([] ++ env.history a .start cells) _ := records_foldl hs hw
  rw [List.nil_append] at h
  exact h

end Environment

/-- **The report of a compilation lists the compiled cells.** -/
theorem Alignment.report_compiled (a : Alignment) (source target : SchemaIndex) (config : Config) :
    (a.compile source target config).report.compiled =
      ((a.environment source target config).compiledCells a .start a.typesFirst).map Cell.id := by
  have hs : Progress.start.registry.Sound (a.environment source target config) := Registry.sound_empty _
  have hcompiled : ((a.environment source target config).compileCells a a.typesFirst).compiled =
      [] ++ ((a.environment source target config).compiledCells a .start a.typesFirst).map Cell.id :=
    Environment.compiled_foldl hs
  rw [List.nil_append] at hcompiled
  exact hcompiled

end FeatureAlignment
