import FeatureAlignment.Proofs.Cell.Deposited
import FeatureAlignment.Proofs.Compilation.Elementary
import FeatureAlignment.Proofs.Join.Installed

/-!
# Effects of cells

What a cell has done to a sound registry when it compiles, and what it can have done when it
fails.

* `Cell.Effect env c r s`: the three ways in which a cell `c` compiles, from `r` to `s`.
* `Environment.outcome_effect`: a cell that compiles has one of these effects.
* `Environment.outcome_error`: a cell that fails has written nothing, unless it is a property
  cell whose target type had no mapping yet.
-/

namespace FeatureAlignment

open Registry (Tables Quiet)

variable {env : Environment} {r s : Registry} {c : Cell}

theorem Function.require_ok {name : String} {f : Function} (h : Function.require name = .ok f) :
    Function.ofName? name = some f := by
  unfold require at h
  cases hf : ofName? name with
  | none => rw [hf] at h; cases h
  | some g => rw [hf] at h; cases h; rfl

namespace Cell

/-- **The effect of a cell that compiles.** A retype gives its target type a mapping, a join
installs its plans, and any other property cell writes one attribute. -/
inductive Effect (env : Environment) (c : Cell) (r s : Registry) : Prop
  | retyped (target : Entity) :
      Function.ofName? c.function = some .retype → c.isTypeCell = true → c.targetEntity = .ok target →
      Quiet env r s → s.Maps target.type → Effect env c r s
  | joined (plans : List JoinPlan) (target : Entity) (t : Registry) :
      Function.ofName? c.function = some .join → c.plan env = .ok plans → c.targetEntity = .ok target →
      (JoinPlan.installAll env plans).on r = (.ok (), t) → t.Sound env → Quiet env t s →
      s.Maps target.type → Effect env c r s
  | placed (f : Function) (target : Entity) (e restricted : Expr) (place : ResolvedPath) (t : Registry)
      (key : String) :
      Function.ofName? c.function = some f → f ≠ .join → c.isTypeCell = false →
      c.targetEntity = .ok target → c.expression env.source f = .ok e → Quiet env r t →
      t.Maps target.type → c.destination env t target e = .ok (place, restricted) →
      Deposited env place restricted.render t s key → Effect env c r s

/-! ## Type cells -/

theorem retype_ok (h : Tables env r) {m : TypeMapping} (hm : (c.retype env).on r = (.ok m, s)) :
    ∃ target, c.targetEntity = .ok target ∧ Quiet env r s ∧ s.Maps target.type := by
  unfold retype at hm
  obtain ⟨source, -, hm⟩ := Build.on_except_bind_ok.1 hm
  obtain ⟨target, htarget, hm⟩ := Build.on_except_bind_ok.1 hm
  split at hm
  · rw [Build.on_throw_bind] at hm; cases hm
  · obtain ⟨d, -, hm⟩ := Build.on_except_bind_ok.1 hm
    obtain ⟨hq, hmap⟩ := h.ensureMapping_ok hm
    exact ⟨target, htarget, hq, Option.isSome_iff_exists.2 ⟨m, hmap⟩⟩

/-- **A retype that fails has written nothing.** -/
theorem retype_error {e : Failure} (he : (c.retype env).on r = (.error e, s)) : s = r := by
  unfold retype at he
  rcases Build.on_except_bind_error.1 he with ⟨-, h⟩ | ⟨source, -, he⟩
  · exact h
  rcases Build.on_except_bind_error.1 he with ⟨-, h⟩ | ⟨target, -, he⟩
  · exact h
  split at he
  · rw [Build.on_throw_bind] at he; cases he; rfl
  · rcases Build.on_except_bind_error.1 he with ⟨-, h⟩ | ⟨d, -, he⟩
    · exact h
    · exact Registry.ensureMapping_error he

theorem joinTypes_ok (h : r.Sound env) {m : TypeMapping} (hm : (c.joinTypes env).on r = (.ok m, s)) :
    ∃ plans target t, c.plan env = .ok plans ∧ c.targetEntity = .ok target ∧
      (JoinPlan.installAll env plans).on r = (.ok (), t) ∧ t.Sound env ∧ Quiet env t s ∧ s.Maps target.type := by
  unfold joinTypes at hm
  obtain ⟨plans, t, hlink, hm⟩ := Build.on_bind_ok.1 hm
  obtain ⟨hplan, hinstall, ht⟩ := link_ok h hlink
  obtain ⟨target, htarget, hm⟩ := Build.on_except_bind_ok.1 hm
  obtain ⟨base, -, hm⟩ := Build.on_except_bind_ok.1 hm
  obtain ⟨hq, hmap⟩ := ht.toTables.ensureMapping_ok hm
  exact ⟨plans, target, t, hplan, htarget, hinstall, ht, hq, Option.isSome_iff_exists.2 ⟨m, hmap⟩⟩

/-- **A join of types that fails has written nothing**: once its plans are installed, nothing
is missing. -/
theorem joinTypes_error (h : r.Sound env) {e : Failure} (he : (c.joinTypes env).on r = (.error e, s)) :
    s = r := by
  unfold joinTypes at he
  rcases Build.on_bind_error.1 he with hlink | ⟨plans, t, hlink, he⟩
  · exact link_error h.keyed hlink
  obtain ⟨hplan, hinstall, ht⟩ := link_ok h hlink
  cases plans with
  | nil =>
    -- without conditions nothing is installed
    cases hinstall
    rcases Build.on_except_bind_error.1 he with ⟨-, hs⟩ | ⟨target, -, he⟩
    · exact hs
    rcases Build.on_except_bind_error.1 he with ⟨-, hs⟩ | ⟨base, -, he⟩
    · exact hs
    · exact Registry.ensureMapping_error he
  | cons p ps =>
    -- the target type is the container of the first plan, so it is known
    exfalso
    obtain ⟨target, htarget, hp⟩ := plan_head hplan
    have hk := (plan_nests hplan p (List.mem_cons_self ..)).outer
    rcases Build.on_except_bind_error.1 he with ⟨hno, -⟩ | ⟨target', htarget', he⟩
    · rw [htarget] at hno; cases hno
    rw [htarget] at htarget'; cases htarget'
    rcases Build.on_except_bind_error.1 he with ⟨hno, -⟩ | ⟨base, -, he⟩
    · cases hno
    · rw [hp] at hk
      obtain ⟨m, s', hm, -⟩ := ht.toTables.ensureMapping hk base
      rw [hm] at he; cases he

/-! ## Property cells -/

/-- The attribute that a join at a property answers is there. -/
theorem joinProperty_attribute {p : JoinPlan} {ps : List JoinPlan} {t : Registry} (h : r.Sound env)
    (hn : ∀ q ∈ p :: ps, env.Nests q.containerType q.nestedType)
    (hi : (JoinPlan.installAll env (p :: ps)).on r = (.ok (), t)) :
    ∃ key a, Registry.Names (Registry.renderPath env p.segments) t key ∧
      t.attribute? p.containerType key = some a := by
  obtain ⟨s1, l, key, href, h1, hinst⟩ := JoinPlan.install_ok h (hn p (List.mem_cons_self ..))
  obtain ⟨s2, h2, hs2⟩ := JoinPlan.installAll_ok hinst.sound fun q hq => hn q (List.mem_cons_of_mem _ hq)
  have hi' : (JoinPlan.installAll env (p :: ps)).on r = (.ok (), s2) := Build.on_bind_ok.2 ⟨(), s1, h1, h2⟩
  rw [hi] at hi'
  cases hi'
  have hg := JoinPlan.installAll_extends h2
  have hne : p.containerType ≠ p.nestedType := fun he => (hn p (List.mem_cons_self ..)).ne he.symm
  have ha : (s1.attribute? p.containerType key).isSome := by
    rw [hinst.attributes]
    simp [Registry.changed, hne]
  obtain ⟨a, ha⟩ := Option.isSome_iff_exists.1 ha
  -- the later plans leave the attribute of the first one where it is
  obtain ⟨b, hb, -⟩ := hg.attribute? hinst.sound.toTables hs2.toTables ha
  exact ⟨key, b, hinst.path.grow (Registry.naming_renderPath env _) hg, hb⟩

theorem joinProperty_ok (h : r.Sound env) {a : AttributeMapping} (ha : (c.joinProperty env).on r = (.ok a, s)) :
    ∃ plans target, c.plan env = .ok plans ∧ c.targetEntity = .ok target ∧
      (JoinPlan.installAll env plans).on r = (.ok (), s) ∧ s.Sound env ∧ s.Maps target.type := by
  unfold joinProperty at ha
  obtain ⟨plans, t, hlink, ha⟩ := Build.on_bind_ok.1 ha
  obtain ⟨hplan, hinstall, ht⟩ := link_ok h hlink
  cases plans with
  | nil =>
    -- without conditions there is no attribute to answer
    cases ha
  | cons p ps =>
    obtain ⟨key, b, hkey, hb⟩ := joinProperty_attribute h (plan_nests hplan) hinstall
    have hkey' : (Registry.renderPath env p.segments).run t = (key, t) := hkey
    simp only [Build.on_state_bind, hkey', Build.on_get_bind, hb, Build.on_pure] at ha
    cases ha
    obtain ⟨target, htarget, hp⟩ := plan_head hplan
    refine ⟨p :: ps, target, hplan, htarget, hinstall, ht, ?_⟩
    rw [← hp]
    exact Registry.maps_of_attribute? hb

/-- **A join at a property that fails has written nothing.** -/
theorem joinProperty_error (h : r.Sound env) {e : Failure} (he : (c.joinProperty env).on r = (.error e, s)) :
    s = r := by
  unfold joinProperty at he
  rcases Build.on_bind_error.1 he with hlink | ⟨plans, t, hlink, he⟩
  · exact link_error h.keyed hlink
  obtain ⟨hplan, hinstall, ht⟩ := link_ok h hlink
  cases plans with
  | nil => cases hinstall; cases he; rfl
  | cons p ps =>
    obtain ⟨key, b, hkey, hb⟩ := joinProperty_attribute h (plan_nests hplan) hinstall
    have hkey' : (Registry.renderPath env p.segments).run t = (key, t) := hkey
    simp only [Build.on_state_bind, hkey', Build.on_get_bind, hb, Build.on_pure] at he
    cases he

theorem place_ok (h : r.Sound env) {typeCell : Cell} {e : Expr} {a : AttributeMapping}
    (ha : (c.place env typeCell e).on r = (.ok a, s)) :
    ∃ target restricted place t key, c.targetEntity = .ok target ∧ Quiet env r t ∧ t.Maps target.type ∧
      c.destination env t target e = .ok (place, restricted) ∧
      Deposited env place restricted.render t s key := by
  unfold Cell.place at ha
  obtain ⟨target, htarget, ha⟩ := Build.on_except_bind_ok.1 ha
  obtain ⟨typeTarget, -, ha⟩ := Build.on_except_bind_ok.1 ha
  split at ha
  · rw [Build.on_throw_bind] at ha; cases ha
  obtain ⟨source, -, ha⟩ := Build.on_except_bind_ok.1 ha
  obtain ⟨m, t, hm, ha⟩ := Build.on_bind_ok.1 ha
  obtain ⟨hq, hmap⟩ := h.toTables.ensureMapping_ok hm
  have hmaps : t.Maps target.type := Option.isSome_iff_exists.2 ⟨m, hmap⟩
  rw [Build.on_get_bind] at ha
  obtain ⟨⟨place, restricted⟩, hd, ha⟩ := Build.on_except_bind_ok.1 ha
  obtain ⟨hknown, howner⟩ := destination_maps (h.quiet hq) hmaps hd
  obtain ⟨b, s', key, hdep, hdeposited⟩ := deposit_ok hq.tables hknown howner c restricted.render
  rw [hdep] at ha
  cases ha
  exact ⟨target, restricted, place, t, key, htarget, hq, hmaps, hd, hdeposited⟩

/-- **A place that fails** has at most given the target type its mapping, which is that of the
type cell. -/
theorem place_error (h : r.Sound env) {typeCell : Cell} {e : Expr} {failure : Failure}
    (he : (c.place env typeCell e).on r = (.error failure, s)) :
    s = r ∨ ∃ target source m, typeCell.targetEntity = .ok target ∧
      (Registry.ensureMapping env target.type source).on r = (.ok m, s) := by
  unfold Cell.place at he
  rcases Build.on_except_bind_error.1 he with ⟨-, hs⟩ | ⟨target, htarget, he⟩
  · exact .inl hs
  rcases Build.on_except_bind_error.1 he with ⟨-, hs⟩ | ⟨typeTarget, htype, he⟩
  · exact .inl hs
  split at he
  · rw [Build.on_throw_bind] at he; cases he; exact .inl rfl
  -- the types of both cells are the same from here on
  rename_i hsame
  have hsame : target.type = typeTarget.type := Decidable.not_not.1 hsame
  rcases Build.on_except_bind_error.1 he with ⟨-, hs⟩ | ⟨source, -, he⟩
  · exact .inl hs
  rcases Build.on_bind_error.1 he with hm | ⟨m, t, hm, he⟩
  · exact .inl (Registry.ensureMapping_error hm)
  obtain ⟨hq, hmap⟩ := h.toTables.ensureMapping_ok hm
  have hmaps : t.Maps target.type := Option.isSome_iff_exists.2 ⟨m, hmap⟩
  rw [Build.on_get_bind] at he
  rcases Build.on_except_bind_error.1 he with ⟨-, rfl⟩ | ⟨⟨place, restricted⟩, hd, he⟩
  · -- the mapping is there already when the path turns out not to lead anywhere
    rw [hsame] at hm
    exact .inr ⟨typeTarget, source, m, htype, hm⟩
  · -- what has a destination is deposited
    obtain ⟨hknown, howner⟩ := destination_maps (h.quiet hq) hmaps hd
    obtain ⟨b, s', key, hdep, -⟩ := deposit_ok hq.tables hknown howner c restricted.render
    rw [hdep] at he
    cases he

end Cell

/-! ## Outcomes -/

namespace Environment

open Cell (Effect)

variable {a : Alignment} {p : Progress} {failure : Failure}

theorem compileType_ok (h : r.Sound env) (ht : c.isTypeCell = true) (hc : (env.compileType c).on r = (.ok (), s)) :
    Effect env c r s ∧ ∃ target, c.targetEntity = .ok target ∧ s.Maps target.type := by
  unfold compileType at hc
  obtain ⟨f, hf, hc⟩ := Build.on_except_bind_ok.1 hc
  have hname := Function.require_ok hf
  obtain ⟨m, s', hc, hs⟩ := Build.on_bind_ok.1 hc
  cases hs
  unfold Cell.establish at hc
  split at hc
  · obtain ⟨target, htarget, hq, hmaps⟩ := Cell.retype_ok h.toTables hc
    exact ⟨.retyped target hname ht htarget hq hmaps, target, htarget, hmaps⟩
  · obtain ⟨plans, target, t, hplan, htarget, hinstall, hsound, hq, hmaps⟩ := Cell.joinTypes_ok h hc
    exact ⟨.joined plans target t hname hplan htarget hinstall hsound hq hmaps, target, htarget, hmaps⟩
  · cases hc

theorem compileType_error (h : r.Sound env) (hc : (env.compileType c).on r = (.error failure, s)) : s = r := by
  unfold compileType at hc
  rcases Build.on_except_bind_error.1 hc with ⟨-, hs⟩ | ⟨f, -, hc⟩
  · exact hs
  rcases Build.on_bind_error.1 hc with hc | ⟨m, s', -, hc⟩
  · unfold Cell.establish at hc
    split at hc
    · exact Cell.retype_error hc
    · exact Cell.joinTypes_error h hc
    · cases hc; rfl
  · cases hc

/-- A property cell that compiles is filled by its function. -/
theorem compileProperty_run (hc : (env.compileProperty a p c).on r = (.ok (), s)) :
    ∃ f t x, Function.ofName? c.function = some f ∧ (c.fill env t f).on r = (.ok x, s) := by
  unfold compileProperty at hc
  obtain ⟨f, hf, hc⟩ := Build.on_except_bind_ok.1 hc
  split at hc
  · rw [Build.on_throw_bind] at hc; cases hc
  obtain ⟨t, -, hc⟩ := Build.on_except_bind_ok.1 hc
  obtain ⟨x, s', hc, hs⟩ := Build.on_bind_ok.1 hc
  cases hs
  exact ⟨f, t, x, Function.require_ok hf, hc⟩

theorem compileProperty_ok (h : r.Sound env) (ht : c.isTypeCell = false)
    (hc : (env.compileProperty a p c).on r = (.ok (), s)) : Effect env c r s := by
  obtain ⟨f, t, x, hname, hc⟩ := compileProperty_run hc
  unfold Cell.fill at hc
  split at hc
  · rename_i hjoin
    rw [hjoin] at hname
    obtain ⟨plans, target, hplan, htarget, hinstall, hsound, hmaps⟩ := Cell.joinProperty_ok h hc
    exact .joined plans target s hname hplan htarget hinstall hsound hsound.toTables.quiet hmaps
  · rename_i hjoin
    obtain ⟨e, he, hc⟩ := Build.on_except_bind_ok.1 hc
    obtain ⟨target, restricted, place, t, key, htarget, hq, hmaps, hd, hdep⟩ := Cell.place_ok h hc
    exact .placed f target e restricted place t key hname hjoin ht htarget he hq hmaps hd hdep

theorem compileProperty_error (h : r.Sound env) (hc : (env.compileProperty a p c).on r = (.error failure, s)) :
    s = r ∨ ∃ t target source m, usableTypeCell a p c = .ok t ∧ t.targetEntity = .ok target ∧
      (Registry.ensureMapping env target.type source).on r = (.ok m, s) := by
  unfold compileProperty at hc
  rcases Build.on_except_bind_error.1 hc with ⟨-, hs⟩ | ⟨f, -, hc⟩
  · exact .inl hs
  split at hc
  · rw [Build.on_throw_bind] at hc; cases hc; exact .inl rfl
  rcases Build.on_except_bind_error.1 hc with ⟨-, hs⟩ | ⟨t, husable, hc⟩
  · exact .inl hs
  rcases Build.on_bind_error.1 hc with hc | ⟨b, s', -, hc⟩
  · unfold Cell.fill at hc
    split at hc
    · exact .inl (Cell.joinProperty_error h hc)
    · rcases Build.on_except_bind_error.1 hc with ⟨-, hs⟩ | ⟨e, -, hc⟩
      · exact .inl hs
      · rcases Cell.place_error h hc with hs | ⟨target, source, m, htarget, hm⟩
        · exact .inl hs
        · exact .inr ⟨t, target, source, m, husable, htarget, hm⟩
  · cases hc

/-- **A cell that compiles has its effect.** -/
theorem outcome_effect (h : p.registry.Sound env) (ho : env.outcome a p c = (.ok (), s)) :
    Effect env c p.registry s := by
  unfold outcome at ho
  split at ho
  · rename_i ht
    exact (compileType_ok h ht ho).1
  · rename_i ht
    exact compileProperty_ok h (by simpa using ht) ho

/-- A type cell that compiles has mapped its target type. -/
theorem outcome_maps (h : p.registry.Sound env) (ht : c.isTypeCell = true)
    (ho : env.outcome a p c = (.ok (), s)) : ∃ target, c.targetEntity = .ok target ∧ s.Maps target.type := by
  unfold outcome at ho
  rw [if_pos ht] at ho
  exact (compileType_ok h ht ho).2

/-- **A cell that fails** has written nothing, but for a mapping of the target type of its type
cell. -/
theorem outcome_error (h : p.registry.Sound env) (ho : env.outcome a p c = (.error failure, s)) :
    s = p.registry ∨ c.isTypeCell = false ∧ ∃ t target source m, usableTypeCell a p c = .ok t ∧
      t.targetEntity = .ok target ∧
      (Registry.ensureMapping env target.type source).on p.registry = (.ok m, s) := by
  unfold outcome at ho
  split at ho
  · exact .inl (compileType_error h ho)
  · rename_i ht
    rcases compileProperty_error h ho with hs | hm
    · exact .inl hs
    · exact .inr ⟨by simpa using ht, hm⟩

end Environment

end FeatureAlignment
