import FeatureAlignment.Registry.Basic

/-!
# Running computations on the registry

`Build.on x r` is what a computation comes to from a registry: its result, and the
registry afterwards, also when it fails.

* `on_bind_ok`, `on_bind_error`: how a sequence of two computations ends.
* `Build.Keeps R x`: whatever the result, the registries before and after `x` are
  related by `R`. For a reflexive and transitive `R` it is enough that the parts
  keep `R` (`Keeps.bind`).
-/

namespace FeatureAlignment

namespace Build

variable {α β : Type} {r r' : Registry}

/-- **A computation from a registry**: the result, and the registry afterwards. -/
def on (x : Build α) (r : Registry) : Except Failure α × Registry := x.run.run r

@[simp] theorem on_pure (a : α) (r : Registry) : (pure a : Build α).on r = (.ok a, r) := rfl

@[simp] theorem on_throw (e : Failure) (r : Registry) : (throw e : Build α).on r = (.error e, r) := rfl

@[simp] theorem on_get (r : Registry) : (get : Build Registry).on r = (.ok r, r) := rfl

@[simp] theorem on_state (m : StateM Registry α) (r : Registry) :
    (liftM m : Build α).on r = (.ok (m.run r).1, (m.run r).2) := rfl

@[simp] theorem on_except (e : Except Failure α) (r : Registry) : (liftM e : Build α).on r = (e, r) := rfl

/-- **One computation after the other.** The second one does not run if the first fails. -/
theorem on_bind (x : Build α) (f : α → Build β) (r : Registry) :
    (x >>= f).on r =
      match x.on r with
      | (.ok a, s) => (f a).on s
      | (.error e, s) => (.error e, s) := by
  rcases h : x.on r with ⟨e | a, s⟩
  all_goals
    have h' : x.run.run r = _ := h
    simp only [on, ExceptT.run_bind, StateT.run_bind, h']
    rfl

@[simp] theorem on_throw_bind (e : Failure) (f : α → Build β) (r : Registry) :
    ((throw e : Build α) >>= f).on r = (.error e, r) := by
  rw [on_bind, on_throw]

@[simp] theorem on_get_bind (f : Registry → Build β) (r : Registry) :
    ((get : Build Registry) >>= f).on r = (f r).on r := by
  rw [on_bind, on_get]

@[simp] theorem on_state_bind (m : StateM Registry α) (f : α → Build β) (r : Registry) :
    ((liftM m : Build α) >>= f).on r = (f (m.run r).1).on (m.run r).2 := by
  rw [on_bind, on_state]

/-- A sequence succeeds when both computations do. -/
theorem on_bind_ok {x : Build α} {f : α → Build β} {b : β} {t : Registry} :
    (x >>= f).on r = (.ok b, t) ↔ ∃ a s, x.on r = (.ok a, s) ∧ (f a).on s = (.ok b, t) := by
  rw [on_bind]
  rcases h : x.on r with ⟨e | a, s⟩
  · simp
  · constructor
    · intro hf; exact ⟨a, s, rfl, hf⟩
    · rintro ⟨a', s', heq, hf⟩; cases heq; exact hf

/-- A sequence fails when the first computation does, or the second one after it. -/
theorem on_bind_error {x : Build α} {f : α → Build β} {e : Failure} {t : Registry} :
    (x >>= f).on r = (.error e, t) ↔
      x.on r = (.error e, t) ∨ ∃ a s, x.on r = (.ok a, s) ∧ (f a).on s = (.error e, t) := by
  rw [on_bind]
  rcases h : x.on r with ⟨e' | a, s⟩
  · simp
  · constructor
    · intro hf; exact Or.inr ⟨a, s, rfl, hf⟩
    · rintro (heq | ⟨a', s', heq, hf⟩)
      · cases heq
      · cases heq; exact hf

/-- A checked value goes before the rest: it is there, or its failure ends the sequence. -/
theorem on_except_bind (e : Except Failure α) (f : α → Build β) (r : Registry) :
    ((liftM e : Build α) >>= f).on r =
      match e with
      | .ok a => (f a).on r
      | .error failure => (.error failure, r) := by
  rw [on_bind, on_except]
  cases e <;> rfl

theorem on_except_bind_ok {e : Except Failure α} {f : α → Build β} {b : β} :
    ((liftM e : Build α) >>= f).on r = (.ok b, r') ↔ ∃ a, e = .ok a ∧ (f a).on r = (.ok b, r') := by
  rw [on_except_bind]
  cases e with
  | error failure => simp
  | ok a => simp

theorem on_except_bind_error {e : Except Failure α} {f : α → Build β} {failure : Failure} :
    ((liftM e : Build α) >>= f).on r = (.error failure, r') ↔
      (e = .error failure ∧ r' = r) ∨ ∃ a, e = .ok a ∧ (f a).on r = (.error failure, r') := by
  rw [on_except_bind]
  cases e with
  | error failure' => simp [eq_comm]
  | ok a => simp

/-- What was checked goes on to the next check. -/
theorem except_ok_bind (a : α) (f : α → Except Failure β) : ((.ok a : Except Failure α) >>= f) = f a := rfl

/-- Checks in sequence pass when both do. -/
theorem except_bind_ok {x : Except Failure α} {f : α → Except Failure β} {b : β} :
    (x >>= f) = .ok b ↔ ∃ a, x = .ok a ∧ f a = .ok b := by
  cases x with
  | error e =>
    constructor
    · intro h; cases h
    · rintro ⟨a, h, -⟩; cases h
  | ok a =>
    constructor
    · intro h; exact ⟨a, rfl, h⟩
    · rintro ⟨a', h, hf⟩; cases h; exact hf

/-! ## Relations between the registries before and after -/

variable {R : Registry → Registry → Prop}

/-- **Keeping a relation**: the registries before and after are related, whatever the result. -/
def Keeps (R : Registry → Registry → Prop) (x : Build α) : Prop := ∀ r, R r (x.on r).2

theorem Keeps.of_on {x : Build α} (h : x.Keeps R) {result : Except Failure α} (hx : x.on r = (result, r')) :
    R r r' := by
  have hr := h r
  rwa [hx] at hr

theorem Keeps.bind (ht : ∀ {a b c}, R a b → R b c → R a c) {x : Build α} {f : α → Build β}
    (hx : x.Keeps R) (hf : ∀ a, (f a).Keeps R) : (x >>= f).Keeps R := by
  intro r
  have h1 := hx r
  rw [on_bind]
  rcases h : x.on r with ⟨e | a, s⟩
  · rw [h] at h1; exact h1
  · rw [h] at h1; exact ht h1 (hf a s)

theorem Keeps.pure (hr : ∀ r, R r r) (a : α) : (Pure.pure a : Build α).Keeps R := hr

theorem Keeps.throw (hr : ∀ r, R r r) (e : Failure) : (MonadExcept.throw e : Build α).Keeps R := hr

theorem Keeps.get (hr : ∀ r, R r r) : (MonadState.get : Build Registry).Keeps R := hr

theorem Keeps.except (hr : ∀ r, R r r) (e : Except Failure α) : (liftM e : Build α).Keeps R := hr

theorem Keeps.state {m : StateM Registry α} (hm : ∀ r, R r (m.run r).2) : (liftM m : Build α).Keeps R := hm

end Build

end FeatureAlignment
