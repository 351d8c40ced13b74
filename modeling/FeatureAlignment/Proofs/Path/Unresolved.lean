import FeatureAlignment.Proofs.Path.Behind

/-!
# Paths that do not resolve

A path fails at its first step that cannot be taken. What follows that step is never looked at, so the failure is
the same for every longer path, and it is told by the steps as they are written, not by what they have found.

* `SchemaIndex.failureAt`, `SchemaIndex.FailsAt`: the failure at a step, and the step at which a path fails.
* `SchemaIndex.follow_eq_error`, `SchemaIndex.resolve_eq_error`: steps fail at the first one that leads nowhere.
* `SchemaIndex.EndsAttribute`: a path to an XML attribute.
* `SchemaIndex.failures_local`: failures are local to a prefix, and stable under extension.
-/

namespace FeatureAlignment

namespace SchemaIndex

variable {index : SchemaIndex} {root : QName} {t : TypeDefinition} {p q : Position} {s : PathStep}
  {before steps : List PathStep} {failure : Failure}

/-- **A path that resolves.** -/
def Resolvable (index : SchemaIndex) (root : QName) (steps : List PathStep) : Prop :=
  ∃ place, index.resolve root steps = .ok place

/-- **A path that fails.** -/
def Unresolved (index : SchemaIndex) (root : QName) (steps : List PathStep) : Prop :=
  ∃ failure, index.resolve root steps = .error failure

/-- **The failure at a step** behind others: it names the root, the local names on the way, and the step. -/
def failureAt (root : QName) (before : List PathStep) (s : PathStep) : Failure :=
  .unresolvedPath root.text (QName.path (before.map PathStep.name)) s.name.text

/-- **The step at which a path fails**: all nonempty prefixes in front of it resolve, and the one with it fails.
So the latter is the shortest prefix that fails. -/
structure FailsAt (index : SchemaIndex) (root : QName) (before : List PathStep) (s : PathStep) : Prop where
  resolvable : ∀ init, init <+: before → init ≠ [] → index.Resolvable root init
  unresolved : index.Unresolved root (before ++ [s])

/-- **A path to an XML attribute**: this is what its last step finds. -/
inductive EndsAttribute (index : SchemaIndex) (root : QName) : List PathStep → PropertyDefinition → Prop
  | intro (t : TypeDefinition) (before : List PathStep) (last : PathStep) (p : Position) (found : Located)
      (a : PropertyDefinition) :
      index.get? root = some t → before.foldlM (Position.step? index) (.start t) = some p → p.Finds last found →
      found.child = .property a → a.isAttribute = true → EndsAttribute index root (before ++ [last]) a

/-! ## The first step that leads nowhere -/

/-- A path either resolves or fails. -/
theorem not_resolvable : ¬ index.Resolvable root steps ↔ index.Unresolved root steps := by
  unfold Resolvable Unresolved
  cases index.resolve root steps with
  | ok place => simp
  | error failure => simp

/-- **Steps fail at the first one that leads nowhere.** -/
theorem follow_eq_error (done : List PathStep) :
    index.follow root done p steps = .error failure ↔ ∃ before s rest q, steps = before ++ s :: rest ∧
      before.foldlM (Position.step? index) p = some q ∧ q.step? index s = none ∧
      failure = failureAt root (done ++ before) s := by
  induction steps generalizing p done with
  | nil => simp [follow]
  | cons s steps ih =>
    unfold follow
    cases hs : p.step? index s with
    | none =>
      constructor
      · rintro ⟨⟩
        exact ⟨[], s, steps, p, rfl, rfl, hs, by rw [List.append_nil]; rfl⟩
      · rintro ⟨before, s', rest, q, heq, hq, hs', rfl⟩
        cases before with
        | nil =>
          cases heq
          rw [List.append_nil]
          rfl
        | cons b before =>
          -- the first step is not taken, so nothing comes behind it
          cases heq
          rw [List.foldlM_cons, hs] at hq
          cases hq
    | some p' =>
      rw [ih]
      constructor
      · rintro ⟨before, s', rest, q, rfl, hq, hs', rfl⟩
        refine ⟨s :: before, s', rest, q, rfl, ?_, hs', by rw [List.append_assoc]; rfl⟩
        rw [List.foldlM_cons, hs]
        exact hq
      · rintro ⟨before, s', rest, q, heq, hq, hs', rfl⟩
        cases before with
        | nil =>
          cases heq
          cases hq
          rw [hs] at hs'
          cases hs'
        | cons b before =>
          cases heq
          rw [List.foldlM_cons, hs] at hq
          exact ⟨before, s', rest, q, rfl, hq, hs', by rw [List.append_assoc]; rfl⟩

/-- **A path fails at its first step that leads nowhere**, with the failure at this step. -/
theorem resolve_eq_error (ht : index.get? root = some t) (hne : steps ≠ []) :
    index.resolve root steps = .error failure ↔ ∃ before s rest q, steps = before ++ s :: rest ∧
      before.foldlM (Position.step? index) (.start t) = some q ∧ q.step? index s = none ∧
      failure = failureAt root before s := by
  have hrequire : index.require root = .ok t := by unfold require; rw [ht]
  have hnonempty : steps.isEmpty = false := by simpa using hne
  have hresolve : index.resolve root steps = (index.follow root [] (.start t) steps).map Position.place := by
    unfold resolve
    rw [hrequire, Build.except_ok_bind, hnonempty]
    cases index.follow root [] (.start t) steps <;> rfl
  have hmap : (index.follow root [] (.start t) steps).map Position.place = .error failure ↔
      index.follow root [] (.start t) steps = .error failure := by
    cases index.follow root [] (.start t) steps with
    | ok q => exact ⟨nofun, nofun⟩
    | error f => exact ⟨fun h => congrArg _ (Except.error.inj h), fun h => congrArg _ (Except.error.inj h)⟩
  rw [hresolve, hmap]
  exact follow_eq_error []

/-- A prefix of steps that are taken is taken. -/
theorem exists_foldlM_of_isPrefix {init : List PathStep} (h : init <+: before)
    (hq : before.foldlM (Position.step? index) p = some q) :
    ∃ r, init.foldlM (Position.step? index) p = some r := by
  obtain ⟨rest, rfl⟩ := h
  rw [List.foldlM_append] at hq
  obtain ⟨r, hr, -⟩ := Option.bind_eq_some_iff.1 hq
  exact ⟨r, hr⟩

/-- **A path fails at a step** if the steps in front of it are taken and this one is not. -/
theorem failsAt_iff (ht : index.get? root = some t) :
    index.FailsAt root before s ↔
      ∃ q, before.foldlM (Position.step? index) (.start t) = some q ∧ q.step? index s = none := by
  constructor
  · intro h
    have hbefore : ∃ q, before.foldlM (Position.step? index) (.start t) = some q := by
      by_cases hnil : before = []
      · exact ⟨.start t, by rw [hnil]; rfl⟩
      · obtain ⟨place, hplace⟩ := h.resolvable before (List.prefix_refl before) hnil
        obtain ⟨-, t', q, ht', hq, -⟩ := resolve_eq_ok.1 hplace
        cases ht.symm.trans ht'
        exact ⟨q, hq⟩
    obtain ⟨q, hq⟩ := hbefore
    refine ⟨q, hq, ?_⟩
    cases hs : q.step? index s with
    | none => rfl
    | some r =>
      have hresolvable : index.Resolvable root (before ++ [s]) :=
        ⟨r.place, resolve_eq_ok.2 ⟨by simp, t, r, ht, (Position.foldlM_concat hq s).trans hs, rfl⟩⟩
      exact absurd hresolvable (not_resolvable.2 h.unresolved)
  · rintro ⟨q, hq, hs⟩
    refine ⟨fun init hinit hne => ?_, _, (resolve_eq_error ht (by simp)).2 ⟨before, s, [], q, rfl, hq, hs, rfl⟩⟩
    obtain ⟨r, hr⟩ := exists_foldlM_of_isPrefix hinit hq
    exact ⟨r.place, resolve_eq_ok.2 ⟨hne, t, r, ht, hr, rfl⟩⟩

/-- **The failure of a path** is the one at the step at which it fails. -/
theorem resolve_eq_error_failsAt (ht : index.get? root = some t) (hne : steps ≠ []) :
    index.resolve root steps = .error failure ↔ ∃ before s rest, steps = before ++ s :: rest ∧
      index.FailsAt root before s ∧ failure = failureAt root before s := by
  rw [resolve_eq_error ht hne]
  constructor
  · rintro ⟨before, s, rest, q, rfl, hq, hs, rfl⟩
    exact ⟨before, s, rest, rfl, (failsAt_iff ht).2 ⟨q, hq, hs⟩, rfl⟩
  · rintro ⟨before, s, rest, rfl, hat, rfl⟩
    obtain ⟨q, hq, hs⟩ := (failsAt_iff ht).1 hat
    exact ⟨before, s, rest, q, rfl, hq, hs, rfl⟩

/-- **Every longer path fails in the same way.** -/
theorem resolve_append_eq_error (ht : index.get? root = some t) (hne : steps ≠ [])
    (h : index.resolve root steps = .error failure) (more : List PathStep) :
    index.resolve root (steps ++ more) = .error failure := by
  obtain ⟨before, s, rest, q, rfl, hq, hs, rfl⟩ := (resolve_eq_error ht hne).1 h
  exact (resolve_eq_error ht (by simp)).2
    ⟨before, s, rest ++ more, q, by rw [List.append_assoc]; rfl, hq, hs, rfl⟩

/-- A path with a prefix that fails fails. -/
theorem Unresolved.extended (ht : index.get? root = some t) (hne : before ≠ []) (hinit : before <+: steps)
    (h : index.Unresolved root before) : index.Unresolved root steps := by
  obtain ⟨more, rfl⟩ := hinit
  obtain ⟨failure, hfailure⟩ := h
  exact ⟨failure, resolve_append_eq_error ht hne hfailure more⟩

/-- **Nothing comes behind an XML attribute**: a path fails at the step after it. -/
theorem EndsAttribute.failsAt {a : PropertyDefinition} (h : index.EndsAttribute root before a) (s : PathStep) :
    index.FailsAt root before s := by
  cases h with
  | intro t init last p found a ht hp hfound hc ha =>
    have hlast := Position.step?_eq_some.2 (.ending found a hfound hc ha : Position.Taken index p last _)
    exact (failsAt_iff ht).2 ⟨_, (Position.foldlM_concat hp last).trans hlast, rfl⟩

/-! ## Failures are local and stable -/

/-- **How a path fails**: exactly if some prefix of it does, so that all prefixes of a path that resolves do;
always, if there is a step behind an XML attribute; with the failure at the first step that cannot be taken; and
with this failure again, whatever steps are added. -/
structure FailsLocally (index : SchemaIndex) (root : QName) (steps : List PathStep) : Prop where
  unresolved_iff : index.Unresolved root steps ↔
    ∃ before, before <+: steps ∧ before ≠ [] ∧ index.Unresolved root before
  prefix_resolvable : index.Resolvable root steps →
    ∀ before, before <+: steps → before ≠ [] → index.Resolvable root before
  behindAttribute : ∀ before s rest a, steps = before ++ s :: rest → index.EndsAttribute root before a →
    index.Unresolved root steps
  failure : ∀ failure, index.resolve root steps = .error failure ↔
    ∃ before s rest, steps = before ++ s :: rest ∧ index.FailsAt root before s ∧ failure = failureAt root before s
  stable : ∀ failure, index.resolve root steps = .error failure →
    ∀ more, index.resolve root (steps ++ more) = .error failure

/-- **Failures are local and stable**, for every path from a known type. -/
theorem failures_local (hroot : index.Knows root) (hne : steps ≠ []) : index.FailsLocally root steps := by
  obtain ⟨t, ht⟩ := hroot.exists_type
  have hshorter : ∀ before, before <+: steps → before ≠ [] → index.Unresolved root before →
      index.Unresolved root steps := fun before hbefore hnonempty h => h.extended ht hnonempty hbefore
  refine ⟨⟨fun h => ⟨steps, List.prefix_refl steps, hne, h⟩, ?_⟩, ?_, ?_,
    fun failure => resolve_eq_error_failsAt ht hne, fun failure => resolve_append_eq_error ht hne⟩
  · rintro ⟨before, hbefore, hnonempty, h⟩
    exact hshorter before hbefore hnonempty h
  · intro h before hbefore hnonempty
    refine Classical.byContradiction fun hno => ?_
    exact not_resolvable.2 (hshorter before hbefore hnonempty (not_resolvable.1 hno)) h
  · rintro before s rest a rfl ha
    exact hshorter (before ++ [s]) ⟨rest, by simp⟩ (by simp) (ha.failsAt s).unresolved

end SchemaIndex

namespace Rivers

/-- The way to the reference to a bank, and on from there. -/
def beyondReference : List PathStep :=
  steps ["left"] ++ ⟨.qualified QName.xlink "href", none, none⟩ :: steps ["Bank"]

/-- Nothing comes behind the reference: the way fails at the bank behind it, and so does every longer one. -/
theorem reference_ends_way :
    target.Knows ⟨"River"⟩ ∧ beyondReference ≠ [] ∧
      target.resolve ⟨"River"⟩ beyondReference = .error (.unresolvedPath "River" "left/href" "Bank") ∧
      ∀ more, target.resolve ⟨"River"⟩ (beyondReference ++ more) =
        .error (.unresolvedPath "River" "left/href" "Bank") := by
  have hroot : target.Knows ⟨"River"⟩ := rfl
  have hne : beyondReference ≠ [] := nofun
  have hfailure : target.resolve ⟨"River"⟩ beyondReference =
    .error (.unresolvedPath "River" "left/href" "Bank") := rfl
  exact ⟨hroot, hne, hfailure, (SchemaIndex.failures_local hroot hne).stable _ hfailure⟩

end Rivers

end FeatureAlignment
