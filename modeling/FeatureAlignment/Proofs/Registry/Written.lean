import FeatureAlignment.Proofs.Registry.Quiet

/-!
# What was written last

The values and the links of attributes are written again and again, and the last write
counts. A list of writes, oldest first, tells what is found in the end.

* `Write`: an expression, and for the container of a join a link, written to an attribute.
* `lastWrite?`, `lastLink?`: the last write to an attribute, and the last one with a link.
* `Registry.Records ws r`: values, links and the registered links of `r` are those of `ws`.
* `Written.change`, `Written.silent`: one more change is one more write, or none.
* `Records.append`: the writes of one more step.
-/

namespace FeatureAlignment

/-- **A write** of an expression to an attribute; a join writes a link to its container. -/
structure Write where
  type : QName
  key : String
  expression : String
  link : Option FeatureLink
  deriving DecidableEq, Repr

/-- Whether a write goes to an attribute. -/
def Write.isAt (type : QName) (key : String) (w : Write) : Bool := type = w.type && key = w.key

/-- **The last write** to an attribute. -/
def lastWrite? (ws : List Write) (type : QName) (key : String) : Option Write :=
  ws.reverse.find? (Write.isAt type key)

/-- **The last link** written to an attribute. -/
def lastLink? (ws : List Write) (type : QName) (key : String) : Option FeatureLink :=
  (ws.reverse.filter (Write.isAt type key)).findSome? Write.link

variable {ws : List Write} {w : Write} {type : QName} {key : String}

theorem Write.isAt_iff : w.isAt type key = true ↔ type = w.type ∧ key = w.key := by
  simp [isAt]

theorem lastWrite?_concat :
    lastWrite? (ws ++ [w]) type key = if type = w.type ∧ key = w.key then some w else lastWrite? ws type key := by
  simp only [← Write.isAt_iff, lastWrite?, List.reverse_append, List.reverse_singleton, List.singleton_append,
    List.find?_cons]
  cases w.isAt type key <;> rfl

theorem lastLink?_concat :
    lastLink? (ws ++ [w]) type key =
      if type = w.type ∧ key = w.key then w.link.or (lastLink? ws type key) else lastLink? ws type key := by
  simp only [← Write.isAt_iff, lastLink?, List.reverse_append, List.reverse_singleton, List.singleton_append,
    List.filter_cons]
  cases w.isAt type key with
  | false => rfl
  | true =>
    simp only [if_true, List.findSome?_cons]
    cases w.link <;> rfl

/-- An attribute that was written to has a last write. -/
theorem lastWrite?_isSome (h : w ∈ ws) : (lastWrite? ws w.type w.key).isSome = true := by
  rw [lastWrite?, List.find?_isSome]
  exact ⟨w, List.mem_reverse.2 h, by simp [Write.isAt]⟩

/-- An attribute that was linked has a last link. -/
theorem lastLink?_isSome (h : w ∈ ws) {l : FeatureLink} (hl : w.link = some l) :
    (lastLink? ws w.type w.key).isSome = true := by
  rw [lastLink?, List.findSome?_isSome_iff]
  refine ⟨w, List.mem_filter.2 ⟨List.mem_reverse.2 h, by simp [Write.isAt]⟩, by simp [hl]⟩

/-- The last link was written. -/
theorem lastLink?_mem {l : FeatureLink} (h : lastLink? ws type key = some l) :
    ∃ w ∈ ws, w.type = type ∧ w.key = key ∧ w.link = some l := by
  obtain ⟨w, hw, hl⟩ := List.exists_of_findSome?_eq_some h
  obtain ⟨hmem, hat⟩ := List.mem_filter.1 hw
  obtain ⟨rfl, rfl⟩ := Write.isAt_iff.1 hat
  exact ⟨w, List.mem_reverse.1 hmem, rfl, rfl, hl⟩

/-! ## Attributes as written -/

/-- **The writes of a view of attributes**: values and links are those written last. -/
structure Written (ws : List Write) (view : QName → String → Option AttributeMapping) : Prop where
  expression : ∀ t k,
    (view t k).bind AttributeMapping.sourceExpression = (lastWrite? ws t k).map Write.expression
  element : ∀ t k,
    (view t k).bind AttributeMapping.linkElement = (lastLink? ws t k).map FeatureLink.linkElement
  field : ∀ t k, (view t k).bind AttributeMapping.linkField = (lastLink? ws t k).map FeatureLink.linkField

variable {view : QName → String → Option AttributeMapping} {f : AttributeMapping → AttributeMapping}

/-- **A change that writes** an expression, and a link if there is one. -/
structure Write.Done (w : Write) (f : AttributeMapping → AttributeMapping) : Prop where
  expression : ∀ a, (f a).sourceExpression = some w.expression
  element : ∀ a, (f a).linkElement = (w.link.map FeatureLink.linkElement).or a.linkElement
  field : ∀ a, (f a).linkField = (w.link.map FeatureLink.linkField).or a.linkField

/-- **A part of the changed attribute**, and of all others, where a new attribute does not have it
and the change puts `x` before what there was. -/
theorem bind_changed {β : Type} {part : AttributeMapping → Option β} {x : Option β}
    (hp : part (.ofTarget key) = none) (hf : ∀ a, part (f a) = x.or (part a)) (t : QName) (k : String) :
    (Registry.changed view type key f t k).bind part =
      if t = type ∧ k = key then x.or ((view t k).bind part) else (view t k).bind part := by
  unfold Registry.changed
  split
  · rename_i h
    obtain ⟨rfl, rfl⟩ := h
    rw [Option.bind_some, hf]
    cases view t k with
    | none => rw [Option.getD_none, hp]; rfl
    | some a => rfl
  · rfl

/-- **One more write.** -/
theorem Written.change (h : Written ws view) (hd : w.Done f) :
    Written (ws ++ [w]) (Registry.changed view w.type w.key f) := by
  -- at the attribute that is written to the last write is the new one, elsewhere nothing changes
  refine ⟨fun t k => ?_, fun t k => ?_, fun t k => ?_⟩
  · have hx : ∀ a, (f a).sourceExpression = (some w.expression).or a.sourceExpression := hd.expression
    rw [bind_changed rfl hx, h.expression, lastWrite?_concat]
    split <;> rfl
  · rw [bind_changed rfl hd.element, h.element, lastLink?_concat]
    split
    · rw [Option.map_or]
    · rfl
  · rw [bind_changed rfl hd.field, h.field, lastLink?_concat]
    split
    · rw [Option.map_or]
    · rfl

/-- **A change of other parts** is no write. -/
theorem Written.silent (h : Written ws view) (he : ∀ a, (f a).sourceExpression = a.sourceExpression)
    (hl : ∀ a, (f a).linkElement = a.linkElement) (hf : ∀ a, (f a).linkField = a.linkField) :
    Written ws (Registry.changed view type key f) := by
  -- such a change puts nothing before what there was
  have unchanged : ∀ (part : AttributeMapping → Option String), part (.ofTarget key) = none →
      (∀ a, part (f a) = part a) → ∀ t k,
      (Registry.changed view type key f t k).bind part = (view t k).bind part := by
    intro part hp hpart t k
    have hx : ∀ a, part (f a) = none.or (part a) := by
      intro a
      rw [Option.none_or, hpart]
    rw [bind_changed hp hx, Option.none_or, ite_self]
  refine ⟨fun t k => ?_, fun t k => ?_, fun t k => ?_⟩
  · rw [unchanged _ rfl he]; exact h.expression t k
  · rw [unchanged _ rfl hl]; exact h.element t k
  · rw [unchanged _ rfl hf]; exact h.field t k

/-- **What was written is found**, as it was written last. -/
theorem Written.find (h : Written ws view) (hw : w ∈ ws) :
    ∃ a, view w.type w.key = some a ∧
      a.sourceExpression = (lastWrite? ws w.type w.key).map Write.expression ∧
      a.linkElement = (lastLink? ws w.type w.key).map FeatureLink.linkElement ∧
      a.linkField = (lastLink? ws w.type w.key).map FeatureLink.linkField := by
  have he := h.expression w.type w.key
  have hl := h.element w.type w.key
  have hf := h.field w.type w.key
  cases hv : view w.type w.key with
  | some a =>
    rw [hv] at he hl hf
    exact ⟨a, rfl, he, hl, hf⟩
  | none =>
    rw [hv] at he
    obtain ⟨w', hw'⟩ := Option.isSome_iff_exists.1 (lastWrite?_isSome hw)
    rw [hw'] at he
    cases he

/-! ## Registries as written -/

namespace Registry

variable {env : Environment} {r s : Registry}

/-- **The writes of a registry**: its attributes are as written last, and its links are those
that were written to their containers, with a key written to their nested types. -/
structure Records (ws : List Write) (r : Registry) : Prop where
  written : Written ws r.attribute?
  installed : ∀ l ∈ r.links, ∃ w ∈ ws, w.type = l.container ∧ w.link = some l
  keyed : ∀ l ∈ r.links, ∃ w ∈ ws, w.type = l.nested ∧ w.key = l.linkField
  registered : ∀ w ∈ ws, ∀ l, w.link = some l → l ∈ r.links ∧ w.type = l.container

theorem records_empty : Records [] .empty :=
  ⟨⟨fun _ _ => rfl, fun _ _ => rfl, fun _ _ => rfl⟩, by simp [empty], by simp [empty], by simp⟩

/-- Quiet steps write nothing. -/
theorem Records.quiet (h : Records ws r) (hq : Quiet env r s) : Records ws s := by
  refine ⟨?_, ?_, ?_, ?_⟩
  · rw [hq.attributes]; exact h.written
  · rw [hq.links]; exact h.installed
  · rw [hq.links]; exact h.keyed
  · rw [hq.links]; exact h.registered

/-- **More writes**: each new link is among them with its container and its nested type, and they
have no links but registered ones. -/
theorem Records.append {more : List Write} (h : Records ws r) (hw : Written (ws ++ more) s.attribute?)
    (hg : r.links ⊆ s.links)
    (hnew : ∀ l ∈ s.links, l ∈ r.links ∨
      (∃ w ∈ more, w.type = l.container ∧ w.link = some l) ∧ ∃ w ∈ more, w.type = l.nested ∧ w.key = l.linkField)
    (hmore : ∀ w ∈ more, ∀ l, w.link = some l → l ∈ s.links ∧ w.type = l.container) :
    Records (ws ++ more) s := by
  refine ⟨hw, fun l hl => ?_, fun l hl => ?_, fun w hw' l hl => ?_⟩
  · rcases hnew l hl with hold | ⟨⟨w, hw', hwl⟩, -⟩
    · obtain ⟨w, hw', hwl⟩ := h.installed l hold
      exact ⟨w, List.mem_append_left _ hw', hwl⟩
    · exact ⟨w, List.mem_append_right _ hw', hwl⟩
  · rcases hnew l hl with hold | ⟨-, w, hw', hwk⟩
    · obtain ⟨w, hw', hwk⟩ := h.keyed l hold
      exact ⟨w, List.mem_append_left _ hw', hwk⟩
    · exact ⟨w, List.mem_append_right _ hw', hwk⟩
  · rcases List.mem_append.1 hw' with hw' | hw'
    · obtain ⟨hold, hwt⟩ := h.registered w hw' l hl
      exact ⟨hg hold, hwt⟩
    · exact hmore w hw' l hl

end Registry

end FeatureAlignment
