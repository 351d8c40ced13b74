import FeatureAlignment.Cell.Placement

/-!
# Changes of attributes

All that is ever done to an attribute mapping respects the same rules: `Change f`. The
changes that joins make on both sides of a link (`change_linkContainer`,
`change_linkNested`) and those of property cells (`change_write`) are of this kind.

* `AttributeMapping.Sound`: client properties have distinct names, and a link is whole.
-/

namespace FeatureAlignment

namespace AttributeMapping

/-- **A sound attribute**: client properties have distinct names, and a link has both its
element and its field and repeats. -/
structure Sound (a : AttributeMapping) : Prop where
  clients : (a.clientProperties.map ClientProperty.name).Nodup
  linked : a.linkElement.isSome ↔ a.linkField.isSome
  repeats : a.linkField.isSome → a.isMultiple = true

theorem sound_ofTarget (key : String) : (ofTarget key).Sound :=
  ⟨List.nodup_nil, by simp [ofTarget], by simp [ofTarget]⟩

/-- The names of client properties after one was set. -/
theorem names_setAmong (name value : String) (ps : List ClientProperty) :
    (setAmong name value ps).map ClientProperty.name =
      if name ∈ ps.map ClientProperty.name then ps.map ClientProperty.name
      else ps.map ClientProperty.name ++ [name] := by
  induction ps with
  | nil => simp [setAmong]
  | cons p ps ih =>
    unfold setAmong
    by_cases hp : p.name = name
    · simp [hp]
    · have hp' : ¬ name = p.name := fun h => hp h.symm
      simp only [hp, if_false, List.map_cons, ih, List.mem_cons, hp', false_or]
      split <;> rfl

theorem nodup_setAmong {name value : String} {ps : List ClientProperty}
    (h : (ps.map ClientProperty.name).Nodup) :
    ((setAmong name value ps).map ClientProperty.name).Nodup := by
  rw [names_setAmong]
  split
  · exact h
  · rename_i hn
    rw [List.nodup_append]
    refine ⟨h, by simp, fun a ha b hb => ?_⟩
    rw [List.mem_singleton] at hb
    subst hb
    rintro rfl
    exact hn ha

/-- **What every change of an attribute respects**: the target stays, what repeats goes on
repeating, and a sound attribute stays sound. -/
structure Change (f : AttributeMapping → AttributeMapping) : Prop where
  target : ∀ a, (f a).targetAttribute = a.targetAttribute
  multiple : ∀ a, a.isMultiple = true → (f a).isMultiple = true
  sound : ∀ {a}, a.Sound → (f a).Sound

theorem change_setClientProperty (name value : String) : Change (setClientProperty name value) :=
  ⟨fun _ => rfl, fun _ h => h, fun h => ⟨nodup_setAmong h.clients, h.linked, h.repeats⟩⟩

/-- One change after the other. -/
theorem Change.comp {f g : AttributeMapping → AttributeMapping} (hf : Change f) (hg : Change g) :
    Change (fun a => g (f a)) :=
  ⟨fun a => (hg.target _).trans (hf.target a), fun a h => hg.multiple _ (hf.multiple a h),
    fun h => hg.sound (hf.sound h)⟩

end AttributeMapping

open AttributeMapping (Change change_setClientProperty)

theorem JoinPlan.change_linkContainer (p : JoinPlan) (link : FeatureLink) (href : String) :
    Change (p.linkContainer link href) := by
  have linked : Change (fun a => { a with
      sourceExpression := some p.baseKey
      linkElement := some link.linkElement
      linkField := some link.linkField
      isMultiple := true }) :=
    ⟨fun _ => rfl, fun _ _ => rfl, fun h => ⟨h.clients, by simp, fun _ => rfl⟩⟩
  -- a reference has the foreign key as a client property as well
  have referred := linked.comp (change_setClientProperty href p.foreignKey)
  refine ⟨fun a => ?_, fun a ha => ?_, fun {a} ha => ?_⟩
  all_goals unfold linkContainer; simp only; split
  · exact referred.target a
  · exact linked.target a
  · exact referred.multiple a ha
  · exact linked.multiple a ha
  · exact referred.sound ha
  · exact linked.sound ha

theorem JoinPlan.change_linkNested (p : JoinPlan) : Change p.linkNested :=
  ⟨fun _ => rfl, fun _ h => h, fun h => ⟨h.clients, h.linked, h.repeats⟩⟩

theorem Cell.change_write (place : ResolvedPath) (text : String) (node client crs : Option String) :
    Change (Cell.write place text node client crs) := by
  have marked : Change (fun a => { a with isMultiple := a.isMultiple || place.isMultiple }) :=
    ⟨fun _ => rfl, fun _ h => by simp only [h, Bool.true_or],
      fun h => ⟨h.clients, h.linked, fun hl => by simp only [h.repeats hl, Bool.true_or]⟩⟩
  have valued : Change (fun a => { a with sourceExpression := some text, targetNode := node }) :=
    ⟨fun _ => rfl, fun _ h => h, fun h => ⟨h.clients, h.linked, h.repeats⟩⟩
  have named : Change (fun a => { a with idExpression := some text }) :=
    ⟨fun _ => rfl, fun _ h => h, fun h => ⟨h.clients, h.linked, h.repeats⟩⟩
  unfold Cell.write
  cases place.placement with
  | element =>
    cases crs with
    | none => exact marked.comp valued
    | some crs => exact (marked.comp valued).comp (change_setClientProperty "srsName" crs)
  | identifier => exact marked.comp named
  | clientProperty name => exact marked.comp (change_setClientProperty (client.getD "") text)

end FeatureAlignment
