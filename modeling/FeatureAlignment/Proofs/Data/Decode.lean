import Mathlib.Data.List.Nodup
import FeatureAlignment.Data.Decode
import FeatureAlignment.Proofs.Data.Json

/-!
# What is read, and what is read back

Codecs are composed of small readers, and so is what is known of them, in two ways. What a reader yields
from values of JSON has some property: that of a field, of each item. And a reader gives back a value from
what its document stands for in JSON, if it does so for the parts.

* `Data.Yields`: a property of all that is read.
* `Data.Restores`: a value is read back.
* `Data.slots`: the fields of a record type as a document, and `Data.fields?_slots`, which reads them back.
-/

namespace FeatureAlignment

namespace Data

variable {α β : Type} {read : Data → Option α} {P : α → Prop}

/-! ## What is read -/

/-- **All that is read from values of JSON has a property.** -/
def Yields (read : Data → Option α) (P : α → Prop) : Prop :=
  ∀ d : Data, d.isJson = true → ∀ x : α, read d = some x → P x

/-- A field whose value, if there is one, is a value of JSON. -/
def FieldOfJson (value : Option Data) : Prop := ∀ d ∈ value, d.isJson = true

theorem Yields.required (h : Yields read P) {value : Option Data} (hv : FieldOfJson value) {x : α}
    (hx : required? read value = some x) : P x := by
  obtain ⟨d, hd, hx⟩ := Option.bind_eq_some_iff.1 hx
  exact h d (hv d hd) x hx

theorem Yields.defaulted (h : Yields read P) {default : α} (hdefault : P default) {value : Option Data}
    (hv : FieldOfJson value) {x : α} (hx : defaulted? default read value = some x) : P x := by
  cases value with
  | none => cases hx; exact hdefault
  | some d => exact h d (hv d rfl) x hx

theorem Yields.optional (h : Yields read P) : Yields (optional? read) (fun o => ∀ x ∈ o, P x) := by
  intro d hd o ho
  unfold optional? at ho
  split at ho
  · cases ho
    exact fun _ hx => by cases hx
  · obtain ⟨y, hy, rfl⟩ := Option.map_eq_some_iff.1 ho
    intro x hx
    cases hx
    exact h d hd y hy

/-- An optional field, absent by default. -/
theorem Yields.optionalField (h : Yields read P) {value : Option Data} (hv : FieldOfJson value) {o : Option α}
    (ho : defaulted? none (optional? read) value = some o) : ∀ x ∈ o, P x :=
  h.optional.defaulted (fun _ hx => by cases hx) hv ho

theorem mapM_some_cons {f : β → Option α} {b : β} {bs : List β} {xs : List α} :
    (b :: bs).mapM f = some xs ↔ ∃ y ys, f b = some y ∧ bs.mapM f = some ys ∧ y :: ys = xs := by
  simp only [List.mapM_cons, Option.bind_eq_bind, Option.bind_eq_some_iff, Option.pure_def, Option.some_inj,
    exists_and_left]

/-- What is made item by item has a property, if each item has it. -/
theorem forall_of_mapM {f : β → Option α} {bs : List β} {xs : List α} (h : ∀ b ∈ bs, ∀ x, f b = some x → P x)
    (hxs : bs.mapM f = some xs) : ∀ x ∈ xs, P x := by
  induction bs generalizing xs with
  | nil => cases hxs; exact fun _ hx => (List.not_mem_nil hx).elim
  | cons b bs ih =>
    obtain ⟨y, ys, hy, hys, rfl⟩ := mapM_some_cons.1 hxs
    exact List.forall_mem_cons.2 ⟨h b List.mem_cons_self y hy, ih (fun c hc => h c (List.mem_cons_of_mem _ hc)) hys⟩

theorem isJson_of_items? {d : Data} (hd : d.isJson = true) {items : List Data} (h : d.items? = some items) :
    ∀ e ∈ items, e.isJson = true := by
  cases d with
  | list _ => cases h; exact allJson_iff.1 hd
  | sequence _ => cases hd
  | written _ _ _ => cases hd
  | tagged _ _ => cases hd
  | _ => cases h

theorem Yields.list (h : Yields read P) : Yields (list? read) (fun xs => ∀ x ∈ xs, P x) := by
  intro d hd xs hxs
  obtain ⟨items, hitems, hxs⟩ := Option.bind_eq_some_iff.1 hxs
  exact forall_of_mapM (fun e he => h e (isJson_of_items? hd hitems e he)) hxs

theorem isJson_of_entries? {d : Data} (hd : d.isJson = true) {entries : List (Data × Data)}
    (h : d.entries? = some entries) : ∀ e ∈ entries, e.1.isJsonKey = true ∧ e.2.isJson = true := by
  cases d with
  | record _ => cases h; exact allJsonFields_iff.1 hd
  | written _ _ _ => cases hd
  | tagged _ _ => cases hd
  | _ => cases h

theorem isJson_of_entriesByName? {strict : Bool} {names : List String} {entries : List (Data × Data)}
    (he : ∀ e ∈ entries, e.2.isJson = true) {values : List (Option Data)}
    (h : entriesByName? strict names entries = some values) : ∀ value ∈ values, FieldOfJson value := by
  obtain ⟨placed, hplaced, h⟩ := Option.bind_eq_some_iff.1 h
  have hmade : ∀ p ∈ placed, p.2.isJson = true := by
    refine forall_of_mapM (fun e hmem p hp => ?_) hplaced
    obtain ⟨n, -, rfl⟩ := Option.map_eq_some_iff.1 hp
    exact he e hmem
  simp only at h
  split at h
  · cases h
  · split at h
    · cases h
      intro value hv d hd
      obtain ⟨i, -, rfl⟩ := List.mem_map.1 hv
      obtain ⟨before, after, hknown, -⟩ := List.lookup_eq_some_iff.1 hd
      have hmem : (i, d) ∈ placed.filterMap (fun e => e.1.map (·, e.2)) := by
        rw [hknown]
        exact List.mem_append_right _ List.mem_cons_self
      obtain ⟨p, hp, heq⟩ := List.mem_filterMap.1 hmem
      obtain ⟨n, -, hn⟩ := Option.map_eq_some_iff.1 heq
      cases hn
      exact hmade p hp
    · cases h

/-- **The fields of a record type** of JSON are of JSON. -/
theorem isJson_of_fields? {strict : Bool} {names : List String} {d : Data} (hd : d.isJson = true)
    {values : List (Option Data)} (h : d.fields? strict names = some values) : ∀ value ∈ values, FieldOfJson value := by
  cases d with
  | record entries => exact isJson_of_entriesByName? (fun e he => (allJsonFields_iff.1 hd e he).2) h
  | list items =>
    unfold fields? at h
    split at h
    · cases h
      intro value hv d hd'
      rcases List.mem_append.1 hv with hv | hv
      · obtain ⟨e, he, rfl⟩ := List.mem_map.1 hv
        cases hd'
        exact allJson_iff.1 hd d he
      · rw [(List.mem_replicate.1 hv).2] at hd'
        cases hd'
    · cases h
  | written _ _ _ => cases hd
  | tagged _ _ => cases hd
  | _ => cases h

/-- **What is built from the fields of a record type.** -/
theorem Yields.record {strict : Bool} {names : List String} {build : List (Option Data) → Option α}
    (h : ∀ values, (∀ value ∈ values, FieldOfJson value) → ∀ x, build values = some x → P x) :
    Yields (fun d => do build (← d.fields? strict names)) P := by
  intro d hd x hx
  obtain ⟨values, hvalues, hx⟩ := Option.bind_eq_some_iff.1 hx
  exact h values (isJson_of_fields? hd hvalues) x hx

/-! ## What is read back -/

/-- **A value is read back** from what its document stands for in JSON. -/
def Restores (read : Data → Option α) (write : α → Data) (x : α) : Prop := read (Json.value (write x)) = some x

variable {write : α → Data}

theorem mapM_map_of_forall {f : β → Option α} {g : α → β} {xs : List α} (h : ∀ x ∈ xs, f (g x) = some x) :
    (xs.map g).mapM f = some xs := by
  induction xs with
  | nil => rfl
  | cons x xs ih =>
    obtain ⟨hfirst, hrest⟩ := List.forall_mem_cons.1 h
    exact mapM_some_cons.2 ⟨x, xs, hfirst, ih hrest, rfl⟩

/-- A list is read back if its items are. -/
theorem restores_list {xs : List α} (h : ∀ x ∈ xs, Restores read write x) :
    Restores (list? read) (fun xs => .list (xs.map write)) xs := by
  show ((Json.values (xs.map write)).mapM read) = some xs
  rw [Json.values_eq_map, List.map_map]
  exact mapM_map_of_forall h

/-- A field that is left out when there is no value, and read as absent then. -/
theorem restores_optional {o : Option α}
    (h : ∀ x ∈ o, Restores read write x ∧ (Json.value (write x)).isAbsent = false) :
    defaulted? none (optional? read) ((o.map write).map Json.value) = some o := by
  cases o with
  | none => rfl
  | some x =>
    obtain ⟨hread, habsent⟩ := h x rfl
    show optional? read (Json.value (write x)) = some (some x)
    rw [optional?, habsent, hread]
    rfl

/-- A list that is left out when it is empty, and read as empty then. -/
theorem restores_listField {xs : List α} (h : ∀ x ∈ xs, Restores read write x) :
    defaulted? [] (list? read)
      ((if xs.isEmpty then none else some (Data.list (xs.map write))).map Json.value) = some xs := by
  cases xs with
  | nil => rfl
  | cons x xs => exact restores_list h

theorem restores_text (s : String) : Restores text? .text s := rfl

theorem restores_optionalText (o : Option String) :
    defaulted? none (optional? text?) ((o.map Data.text).map Json.value) = some o :=
  restores_optional fun s _ => ⟨restores_text s, rfl⟩

/-! ## Records -/

/-- The fields among the named ones that have a value. -/
def slotFields (names : List String) (values : List (Option Data)) : List (String × Data) :=
  (names.zip values).flatMap fun f => field? f.1 f.2

/-- **The fields of a record type as a document**; those without value are left out. -/
def slots (names : List String) (values : List (Option Data)) : Data := .object (slotFields names values)

theorem slotFields_cons (name : String) (names : List String) (value : Option Data) (values : List (Option Data)) :
    slotFields (name :: names) (value :: values) = field? name value ++ slotFields names values := rfl

theorem value_object (fields : List (String × Data)) :
    Json.value (.object fields) = .object (fields.map fun f => (f.1, Json.value f.2)) := by
  rw [object, Json.value, Json.valueFields_eq_map, List.map_map, object, List.map_map]
  rfl

theorem value_slots (names : List String) (values : List (Option Data)) :
    Json.value (slots names values) = slots names (values.map (Option.map Json.value)) := by
  rw [slots, value_object, slots]
  refine congrArg object ?_
  induction names generalizing values with
  | nil => rfl
  | cons name names ih =>
    cases values with
    | nil => rfl
    | cons value values =>
      rw [slotFields_cons, List.map_append, ih, List.map_cons, slotFields_cons]
      cases value <;> rfl

theorem distinct_iff {ns : List Nat} : distinct ns = true ↔ ns.Nodup := by
  induction ns with
  | nil => simp [distinct]
  | cons n ns ih => simp [distinct, ih]

theorem findIdx?_of_mem {names : List String} {s : String} (h : s ∈ names) :
    names.findIdx? (· == s) = some (names.idxOf s) :=
  List.findIdx?_eq_some_iff_findIdx_eq.2 ⟨List.idxOf_lt_length_of_mem h, rfl⟩

variable {names : List String} {fields : List (String × Data)}

theorem placed_object (h : ∀ f ∈ fields, f.1 ∈ names) :
    (fields.map fun f => (Data.text f.1, f.2)).mapM (fun e => (e.1.position? names).map (·, e.2)) =
      some (fields.map fun f => (some (names.idxOf f.1), f.2)) := by
  induction fields with
  | nil => rfl
  | cons f fields ih =>
    obtain ⟨hfirst, hrest⟩ := List.forall_mem_cons.1 h
    refine mapM_some_cons.2 ⟨_, _, ?_, ih hrest, rfl⟩
    rw [position?, findIdx?_of_mem hfirst]
    rfl

/-- Looking a field up by its position is looking it up by its name. -/
theorem lookup_idxOf (hnames : names.Nodup) (h : ∀ f ∈ fields, f.1 ∈ names) {i : Nat} (hi : i < names.length) :
    (fields.map fun f => (names.idxOf f.1, f.2)).lookup i = fields.lookup names[i] := by
  induction fields with
  | nil => rfl
  | cons f fields ih =>
    obtain ⟨hfirst, hrest⟩ := List.forall_mem_cons.1 h
    have hsame : (i == names.idxOf f.1) = (names[i] == f.1) := by
      have hiff : i = names.idxOf f.1 ↔ names[i] = f.1 := by
        conv_lhs => rw [← hnames.idxOf_getElem i hi]
        exact List.idxOf_inj (List.getElem_mem hi)
      rw [Bool.eq_iff_iff, beq_iff_eq, beq_iff_eq, hiff]
    rw [List.map_cons, List.lookup_cons, List.lookup_cons, hsame, ih hrest]

/-- **A record with some of the names as keys** has the fields that it has under these names. -/
theorem fields?_object {strict : Bool} (hnames : names.Nodup) (hkeys : (fields.map Prod.fst).Nodup)
    (h : ∀ f ∈ fields, f.1 ∈ names) :
    (object fields).fields? strict names = some (names.map fun name => fields.lookup name) := by
  -- all keys are known, each by the position of its name
  have hknown : (fields.map fun f => (some (names.idxOf f.1), f.2)).filterMap (fun e => e.1.map (·, e.2)) =
      fields.map fun f => (names.idxOf f.1, f.2) := by
    rw [List.filterMap_map]
    exact congrFun (List.filterMap_eq_map (f := fun f : String × Data => (names.idxOf f.1, f.2))) fields
  have hdistinct : distinct ((fields.map fun f => (names.idxOf f.1, f.2)).map Prod.fst) = true := by
    rw [distinct_iff, List.map_map]
    have hcomp : Prod.fst ∘ (fun f : String × Data => (names.idxOf f.1, f.2)) = names.idxOf ∘ Prod.fst := rfl
    rw [hcomp, ← List.map_map]
    refine hkeys.map_on fun s hs t _ heq => ?_
    obtain ⟨f, hf, rfl⟩ := List.mem_map.1 hs
    exact (List.idxOf_inj (h f hf)).1 heq
  show entriesByName? strict names (fields.map fun f => (Data.text f.1, f.2)) = _
  unfold entriesByName?
  rw [placed_object h]
  simp only [Option.bind_eq_bind, Option.bind_some, hknown, hdistinct, List.length_map, ne_eq, not_true_eq_false,
    decide_false, Bool.and_false, Bool.false_eq_true, if_false, if_true]
  refine congrArg some (List.ext_getElem (by simp) fun i hi _ => ?_)
  rw [List.getElem_map, List.getElem_range, List.getElem_map]
  exact lookup_idxOf hnames h (by simpa using hi)

theorem mem_of_mem_slotFields {values : List (Option Data)} {f : String × Data}
    (h : f ∈ slotFields names values) : f.1 ∈ names := by
  obtain ⟨⟨name, value⟩, hmem, hf⟩ := List.mem_flatMap.1 h
  cases value with
  | none => cases hf
  | some d =>
    rw [List.mem_singleton.1 hf]
    exact (List.of_mem_zip hmem).1

theorem nodup_slotFields (hnames : names.Nodup) (values : List (Option Data)) :
    ((slotFields names values).map Prod.fst).Nodup := by
  induction names generalizing values with
  | nil => exact List.nodup_nil
  | cons name names ih =>
    cases values with
    | nil => exact List.nodup_nil
    | cons value values =>
      obtain ⟨hnew, hnames⟩ := List.nodup_cons.1 hnames
      rw [slotFields_cons]
      cases value with
      | none => exact ih hnames values
      | some d =>
        refine List.nodup_cons.2 ⟨fun hmem => hnew ?_, ih hnames values⟩
        obtain ⟨f, hf, rfl : f.1 = name⟩ := List.mem_map.1 hmem
        exact mem_of_mem_slotFields hf

theorem lookup_slotFields (hnames : names.Nodup) {values : List (Option Data)}
    (hlength : values.length = names.length) :
    (names.map fun name => (slotFields names values).lookup name) = values := by
  induction names generalizing values with
  | nil => exact (List.length_eq_zero_iff.1 hlength).symm
  | cons name names ih =>
    cases values with
    | nil => cases hlength
    | cons value values =>
      obtain ⟨hnew, hnames⟩ := List.nodup_cons.1 hnames
      -- the first name is that of no later field
      have hfirst : (slotFields (name :: names) (value :: values)).lookup name = value := by
        have hnone : (slotFields names values).lookup name = none :=
          List.lookup_eq_none_iff.2 fun f hf => by
            simpa using fun heq : name = f.1 => hnew (heq ▸ mem_of_mem_slotFields hf)
        rw [slotFields_cons, List.lookup_append, hnone, Option.or_none]
        cases value with
        | none => rfl
        | some d => exact List.lookup_cons_self
      have hothers : ∀ other ∈ names, (slotFields (name :: names) (value :: values)).lookup other =
          (slotFields names values).lookup other := by
        intro other hother
        have hne : (other == name) = false := by simpa using fun heq : other = name => hnew (heq ▸ hother)
        rw [slotFields_cons, List.lookup_append]
        cases value with
        | none => rfl
        | some d => rw [field?, List.lookup_cons, hne]; rfl
      rw [List.map_cons, hfirst, List.map_congr_left hothers, ih hnames (Nat.succ_inj.1 hlength)]

/-- **The fields of a record type are read back.** -/
theorem fields?_slots {strict : Bool} (hnames : names.Nodup) {values : List (Option Data)}
    (hlength : values.length = names.length) :
    (Json.value (slots names values)).fields? strict names = some (values.map (Option.map Json.value)) := by
  rw [value_slots, slots, fields?_object hnames (nodup_slotFields hnames _) fun f hf => mem_of_mem_slotFields hf,
    lookup_slotFields hnames (by rw [List.length_map, hlength])]

/-- **A record type is read back** if it is built again from what its fields stand for. -/
theorem restores_record {strict : Bool} {build : List (Option Data) → Option α} {x : α}
    {values : List (Option Data)} (hwrite : write x = slots names values) (hnames : names.Nodup)
    (hlength : values.length = names.length) (h : build (values.map (Option.map Json.value)) = some x) :
    Restores (fun d => do build (← d.fields? strict names)) write x := by
  show ((Json.value (write x)).fields? strict names).bind build = some x
  rw [hwrite, fields?_slots hnames hlength, Option.bind_some, h]

end Data

end FeatureAlignment
