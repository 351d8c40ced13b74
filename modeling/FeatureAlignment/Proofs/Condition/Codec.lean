import FeatureAlignment.Condition.Codec
import FeatureAlignment.Proofs.Data.Decode

/-!
# Conditions in JSON

JSON has no infinities, so a condition can be written in it and read again exactly if its literals are finite.
All that is read from JSON is such; a number beyond 64 bits is read as a finite double.

* `Condition.literals`: the literals of a condition.
* `Condition.Storable`: conditions that JSON can hold. Only these are read (`Condition.yields_ofData?`), and
  they are read back (`Condition.restores_toData`).
-/

namespace FeatureAlignment

open Data (Yields Restores FieldOfJson)

/-! ## Literals -/

namespace Literal

theorem yields_ofSettled? : Yields ofSettled? (fun l => l.isFinite = true) := by
  intro d hd l h
  cases d with
  | integer i =>
    obtain ⟨hlow, hhigh⟩ := of_decide_eq_true hd
    have hbits : i.natAbs < 2 ^ 64 := by
      have hlow : (-9223372036854775808 : Int) ≤ i := hlow
      have hhigh : i < (18446744073709551616 : Int) := hhigh
      omega
    unfold ofSettled? at h
    simp only at h
    split at h <;> cases h
    · rfl
    · exact Double.isFinite_ofInt hbits
  | double x => cases h; exact hd
  | text _ => cases h; rfl
  | _ => cases h

/-- **Only finite literals are read.** -/
theorem yields_ofData? : Yields ofData? (fun l => l.isFinite = true) := by
  intro d hd l h
  obtain ⟨e, he, h⟩ := Option.bind_eq_some_iff.1 h
  exact yields_ofSettled? e (Data.isJson_settle hd he) l h

/-- What a finite literal is read from. -/
theorem ofSettled?_value {l : Literal} (h : l.isFinite = true) :
    ofSettled? (Json.value l.toData) = some l ∧ (Json.value l.toData).isAbsent = false := by
  cases l with
  | integer i =>
    have hbounds : -Int.pow 2 63 ≤ i.toInt ∧ i.toInt < Int.pow 2 63 := ⟨i.le_toInt, i.toInt_lt⟩
    refine ⟨?_, rfl⟩
    rw [toData, Json.value, ofSettled?, if_pos hbounds, Int64.ofInt_toInt]
  | double d =>
    have hvalue : Json.value (.double d) = .double d := if_pos h
    rw [toData, hvalue]
    exact ⟨rfl, rfl⟩
  | text _ => exact ⟨rfl, rfl⟩

/-- **Finite literals are read back.** -/
theorem restores_toData {l : Literal} (h : l.isFinite = true) : Restores ofData? toData l := by
  unfold Restores ofData?
  rw [Json.settle_value, Option.bind_some]
  exact (ofSettled?_value h).1

end Literal

/-! ## Comparisons -/

namespace Operand

/-- An operand that JSON can hold: a property, or a finite literal. -/
def Storable (o : Operand) : Prop := ∀ l ∈ o.literal?, l.isFinite = true

theorem yields_ofData? : Yields ofData? Storable := by
  refine Yields.record fun values hfields o h => ?_
  split at h
  · rename_i name value
    have hvalue : FieldOfJson value := hfields value (by simp)
    obtain ⟨n, -, h⟩ := Option.bind_eq_some_iff.1 h
    obtain ⟨l?, hl, h⟩ := Option.bind_eq_some_iff.1 h
    have hfinite := Literal.yields_ofData?.optionalField hvalue hl
    split at h <;> cases h
    · exact fun _ hl => by cases hl
    · exact fun l hl => by cases hl; exact hfinite _ rfl
  · cases h

theorem toData_eq (o : Operand) : o.toData =
    Data.slots ["property", "literal"] [o.property?.map .text, o.literal?.map Literal.toData] := by
  cases o <;> rfl

/-- **Operands are read back.** -/
theorem restores_toData {o : Operand} (h : o.Storable) : Restores ofData? toData o := by
  have hliteral := Data.restores_optional (o := o.literal?) fun l hl =>
    ⟨Literal.restores_toData (h l hl), (Literal.ofSettled?_value (h l hl)).2⟩
  refine Data.restores_record o.toData_eq (by decide) rfl ?_
  simp only [Option.bind_eq_bind, Option.bind_some, List.map_cons, List.map_nil, Data.restores_optionalText, hliteral]
  cases o <;> rfl

end Operand

namespace Comparison

/-- A comparison that JSON can hold. -/
def Storable (c : Comparison) : Prop := ∀ l ∈ c.literals, l.isFinite = true

theorem storable_iff {c : Comparison} : c.Storable ↔ c.left.Storable ∧ c.right.Storable := by
  rcases c with ⟨left, op, right, negated⟩
  unfold Storable Operand.Storable literals
  cases left <;> cases right <;> simp [Operand.literal?]

theorem yields_ofData? : Yields ofData? Storable := by
  refine Yields.record fun values hfields c h => ?_
  split at h
  · rename_i left op right negated
    obtain ⟨l, hl, h⟩ := Option.bind_eq_some_iff.1 h
    obtain ⟨o, -, h⟩ := Option.bind_eq_some_iff.1 h
    obtain ⟨r, hr, h⟩ := Option.bind_eq_some_iff.1 h
    obtain ⟨n, -, h⟩ := Option.bind_eq_some_iff.1 h
    cases h
    exact storable_iff.2 ⟨Operand.yields_ofData?.required (hfields left (by simp)) hl,
      Operand.yields_ofData?.required (hfields right (by simp)) hr⟩
  · cases h

theorem toData_eq (c : Comparison) : c.toData =
    Data.slots ["left", "op", "right", "negated"] [some c.left.toData, some (.text c.op.name), some c.right.toData,
      if c.negated then some (.flag true) else none] := by
  unfold toData
  split <;> rfl

theorem variant?_op (op : ComparisonOp) :
    Data.variant? ComparisonOp.variants (Json.value (.text op.name)) = some op := by
  cases op <;> decide

/-- **Comparisons are read back.** -/
theorem restores_toData {c : Comparison} (h : c.Storable) : Restores ofData? toData c := by
  obtain ⟨hleft, hright⟩ := storable_iff.1 h
  have hl : Operand.ofData? (Json.value c.left.toData) = some c.left := Operand.restores_toData hleft
  have hr : Operand.ofData? (Json.value c.right.toData) = some c.right := Operand.restores_toData hright
  refine Data.restores_record c.toData_eq (by decide) rfl ?_
  simp only [Option.bind_eq_bind, Option.bind_some, List.map_cons, List.map_nil, Option.map_some, Data.required?,
    hl, hr, variant?_op]
  rcases c with ⟨left, op, right, negated⟩
  cases negated <;> rfl

end Comparison

/-! ## Conditions -/

namespace Condition

mutual

/-- The literals of a condition, from left to right. -/
def literals : Condition → List Literal
  | .logical _ children => literalsAll children
  | .comparison c => c.literals
  | .literal l => [l]

/-- The literals of conditions, one condition after the other. -/
def literalsAll : List Condition → List Literal
  | [] => []
  | c :: cs => c.literals ++ literalsAll cs

end

/-- **A condition that JSON can hold**: all its literals are finite. -/
def Storable (c : Condition) : Prop := ∀ l ∈ c.literals, l.isFinite = true

theorem storable_logical {op : Connective} {cs : List Condition} :
    (logical op cs).Storable ↔ ∀ c ∈ cs, c.Storable := by
  show (∀ l ∈ literalsAll cs, l.isFinite = true) ↔ _
  induction cs with
  | nil => simp [literalsAll]
  | cons c cs ih =>
    rw [literalsAll, List.forall_mem_append, List.forall_mem_cons, ih]
    rfl

theorem yields_logical? {child? : Data → Option Condition} (h : Yields child? Storable) :
    Yields (logical? child?) Storable := by
  refine Yields.record fun values hfields c hc => ?_
  split at hc
  · rename_i op children
    obtain ⟨o, -, hc⟩ := Option.bind_eq_some_iff.1 hc
    obtain ⟨cs, hcs, hc⟩ := Option.bind_eq_some_iff.1 hc
    cases hc
    exact storable_logical.2 (h.list.required (hfields children (by simp)) hcs)
  · cases hc

theorem yields_ofDataWithin? (depth : Nat) : Yields (ofDataWithin? depth) Storable := by
  induction depth with
  | zero => exact fun _ _ _ h => by cases h
  | succ depth ih =>
    refine Yields.record fun values hfields c h => ?_
    split at h
    · rename_i tree leaf value
      obtain ⟨t, ht, h⟩ := Option.bind_eq_some_iff.1 h
      obtain ⟨k, hk, h⟩ := Option.bind_eq_some_iff.1 h
      obtain ⟨l, hl, h⟩ := Option.bind_eq_some_iff.1 h
      have htree := (yields_logical? ih).optionalField (hfields tree (by simp)) ht
      have hleaf := Comparison.yields_ofData?.optionalField (hfields leaf (by simp)) hk
      have hvalue := Literal.yields_ofData?.optionalField (hfields value (by simp)) hl
      split at h <;> cases h
      · exact htree _ rfl
      · exact hleaf _ rfl
      · exact List.forall_mem_singleton.2 (hvalue _ rfl)
    · cases h

/-- **Only conditions that JSON can hold are read from it.** -/
theorem yields_ofData? : Yields ofData? Storable := fun d hd => yields_ofDataWithin? (d.height + 1) d hd

theorem toDatas_eq_map (cs : List Condition) : toDatas cs = cs.map toData := by
  induction cs with
  | nil => rfl
  | cons c cs ih => rw [toDatas, ih, List.map_cons]

theorem variant?_op (op : Connective) : Data.variant? Connective.variants (Json.value (.text op.name)) = some op := by
  cases op <;> decide

theorem restores_logical? {child? : Data → Option Condition} {op : Connective} {cs : List Condition}
    (h : ∀ c ∈ cs, Restores child? toData c) :
    logical? child? (Json.value (Data.slots ["op", "children"] [some (.text op.name), some (.list (toDatas cs))])) =
      some (.logical op cs) := by
  rw [toDatas_eq_map]
  have hchildren : Data.list? child? (Json.value (.list (cs.map toData))) = some cs := Data.restores_list h
  unfold logical?
  rw [Data.fields?_slots (by decide) rfl]
  simp only [Option.bind_eq_bind, Option.bind_some, List.map_cons, List.map_nil, Option.map_some, Data.required?,
    variant?_op, hchildren]

mutual

/-- A condition is read back with as many levels as its document has. -/
theorem restores_ofDataWithin? : ∀ {c : Condition}, c.Storable → ∀ {depth : Nat},
    (Json.value c.toData).height < depth → Restores (ofDataWithin? depth) toData c
  | _, _, 0, h => absurd h (Nat.not_lt_zero _)
  | .logical op cs, hc, depth + 1, h => by
    -- the record, its field and the list of children are levels above the children
    have hchildren : ∀ c ∈ cs, Restores (ofDataWithin? depth) toData c := by
      refine restores_children (storable_logical.1 hc) ?_
      simp only [toData, Data.object, Json.value, Json.valueFields, List.map_cons, List.map_nil, Data.height,
        Data.heightFields] at h
      omega
    have hdocument : (logical op cs).toData = Data.slots ["logical", "comparison", "literal"]
        [some (Data.slots ["op", "children"] [some (.text op.name), some (.list (toDatas cs))]), none, none] := rfl
    refine Data.restores_record hdocument (by decide) rfl ?_
    simp only [Option.bind_eq_bind, Option.bind_some, List.map_cons, List.map_nil, Option.map_some, Option.map_none,
      Data.defaulted?, Data.optional?, restores_logical? hchildren]
    rfl
  | .comparison c, hc, depth + 1, _ => by
    have hleaf : Comparison.ofData? (Json.value c.toData) = some c := Comparison.restores_toData hc
    have hdocument : (comparison c).toData = Data.slots ["logical", "comparison", "literal"]
        [none, some c.toData, none] := rfl
    refine Data.restores_record hdocument (by decide) rfl ?_
    simp only [Option.bind_eq_bind, Option.bind_some, List.map_cons, List.map_nil, Option.map_some, Option.map_none,
      Data.defaulted?, Data.optional?, hleaf]
    rfl
  | .literal l, hc, depth + 1, _ => by
    have hfinite : l.isFinite = true := hc l (List.mem_singleton.2 rfl)
    have hvalue : Literal.ofData? (Json.value l.toData) = some l := Literal.restores_toData hfinite
    have hdocument : (literal l).toData = Data.slots ["logical", "comparison", "literal"]
        [none, none, some l.toData] := rfl
    refine Data.restores_record hdocument (by decide) rfl ?_
    simp only [Option.bind_eq_bind, Option.bind_some, List.map_cons, List.map_nil, Option.map_some, Option.map_none,
      Data.defaulted?, Data.optional?, (Literal.ofSettled?_value hfinite).2, hvalue]
    rfl

theorem restores_children : ∀ {cs : List Condition}, (∀ c ∈ cs, c.Storable) → ∀ {depth : Nat},
    Data.heightItems (Json.values (toDatas cs)) < depth → ∀ c ∈ cs, Restores (ofDataWithin? depth) toData c
  | [], _, _, _ => fun _ hc => (List.not_mem_nil hc).elim
  | c :: cs, hcs, depth, h => by
    obtain ⟨hfirst, hrest⟩ := List.forall_mem_cons.1 hcs
    rw [toDatas, Json.values, Data.heightItems, max_lt_iff] at h
    exact List.forall_mem_cons.2 ⟨restores_ofDataWithin? hfirst h.1, restores_children hrest h.2⟩

end

/-- **Conditions are read back**, however deep they nest. -/
theorem restores_toData {c : Condition} (h : c.Storable) : Restores ofData? toData c :=
  restores_ofDataWithin? h (Nat.lt_succ_self _)

/-- The document of a condition is a record. -/
theorem isAbsent_toData (c : Condition) : (Json.value c.toData).isAbsent = false := by cases c <;> rfl

end Condition

end FeatureAlignment
