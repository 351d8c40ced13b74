import Mathlib.Data.Nat.Digits.Defs
import FeatureAlignment.Data.Json.Printer

/-!
# Values of JSON

Of all document trees those without scalars and tags of YAML can come from a JSON text. Each tree stands for
one of them when it is written: its keys become texts, a tag the key of a record, and numbers that are not
finite become null.

* `Data.isJson`: the trees that a JSON text can have.
* `Json.value`: what a tree stands for in JSON. Both have the same text (`Json.compact_value`,
  `Json.pretty_value`).
-/

namespace FeatureAlignment

/-! ## Finite doubles -/

namespace Double

theorem isFinite_zero (negative : Bool) : (zero negative).isFinite = true := rfl

/-- A fraction below `2 ^ 64` has a finite double. -/
theorem isFinite_ofFraction_one (negative : Bool) {n : Nat} (h : n < 2 ^ 64) :
    (ofFraction negative n 1).isFinite = true := by
  have hlog : log2Quotient n 1 ≤ 63 := by
    have hn : Nat.log2 n < 64 := by
      by_cases h0 : n = 0
      · rw [h0]
        decide
      · exact (Nat.log2_lt h0).2 h
    have h1 : Nat.log2 1 = 0 := by decide
    unfold log2Quotient
    rw [h1]
    simp only
    split <;> split <;> omega
  have hsmall : ∀ (m : Nat) (e : Int), e ≤ 11 →
      (let p := if m ≥ Nat.pow 2 53 then (m / 2, e + 1) else (m, e)
        if p.2 > 971 then .infinite negative else finite negative p.1 p.2).isFinite = true := by
    intro m e he
    simp only
    split <;> rw [if_neg (by simp only; omega)] <;> rfl
  exact hsmall _ _ (by omega)

/-- **A numeral of an integer of 64 bits has a finite double.** -/
theorem isFinite_ofNumeral (negative : Bool) {n : Nat} (h : n < 2 ^ 64) :
    (ofNumeral ⟨negative, n, 0⟩).isFinite = true := by
  have hdigits : (Nat.toDigits 10 n).length ≤ 20 := Nat.toDigits_length 10 n 20 (by decide) (by omega)
  unfold ofNumeral
  simp only
  split
  · exact isFinite_zero negative
  · rw [if_neg (by omega), if_neg (by omega), if_pos (by omega)]
    refine isFinite_ofFraction_one negative ?_
    simpa using h

theorem isFinite_ofInt {i : Int} (h : i.natAbs < 2 ^ 64) : (ofInt i).isFinite = true := isFinite_ofNumeral _ h

end Double

/-! ## Trees of JSON -/

namespace Data

/-- A key of JSON; one with lone surrogates may be skipped but not used. -/
def isJsonKey : Data → Bool
  | .text _ => true
  | .unreadable => true
  | _ => false

mutual

/-- **A value of JSON**: integers fit 64 bits, with a sign or without, other numbers are finite, and keys
are texts. -/
def isJson : Data → Bool
  | .null => true
  | .flag _ => true
  | .integer i => decide (-Int.pow 2 63 ≤ i ∧ i < Int.pow 2 64)
  | .double d => d.isFinite
  | .text _ => true
  | .list items => allJson items
  | .record fields => allJsonFields fields
  | .unreadable => true
  | _ => false

/-- Whether all items are values of JSON. -/
def allJson : List Data → Bool
  | [] => true
  | d :: ds => d.isJson && allJson ds

/-- Whether all fields have keys and values of JSON. -/
def allJsonFields : List (Data × Data) → Bool
  | [] => true
  | (k, v) :: rest => k.isJsonKey && v.isJson && allJsonFields rest

end

theorem allJson_iff {ds : List Data} : allJson ds = true ↔ ∀ d ∈ ds, d.isJson = true := by
  induction ds with
  | nil => simp [allJson]
  | cons d ds ih => simp [allJson, ih]

theorem allJsonFields_iff {fields : List (Data × Data)} :
    allJsonFields fields = true ↔ ∀ f ∈ fields, f.1.isJsonKey = true ∧ f.2.isJson = true := by
  induction fields with
  | nil => simp [allJsonFields]
  | cons f fields ih => simp [allJsonFields, ih]

mutual

/-- **A settled value of JSON is one.** -/
theorem isJson_settle : ∀ {d e : Data}, d.isJson = true → d.settle = some e → e.isJson = true
  | .null, _, _, h => by cases h; rfl
  | .flag _, _, _, h => by cases h; rfl
  | .integer _, _, hd, h => by cases h; exact hd
  | .double _, _, hd, h => by cases h; exact hd
  | .text _, _, _, h => by cases h; rfl
  | .list items, _, hd, h => by
    obtain ⟨es, hes, rfl⟩ := Option.map_eq_some_iff.1 h
    exact allJson_settleItems hd hes
  | .record fields, _, hd, h => by
    obtain ⟨es, hes, rfl⟩ := Option.map_eq_some_iff.1 h
    exact allJsonFields_settleFields hd hes
  | .written _ _ _, _, hd, _ => by cases hd
  | .sequence _, _, hd, _ => by cases hd
  | .unreadable, _, _, h => by cases h
  | .tagged _ _, _, _, h => by cases h

theorem allJson_settleItems : ∀ {ds es : List Data}, allJson ds = true → settleItems ds = some es →
    allJson es = true
  | [], _, _, h => by cases h; rfl
  | d :: ds, _, hd, h => by
    obtain ⟨hfirst, hrest⟩ := Bool.and_eq_true_iff.1 hd
    obtain ⟨e, he, h⟩ := Option.bind_eq_some_iff.1 h
    obtain ⟨es, hes, h⟩ := Option.bind_eq_some_iff.1 h
    cases h
    exact Bool.and_eq_true_iff.2 ⟨isJson_settle hfirst he, allJson_settleItems hrest hes⟩

theorem allJsonFields_settleFields : ∀ {fs es : List (Data × Data)}, allJsonFields fs = true →
    settleFields fs = some es → allJsonFields es = true
  | [], _, _, h => by cases h; rfl
  | (k, v) :: fs, _, hd, h => by
    obtain ⟨hfirst, hrest⟩ := Bool.and_eq_true_iff.1 hd
    obtain ⟨hk, hv⟩ := Bool.and_eq_true_iff.1 hfirst
    obtain ⟨k', hk', h⟩ := Option.bind_eq_some_iff.1 h
    obtain ⟨v', hv', h⟩ := Option.bind_eq_some_iff.1 h
    obtain ⟨es, hes, h⟩ := Option.bind_eq_some_iff.1 h
    cases h
    have hkey : k'.isJsonKey = true := by
      unfold isJsonKey at hk
      split at hk
      · cases hk'
        rfl
      · cases hk'
      · cases hk
    simp only [allJsonFields, hkey, isJson_settle hv hv', allJsonFields_settleFields hrest hes, Bool.and_self]

end

end Data

/-! ## What a tree stands for -/

namespace Json

/-- The text of a key, without quotes. -/
def keyText : Data → String
  | .text s => s
  | .integer i => Text.integer i
  | .double d => number d
  | .flag b => if b then "true" else "false"
  | .written source _ _ => source
  | _ => ""

mutual

/-- **What a tree stands for in JSON.** -/
def value : Data → Data
  | .null => .null
  | .flag b => .flag b
  | .integer i => .integer i
  | .double d => if d.isFinite then .double d else .null
  | .text s => .text s
  | .list items => .list (values items)
  | .record fields => .record (valueFields fields)
  | .written _ _ d => value d
  | .sequence items => .list (values items)
  | .unreadable => .null
  | .tagged tag d => .record [(.text tag, value d)]

/-- What the items of a list stand for. -/
def values : List Data → List Data
  | [] => []
  | d :: ds => value d :: values ds

/-- What the fields of a record stand for. -/
def valueFields : List (Data × Data) → List (Data × Data)
  | [] => []
  | (k, v) :: rest => (.text (keyText k), value v) :: valueFields rest

end

theorem values_eq_map (ds : List Data) : values ds = ds.map value := by
  induction ds with
  | nil => rfl
  | cons d ds ih => rw [values, ih, List.map_cons]

theorem valueFields_eq_map (fields : List (Data × Data)) :
    valueFields fields = fields.map (fun f => (.text (keyText f.1), value f.2)) := by
  induction fields with
  | nil => rfl
  | cons f fields ih => rw [valueFields, ih, List.map_cons]

theorem quote_keyText (k : Data) : quote (keyText k) = key k := by cases k <;> rfl

theorem number_value (d : Double) : compact (value (.double d)) = number d := by cases d <;> rfl

mutual

/-- **A tree and what it stands for have the same text.** -/
theorem compact_value : ∀ d : Data, compact (value d) = compact d
  | .null => rfl
  | .flag _ => rfl
  | .integer _ => rfl
  | .double d => number_value d
  | .text _ => rfl
  | .list items => by rw [value, compact, compact, compactItems_values]
  | .record fields => by rw [value, compact, compact, compactFields_valueFields]
  | .written _ _ d => compact_value d
  | .sequence items => by rw [value, compact, compact, compactItems_values]
  | .unreadable => rfl
  | .tagged tag d => by
    rw [value, compact, compact, compactFields, compactFields, compact_value d]
    simp only [key, Text.join, String.append_assoc]

theorem compactItems_values : ∀ ds : List Data, compactItems (values ds) = compactItems ds
  | [] => rfl
  | d :: ds => by rw [values, compactItems, compactItems, compact_value d, compactItems_values ds]

theorem compactFields_valueFields : ∀ fields : List (Data × Data),
    compactFields (valueFields fields) = compactFields fields
  | [] => rfl
  | (k, v) :: rest => by
    rw [valueFields, compactFields, compactFields, compact_value v, compactFields_valueFields rest, key,
      quote_keyText]

end

mutual

/-- They have the same text over several lines, too. -/
theorem prettyAt_value : ∀ (depth : Nat) (d : Data), prettyAt depth (value d) = prettyAt depth d
  | _, .null => rfl
  | _, .flag _ => rfl
  | _, .integer _ => rfl
  | _, .double d => by cases d <;> rfl
  | _, .text _ => rfl
  | depth, .list items => by rw [value, prettyAt, prettyAt, prettyItems_values]
  | depth, .record fields => by rw [value, prettyAt, prettyAt, prettyFields_valueFields]
  | depth, .written _ _ d => prettyAt_value depth d
  | depth, .sequence items => by rw [value, prettyAt, prettyAt, prettyItems_values]
  | _, .unreadable => rfl
  | depth, .tagged tag d => by
    rw [value, prettyAt, prettyAt, prettyFields, prettyFields, prettyAt_value (depth + 1) d, key]

theorem prettyItems_values : ∀ (depth : Nat) (ds : List Data), prettyItems depth (values ds) = prettyItems depth ds
  | _, [] => rfl
  | depth, d :: ds => by
    rw [values, prettyItems, prettyItems, prettyAt_value depth d, prettyItems_values depth ds]

theorem prettyFields_valueFields : ∀ (depth : Nat) (fields : List (Data × Data)),
    prettyFields depth (valueFields fields) = prettyFields depth fields
  | _, [] => rfl
  | depth, (k, v) :: rest => by
    rw [valueFields, prettyFields, prettyFields, prettyAt_value depth v, prettyFields_valueFields depth rest, key,
      quote_keyText]

end

theorem pretty_value (d : Data) : pretty (value d) = pretty d := prettyAt_value 0 d

mutual

/-- A tree is settled by what it stands for. -/
theorem settle_value : ∀ d : Data, (value d).settle = some (value d)
  | .null => rfl
  | .flag _ => rfl
  | .integer _ => rfl
  | .double d => by cases d <;> rfl
  | .text _ => rfl
  | .list items => by rw [value, Data.settle, settleItems_values]; rfl
  | .record fields => by rw [value, Data.settle, settleFields_valueFields]; rfl
  | .written _ _ d => settle_value d
  | .sequence items => by rw [value, Data.settle, settleItems_values]; rfl
  | .unreadable => rfl
  | .tagged tag d => by
    rw [value, Data.settle, Data.settleFields, settle_value d]
    rfl

theorem settleItems_values : ∀ ds : List Data, Data.settleItems (values ds) = some (values ds)
  | [] => rfl
  | d :: ds => by rw [values, Data.settleItems, settle_value d, settleItems_values ds]; rfl

theorem settleFields_valueFields : ∀ fields : List (Data × Data),
    Data.settleFields (valueFields fields) = some (valueFields fields)
  | [] => rfl
  | (k, v) :: rest => by
    rw [valueFields, Data.settleFields, settle_value v, settleFields_valueFields rest]
    rfl

end

end Json

end FeatureAlignment
