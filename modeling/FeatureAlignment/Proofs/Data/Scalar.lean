import Mathlib.Tactic.IntervalCases
import FeatureAlignment.Data.Yaml.Printer
import FeatureAlignment.Data.Yaml.Reader
import FeatureAlignment.Proofs.Literal
import FeatureAlignment.Proofs.Number.Rounding

/-!
# Scalars written and read

A scalar of YAML is read as what it was written for. An integer is written bare and read as this integer. A text is
written bare only if it does not look like something else, and is a text in quotes anyway.

* `Scalar.resolve_integer`: the value of a bare integer.
* `Yaml.scalarTree`, `Yaml.settle_scalarTree`: what an integer or a text is read as after it was written.
* `Yaml.canonical_scalar`: doubles that are read from scalars are numbers of the format.
-/

namespace FeatureAlignment

namespace Scalar

variable {cs : List Char}

/-! ## Integers -/

theorem digit?_of_isDigit {c : Char} (h : c.isDigit = true) : digit? 10 c = some (c.toNat - '0'.toNat) := by
  have hrange : c.toNat - '0'.toNat < 10 := by
    obtain ⟨-, hhigh⟩ := Text.digit_range h
    show c.toNat - 48 < 10
    omega
  unfold digit?
  rw [if_pos h]
  exact if_pos hrange

/-- Digits are read with their value. -/
theorem digits?_digits (hne : cs ≠ []) (h : ∀ c ∈ cs, c.isDigit = true) :
    digits? 10 cs = some (Text.valueOfDigits cs) := by
  have hfold : ∀ (cs : List Char) (n : ℕ), (∀ c ∈ cs, c.isDigit = true) →
      cs.foldl (fun n c => do some ((← n) * 10 + (← digit? 10 c))) (some n) =
        some (cs.foldl (fun n c => n * 10 + (c.toNat - '0'.toNat)) n) := by
    intro cs
    induction cs with
    | nil => exact fun _ _ => rfl
    | cons c cs ih =>
      intro n hcs
      obtain ⟨hc, hrest⟩ := List.forall_mem_cons.1 hcs
      rw [List.foldl_cons, List.foldl_cons, digit?_of_isDigit hc]
      exact ih _ hrest
  have hempty : cs.isEmpty = false := by simpa using hne
  unfold digits?
  rw [hempty, if_neg Bool.false_ne_true]
  exact hfold cs 0 h

/-- The first digit of a positive number is not zero. -/
theorem head?_toDigits {n : ℕ} (hn : 0 < n) : (Nat.toDigits 10 n).head? ≠ some '0' := by
  induction n using Nat.strongRecOn with
  | ind n ih =>
    by_cases hless : n < 10
    · rw [Nat.toDigits_of_lt_base hless]
      interval_cases n <;> decide
    · have hle : 10 ≤ n := not_lt.1 hless
      have hne : Nat.toDigits 10 (n / 10) ≠ [] := Nat.toDigits_ne_nil
      rw [Nat.toDigits_of_base_le (by decide) hle, List.head?_append_of_ne_nil _ hne]
      exact ih (n / 10) (Nat.div_lt_self hn (by decide)) (Nat.div_pos hle (by decide))

/-- The digits of a number have no superfluous zero. -/
theorem no_superfluous_zero (n : ℕ) (c : Char) (rest : List Char) : Nat.toDigits 10 n ≠ '0' :: c :: rest := by
  intro heq
  rcases Nat.eq_zero_or_pos n with rfl | hn
  · rw [Nat.toDigits_zero] at heq
    cases heq
  · exact head?_toDigits hn (by rw [heq]; rfl)

variable {n : ℕ}

/-- Digits begin with no sign. -/
theorem toDigits_ne_sign {c : Char} {rest : List Char} (hc : c.isDigit = false) : Nat.toDigits 10 n ≠ c :: rest := by
  intro heq
  have hdigit := (Literal.toDigits_digits n).2 c (by rw [heq]; exact List.mem_cons_self)
  rw [hdigit] at hc
  cases hc

/-- Digits carry no mark of a radix. -/
theorem marked?_toDigits (n : ℕ) : marked? (Nat.toDigits 10 n) = none := by
  unfold marked?
  split
  · rename_i heq
    exact absurd heq (no_superfluous_zero n _ _)
  · rename_i heq
    exact absurd heq (no_superfluous_zero n _ _)
  · rename_i heq
    exact absurd heq (no_superfluous_zero n _ _)
  · rfl

theorem isPadded_toDigits (n : ℕ) :
    isPadded (Nat.toDigits 10 n) = false ∧ isPadded ('-' :: Nat.toDigits 10 n) = false := by
  have hdrop : dropSign (Nat.toDigits 10 n) = Nat.toDigits 10 n := by
    unfold dropSign
    split
    · rename_i heq
      exact absurd heq (toDigits_ne_sign (by decide))
    · rename_i heq
      exact absurd heq (toDigits_ne_sign (by decide))
    · rfl
  constructor
  · unfold isPadded
    rw [hdrop]
    split
    · rename_i heq
      exact absurd heq (no_superfluous_zero n _ _)
    · rfl
  · unfold isPadded dropSign
    split
    · rename_i heq
      exact absurd heq (no_superfluous_zero n _ _)
    · rfl

/-- **The digits of a number are read as the number**, with a minus sign or without. -/
theorem integer?_toDigits (n : ℕ) :
    integer? (Nat.toDigits 10 n) = some (n : ℤ) ∧ integer? ('-' :: Nat.toDigits 10 n) = some (-(n : ℤ)) := by
  obtain ⟨hne, hdigits⟩ := Literal.toDigits_digits n
  obtain ⟨hpadded, -⟩ := isPadded_toDigits n
  have hread : digits? 10 (Nat.toDigits 10 n) = some n := by
    rw [digits?_digits hne hdigits, Text.valueOfDigits_toDigits]
  constructor
  · have hunsigned : unsigned? (Nat.toDigits 10 n) = some n := by
      unfold unsigned?
      split
      · rename_i heq
        exact absurd heq (toDigits_ne_sign (by decide))
      · simp only [marked?_toDigits, hpadded, hread, Bool.false_eq_true, if_false]
    unfold integer?
    rw [hunsigned]
  · have hunsigned : unsigned? ('-' :: Nat.toDigits 10 n) = none := by
      have hminus : digits? 10 ('-' :: Nat.toDigits 10 n) = none := by
        have hfold : ∀ cs : List Char,
            cs.foldl (fun n c => do some ((← n) * 10 + (← digit? 10 c))) (none : Option ℕ) = none := by
          intro cs
          induction cs with
          | nil => rfl
          | cons c cs ih => exact ih
        exact hfold _
      have hmark : marked? ('-' :: Nat.toDigits 10 n) = none := rfl
      unfold unsigned?
      split
      · rename_i heq
        cases heq
      · simp only [hmark, hminus, ite_self]
    have hnegative : negative? ('-' :: Nat.toDigits 10 n) = some n := by
      unfold negative?
      simp only [marked?_toDigits, hpadded, hread, Bool.false_eq_true, if_false]
    unfold integer?
    rw [hunsigned, hnegative]
    rfl

/-- **A bare integer of 64 bits is read as this integer.** -/
theorem resolve_integer (i : Int64) : resolve (Text.integer i.toInt) = .integer i.toInt := by
  have hlist := Text.toList_integer i.toInt
  obtain ⟨hne, hdigits⟩ := Literal.toDigits_digits i.toInt.natAbs
  have hlow : -Int.pow 2 63 ≤ i.toInt := i.le_toInt
  have hhigh : i.toInt < Int.pow 2 64 := i.toInt_lt.trans (by decide)
  have hnumber : number? (Text.integer i.toInt).toList = some (.integer i.toInt) := by
    have hinteger : integer? (Text.integer i.toInt).toList = some i.toInt := by
      obtain ⟨hplain, hsigned⟩ := integer?_toDigits i.toInt.natAbs
      rw [hlist]
      by_cases hi : i.toInt < 0
      · rw [decide_eq_true hi]
        exact hsigned.trans (congrArg some (by omega))
      · rw [decide_eq_false hi]
        exact hplain.trans (congrArg some (by omega))
    unfold number?
    rw [hinteger, Option.bind_some, ofInteger?, if_pos ⟨hlow, hhigh⟩]
  -- no word has a digit
  have hdigit : ∃ c ∈ (Text.integer i.toInt).toList, c.isDigit = true := by
    obtain ⟨c, cs, hcs⟩ := List.exists_cons_of_ne_nil hne
    have hmem : c ∈ Nat.toDigits 10 i.toInt.natAbs := by
      rw [hcs]
      exact List.mem_cons_self
    exact ⟨c, by rw [hlist]; exact List.mem_append_right _ hmem, hdigits c hmem⟩
  have hword : ∀ w : String, w.toList.all (fun c => !c.isDigit) = true → (Text.integer i.toInt == w) = false := by
    intro w hw
    refine beq_eq_false_iff_ne.2 fun heq => ?_
    obtain ⟨c, hc, hdigit⟩ := hdigit
    rw [heq] at hc
    have hno := List.all_eq_true.1 hw c hc
    rw [hdigit] at hno
    cases hno
  have hempty : (Text.integer i.toInt).isEmpty = false := by
    rw [Bool.eq_false_iff, ne_eq, String.isEmpty_iff]
    exact beq_eq_false_iff_ne.1 (hword "" rfl)
  unfold resolve isNull truth?
  simp only [hempty, hnumber, hword "null" rfl, hword "Null" rfl, hword "NULL" rfl, hword "~" rfl, hword "true" rfl,
    hword "True" rfl, hword "TRUE" rfl, hword "false" rfl, hword "False" rfl, hword "FALSE" rfl, Bool.or_self,
    Bool.false_eq_true, if_false, Option.getD_some]

/-- A bare text that does not look like something else is a text. -/
theorem resolve_of_not_looksTyped {s : String} (h : looksTyped s = false) : resolve s = .text s := by
  unfold looksTyped at h
  simp only [Bool.or_eq_false_iff] at h
  obtain ⟨⟨⟨⟨hempty, hnull⟩, htruth⟩, hnumber⟩, -⟩ := h
  unfold resolve
  rw [hempty, hnull, Option.not_isSome_iff_eq_none.1 (Bool.eq_false_iff.1 htruth),
    Option.not_isSome_iff_eq_none.1 (Bool.eq_false_iff.1 hnumber)]
  rfl

/-! ## Doubles -/

theorem canonical_float? {x : Double} (h : float? cs = some x) : x.Canonical := by
  unfold float? at h
  simp only at h
  split_ifs at h
  · cases h
    trivial
  · cases h
    trivial
  · cases h
    trivial
  · obtain ⟨r, -, h⟩ := Option.bind_eq_some_iff.1 h
    split at h
    · cases h
      exact Double.canonical_ofNumeral r
    · cases h

/-- A number that is read from a bare scalar and is a double is one of the format. -/
theorem canonical_number? {d : Data} {x : Double} (h : number? cs = some d) (hx : d.settle = some (.double x)) :
    x.Canonical := by
  unfold number? at h
  split at h
  · rename_i hinteger
    cases h
    obtain ⟨i, -, hinteger⟩ := Option.bind_eq_some_iff.1 hinteger
    unfold ofInteger? at hinteger
    split_ifs at hinteger
    · cases hinteger
      cases hx
    · cases hinteger
      cases hx
  · split at h
    · cases h
    · obtain ⟨y, hy, h⟩ := Option.map_eq_some_iff.1 h
      cases h
      cases hx
      exact canonical_float? hy

theorem canonical_resolve {s : String} {x : Double} (h : (resolve s).settle = some (.double x)) : x.Canonical := by
  unfold resolve at h
  split at h
  · cases h
  · split at h
    · cases h
    · cases hnumber : number? s.toList with
      | none =>
        rw [hnumber] at h
        cases h
      | some d =>
        rw [hnumber] at h
        exact canonical_number? hnumber h

end Scalar

namespace Yaml

/-! ## Scalars in a document -/

/-- **What an integer or a text is read as** after it was written as a scalar: the integer is bare, and the text if
this style was chosen for it. -/
def scalarTree : Data → Data
  | .integer i => Reading.scalar none (Text.integer i) true
  | .text s => Reading.scalar none s (style s == .bare)
  | d => d

theorem settle_scalarTree_integer (i : Int64) : (scalarTree (.integer i.toInt)).settle = some (.integer i.toInt) := by
  show (Scalar.resolve (Text.integer i.toInt)).settle = _
  rw [Scalar.resolve_integer]
  rfl

theorem settle_scalarTree_text (s : String) : (scalarTree (.text s)).settle = some (.text s) := by
  show (if (style s == .bare) = true then Scalar.resolve s else .text s).settle = _
  split
  · rename_i hbare
    have hlooks : Scalar.looksTyped s = false := by
      have hstyle := eq_of_beq hbare
      unfold style at hstyle
      simp only at hstyle
      split_ifs at hstyle with _ _ htyped
      · simpa using (Bool.and_eq_true_iff.1 htyped).1
    rw [Scalar.resolve_of_not_looksTyped hlooks]
    rfl
  · rfl

/-- A double read from a scalar with a tag is one of the format. -/
theorem canonical_tagged {name text : String} {x : Double}
    (h : (Reading.tagged name text).settle = some (.double x)) : x.Canonical := by
  unfold Reading.tagged at h
  simp only at h
  split_ifs at h
  · cases htruth : Scalar.truth? text <;> rw [htruth] at h <;> cases h
  · cases hinteger : (Scalar.integer? text.toList).bind Scalar.ofInteger? with
    | none =>
      rw [hinteger] at h
      cases h
    | some d =>
      obtain ⟨i, -, hd⟩ := Option.bind_eq_some_iff.1 hinteger
      rw [hinteger] at h
      unfold Scalar.ofInteger? at hd
      split_ifs at hd <;> cases hd <;> cases h
  · cases hfloat : Scalar.float? text.toList with
    | none =>
      rw [hfloat] at h
      cases h
    | some y =>
      rw [hfloat] at h
      cases h
      exact Scalar.canonical_float? hfloat
  · cases h
  · cases h
  · cases h

/-- **Doubles read from a scalar are numbers of the format.** -/
theorem canonical_scalar {tag : Option String} {text : String} {bare : Bool} {x : Double}
    (h : (Reading.scalar tag text bare).settle = some (.double x)) : x.Canonical := by
  have hplain : (Data.written text bare (if bare then Scalar.resolve text else .text text)).settle =
      some (.double x) → x.Canonical := by
    intro h
    cases bare with
    | true => exact Scalar.canonical_resolve h
    | false => cases h
  unfold Reading.scalar at h
  simp only at h
  split at h
  · exact hplain h
  · split at h
    · exact hplain h
    · split at h
      · cases h
      · exact canonical_tagged h

end Yaml

end FeatureAlignment
