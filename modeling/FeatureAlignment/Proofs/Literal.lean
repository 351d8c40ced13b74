import FeatureAlignment.Literal
import FeatureAlignment.Proofs.Text

/-!
# Literals read from text

The text of an integer is read as this integer again.

* `Text.valueOfDigits_toDigits`: digits have the value of the number that they are the digits of.
* `Literal.integer?_integer`, `Literal.ofText_integer`: integers are read back.
-/

namespace FeatureAlignment

namespace Text

/-- **Digits have the value of their number.** -/
theorem valueOfDigits_toDigits (n : Nat) : valueOfDigits (Nat.toDigits 10 n) = n := by
  have hvalue : valueOfDigits (Nat.toDigits 10 n) = Nat.ofDigitChars 10 (Nat.toDigits 10 n) 0 := by
    simp only [valueOfDigits, Nat.ofDigitChars, Nat.mul_comm]
  rw [hvalue, Nat.ofDigitChars_ten_toDigits]

/-- The sign of a number, as it is written. -/
def sign (negative : Bool) : List Char := if negative then ['-'] else []

/-- An integer is written as its sign and its digits. -/
theorem toList_integer (i : Int) : (integer i).toList = sign (decide (i < 0)) ++ Nat.toDigits 10 i.natAbs := by
  cases i with
  | ofNat n => rw [integer, natural, String.toList_ofList]; rfl
  | negSucc n =>
    have hdigits : (natural (n + 1)).toList = Nat.toDigits 10 (n + 1) := String.toList_ofList
    rw [integer, String.toList_append, hdigits, decide_eq_true (Int.negSucc_lt_zero n)]
    rfl

end Text

namespace Literal

/-- The digits of a number are digits, and there are some. -/
theorem toDigits_digits (n : Nat) : Nat.toDigits 10 n ≠ [] ∧ ∀ c ∈ Nat.toDigits 10 n, c.isDigit = true :=
  ⟨by simp, fun _ hc => Nat.isDigit_of_mem_toDigits (by decide) (by decide) hc⟩

/-- Digits have the shape of an unsigned number. -/
theorem isUnsignedShape_digits {cs : List Char} (hne : cs ≠ []) (hcs : ∀ c ∈ cs, c.isDigit = true) :
    isUnsignedShape cs = true := by
  have hpoint : ∀ c ∈ cs, c ≠ '.' := by
    rintro c hc rfl
    exact absurd (hcs _ hc) (by decide)
  have hall : cs.all (fun c => c.isDigit || c == '.') = true :=
    List.all_eq_true.2 fun c hc => by rw [hcs c hc, Bool.true_or]
  have hnone : cs.filter (· == '.') = [] :=
    List.filter_eq_nil_iff.2 fun c hc => by simpa using hpoint c hc
  have hhead : cs.head? ≠ some '.' := fun h => hpoint _ (List.mem_of_head? h) rfl
  have hlast : cs.getLast? ≠ some '.' := fun h => hpoint _ (List.mem_of_getLast? h) rfl
  simp [isUnsignedShape, hne, hall, hnone, hhead, hlast]

variable {digits : List Char}

/-- Without a sign, digits are all there is. -/
theorem not_minus {c : Char} {cs rest : List Char} (hdigits : ∀ d ∈ c :: cs, d.isDigit = true) :
    c :: cs ≠ '-' :: rest := by
  rintro h
  cases h
  exact absurd (hdigits '-' List.mem_cons_self) (by decide)

/-- Digits have the shape of a number, with a sign or without. -/
theorem isNumberShape_digits (negative : Bool) (hne : digits ≠ []) (hdigits : ∀ c ∈ digits, c.isDigit = true) :
    isNumberShape (Text.sign negative ++ digits) = true := by
  have hshape := isUnsignedShape_digits hne hdigits
  cases negative with
  | true => exact hshape
  | false =>
    cases digits with
    | nil => exact absurd rfl hne
    | cons c cs =>
      show isNumberShape (c :: cs) = true
      unfold isNumberShape
      split
      · rename_i heq
        exact absurd heq (not_minus hdigits)
      · exact hshape

/-- **Digits are read as the integer that has their value**, with a sign or without. -/
theorem integer?_digits {negative : Bool} {i : Int64} (hne : digits ≠ []) (hdigits : ∀ c ∈ digits, c.isDigit = true)
    (hi : i.toInt = if negative then -(Text.valueOfDigits digits : Int) else Text.valueOfDigits digits) :
    integer? (Text.sign negative ++ digits) = some i := by
  have hempty : digits.isEmpty = false := by simpa using hne
  have hall : digits.all Char.isDigit = true := List.all_eq_true.2 hdigits
  have hrange : -Int.pow 2 63 ≤ i.toInt ∧ i.toInt < Int.pow 2 63 := ⟨i.le_toInt, i.toInt_lt⟩
  have hread : integer? (Text.sign negative ++ digits) =
      if digits.isEmpty || !digits.all Char.isDigit then none
      else if -Int.pow 2 63 ≤ i.toInt ∧ i.toInt < Int.pow 2 63 then some (.ofInt i.toInt) else none := by
    rw [hi]
    cases negative with
    | true => rfl
    | false =>
      cases digits with
      | nil => exact absurd rfl hne
      | cons c cs =>
        show integer? (c :: cs) = _
        unfold integer?
        split
        rename_i heq
        split at heq
        · rename_i hminus
          exact absurd hminus (not_minus hdigits)
        · cases heq
          rfl
  rw [hread, hempty, hall, if_pos hrange, Int64.ofInt_toInt]
  rfl

/-- **The text of an integer is read as this integer.** -/
theorem ofText_integer (i : Int64) : ofText (Text.integer i.toInt) = .integer i := by
  obtain ⟨hne, hdigits⟩ := toDigits_digits i.toInt.natAbs
  have hshape : isNumberShape (Text.integer i.toInt).toList = true := by
    rw [Text.toList_integer]
    exact isNumberShape_digits _ hne hdigits
  have hinteger : integer? (Text.integer i.toInt).toList = some i := by
    rw [Text.toList_integer]
    refine integer?_digits hne hdigits ?_
    rw [Text.valueOfDigits_toDigits]
    by_cases hi : i.toInt < 0
    · rw [decide_eq_true hi, if_pos rfl]
      omega
    · rw [decide_eq_false hi, if_neg Bool.false_ne_true]
      omega
  simp only [ofText, hshape, hinteger, Option.filter_some, beq_self_eq_true, if_true]

end Literal

end FeatureAlignment
