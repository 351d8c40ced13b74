import FeatureAlignment.Proofs.Literal
import FeatureAlignment.Proofs.Number.Shortest

/-!
# Doubles written and read

A double is written with digits around a point, or with an exponent. Digits around a point are read as the double
again: they are a numeral that rounds to it. A text with an exponent is not of the shape of a number, so it stays a
text.

* `Text.Denotes`: digits around a point; `Shortest.denotes_write`: digits are written so, or with an exponent.
* `Double.read_display`: a double written without an exponent is read as itself.
* `Literal.ofText_display_double`: the literal that is read from the text of a double.
-/

namespace FeatureAlignment

namespace Text

variable {xs ys whole fraction : List Char}

/-! ## Digits around a point -/

/-- **Digits around a point**, at least one on each side. -/
structure Pointed (whole fraction : List Char) : Prop where
  whole : whole ≠ [] ∧ ∀ c ∈ whole, c.isDigit = true
  fraction : fraction ≠ [] ∧ ∀ c ∈ fraction, c.isDigit = true

/-- The value of digits, as the standard library has it. -/
theorem valueOfDigits_eq (cs : List Char) : valueOfDigits cs = Nat.ofDigitChars 10 cs 0 := by
  simp only [valueOfDigits, Nat.ofDigitChars, Nat.mul_comm]

theorem valueOfDigits_append (xs ys : List Char) :
    valueOfDigits (xs ++ ys) = valueOfDigits xs * 10 ^ ys.length + valueOfDigits ys := by
  rw [valueOfDigits_eq, valueOfDigits_eq, valueOfDigits_eq, Nat.ofDigitChars_append,
    Nat.ofDigitChars_eq_ofDigitChars_zero, Nat.mul_comm]

theorem valueOfDigits_zeros (n : ℕ) : valueOfDigits (List.replicate n '0') = 0 := by
  rw [valueOfDigits_eq, Nat.ofDigitChars_replicate_zero, Nat.mul_zero]

theorem digits_zeros (n : ℕ) : ∀ c ∈ List.replicate n '0', c.isDigit = true := by
  intro c hc
  rw [List.eq_of_mem_replicate hc]
  rfl

/-- A zero alone. -/
theorem digits_zero : ['0'] ≠ [] ∧ ∀ c ∈ ['0'], c.isDigit = true :=
  ⟨List.cons_ne_nil _ _, List.forall_mem_singleton.2 rfl⟩

theorem digits_append (hx : ∀ c ∈ xs, c.isDigit = true) (hy : ∀ c ∈ ys, c.isDigit = true) :
    ∀ c ∈ xs ++ ys, c.isDigit = true := fun c hc => (List.mem_append.1 hc).elim (hx c) (hy c)

theorem not_digit_of_mem {c : Char} (hx : ∀ d ∈ xs, d.isDigit = true) (hc : c.isDigit = false) : c ∉ xs := by
  intro hmem
  rw [hx c hmem] at hc
  cases hc

/-- **Digits around a point that denote a number.** -/
def Denotes (cs : List Char) (x : ℚ) : Prop :=
  ∃ whole fraction, cs = whole ++ '.' :: fraction ∧ Pointed whole fraction ∧
    (⟨false, valueOfDigits (whole ++ fraction), -fraction.length⟩ : Numeral).magnitude = x

section Places

variable {ds : List Char} (hne : ds ≠ []) (hdigits : ∀ c ∈ ds, c.isDigit = true)

include hne hdigits

/-- The point is before all digits, and zeros behind it. -/
theorem denotes_before (n : ℕ) :
    Denotes ('0' :: '.' :: (List.replicate n '0' ++ ds)) (valueOfDigits ds * 10 ^ (-(n + ds.length : ℤ))) := by
  have hzero : valueOfDigits ['0'] = 0 := rfl
  refine ⟨['0'], List.replicate n '0' ++ ds, rfl, ⟨digits_zero, ?_, ?_⟩, ?_⟩
  · exact List.append_ne_nil_of_right_ne_nil _ hne
  · exact digits_append (digits_zeros n) hdigits
  · unfold Numeral.magnitude
    rw [valueOfDigits_append, valueOfDigits_append, valueOfDigits_zeros, hzero, Nat.zero_mul, Nat.zero_mul,
      Nat.zero_add, Nat.zero_add, List.length_append, List.length_replicate]
    push_cast
    rfl

/-- The point is behind all digits, and zeros before it. -/
theorem denotes_behind (n : ℕ) :
    Denotes (ds ++ List.replicate n '0' ++ ['.', '0']) (valueOfDigits ds * 10 ^ (n : ℤ)) := by
  have hzero : valueOfDigits ['0'] = 0 := rfl
  refine ⟨ds ++ List.replicate n '0', ['0'], rfl, ⟨⟨?_, ?_⟩, digits_zero⟩, ?_⟩
  · exact List.append_ne_nil_of_left_ne_nil hne _
  · exact digits_append hdigits (digits_zeros n)
  · unfold Numeral.magnitude
    rw [valueOfDigits_append, valueOfDigits_append, valueOfDigits_zeros, hzero, List.length_replicate]
    push_cast
    rw [zpow_natCast, List.length_singleton, pow_one, Nat.cast_one, zpow_neg_one, add_zero, add_zero, mul_assoc,
      mul_inv_cancel₀ (by norm_num), mul_one]

omit hne in
/-- The point is among the digits. -/
theorem denotes_among {n : ℕ} (hpos : 0 < n) (hless : n < ds.length) :
    Denotes (ds.take n ++ '.' :: ds.drop n) (valueOfDigits ds * 10 ^ (n - ds.length : ℤ)) := by
  refine ⟨ds.take n, ds.drop n, rfl, ⟨⟨fun hnil => ?_, ?_⟩, fun hnil => ?_, ?_⟩, ?_⟩
  · have hlength := congrArg List.length hnil
    rw [List.length_take, List.length_nil] at hlength
    omega
  · exact fun c hc => hdigits c (List.mem_of_mem_take hc)
  · have hlength := congrArg List.length hnil
    rw [List.length_drop, List.length_nil] at hlength
    omega
  · exact fun c hc => hdigits c (List.mem_of_mem_drop hc)
  · have hexponent : -((ds.length - n : ℕ) : ℤ) = n - ds.length := by omega
    show (valueOfDigits (ds.take n ++ ds.drop n) : ℚ) * 10 ^ (-((ds.drop n).length : ℤ)) = _
    rw [List.take_append_drop, List.length_drop, hexponent]

end Places

end Text

namespace Shortest

/-- **Digits are written around a point or with an exponent**, and around a point with their value. -/
theorem denotes_write (style : Style) (d : Digits) :
    'e' ∈ (write style d).toList ∨ Text.Denotes (write style d).toList d.value := by
  obtain ⟨hne, hdigits⟩ := Literal.toDigits_digits d.coefficient
  have hvalue := Text.valueOfDigits_toDigits d.coefficient
  have hd : d.value = Text.valueOfDigits (Nat.toDigits 10 d.coefficient) * 10 ^ d.exponent := by
    rw [hvalue]
    rfl
  rw [hd]
  unfold write
  simp only
  generalize Nat.toDigits 10 d.coefficient = ds at *
  split
  · right
    split
    · rename_i hpoint
      obtain ⟨n, hn⟩ := Int.eq_ofNat_of_zero_le (show 0 ≤ -((ds.length : ℤ) + d.exponent) by omega)
      have hbefore := Text.denotes_before hne hdigits n
      rw [hn, Int.toNat_natCast, show d.exponent = -(n + ds.length : ℤ) by omega]
      simp only [String.toList_append, Text.replicate, String.toList_ofList, List.append_assoc]
      exact hbefore
    · rename_i hpoint
      split
      · rename_i hbehind
        obtain ⟨n, hn⟩ := Int.eq_ofNat_of_zero_le (show 0 ≤ (ds.length : ℤ) + d.exponent - ds.length by omega)
        have hzeros := Text.denotes_behind hne hdigits n
        rw [hn, Int.toNat_natCast, show d.exponent = (n : ℤ) by omega]
        simp only [String.toList_append, Text.replicate, String.toList_ofList]
        exact hzeros
      · rename_i hamong
        obtain ⟨n, hn⟩ := Int.eq_ofNat_of_zero_le (show 0 ≤ (ds.length : ℤ) + d.exponent by omega)
        have hcut := Text.denotes_among hdigits (n := n) (by omega) (by omega)
        rw [hn, Int.toNat_natCast, show d.exponent = (n - ds.length : ℤ) by omega]
        simp only [String.toList_append, String.toList_ofList, List.append_assoc]
        exact hcut
  · left
    simp only [String.toList_append]
    simp

end Shortest

namespace Numeral

variable {whole fraction : List Char}

/-- **Digits around a point are read**, with a sign or without. -/
theorem read?_pointed (negative : Bool) (h : Text.Pointed whole fraction) :
    read? (Text.sign negative ++ (whole ++ '.' :: fraction)) =
      some ⟨negative, Text.valueOfDigits (whole ++ fraction), -fraction.length⟩ := by
  have hstop : Text.Stops Char.isDigit ('.' :: fraction) := by
    intro c hc
    cases hc
    rfl
  have hend : Text.Stops Char.isDigit [] := fun c hc => by cases hc
  have hunsigned : ∀ b, readUnsigned? b (whole ++ '.' :: fraction) =
      some ⟨b, Text.valueOfDigits (whole ++ fraction), -fraction.length⟩ := by
    intro b
    have htake := Text.takeWhile_span h.fraction.2 hend
    have hdrop := Text.dropWhile_span h.fraction.2 hend
    rw [List.append_nil] at htake hdrop
    have hempty : whole.isEmpty = false := by simpa using h.whole.1
    unfold readUnsigned?
    simp only [Text.takeWhile_span h.whole.2 hstop, Text.dropWhile_span h.whole.2 hstop, htake, hdrop, hempty,
      Bool.false_and, Bool.false_eq_true, if_false]
    unfold ofDigits readExponent?
    simp only [Option.bind_eq_bind, Option.bind_some, zero_sub]
  cases negative with
  | true => exact hunsigned true
  | false =>
    obtain ⟨c, cs, rfl⟩ := List.exists_cons_of_ne_nil h.whole.1
    have hdigit := h.whole.2 c List.mem_cons_self
    have hread : read? (c :: (cs ++ '.' :: fraction)) = readUnsigned? false (c :: (cs ++ '.' :: fraction)) := by
      unfold read?
      split
      · rename_i heq
        cases heq
        exact absurd hdigit (by decide)
      · rename_i heq
        cases heq
        exact absurd hdigit (by decide)
      · rfl
    exact hread.trans (hunsigned false)

end Numeral

namespace Double

variable {d : Double}

/-- A double is written with its sign first. -/
theorem toList_render (style : Shortest.Style) (negative : Bool) (m : ℕ) (e : ℤ) :
    (Shortest.render style negative m e).toList =
      Text.sign negative ++
        (if m = 0 then "0.0" else Shortest.write style (Shortest.digits style.tieUp m e)).toList := by
  unfold Shortest.render
  cases negative with
  | true => exact String.toList_append
  | false => rfl

/-- **A double that is written without an exponent is read as itself.** -/
theorem read_display (hd : d.Canonical) (hfinite : d.isFinite = true) :
    'e' ∈ d.display.toList ∨
      ∃ negative whole fraction, d.display.toList = Text.sign negative ++ (whole ++ '.' :: fraction) ∧
        Text.Pointed whole fraction ∧ (Numeral.read? d.display.toList).map ofNumeral = some d := by
  cases d with
  | nan => cases hfinite
  | infinite negative => cases hfinite
  | finite negative m e =>
    have hformat : InFormat m e := hd
    show _ ∈ (Shortest.render _ negative m e).toList ∨ _
    have htext := toList_render ⟨-3, true, false⟩ negative m e
    rcases Nat.eq_zero_or_pos m with rfl | hm
    · -- zero has the least exponent
      have he : e = -1074 := hformat.full.resolve_left (by decide)
      have hpointed : Text.Pointed ['0'] ['0'] := ⟨Text.digits_zero, Text.digits_zero⟩
      rw [if_pos rfl] at htext
      refine .inr ⟨negative, ['0'], ['0'], htext, hpointed, ?_⟩
      show (Numeral.read? (Shortest.render _ negative 0 e).toList).map ofNumeral = _
      rw [htext, he]
      exact congrArg (Option.map ofNumeral) (Numeral.read?_pointed negative hpointed)
    · obtain ⟨-, hrounds⟩ := Shortest.digits_rounds true hformat hm
      rw [if_neg hm.ne'] at htext
      rcases Shortest.denotes_write ⟨-3, true, false⟩ (Shortest.digits true m e) with
        hexponent | ⟨whole, fraction, hwritten, hpointed, hvalue⟩
      · left
        rw [htext]
        exact List.mem_append_right _ hexponent
      · rw [hwritten] at htext
        refine .inr ⟨negative, whole, fraction, htext, hpointed, ?_⟩
        show (Numeral.read? (Shortest.render _ negative m e).toList).map ofNumeral = _
        rw [htext, Numeral.read?_pointed negative hpointed, Option.map_some]
        rw [← hvalue] at hrounds
        have hread := ofNumeral_of_rounds (r := ⟨negative, Text.valueOfDigits (whole ++ fraction), -fraction.length⟩)
          hformat hm hrounds
        rw [hread]

end Double

namespace Literal

variable {whole fraction : List Char}

/-- Digits around a point have the shape of an unsigned number. -/
theorem isUnsignedShape_pointed (h : Text.Pointed whole fraction) :
    isUnsignedShape (whole ++ '.' :: fraction) = true := by
  have hpoint : ∀ {xs : List Char}, (∀ c ∈ xs, c.isDigit = true) → xs.filter (· == '.') = [] := by
    intro xs hxs
    refine List.filter_eq_nil_iff.2 fun c hc heq => ?_
    rw [eq_of_beq heq] at hc
    exact Text.not_digit_of_mem hxs rfl hc
  have hall : (whole ++ '.' :: fraction).all (fun c => c.isDigit || c == '.') = true := by
    refine List.all_eq_true.2 fun c hc => ?_
    rcases List.mem_append.1 hc with hc | hc
    · rw [h.whole.2 c hc, Bool.true_or]
    · rcases List.mem_cons.1 hc with rfl | hc
      · rfl
      · rw [h.fraction.2 c hc, Bool.true_or]
  have hone : (whole ++ '.' :: fraction).filter (· == '.') = ['.'] := by
    rw [List.filter_append, hpoint h.whole.2, List.filter_cons, if_pos (beq_self_eq_true _), hpoint h.fraction.2,
      List.nil_append]
  have hhead : (whole ++ '.' :: fraction).head? ≠ some '.' := by
    intro heq
    rw [List.head?_append_of_ne_nil _ h.whole.1] at heq
    exact Text.not_digit_of_mem h.whole.2 rfl (List.mem_of_head? heq)
  have hlast : (whole ++ '.' :: fraction).getLast? ≠ some '.' := by
    intro heq
    rw [List.getLast?_append_of_ne_nil _ (List.cons_ne_nil _ _), List.getLast?_cons_of_ne_nil h.fraction.1] at heq
    exact Text.not_digit_of_mem h.fraction.2 rfl (List.mem_of_getLast? heq)
  have hempty : (whole ++ '.' :: fraction).isEmpty = false := by
    cases whole <;> rfl
  have hhead' := bne_iff_ne.2 hhead
  have hlast' := bne_iff_ne.2 hlast
  unfold isUnsignedShape
  rw [hempty, hall, hone, hhead', hlast']
  rfl

/-- Digits around a point have the shape of a number, and not of an integer. -/
theorem shape_pointed (negative : Bool) (h : Text.Pointed whole fraction) :
    isNumberShape (Text.sign negative ++ (whole ++ '.' :: fraction)) = true ∧
      integer? (Text.sign negative ++ (whole ++ '.' :: fraction)) = none := by
  have hshape := isUnsignedShape_pointed h
  have hall : (whole ++ '.' :: fraction).all Char.isDigit = false := by
    rw [List.all_eq_false]
    exact ⟨'.', by simp, by decide⟩
  obtain ⟨c, cs, rfl⟩ := List.exists_cons_of_ne_nil h.whole.1
  cases negative with
  | true =>
    refine ⟨hshape, ?_⟩
    unfold integer?
    simp only [Text.sign, if_true, List.singleton_append, hall, Bool.not_false, Bool.or_true]
  | false =>
    have hdigit := h.whole.2 c List.mem_cons_self
    have hminus : c ≠ '-' := by
      rintro rfl
      exact absurd hdigit (by decide)
    constructor
    · show isNumberShape (c :: (cs ++ '.' :: fraction)) = true
      unfold isNumberShape
      split
      · rename_i heq
        cases heq
        exact absurd rfl hminus
      · exact hshape
    · show integer? (c :: (cs ++ '.' :: fraction)) = none
      unfold integer?
      have hcs : (c :: (cs ++ '.' :: fraction)).all Char.isDigit = false := hall
      split
      rename_i heq
      split at heq
      · rename_i hcons
        cases hcons
        exact absurd rfl hminus
      · cases heq
        rw [hcs]
        simp

/-- Text with a letter has not the shape of a number. -/
theorem isNumberShape_of_mem {cs : List Char} (h : 'e' ∈ cs) : isNumberShape cs = false := by
  have hunsigned : ∀ {xs : List Char}, 'e' ∈ xs → isUnsignedShape xs = false := by
    intro xs hxs
    have hall : xs.all (fun c => c.isDigit || c == '.') = false := by
      rw [List.all_eq_false]
      exact ⟨'e', hxs, by decide⟩
    unfold isUnsignedShape
    rw [hall]
    simp
  unfold isNumberShape
  split
  · rename_i xs
    exact hunsigned ((List.mem_cons.1 h).resolve_left (by decide))
  · exact hunsigned h

/-- **What is read from the text of a finite double**: the double, unless the text has an exponent; then the text. -/
theorem ofText_display_double {d : Double} (hd : d.Canonical) (hfinite : d.isFinite = true) :
    ofText d.display = if 'e' ∈ d.display.toList then .text d.display else .double d := by
  rcases Double.read_display hd hfinite with hexponent | ⟨negative, whole, fraction, htext, hpointed, hread⟩
  · rw [if_pos hexponent]
    unfold ofText
    rw [isNumberShape_of_mem hexponent, if_neg Bool.false_ne_true]
  · obtain ⟨hshape, hinteger⟩ := shape_pointed negative hpointed
    have hno : 'e' ∉ d.display.toList := by
      intro hmem
      rw [htext] at hmem
      rw [isNumberShape_of_mem hmem] at hshape
      cases hshape
    rw [← htext] at hshape hinteger
    rw [if_neg hno]
    simp only [ofText, hshape, hinteger, hread, Option.filter_none, Option.filter_some, beq_self_eq_true, if_true]

end Literal

end FeatureAlignment
