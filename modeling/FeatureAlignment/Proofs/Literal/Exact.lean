import FeatureAlignment.Proofs.Alignment.Lookup

/-!
# Literals told by their text

A text is read as a number only if the number is written in exactly this way, so reading loses nothing. An integer is
read from its canonical decimal and from no other text, a double from its own text if this has no exponent, and all
other texts stay texts. So two texts are read as equal literals only if they are the same text, or both a zero with a
point: `0.0` and `-0.0` are equal as doubles.

* `Text.IsDecimal`: the canonical decimal of an integer; `Text.isDecimal_integer`: it is how the integer is written.
* `Text.NumberShaped`: an optional minus sign, then digits with at most one point strictly inside them;
  `Literal.isNumberShape_iff`: what is tested before a text is read as a number.
* `Literal.ofText_eq_integer_iff`, `Literal.ofText_eq_double_iff`: the texts that are read as a number.
* `Literal.beq_ofText_iff`: the texts that are read as equal literals.
* `Literal.ofText_exact`: all of this together.
-/

namespace FeatureAlignment

namespace Text

variable {cs ds : List Char} {s : String} {i : ℤ}

/-! ## Canonical decimals -/

/-- **A sign and digits that are canonical for an integer**: no digit is superfluous, and zero has no minus sign. -/
structure Decimal (negative : Bool) (ds : List Char) (i : ℤ) : Prop where
  digits : ds ≠ [] ∧ ∀ c ∈ ds, c.isDigit = true
  leading : ds.head? = some '0' → ds = ['0']
  unsigned : ds = ['0'] → negative = false
  value : i = if negative then -(valueOfDigits ds : ℤ) else valueOfDigits ds

/-- **The canonical decimal of an integer**: a minus sign or nothing, and the digits. A plus sign is not part of it. -/
def IsDecimal (cs : List Char) (i : ℤ) : Prop :=
  ∃ negative ds, cs = sign negative ++ ds ∧ Decimal negative ds i

/-- A digit is the digit of its value. -/
theorem toDigits_digit {c : Char} (h : c.isDigit = true) :
    valueOfDigits [c] < 10 ∧ Nat.toDigits 10 (valueOfDigits [c]) = [c] := by
  obtain ⟨hlow, hhigh⟩ := digit_range h
  have hvalue : valueOfDigits [c] = c.toNat - 48 := Nat.zero_add _
  have hless : c.toNat - 48 < 10 := by omega
  rw [hvalue, Nat.toDigits_of_lt_base hless]
  refine ⟨hless, congrArg (fun d => [d]) (Char.toNat_inj.1 ?_)⟩
  rw [Nat.toNat_digitChar_of_lt_ten hless]
  omega

/-- **Digits without a superfluous zero are the digits of their value.** -/
theorem toDigits_valueOfDigits (hne : ds ≠ []) (hdigits : ∀ c ∈ ds, c.isDigit = true)
    (hleading : ds.head? = some '0' → ds = ['0']) : Nat.toDigits 10 (valueOfDigits ds) = ds := by
  induction ds using List.reverseRecOn with
  | nil => exact absurd rfl hne
  | append_singleton ds c ih =>
    obtain ⟨hds, hc⟩ := List.forall_mem_append.1 hdigits
    obtain ⟨hless, hlast⟩ := toDigits_digit (hc c List.mem_cons_self)
    rcases eq_or_ne ds [] with rfl | hnil
    · exact hlast
    · -- the digits before the last one do not begin with a zero, so their value is positive
      have hfirst : ds.head? ≠ some '0' := by
        intro hzero
        have hone := hleading ((List.head?_append_of_ne_nil _ hnil).trans hzero)
        have hlength := congrArg List.length hone
        rw [List.length_append] at hlength
        exact hnil (List.length_eq_zero_iff.1 (Nat.succ.inj hlength))
      have hrest := ih hnil hds (fun h => absurd h hfirst)
      have hpos : 0 < valueOfDigits ds := by
        refine Nat.pos_of_ne_zero fun hzero => hfirst ?_
        rw [← hrest, hzero]
        rfl
      rw [valueOfDigits_append, List.length_singleton, pow_one, Nat.mul_comm,
        ← Nat.toDigits_append_toDigits (by decide) hpos hless, hrest, hlast]

/-- Only zero has the digits of zero. -/
theorem toDigits_eq_zero_iff {n : ℕ} : Nat.toDigits 10 n = ['0'] ↔ n = 0 := by
  constructor
  · intro h
    have hvalue := valueOfDigits_toDigits n
    rw [h] at hvalue
    exact hvalue.symm
  · rintro rfl
    exact Nat.toDigits_zero 10

/-- **A canonical decimal is how its integer is written.** -/
theorem Decimal.eq_integer {negative : Bool} (h : Decimal negative ds i) :
    sign negative ++ ds = (integer i).toList := by
  have hds := toDigits_valueOfDigits h.digits.1 h.digits.2 h.leading
  have hvalue := h.value
  have hi : i.natAbs = valueOfDigits ds ∧ decide (i < 0) = negative := by
    cases negative with
    | false =>
      rw [if_neg Bool.false_ne_true] at hvalue
      exact ⟨by omega, decide_eq_false (by omega)⟩
    | true =>
      have hne : valueOfDigits ds ≠ 0 := by
        intro hzero
        rw [toDigits_eq_zero_iff.2 hzero] at hds
        exact absurd (h.unsigned hds.symm) (by decide)
      rw [if_pos rfl] at hvalue
      exact ⟨by omega, decide_eq_true (by omega)⟩
  rw [toList_integer, hi.1, hi.2, hds]

/-- **An integer is written as its canonical decimal.** -/
theorem isDecimal_integer (i : ℤ) : IsDecimal (integer i).toList i := by
  refine ⟨_, _, toList_integer i, Literal.toDigits_digits _, fun hhead => ?_, fun hdigits => ?_, ?_⟩
  · refine toDigits_eq_zero_iff.2 ?_
    by_contra hi
    exact Scalar.head?_toDigits (Nat.pos_of_ne_zero hi) hhead
  · have hi : i = 0 := Int.natAbs_eq_zero.1 (toDigits_eq_zero_iff.1 hdigits)
    rw [hi]
    rfl
  · rw [valueOfDigits_toDigits]
    by_cases hi : i < 0
    · rw [decide_eq_true hi, if_pos rfl]
      omega
    · rw [decide_eq_false hi, if_neg Bool.false_ne_true]
      omega

theorem isDecimal_iff : IsDecimal s.toList i ↔ s = integer i := by
  constructor
  · rintro ⟨negative, ds, hs, h⟩
    exact String.toList_inj.1 (hs.trans h.eq_integer)
  · rintro rfl
    exact isDecimal_integer i

/-! ## The shape of a number -/

/-- **Digits with at most one point strictly inside them.** -/
inductive UnsignedShaped : List Char → Prop
  | digits {ds : List Char} (hne : ds ≠ []) (hdigits : ∀ c ∈ ds, c.isDigit = true) : UnsignedShaped ds
  | pointed {whole fraction : List Char} (h : Pointed whole fraction) : UnsignedShaped (whole ++ '.' :: fraction)

/-- **The shape of a number**: an optional minus sign, then digits with at most one point strictly inside them. -/
def NumberShaped (cs : List Char) : Prop := ∃ negative ds, cs = sign negative ++ ds ∧ UnsignedShaped ds

/-- Where all characters but points are digits, there are digits between the points. -/
theorem digits_of_not_mem (h : ∀ c ∈ cs, c.isDigit = true ∨ c = '.') (hpoint : '.' ∉ cs) :
    ∀ c ∈ cs, c.isDigit = true := by
  intro c hc
  refine (h c hc).resolve_right ?_
  rintro rfl
  exact hpoint hc

end Text

namespace Literal

open Text (IsDecimal NumberShaped UnsignedShaped)

variable {cs : List Char} {s : String} {i : Int64} {d : Double}

theorem isUnsignedShape_iff : isUnsignedShape cs = true ↔ UnsignedShaped cs := by
  constructor
  · intro h
    simp only [isUnsignedShape, Bool.and_eq_true, Bool.not_eq_true', List.isEmpty_eq_false_iff, List.all_eq_true,
      Bool.or_eq_true, beq_iff_eq, decide_eq_true_eq, bne_iff_ne, ne_eq] at h
    obtain ⟨⟨⟨⟨hne, hall⟩, hone⟩, hhead⟩, hlast⟩ := h
    by_cases hpoint : '.' ∈ cs
    · obtain ⟨whole, fraction, rfl⟩ := List.append_of_mem hpoint
      -- there is no second point, before this one or behind it
      have hcount : (whole ++ '.' :: fraction).count '.' ≤ 1 := by
        rw [List.count, List.countP_eq_length_filter]
        exact hone
      rw [List.count_append, List.count_cons_self] at hcount
      have hbefore : '.' ∉ whole := List.count_eq_zero.1 (by omega)
      have hafter : '.' ∉ fraction := List.count_eq_zero.1 (by omega)
      obtain ⟨hwhole, hbehind⟩ := List.forall_mem_append.1 hall
      refine .pointed ⟨⟨?_, Text.digits_of_not_mem hwhole hbefore⟩,
        ⟨?_, Text.digits_of_not_mem (List.forall_mem_cons.1 hbehind).2 hafter⟩⟩
      · rintro rfl
        exact hhead rfl
      · rintro rfl
        exact hlast List.getLast?_concat
    · exact .digits hne (Text.digits_of_not_mem hall hpoint)
  · rintro (⟨hne, hdigits⟩ | h)
    · exact isUnsignedShape_digits hne hdigits
    · exact isUnsignedShape_pointed h

/-- **What is tested before a text is read as a number** is the shape of a number. -/
theorem isNumberShape_iff : isNumberShape cs = true ↔ NumberShaped cs := by
  constructor
  · intro h
    unfold isNumberShape at h
    split at h
    · exact ⟨true, _, rfl, isUnsignedShape_iff.1 h⟩
    · exact ⟨false, _, rfl, isUnsignedShape_iff.1 h⟩
  · rintro ⟨negative, ds, rfl, ⟨hne, hdigits⟩ | h⟩
    · exact isNumberShape_digits negative hne hdigits
    · exact (shape_pointed negative h).1

/-! ## What is read -/

/-- Without the shape of a number, a text stays a text. -/
theorem ofText_of_not_numberShaped (h : ¬ NumberShaped s.toList) : ofText s = .text s := by
  unfold ofText
  rw [if_neg (mt isNumberShape_iff.1 h)]

/-- **An integer is read from its canonical decimal** and from no other text. -/
theorem ofText_eq_integer_iff : ofText s = .integer i ↔ IsDecimal s.toList i.toInt := by
  rw [Text.isDecimal_iff]
  constructor
  · intro h
    have hdisplay := display_ofText s
    rw [h] at hdisplay
    exact hdisplay.symm
  · rintro rfl
    exact ofText_integer i

/-- **A double is read from its text**, if this has no exponent, and from no other text. -/
theorem ofText_eq_double_iff :
    ofText s = .double d ↔ d.Canonical ∧ d.isFinite = true ∧ d.display = s ∧ 'e' ∉ s.toList := by
  constructor
  · intro h
    have hkey := isKey_ofText s
    have hdisplay := display_ofText s
    rw [h] at hkey hdisplay
    have hshape : isNumberShape s.toList = true := by
      rw [isNumberShape_iff]
      by_contra hno
      rw [ofText_of_not_numberShaped hno] at h
      cases h
    refine ⟨hkey, ?_, hdisplay, fun hmem => ?_⟩
    · -- what is not finite is written as a word
      rw [← hdisplay] at hshape
      cases d with
      | nan => exact absurd hshape (by decide)
      | infinite negative => cases negative <;> exact absurd hshape (by decide)
      | finite negative m e => rfl
    · rw [isNumberShape_of_mem hmem] at hshape
      cases hshape
  · rintro ⟨hcanonical, hfinite, rfl, hno⟩
    rw [ofText_display_double hcanonical hfinite, if_neg hno]

/-- **The integers of 64 bits**, from the least to the greatest, are all that is read as an integer. -/
theorem exists_ofText_eq_integer_iff :
    (∃ i, ofText s = .integer i) ↔ ∃ n, IsDecimal s.toList n ∧ -2 ^ 63 ≤ n ∧ n < 2 ^ 63 := by
  constructor
  · rintro ⟨i, hi⟩
    exact ⟨i.toInt, ofText_eq_integer_iff.1 hi, i.le_toInt, i.toInt_lt⟩
  · rintro ⟨n, hn, hlow, hhigh⟩
    refine ⟨.ofInt n, ofText_eq_integer_iff.2 ?_⟩
    rw [Int64.toInt_ofInt_of_le hlow hhigh]
    exact hn

end Literal

/-! ## Equal literals -/

namespace Double

variable {d e : Double}

/-- Only zero has no mantissa. -/
theorem eq_zero_of_canonical {negative : Bool} {x : ℤ} (h : (finite negative 0 x).Canonical) :
    finite negative 0 x = zero negative := by
  have hformat : InFormat 0 x := h
  rw [hformat.full.resolve_left (by decide)]
  rfl

/-- **Doubles of equal value** are the same, or both zero. -/
theorem beq_iff (hd : d.Canonical) (he : e.Canonical) (hfinite : d.isFinite = true) :
    (d == e) = true ↔ d = e ∨ ∃ b c, d = zero b ∧ e = zero c := by
  cases d with
  | nan => cases hfinite
  | infinite negative => cases hfinite
  | finite negative m x =>
    cases e with
    | nan => exact ⟨nofun, nofun⟩
    | infinite negative' => exact ⟨nofun, nofun⟩
    | finite negative' n y =>
      show (m == 0 && n == 0 || (negative == negative' && m == n && x == y)) = true ↔ _
      simp only [Bool.or_eq_true, Bool.and_eq_true, beq_iff_eq]
      constructor
      · rintro (⟨rfl, rfl⟩ | ⟨⟨rfl, rfl⟩, rfl⟩)
        · exact .inr ⟨_, _, eq_zero_of_canonical hd, eq_zero_of_canonical he⟩
        · exact .inl rfl
      · rintro (heq | ⟨b, c, hb, hc⟩)
        · cases heq
          exact .inr ⟨⟨rfl, rfl⟩, rfl⟩
        · cases hb
          cases hc
          exact .inl ⟨rfl, rfl⟩

end Double

namespace Literal

open Text (IsDecimal NumberShaped)

variable {s t : String} {k l : Literal}

/-- **Equal keys** are the same, or both zero. -/
theorem beq_iff (hk : k.IsKey) (hl : l.IsKey) (hfinite : k.isFinite = true) :
    (k == l) = true ↔ k = l ∨ ∃ b c, k = .double (.zero b) ∧ l = .double (.zero c) := by
  cases k with
  | integer i =>
    cases l with
    | integer j =>
      show (i == j) = true ↔ _
      simp
    | double e => exact ⟨nofun, nofun⟩
    | text t => exact ⟨nofun, nofun⟩
  | double d =>
    cases l with
    | integer j => exact ⟨nofun, nofun⟩
    | double e =>
      show (d == e) = true ↔ _
      rw [Double.beq_iff hk hl hfinite]
      simp
    | text t => exact ⟨nofun, nofun⟩
  | text s =>
    cases l with
    | integer j => exact ⟨nofun, nofun⟩
    | double e => exact ⟨nofun, nofun⟩
    | text t =>
      show (s == t) = true ↔ _
      simp

/-- What is read from a text is finite. -/
theorem isFinite_ofText (s : String) : (ofText s).isFinite = true := by
  cases h : ofText s with
  | integer i => rfl
  | double d => exact (ofText_eq_double_iff.1 h).2.1
  | text t => rfl

/-- **Different texts are read as different literals**, unless both are a zero with a point. -/
theorem beq_ofText_iff :
    (ofText s == ofText t) = true ↔ s = t ∨ ∃ b c, ofText s = .double (.zero b) ∧ ofText t = .double (.zero c) := by
  have hinjective : ofText s = ofText t ↔ s = t :=
    (Function.LeftInverse.injective display_ofText).eq_iff
  rw [beq_iff (isKey_ofText s) (isKey_ofText t) (isFinite_ofText s), hinjective]

/-- **Literals are read from texts exactly.** What is read is written as the text again. It is an integer just for the
canonical decimal of an integer of 64 bits, and a double just for the text of a finite double without an exponent. A
text without the shape of a number stays a text. Two texts are read as equal literals only if they are the same, or
both doubles with the value zero, with a sign or without. -/
theorem ofText_exact (s : String) :
    (ofText s).display = s ∧
      (∀ i, ofText s = .integer i ↔ IsDecimal s.toList i.toInt) ∧
      ((∃ i, ofText s = .integer i) ↔ ∃ n, IsDecimal s.toList n ∧ -2 ^ 63 ≤ n ∧ n < 2 ^ 63) ∧
      (∀ d, ofText s = .double d ↔ d.Canonical ∧ d.isFinite = true ∧ d.display = s ∧ 'e' ∉ s.toList) ∧
      (¬ NumberShaped s.toList → ofText s = .text s) ∧
      ∀ t, (ofText s == ofText t) = true ↔
        s = t ∨ ∃ b c, ofText s = .double (.zero b) ∧ ofText t = .double (.zero c) :=
  ⟨display_ofText s, fun _ => ofText_eq_integer_iff, exists_ofText_eq_integer_iff, fun _ => ofText_eq_double_iff,
    ofText_of_not_numberShaped, fun _ => beq_ofText_iff⟩

/-- A power of ten with an exponent has not the shape of a number, though it is how a double is written. -/
theorem power_stays_text : ¬ NumberShaped "1e16".toList ∧ ofText "1e16" = .text "1e16" := by
  have hshape : ¬ NumberShaped "1e16".toList := mt isNumberShape_iff.2 (by decide)
  exact ⟨hshape, (ofText_exact "1e16").2.2.2.2.1 hshape⟩

example : ofText "-9223372036854775808" = .integer Int64.minValue ∧
    ofText "9223372036854775808" = .text "9223372036854775808" ∧ ofText "-0" = .text "-0" := ⟨rfl, rfl, rfl⟩

example : (ofText "0.0" == ofText "-0.0") = true ∧ (ofText "2.5" == ofText "2.50") = false := ⟨rfl, rfl⟩

end Literal

end FeatureAlignment
