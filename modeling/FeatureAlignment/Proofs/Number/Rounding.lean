import Mathlib.Algebra.Order.Field.Power
import Mathlib.Algebra.Order.Ring.Rat
import Mathlib.Tactic.FieldSimp
import Mathlib.Tactic.Linarith
import Mathlib.Tactic.NormNum
import Mathlib.Tactic.Positivity
import Mathlib.Tactic.Ring
import FeatureAlignment.Number.Double

/-!
# What rounds to a double

A positive fraction is rounded to a number of the format, and to one of finite size just if it lies in the interval
around this number: half a unit of the last place to both sides, but a quarter below a power of two, where the
numbers of the format are twice as dense. The ends belong to the interval of an even mantissa.

* `Double.Canonical`: the numbers of the format; rounding gives no others (`canonical_ofNumeral`).
* `Double.Rounds`: the interval of a number.
* `Double.ofFraction_of_rounds`, `Double.ofNumeral_of_rounds`: a fraction or a numeral in the interval of a number is
  read as this number.
-/

namespace FeatureAlignment

namespace Double

/-- **A mantissa and an exponent of the format**: the mantissa has at most 53 bits, and all of them unless the
exponent is the least one. -/
structure InFormat (m : ℕ) (e : ℤ) : Prop where
  bits : m < 2 ^ 53
  least : -1074 ≤ e
  greatest : e ≤ 971
  full : 2 ^ 52 ≤ m ∨ e = -1074

/-- **A number of the format**, or an infinity, or not-a-number. -/
def Canonical : Double → Prop
  | .finite _ m e => InFormat m e
  | _ => True

/-! ## Integers nearest to a fraction -/

/-- **An integer nearest to a rational**: at most a half away, and less than a half if it is odd. -/
structure Nearest (n : ℕ) (y : ℚ) : Prop where
  low : (n : ℚ) - 1 / 2 ≤ y
  high : y ≤ n + 1 / 2
  odd : n % 2 = 1 → (n : ℚ) - 1 / 2 < y ∧ y < n + 1 / 2

variable {a b m n : ℕ} {e k : ℤ} {x y : ℚ}

theorem Nearest.le (h : Nearest m y) (h' : Nearest n y) : m ≤ n := by
  by_contra hlt
  have hstep : (n : ℚ) + 1 ≤ m := by exact_mod_cast Nat.lt_of_not_le hlt
  have hhigh := h'.high
  have hlow := h.low
  -- two neighbours at the same distance, of which one is odd
  have heq : m = n + 1 := by
    have hle : (m : ℚ) ≤ (n + 1 : ℕ) := by push_cast; linarith
    have hge : ((n + 1 : ℕ) : ℚ) ≤ m := by push_cast; exact hstep
    exact_mod_cast le_antisymm hle hge
  rcases Nat.mod_two_eq_zero_or_one n with hn | hn
  · have hodd := (h.odd (by omega)).1
    linarith
  · have hodd := (h'.odd hn).2
    linarith

/-- **There is one nearest integer.** -/
theorem Nearest.unique (h : Nearest m y) (h' : Nearest n y) : m = n := le_antisymm (h.le h') (h'.le h)

/-- A quotient is its integer part and a fraction behind it, of which the remainder tells how it compares to a half. -/
theorem div_eq_add (hb : 0 < b) (a : ℕ) :
    ∃ t : ℚ, (a : ℚ) / b = (a / b : ℕ) + t ∧ 0 ≤ t ∧ t < 1 ∧ (2 * (a % b) < b ↔ t < 1 / 2) ∧
      (b < 2 * (a % b) ↔ 1 / 2 < t) := by
  have hb' : (0 : ℚ) < b := by exact_mod_cast hb
  have hmod : a % b < b := Nat.mod_lt a hb
  refine ⟨((a % b : ℕ) : ℚ) / b, ?_, by positivity, ?_, ?_, ?_⟩
  · have hdiv : (a : ℚ) = b * (a / b : ℕ) + (a % b : ℕ) := by exact_mod_cast (Nat.div_add_mod a b).symm
    rw [div_eq_iff hb'.ne', add_mul, div_mul_cancel₀ _ hb'.ne', mul_comm]
    exact hdiv
  · rw [div_lt_one hb']
    exact_mod_cast hmod
  · rw [div_lt_iff₀ hb', ← Nat.cast_lt (α := ℚ)]
    push_cast
    constructor <;> intro h <;> linarith
  · rw [lt_div_iff₀ hb', ← Nat.cast_lt (α := ℚ)]
    push_cast
    constructor <;> intro h <;> linarith

/-- **Division to even gives the nearest integer.** -/
theorem nearest_divideToEven (hb : 0 < b) : Nearest (divideToEven a b) ((a : ℚ) / b) := by
  obtain ⟨t, hsplit, h0, h1, hless, hmore⟩ := div_eq_add hb a
  rw [hsplit]
  unfold divideToEven
  simp only
  split_ifs with hlow hhigh heven
  · have hbelow := hless.1 hlow
    exact ⟨by linarith, by linarith, fun _ => ⟨by linarith, by linarith⟩⟩
  · have habove := hmore.1 hhigh
    refine ⟨?_, ?_, fun _ => ⟨?_, ?_⟩⟩ <;> push_cast <;> linarith
  · have hhalf : t = 1 / 2 := le_antisymm (not_lt.1 (mt hmore.2 hhigh)) (not_lt.1 (mt hless.2 hlow))
    exact ⟨by linarith, by linarith, fun hodd => by omega⟩
  · have hhalf : t = 1 / 2 := le_antisymm (not_lt.1 (mt hmore.2 hhigh)) (not_lt.1 (mt hless.2 hlow))
    refine ⟨?_, ?_, fun hodd => by omega⟩ <;> push_cast <;> linarith

/-! ## Powers -/

/-- A power with a natural exponent, of a base above one. -/
theorem pow_toNat (c : ℕ) {k : ℤ} (hk : 0 ≤ k) : ((Nat.pow c k.toNat : ℕ) : ℚ) = (c : ℚ) ^ k := by
  obtain ⟨n, rfl⟩ := Int.eq_ofNat_of_zero_le hk
  rw [Int.toNat_natCast, Nat.pow_eq, zpow_natCast]
  push_cast
  rfl

/-- A power with a negative exponent. -/
theorem pow_neg_toNat (c : ℕ) {k : ℤ} (hk : k ≤ 0) : ((Nat.pow c (-k).toNat : ℕ) : ℚ) = ((c : ℚ) ^ k)⁻¹ := by
  rw [pow_toNat c (by omega), zpow_neg]

theorem two_zpow_pos (k : ℤ) : (0 : ℚ) < 2 ^ k := zpow_pos (by norm_num) k

theorem two_zpow_succ (k : ℤ) : (2 : ℚ) ^ (k + 1) = 2 * 2 ^ k := by
  rw [zpow_add_one₀ (by norm_num), mul_comm]

theorem two_zpow_add (k : ℤ) (n : ℕ) : (2 : ℚ) ^ (k + n) = 2 ^ n * 2 ^ k := by
  rw [zpow_add₀ (by norm_num), zpow_natCast, mul_comm]

theorem ten_zpow_pos (k : ℤ) : (0 : ℚ) < 10 ^ k := zpow_pos (by norm_num) k

/-- **The integer part of the logarithm.** -/
theorem log2Quotient_spec (ha : 0 < a) (hb : 0 < b) :
    (2 : ℚ) ^ log2Quotient a b ≤ (a : ℚ) / b ∧ (a : ℚ) / b < 2 ^ (log2Quotient a b + 1) := by
  have hb' : (0 : ℚ) < b := by exact_mod_cast hb
  have hbounds : ∀ n : ℕ, 0 < n → (2 : ℚ) ^ (Nat.log2 n : ℤ) ≤ n ∧ (n : ℚ) < 2 ^ (Nat.log2 n + 1 : ℤ) := by
    intro n hn
    have hlow := Nat.log2_self_le hn.ne'
    have hhigh : n < 2 ^ (Nat.log2 n + 1) := Nat.lt_log2_self
    constructor
    · exact_mod_cast hlow
    · exact_mod_cast hhigh
  obtain ⟨halow, hahigh⟩ := hbounds a ha
  obtain ⟨hblow, hbhigh⟩ := hbounds b hb
  obtain ⟨g, hg⟩ : ∃ g : ℤ, g = (Nat.log2 a : ℤ) - (Nat.log2 b : ℤ) := ⟨_, rfl⟩
  -- the guess is right, or one too great
  have habove : (a : ℚ) / b < 2 ^ (g + 1) := by
    rw [div_lt_iff₀ hb']
    calc (a : ℚ) < 2 ^ (Nat.log2 a + 1 : ℤ) := hahigh
      _ = 2 ^ (g + 1) * 2 ^ (Nat.log2 b : ℤ) := by rw [← zpow_add₀ (by norm_num)]; congr 1; omega
      _ ≤ 2 ^ (g + 1) * b := by gcongr
  have hbelow : (2 : ℚ) ^ (g - 1) ≤ (a : ℚ) / b := by
    rw [le_div_iff₀ hb']
    calc (2 : ℚ) ^ (g - 1) * b ≤ 2 ^ (g - 1) * 2 ^ (Nat.log2 b + 1 : ℤ) := by gcongr
      _ = 2 ^ (Nat.log2 a : ℤ) := by rw [← zpow_add₀ (by norm_num)]; congr 1; omega
      _ ≤ a := halow
  have hreached : (if g ≥ 0 then a ≥ b * Nat.pow 2 g.toNat else a * Nat.pow 2 (-g).toNat ≥ b) ↔
      (2 : ℚ) ^ g ≤ (a : ℚ) / b := by
    rw [le_div_iff₀ hb']
    split
    · rename_i hpos
      rw [ge_iff_le, ← Nat.cast_le (α := ℚ), Nat.cast_mul, pow_toNat 2 hpos, Nat.cast_ofNat, mul_comm]
    · rename_i hneg
      rw [ge_iff_le, ← Nat.cast_le (α := ℚ), Nat.cast_mul, pow_neg_toNat 2 (by omega), Nat.cast_ofNat,
        ← div_eq_mul_inv, le_div_iff₀ (two_zpow_pos g), mul_comm]
  unfold log2Quotient
  simp only
  rw [← hg]
  split_ifs with hsign hr hr
  · exact ⟨(hreached.1 (by rw [if_pos hsign]; exact hr)), habove⟩
  · refine ⟨hbelow, ?_⟩
    rw [sub_add_cancel]
    exact not_le.1 fun hle => hr (by have := hreached.2 hle; rwa [if_pos hsign] at this)
  · exact ⟨(hreached.1 (by rw [if_neg hsign]; exact hr)), habove⟩
  · refine ⟨hbelow, ?_⟩
    rw [sub_add_cancel]
    exact not_le.1 fun hle => hr (by have := hreached.2 hle; rwa [if_neg hsign] at this)

/-- Powers of two on both sides tell the logarithm. -/
theorem log2Quotient_eq (ha : 0 < a) (hb : 0 < b) (hlow : (2 : ℚ) ^ k ≤ (a : ℚ) / b)
    (hhigh : (a : ℚ) / b < 2 ^ (k + 1)) : log2Quotient a b = k := by
  obtain ⟨hl, hh⟩ := log2Quotient_spec ha hb
  have hle : k < log2Quotient a b + 1 := (zpow_lt_zpow_iff_right₀ (by norm_num)).1 (hlow.trans_lt hh)
  have hge : log2Quotient a b < k + 1 := (zpow_lt_zpow_iff_right₀ (by norm_num)).1 (hl.trans_lt hhigh)
  omega

/-! ## Rounding -/

/-- A fraction in units of a power of two, rounded to an integer. -/
def mantissaAt (a b : ℕ) (e : ℤ) : ℕ :=
  if e ≥ 0 then divideToEven a (b * Nat.pow 2 e.toNat) else divideToEven (a * Nat.pow 2 (-e).toNat) b

/-- The number with a mantissa, from which a bit is moved to the exponent if it has one more than the format. -/
def carried (negative : Bool) (m : ℕ) (e : ℤ) : Double :=
  let (m, e) := if m ≥ Nat.pow 2 53 then (m / 2, e + 1) else (m, e)
  if e > 971 then .infinite negative else .finite negative m e

/-- The exponent to which a fraction is rounded. -/
def exponentAt (a b : ℕ) : ℤ := max (log2Quotient a b - 52) (-1074)

theorem ofFraction_eq (negative : Bool) (a b : ℕ) :
    ofFraction negative a b = carried negative (mantissaAt a b (exponentAt a b)) (exponentAt a b) := rfl

theorem nearest_mantissaAt (hb : 0 < b) (e : ℤ) : Nearest (mantissaAt a b e) ((a : ℚ) / b / 2 ^ e) := by
  unfold mantissaAt
  split
  · rename_i hpos
    have hpow : 0 < b * Nat.pow 2 e.toNat := Nat.mul_pos hb (Nat.pow_pos (by decide))
    have hnear := nearest_divideToEven (a := a) hpow
    rw [Nat.cast_mul, pow_toNat 2 hpos, ← div_div] at hnear
    exact hnear
  · rename_i hneg
    have hnear := nearest_divideToEven (a := a * Nat.pow 2 (-e).toNat) hb
    rw [Nat.cast_mul, pow_neg_toNat 2 (by omega), mul_div_right_comm, ← div_eq_mul_inv] at hnear
    exact hnear

theorem carried_of_lt (negative : Bool) (hm : m < 2 ^ 53) (he : e ≤ 971) :
    carried negative m e = .finite negative m e := by
  unfold carried
  rw [if_neg (show ¬ m ≥ Nat.pow 2 53 from not_le.2 hm)]
  simp only
  rw [if_neg (not_lt.2 he)]

/-- Scaled by its exponent, a fraction has at most 53 bits before the point, and all of them unless the exponent is
the least one. -/
theorem scaled_bounds (ha : 0 < a) (hb : 0 < b) :
    (a : ℚ) / b / 2 ^ exponentAt a b < 2 ^ 53 ∧
      (2 ^ 52 ≤ (a : ℚ) / b / 2 ^ exponentAt a b ∨ exponentAt a b = -1074) := by
  obtain ⟨hlow, hhigh⟩ := log2Quotient_spec ha hb
  constructor
  · rw [div_lt_iff₀ (two_zpow_pos _), ← two_zpow_add]
    refine hhigh.trans_le (zpow_le_zpow_right₀ (by norm_num) ?_)
    unfold exponentAt
    push_cast
    omega
  · rcases le_or_gt (log2Quotient a b - 52) (-1074) with hleast | hmore
    · exact .inr (max_eq_right hleast)
    · left
      rw [le_div_iff₀ (two_zpow_pos _), ← two_zpow_add]
      refine le_trans (zpow_le_zpow_right₀ (by norm_num) ?_) hlow
      unfold exponentAt
      push_cast
      omega

/-- **Rounding gives numbers of the format.** -/
theorem canonical_ofFraction (negative : Bool) (ha : 0 < a) (hb : 0 < b) : (ofFraction negative a b).Canonical := by
  have hnear := nearest_mantissaAt (a := a) hb (exponentAt a b)
  obtain ⟨hbits, hfull⟩ := scaled_bounds ha hb
  have hleast : -1074 ≤ exponentAt a b := le_max_right _ _
  rw [ofFraction_eq]
  generalize exponentAt a b = e at *
  generalize mantissaAt a b e = m at *
  have hm : m ≤ 2 ^ 53 := by
    have hlow := hnear.low
    have hlt : (m : ℚ) < (2 ^ 53 + 1 : ℕ) := by push_cast; linarith
    have hlt' : m < 2 ^ 53 + 1 := by exact_mod_cast hlt
    omega
  have hfull' : 2 ^ 52 ≤ m ∨ e = -1074 := by
    refine hfull.imp (fun h => ?_) id
    have hhigh := hnear.high
    have hlt : ((2 ^ 52 : ℕ) : ℚ) < (m + 1 : ℕ) := by push_cast; linarith
    have hlt' : 2 ^ 52 < m + 1 := by exact_mod_cast hlt
    omega
  unfold carried
  by_cases hcarry : m ≥ Nat.pow 2 53
  · rw [if_pos hcarry]
    simp only
    split
    · trivial
    · rename_i hgreatest
      have hm' : m / 2 = 2 ^ 52 := by
        have heq : m = 2 ^ 53 := le_antisymm hm hcarry
        rw [heq]
        decide
      exact ⟨by rw [hm']; decide, by omega, by omega, .inl hm'.ge⟩
  · rw [if_neg hcarry]
    simp only
    split
    · trivial
    · exact ⟨not_le.1 hcarry, hleast, by omega, hfull'⟩

/-! ## Intervals -/

/-- How far below a number its interval begins, in units of the last place: a quarter for a power of two above the
least exponent, and otherwise a half. -/
def halfBelow (m : ℕ) (e : ℤ) : ℚ := if m = 2 ^ 52 ∧ -1074 < e then 1 / 4 else 1 / 2

theorem halfBelow_of_power (h : m = 2 ^ 52 ∧ -1074 < e) : halfBelow m e = 1 / 4 := if_pos h

theorem halfBelow_of_not (h : ¬ (m = 2 ^ 52 ∧ -1074 < e)) : halfBelow m e = 1 / 2 := if_neg h

theorem halfBelow_bounds (m : ℕ) (e : ℤ) : 1 / 4 ≤ halfBelow m e ∧ halfBelow m e ≤ 1 / 2 := by
  unfold halfBelow
  split <;> norm_num

/-- **The rationals that round to a number of the format**, from a half below it to a half above. The ends belong to
the interval of an even mantissa only. -/
structure Rounds (m : ℕ) (e : ℤ) (x : ℚ) : Prop where
  low : ((m : ℚ) - halfBelow m e) * 2 ^ e ≤ x
  high : x ≤ ((m : ℚ) + 1 / 2) * 2 ^ e
  odd : m % 2 = 1 → ((m : ℚ) - 1 / 2) * 2 ^ e < x ∧ x < ((m : ℚ) + 1 / 2) * 2 ^ e

/-- In units of its last place, the number is the nearest integer to all that rounds to it. -/
theorem Rounds.nearest (h : Rounds m e x) : Nearest m (x / 2 ^ e) := by
  refine ⟨?_, ?_, fun hodd => ⟨?_, ?_⟩⟩
  · rw [le_div_iff₀ (two_zpow_pos e)]
    have hhalf := (halfBelow_bounds m e).2
    exact le_trans (mul_le_mul_of_nonneg_right (by linarith) (two_zpow_pos e).le) h.low
  · rw [div_le_iff₀ (two_zpow_pos e)]
    exact h.high
  · rw [lt_div_iff₀ (two_zpow_pos e)]
    exact (h.odd hodd).1
  · rw [div_lt_iff₀ (two_zpow_pos e)]
    exact (h.odd hodd).2

theorem InFormat.cast_le (h : InFormat m e) : (m : ℚ) ≤ 2 ^ 53 - 1 := by
  have hle : ((m + 1 : ℕ) : ℚ) ≤ (2 ^ 53 : ℕ) := by exact_mod_cast h.bits
  push_cast at hle
  linarith

/-- What rounds to a number is less than the next power of two. -/
theorem Rounds.lt_power (hformat : InFormat m e) (h : Rounds m e x) : x < 2 ^ (e + 53) := by
  have hhigh := h.nearest.high
  have hle := hformat.cast_le
  have hpow : (2 : ℚ) ^ (e + 53) = 2 ^ 53 * 2 ^ e := two_zpow_add e 53
  rw [hpow, ← div_lt_iff₀ (two_zpow_pos e)]
  linarith

/-- At the exponent of the number, the fraction is rounded to its mantissa. -/
theorem ofFraction_of_exponentAt (negative : Bool) (hformat : InFormat m e) (hb : 0 < b)
    (h : Rounds m e ((a : ℚ) / b)) (hat : exponentAt a b = e) : ofFraction negative a b = .finite negative m e := by
  have hmantissa := (nearest_mantissaAt (a := a) hb e).unique h.nearest
  rw [ofFraction_eq, hat, hmantissa, carried_of_lt negative hformat.bits hformat.greatest]

/-- **Just below a power of two** the unit is half as great. The mantissa gets a bit more than the format has, and is
carried. -/
theorem ofFraction_below_power (negative : Bool) (habove : -1074 < e) (hgreatest : e ≤ 971) (ha : 0 < a) (hb : 0 < b)
    (h : Rounds (2 ^ 52) e ((a : ℚ) / b)) (hbelow : (a : ℚ) / b < 2 ^ (e + 52)) :
    ofFraction negative a b = .finite negative (2 ^ 52) e := by
  have hunit := two_zpow_pos e
  have hpow52 : (2 : ℚ) ^ (e + 52) = 2 ^ 52 * 2 ^ e := two_zpow_add e 52
  have hpow51 : (2 : ℚ) ^ (e + 51) = 2 ^ 51 * 2 ^ e := two_zpow_add e 51
  have hless : (a : ℚ) / b / 2 ^ e < 2 ^ 52 := by
    rw [div_lt_iff₀ hunit, ← hpow52]
    exact hbelow
  have hquarter : 2 ^ 52 - 1 / 4 ≤ (a : ℚ) / b / 2 ^ e := by
    have hlow := h.low
    rw [halfBelow_of_power ⟨rfl, habove⟩, ← le_div_iff₀ hunit] at hlow
    push_cast at hlow
    exact hlow
  have hlog : log2Quotient a b = e + 51 := by
    refine log2Quotient_eq ha hb ?_ ?_
    · rw [hpow51, ← le_div_iff₀ hunit]
      refine le_trans ?_ hquarter
      norm_num
    · rw [show e + 51 + 1 = e + 52 by ring]
      exact hbelow
  have hat : exponentAt a b = e - 1 := by
    unfold exponentAt
    omega
  have hcarried : mantissaAt a b (e - 1) = 2 ^ 53 := by
    have hhalf : (a : ℚ) / b / 2 ^ (e - 1) = 2 * ((a : ℚ) / b / 2 ^ e) := by
      rw [zpow_sub_one₀ (by norm_num)]
      field_simp
    refine (nearest_mantissaAt hb (e - 1)).unique ?_
    rw [hhalf]
    refine ⟨?_, ?_, fun hodd => absurd hodd (by decide)⟩ <;> push_cast <;> linarith
  rw [ofFraction_eq, hat, hcarried]
  unfold carried
  rw [if_pos (show 2 ^ 53 ≥ Nat.pow 2 53 from le_refl _)]
  simp only
  rw [sub_add_cancel, if_neg (not_lt.2 hgreatest)]
  rfl

/-- **A fraction in the interval of a number is rounded to this number.** -/
theorem ofFraction_of_rounds (negative : Bool) (hformat : InFormat m e) (ha : 0 < a) (hb : 0 < b)
    (h : Rounds m e ((a : ℚ) / b)) : ofFraction negative a b = .finite negative m e := by
  have hbelow := h.lt_power hformat
  by_cases hleast : e = -1074
  · -- the exponent cannot be less
    refine ofFraction_of_exponentAt negative hformat hb h ?_
    obtain ⟨hlow, -⟩ := log2Quotient_spec ha hb
    have hlt : log2Quotient a b < e + 53 := (zpow_lt_zpow_iff_right₀ (by norm_num)).1 (hlow.trans_lt hbelow)
    unfold exponentAt
    omega
  · have hfull : 2 ^ 52 ≤ m := hformat.full.resolve_right hleast
    have habove : -1074 < e := lt_of_le_of_ne hformat.least (Ne.symm hleast)
    by_cases hreached : (2 : ℚ) ^ (e + 52) ≤ (a : ℚ) / b
    · refine ofFraction_of_exponentAt negative hformat hb h ?_
      have hlog : log2Quotient a b = e + 52 := log2Quotient_eq ha hb hreached (by
        rw [show e + 52 + 1 = e + 53 by ring]
        exact hbelow)
      unfold exponentAt
      omega
    · -- only the interval of a power of two goes below this power
      have hpower : m = 2 ^ 52 := by
        have hpow : (2 : ℚ) ^ (e + 52) = 2 ^ 52 * 2 ^ e := two_zpow_add e 52
        have hless := not_le.1 hreached
        rw [hpow, ← div_lt_iff₀ (two_zpow_pos e)] at hless
        have hlow := h.nearest.low
        have hlt : (m : ℚ) < (2 ^ 52 + 1 : ℕ) := by push_cast; linarith
        have hlt' : m < 2 ^ 52 + 1 := by exact_mod_cast hlt
        omega
      subst hpower
      exact ofFraction_below_power negative habove hformat.greatest ha hb h (not_le.1 hreached)

/-! ## Numerals -/

/-- A number is between the powers of ten that its digits tell. -/
theorem digits_bounds (hn : 0 < n) :
    (10 : ℚ) ^ ((Nat.toDigits 10 n).length - 1 : ℤ) ≤ n ∧ (n : ℚ) < 10 ^ ((Nat.toDigits 10 n).length : ℤ) := by
  have hpos : 0 < (Nat.toDigits 10 n).length := Nat.length_toDigits_pos
  have hhigh : n < 10 ^ (Nat.toDigits 10 n).length := (Nat.length_toDigits_le_iff (by decide) hpos).1 le_rfl
  have hlow : 10 ^ ((Nat.toDigits 10 n).length - 1) ≤ n := by
    by_contra hlt
    rcases Nat.eq_zero_or_pos ((Nat.toDigits 10 n).length - 1) with hzero | hmore
    · rw [hzero] at hlt
      omega
    · have hle := (Nat.length_toDigits_le_iff (b := 10) (by decide) hmore).2 (not_le.1 hlt)
      omega
  constructor
  · rw [show ((Nat.toDigits 10 n).length - 1 : ℤ) = ((Nat.toDigits 10 n).length - 1 : ℕ) by omega, zpow_natCast]
    exact_mod_cast hlow
  · rw [zpow_natCast]
    exact_mod_cast hhigh

end Double

/-- **What a numeral denotes**, without its sign. -/
def Numeral.magnitude (n : Numeral) : ℚ := n.coefficient * 10 ^ n.exponent

namespace Double

/-- The position of the point of a numeral: how many digits are before it. -/
def pointOf (n : Numeral) : ℤ := (Nat.toDigits 10 n.coefficient).length + n.exponent

variable {r : Numeral}

/-- A numeral is between the powers of ten that the position of its point tells. -/
theorem pointOf_bounds (hr : 0 < r.coefficient) :
    (10 : ℚ) ^ (pointOf r - 1) ≤ r.magnitude ∧ r.magnitude < 10 ^ pointOf r := by
  obtain ⟨hlow, hhigh⟩ := digits_bounds hr
  unfold Numeral.magnitude pointOf
  have hexponent := ten_zpow_pos r.exponent
  constructor
  · rw [show ((Nat.toDigits 10 r.coefficient).length + r.exponent - 1 : ℤ) =
      ((Nat.toDigits 10 r.coefficient).length - 1 : ℤ) + r.exponent by ring, zpow_add₀ (by norm_num)]
    exact mul_le_mul_of_nonneg_right hlow hexponent.le
  · rw [zpow_add₀ (by norm_num)]
    exact mul_lt_mul_of_pos_right hhigh hexponent

/-- The fraction as which a numeral is rounded. -/
theorem ofNumeral_inRange (hr : 0 < r.coefficient) (hlow : -340 ≤ pointOf r) (hhigh : pointOf r ≤ 320) :
    ∃ a b : ℕ, 0 < a ∧ 0 < b ∧ r.magnitude = (a : ℚ) / b ∧ ofNumeral r = ofFraction r.negative a b := by
  unfold pointOf at hlow hhigh
  unfold ofNumeral
  simp only
  rw [if_neg hr.ne', if_neg (not_lt.2 hhigh), if_neg (not_lt.2 hlow)]
  split
  · rename_i hpos
    refine ⟨r.coefficient * Nat.pow 10 r.exponent.toNat, 1, Nat.mul_pos hr (Nat.pow_pos (by decide)), Nat.one_pos,
      ?_, rfl⟩
    rw [Nat.cast_mul, pow_toNat 10 hpos, Nat.cast_one, div_one]
    rfl
  · rename_i hneg
    refine ⟨r.coefficient, Nat.pow 10 (-r.exponent).toNat, hr, Nat.pow_pos (by decide), ?_, rfl⟩
    rw [pow_neg_toNat 10 (by omega), div_inv_eq_mul]
    rfl

/-- **Numerals are read as numbers of the format.** -/
theorem canonical_ofNumeral (r : Numeral) : (ofNumeral r).Canonical := by
  have hzero : ∀ negative, (zero negative).Canonical := fun _ => ⟨by decide, by decide, by decide, .inr rfl⟩
  rcases Nat.eq_zero_or_pos r.coefficient with hr | hr
  · unfold ofNumeral
    rw [if_pos hr]
    exact hzero _
  · by_cases hhigh : pointOf r ≤ 320
    · by_cases hlow : -340 ≤ pointOf r
      · obtain ⟨a, b, ha, hb, -, heq⟩ := ofNumeral_inRange hr hlow hhigh
        rw [heq]
        exact canonical_ofFraction _ ha hb
      · unfold pointOf at hlow
        unfold ofNumeral
        simp only
        rw [if_neg hr.ne', if_neg (by omega), if_pos (not_le.1 hlow)]
        exact hzero _
    · unfold pointOf at hhigh
      unfold ofNumeral
      simp only
      rw [if_neg hr.ne', if_pos (not_le.1 hhigh)]
      trivial

/-- What rounds to a positive number is within the range of the format. -/
theorem Rounds.inRange (hformat : InFormat m e) (hm : 0 < m) (h : Rounds m e x) :
    (2 : ℚ) ^ (-1075 : ℤ) ≤ x ∧ x ≤ 2 ^ (1024 : ℤ) := by
  have hm1 : (1 : ℚ) ≤ m := by exact_mod_cast hm
  have hlow := h.nearest.low
  have hunit := two_zpow_pos e
  constructor
  · calc (2 : ℚ) ^ (-1075 : ℤ) = 1 / 2 * 2 ^ (-1074 : ℤ) := by
          rw [show (-1074 : ℤ) = -1075 + 1 by norm_num, two_zpow_succ]
          ring
      _ ≤ 1 / 2 * 2 ^ e := by gcongr; exacts [by norm_num, hformat.least]
      _ ≤ x / 2 ^ e * 2 ^ e := mul_le_mul_of_nonneg_right (by linarith) hunit.le
      _ = x := div_mul_cancel₀ _ hunit.ne'
  · calc x ≤ 2 ^ (e + 53) := (h.lt_power hformat).le
      _ ≤ 2 ^ (1024 : ℤ) := zpow_le_zpow_right₀ (by norm_num) (by have := hformat.greatest; omega)

/-- So the position of the point is in the range that is not settled beforehand. -/
theorem pointOf_inRange (hr : 0 < r.coefficient) (hlow : (2 : ℚ) ^ (-1075 : ℤ) ≤ r.magnitude)
    (hhigh : r.magnitude ≤ 2 ^ (1024 : ℤ)) : -340 ≤ pointOf r ∧ pointOf r ≤ 320 := by
  obtain ⟨hfrom, hto⟩ := pointOf_bounds hr
  constructor
  · have hlt : (10 : ℚ) ^ (-341 : ℤ) < 10 ^ pointOf r := by
      refine lt_of_lt_of_le ?_ (hlow.trans hto.le)
      have hpow : (2 : ℚ) ^ (1075 : ℤ) < 10 ^ (341 : ℤ) := by
        exact_mod_cast (by decide +kernel : 2 ^ 1075 < 10 ^ 341)
      rw [zpow_neg, zpow_neg]
      exact inv_strictAnti₀ (two_zpow_pos _) hpow
    have := (zpow_lt_zpow_iff_right₀ (by norm_num)).1 hlt
    omega
  · have hlt : (10 : ℚ) ^ (pointOf r - 1) < 10 ^ (320 : ℤ) := by
      refine (hfrom.trans hhigh).trans_lt ?_
      exact_mod_cast (by decide +kernel : 2 ^ 1024 < 10 ^ 320)
    have := (zpow_lt_zpow_iff_right₀ (by norm_num)).1 hlt
    omega

/-- **A numeral in the interval of a number is read as this number.** -/
theorem ofNumeral_of_rounds (hformat : InFormat m e) (hm : 0 < m) (h : Rounds m e r.magnitude) :
    ofNumeral r = .finite r.negative m e := by
  obtain ⟨hlow, hhigh⟩ := h.inRange hformat hm
  have hpos : 0 < r.coefficient := by
    rcases Nat.eq_zero_or_pos r.coefficient with hzero | hpos
    · unfold Numeral.magnitude at hlow
      rw [hzero, Nat.cast_zero, zero_mul] at hlow
      exact absurd hlow (not_le.2 (two_zpow_pos _))
    · exact hpos
  obtain ⟨hfrom, hto⟩ := pointOf_inRange hpos hlow hhigh
  obtain ⟨a, b, ha, hb, hvalue, heq⟩ := ofNumeral_inRange hpos hfrom hto
  rw [hvalue] at h
  rw [heq, ofFraction_of_rounds r.negative hformat ha hb h]

end Double

end FeatureAlignment
