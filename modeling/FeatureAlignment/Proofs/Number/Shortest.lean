import Mathlib.Data.Nat.Cast.Order.Field
import FeatureAlignment.Number.Shortest
import FeatureAlignment.Proofs.Number.Rounding

/-!
# The shortest digits read back

The digits of a double are looked for on grids of powers of ten, each finer than the one before. What is found is in
the interval of the double. At the latest it is found with seventeen digits: the grid is finer there than the
interval is wide, so one of the two neighbours of the double is in it.

* `Shortest.Interval.contains_of_onGrid?`: what is found is in the interval.
* `Shortest.exists_onGrid?`: on a grid of seventeen digits something is found.
* `Shortest.digits_rounds`: the digits of a double are not zero and round to it.
-/

namespace FeatureAlignment

namespace Shortest

open Double (InFormat Rounds halfBelow halfBelow_of_power halfBelow_of_not halfBelow_bounds pow_toNat pow_neg_toNat
  two_zpow_pos two_zpow_succ ten_zpow_pos digits_bounds)

/-- **What digits denote.** -/
def Digits.value (d : Digits) : ℚ := d.coefficient * 10 ^ d.exponent

/-! ## Grids -/

/-- The numerator of a power of ten. -/
def up (k : ℤ) : ℕ := if k ≥ 0 then Nat.pow 10 k.toNat else 1

/-- The denominator of a power of ten. -/
def down (k : ℤ) : ℕ := if k ≥ 0 then 1 else Nat.pow 10 (-k).toNat

variable {a b c m : ℕ} {e k : ℤ} {x : ℚ} {i : Interval} {tieUp : Bool}

theorem up_pos (k : ℤ) : 0 < up k := by
  unfold up
  split
  · exact Nat.pow_pos (by decide)
  · decide

theorem down_pos (k : ℤ) : 0 < down k := by
  unfold down
  split
  · decide
  · exact Nat.pow_pos (by decide)

/-- A power of ten as a fraction. -/
theorem up_div_down (k : ℤ) : (up k : ℚ) / down k = 10 ^ k := by
  unfold up down
  split
  · rename_i hpos
    rw [pow_toNat 10 hpos, Nat.cast_one, div_one, Nat.cast_ofNat]
  · rename_i hneg
    rw [pow_neg_toNat 10 (by omega), Nat.cast_one, one_div, inv_inv, Nat.cast_ofNat]

namespace Interval

/-- What the bounds of an interval count. -/
def unit (i : Interval) : ℚ := (i.num : ℚ) / i.den

/-- **The rationals in an interval.** -/
structure Contains (i : Interval) (x : ℚ) : Prop where
  low : i.low * i.unit ≤ x
  high : x ≤ i.high * i.unit
  inner : i.closed = false → i.low * i.unit < x ∧ x < i.high * i.unit

theorem holds_iff (hden : 0 < i.den) (hb : 0 < b) : i.holds a b = true ↔ i.Contains ((a : ℚ) / b) := by
  have hden' : (0 : ℚ) < i.den := by exact_mod_cast hden
  have hb' : (0 : ℚ) < b := by exact_mod_cast hb
  have hle : ∀ n, n * (b * i.num) ≤ a * i.den ↔ (n : ℚ) * i.unit ≤ (a : ℚ) / b := by
    intro n
    unfold unit
    rw [← mul_div_assoc, div_le_div_iff₀ hden' hb', ← Nat.cast_le (α := ℚ)]
    push_cast
    rw [show (n : ℚ) * (b * i.num) = n * i.num * b by ring]
  have hge : ∀ n, a * i.den ≤ n * (b * i.num) ↔ (a : ℚ) / b ≤ (n : ℚ) * i.unit := by
    intro n
    unfold unit
    rw [← mul_div_assoc, div_le_div_iff₀ hb' hden', ← Nat.cast_le (α := ℚ)]
    push_cast
    rw [show (n : ℚ) * (b * i.num) = n * i.num * b by ring]
  have hlt : ∀ n, n * (b * i.num) < a * i.den ↔ (n : ℚ) * i.unit < (a : ℚ) / b := by
    intro n
    rw [← not_le, ← not_le, hge]
  have hgt : ∀ n, a * i.den < n * (b * i.num) ↔ (a : ℚ) / b < (n : ℚ) * i.unit := by
    intro n
    rw [← not_le, ← not_le, hle]
  unfold holds
  cases hclosed : i.closed with
  | true =>
    simp only [if_true, Bool.and_eq_true, decide_eq_true_eq, hle, hge]
    exact ⟨fun h => ⟨h.1, h.2, fun hno => by rw [hclosed] at hno; cases hno⟩, fun h => ⟨h.low, h.high⟩⟩
  | false =>
    simp only [Bool.false_eq_true, if_false, Bool.and_eq_true, decide_eq_true_eq, hlt, hgt]
    exact ⟨fun h => ⟨h.1.le, h.2.le, fun _ => h⟩, fun h => h.inner hclosed⟩

theorem holds_grid (hden : 0 < i.den) : i.holds (c * up k) (down k) = true ↔ i.Contains (c * 10 ^ k) := by
  rw [holds_iff hden (down_pos k), Nat.cast_mul, mul_div_assoc, up_div_down]

/-- The lower one of the two neighbours of the value on a grid. -/
def below (i : Interval) (k : ℤ) : ℕ := i.value * i.num * down k / (i.den * up k)

/-- **The neighbours of the value** are around it. -/
theorem below_spec (hden : 0 < i.den) (k : ℤ) :
    (i.below k : ℚ) * 10 ^ k ≤ i.value * i.unit ∧ (i.value : ℚ) * i.unit < (i.below k + 1) * 10 ^ k := by
  have hgrid : (0 : ℚ) < (i.den * up k : ℕ) := by exact_mod_cast Nat.mul_pos hden (up_pos k)
  have hquotient : (i.value : ℚ) * i.unit / 10 ^ k = (i.value * i.num * down k : ℕ) / (i.den * up k : ℕ) := by
    unfold unit
    have hup : (up k : ℚ) ≠ 0 := by exact_mod_cast (up_pos k).ne'
    have hdown : (down k : ℚ) ≠ 0 := by exact_mod_cast (down_pos k).ne'
    have hden' : (i.den : ℚ) ≠ 0 := by exact_mod_cast hden.ne'
    rw [← up_div_down]
    push_cast
    field_simp
  constructor
  · rw [← le_div_iff₀ (ten_zpow_pos k), hquotient]
    exact Nat.cast_div_le
  · rw [← div_lt_iff₀ (ten_zpow_pos k), hquotient, div_lt_iff₀ hgrid]
    have hlt : i.value * i.num * down k < (i.below k + 1) * (i.den * up k) :=
      Nat.lt_mul_of_div_lt (Nat.lt_succ_self _) (Nat.mul_pos hden (up_pos k))
    exact_mod_cast hlt

theorem onGrid?_eq (i : Interval) (tieUp : Bool) (k : ℤ) :
    i.onGrid? tieUp k =
      match i.holds (i.below k * up k) (down k), i.holds ((i.below k + 1) * up k) (down k) with
      | true, true =>
        let twice := 2 * (i.value * i.num * down k % (i.den * up k))
        if twice < i.den * up k then some (i.below k)
        else if twice > i.den * up k then some (i.below k + 1)
        else if tieUp || i.below k % 2 == 1 then some (i.below k + 1)
        else some (i.below k)
      | true, false => some (i.below k)
      | false, true => some (i.below k + 1)
      | false, false => none := rfl

/-- **What is found on a grid** is in the interval, and is one of the neighbours of the value. -/
theorem contains_of_onGrid? (hden : 0 < i.den) (h : i.onGrid? tieUp k = some c) :
    i.Contains (c * 10 ^ k) ∧ (c = i.below k ∨ c = i.below k + 1) := by
  rw [onGrid?_eq] at h
  have hbelow := holds_grid (i := i) (c := i.below k) (k := k) hden
  have habove := holds_grid (i := i) (c := i.below k + 1) (k := k) hden
  split at h
  · rename_i hb ha
    have hneighbour : c = i.below k ∨ c = i.below k + 1 := by
      simp only at h
      split_ifs at h <;> cases h
      exacts [.inl rfl, .inr rfl, .inr rfl, .inl rfl]
    rcases hneighbour with rfl | rfl
    · exact ⟨hbelow.1 hb, .inl rfl⟩
    · exact ⟨habove.1 ha, .inr rfl⟩
  · rename_i hb _
    cases h
    exact ⟨hbelow.1 hb, .inl rfl⟩
  · rename_i _ ha
    cases h
    exact ⟨habove.1 ha, .inr rfl⟩
  · cases h

/-- Nothing is found only if neither neighbour is in the interval. -/
theorem not_contains_of_onGrid? (hden : 0 < i.den) (h : i.onGrid? tieUp k = none) :
    ¬ i.Contains (i.below k * 10 ^ k) ∧ ¬ i.Contains ((i.below k + 1 : ℕ) * 10 ^ k) := by
  rw [onGrid?_eq] at h
  split at h
  · simp only at h
    split_ifs at h
  · cases h
  · cases h
  · rename_i hb ha
    rw [Bool.eq_false_iff, ne_eq, holds_grid hden] at hb ha
    exact ⟨hb, ha⟩

/-- What is outside an interval is at one of its ends or beyond. -/
theorem outside (h : ¬ i.Contains x) : x ≤ i.low * i.unit ∨ i.high * i.unit ≤ x := by
  by_contra hno
  rw [not_or, not_le, not_le] at hno
  exact h ⟨hno.1.le, hno.2.le, fun _ => hno⟩

end Interval

/-! ## The interval of a double -/

theorem interval_den_pos (m : ℕ) (e : ℤ) : 0 < (interval m e).den := by
  unfold interval
  simp only
  split
  · exact Nat.one_pos
  · exact Nat.pow_pos (by decide)

/-- The bounds count quarters of a unit of the last place. -/
theorem interval_unit (m : ℕ) (e : ℤ) : 4 * (interval m e).unit = 2 ^ e := by
  have hunit : (interval m e).unit = 2 ^ (e - 2) := by
    unfold Interval.unit interval
    simp only
    split
    · rename_i hpos
      rw [pow_toNat 2 hpos, Nat.cast_one, div_one, Nat.cast_ofNat]
    · rename_i hneg
      rw [pow_neg_toNat 2 (by omega), Nat.cast_one, one_div, inv_inv, Nat.cast_ofNat]
  rw [hunit, show (e : ℤ) = (e - 2) + 1 + 1 by ring, two_zpow_succ, two_zpow_succ]
  ring_nf

/-- The value of the interval is that of the double. -/
theorem interval_value (m : ℕ) (e : ℤ) : (interval m e).value * (interval m e).unit = (m : ℚ) * 2 ^ e := by
  rw [← interval_unit m e]
  unfold interval
  push_cast
  ring

theorem interval_high (m : ℕ) (e : ℤ) : (interval m e).high * (interval m e).unit = ((m : ℚ) + 1 / 2) * 2 ^ e := by
  rw [← interval_unit m e]
  unfold interval
  push_cast
  ring

theorem interval_low (hm : 0 < m) (e : ℤ) :
    (interval m e).low * (interval m e).unit = ((m : ℚ) - halfBelow m e) * 2 ^ e := by
  have hlow : ((interval m e).low : ℚ) = 4 * m - 4 * halfBelow m e := by
    show ((4 * m - (if (m == Nat.pow 2 52 && e > -1074) = true then 1 else 2) : ℕ) : ℚ) = _
    have hnarrow : (m == Nat.pow 2 52 && decide (e > -1074)) = true ↔ m = 2 ^ 52 ∧ -1074 < e := by
      simp only [Bool.and_eq_true, beq_iff_eq, decide_eq_true_eq, gt_iff_lt, Nat.pow_eq]
    rw [Nat.cast_sub (by split <;> omega)]
    by_cases h : m = 2 ^ 52 ∧ -1074 < e
    · rw [if_pos (hnarrow.2 h), halfBelow_of_power h]
      push_cast
      ring
    · rw [if_neg (mt hnarrow.1 h), halfBelow_of_not h]
      push_cast
      ring
  rw [hlow, ← interval_unit m e]
  ring

/-- **What is in the interval of a double rounds to it.** -/
theorem rounds_of_contains (hm : 0 < m) (h : (interval m e).Contains x) : Rounds m e x := by
  have hlow := interval_low hm e
  have hhigh := interval_high m e
  refine ⟨?_, ?_, fun hodd => ?_⟩
  · rw [← hlow]
    exact h.low
  · rw [← hhigh]
    exact h.high
  · have hclosed : (interval m e).closed = false := by
      show (m % 2 == 0) = false
      rw [hodd]
      rfl
    have hinner := h.inner hclosed
    have hpower : ¬ (m = 2 ^ 52 ∧ -1074 < e) := by
      rintro ⟨rfl, -⟩
      exact absurd hodd (by decide)
    rw [hlow, hhigh, halfBelow_of_not hpower] at hinner
    exact hinner

/-- **A grid without a point in the interval** is at least as wide as the interval. -/
theorem wide_of_onGrid? (hm : 0 < m) (h : (interval m e).onGrid? tieUp k = none) :
    (halfBelow m e + 1 / 2) * 2 ^ e ≤ 10 ^ k := by
  have hden := interval_den_pos m e
  have hunit := two_zpow_pos e
  obtain ⟨hbelow, habove⟩ := Interval.below_spec hden k
  obtain ⟨hnot, hnot'⟩ := Interval.not_contains_of_onGrid? hden h
  have hout := Interval.outside hnot
  have hout' := Interval.outside hnot'
  have hhalf := mul_le_mul_of_nonneg_right (halfBelow_bounds m e).1 hunit.le
  push_cast at hout'
  rw [interval_value] at hbelow habove
  rw [interval_low hm, interval_high] at hout hout'
  -- the neighbours are below and above the whole interval
  have hlow : ((interval m e).below k : ℚ) * 10 ^ k ≤ ((m : ℚ) - halfBelow m e) * 2 ^ e := by
    rcases hout with hlow | hhigh
    · exact hlow
    · linarith
  have hhigh : ((m : ℚ) + 1 / 2) * 2 ^ e ≤ ((interval m e).below k + 1) * 10 ^ k := by
    rcases hout' with hlow' | hhigh'
    · linarith
    · exact hhigh'
  linarith

/-- A mantissa has less than seventeen digits, also in units of the width of its interval. -/
theorem mantissa_lt (hformat : InFormat m e) : (m : ℚ) < 10 ^ 16 * (halfBelow m e + 1 / 2) := by
  by_cases hpower : m = 2 ^ 52 ∧ -1074 < e
  · rw [halfBelow_of_power hpower, hpower.1]
    norm_num
  · have hbits : (m : ℚ) < (2 ^ 53 : ℕ) := by exact_mod_cast hformat.bits
    rw [halfBelow_of_not hpower]
    push_cast at hbits
    linarith

/-- **A grid of seventeen digits is fine enough**: one of the two neighbours of the double is in its interval. -/
theorem exists_onGrid? (hformat : InFormat m e) (hm : 0 < m) (tieUp : Bool)
    (hfine : 10 ^ 16 * 10 ^ k ≤ (m : ℚ) * 2 ^ e) : ∃ c, (interval m e).onGrid? tieUp k = some c ∧ c ≠ 0 := by
  have hden := interval_den_pos m e
  have hgrid := ten_zpow_pos k
  cases hfound : (interval m e).onGrid? tieUp k with
  | some c =>
    have hpos : (interval m e).below k ≠ 0 := by
      intro hzero
      obtain ⟨-, habove⟩ := Interval.below_spec hden k
      rw [interval_value, hzero, Nat.cast_zero, zero_add, one_mul] at habove
      linarith
    refine ⟨c, rfl, ?_⟩
    rcases (Interval.contains_of_onGrid? hden hfound).2 with rfl | rfl
    · exact hpos
    · exact Nat.succ_ne_zero _
  | none =>
    exfalso
    have hwide := wide_of_onGrid? hm hfound
    have hmany : (10 : ℚ) ^ 16 * (halfBelow m e + 1 / 2) * 2 ^ e ≤ m * 2 ^ e := by linarith
    exact absurd (le_of_mul_le_mul_right hmany (two_zpow_pos e)) (not_le.2 (mantissa_lt hformat))

/-! ## The search -/

/-- The position of the point is not too great. -/
theorem pointPosition_le (ha : 0 < a) (hb : 0 < b) : (10 : ℚ) ^ (pointPosition a b - 1) ≤ (a : ℚ) / b := by
  have ha' : (0 : ℚ) < a := by exact_mod_cast ha
  have hb' : (0 : ℚ) < b := by exact_mod_cast hb
  unfold pointPosition
  simp only
  split
  · rename_i hge
    obtain ⟨hlow, -⟩ := digits_bounds (Nat.div_pos hge hb)
    exact hlow.trans Nat.cast_div_le
  · rename_i hlt
    have hlt' : a ≤ b := by omega
    obtain ⟨-, hhigh⟩ := digits_bounds (Nat.div_pos hlt' ha)
    have hpos : 0 < (Nat.toDigits 10 (b / a)).length := Nat.length_toDigits_pos
    generalize (Nat.toDigits 10 (b / a)).length = n at *
    split
    · rename_i hreached
      rw [show (2 - n - 1 : ℤ) = -(n - 1) by ring, zpow_neg, le_div_iff₀ hb', inv_mul_le_iff₀ (ten_zpow_pos _)]
      have hle : (b : ℚ) ≤ (a * Nat.pow 10 (n - 1 : ℤ).toNat : ℕ) := by exact_mod_cast hreached
      rw [Nat.cast_mul, pow_toNat 10 (by omega), Nat.cast_ofNat, mul_comm] at hle
      exact hle
    · rw [show (1 - n - 1 : ℤ) = -n by ring, zpow_neg, le_div_iff₀ hb', inv_mul_le_iff₀ (ten_zpow_pos _)]
      have hle : (b : ℚ) / a ≤ 10 ^ (n : ℤ) := by
        have hsucc : b / a + 1 ≤ 10 ^ n := by exact_mod_cast hhigh
        have hlt : b < (b / a + 1) * a := Nat.lt_mul_of_div_lt (Nat.lt_succ_self _) ha
        rw [div_le_iff₀ ha', zpow_natCast]
        have hmul := Nat.mul_le_mul_right a hsucc
        exact_mod_cast hlt.le.trans hmul
      rw [div_le_iff₀ ha'] at hle
      linarith

/-- Dropping trailing zeros keeps the value. -/
theorem value_strip (fuel : ℕ) (d : Digits) :
    (strip fuel d).value = d.value ∧ (d.coefficient ≠ 0 → (strip fuel d).coefficient ≠ 0) := by
  induction fuel generalizing d with
  | zero => exact ⟨rfl, id⟩
  | succ fuel ih =>
    unfold strip
    split
    · rename_i hzero
      obtain ⟨hvalue, hne⟩ := ih ⟨d.coefficient / 10, d.exponent + 1⟩
      refine ⟨hvalue.trans ?_, fun _ => hne (by simp only; omega)⟩
      have htenfold : (d.coefficient : ℚ) = 10 * (d.coefficient / 10 : ℕ) := by
        exact_mod_cast (Nat.mul_div_cancel' (Nat.dvd_of_mod_eq_zero hzero.2)).symm
      unfold Digits.value
      rw [htenfold, zpow_add_one₀ (by norm_num)]
      ring
    · exact ⟨rfl, id⟩

/-- **The search finds something** if there is something to be found in time. -/
theorem search_spec {position : ℤ} {n fuel count : ℕ} (hcount : count ≤ n) (hfuel : n < count + fuel)
    (h : ∃ c, i.onGrid? tieUp (position - n) = some c ∧ c ≠ 0) :
    ∃ k c, i.onGrid? tieUp k = some c ∧ c ≠ 0 ∧ search i tieUp position fuel count = strip 20 ⟨c, k⟩ := by
  induction fuel generalizing count with
  | zero => omega
  | succ fuel ih =>
    have hnext : (∀ c, i.onGrid? tieUp (position - count) = some c → c = 0) →
        ∃ k c, i.onGrid? tieUp k = some c ∧ c ≠ 0 ∧
          search i tieUp position fuel (count + 1) = strip 20 ⟨c, k⟩ := by
      intro hnone
      have hne : count ≠ n := by
        rintro rfl
        obtain ⟨c, hc, hzero⟩ := h
        exact hzero (hnone c hc)
      exact ih (by omega) (by omega)
    unfold search
    simp only
    split
    · rename_i c hc
      split
      · rename_i hzero
        refine hnext fun c' hc' => ?_
        rw [hc] at hc'
        cases hc'
        exact hzero
      · rename_i hne
        exact ⟨_, c, hc, hne, rfl⟩
    · rename_i hnone
      refine hnext fun c' hc' => ?_
      rw [hnone] at hc'
      cases hc'

/-- **The digits of a double round to it.** -/
theorem digits_rounds (tieUp : Bool) (hformat : InFormat m e) (hm : 0 < m) :
    (digits tieUp m e).coefficient ≠ 0 ∧ Rounds m e (digits tieUp m e).value := by
  have hden := interval_den_pos m e
  have hvalue := interval_value m e
  have hpositive : (0 : ℚ) < (interval m e).value * (interval m e).unit := by
    rw [hvalue]
    exact mul_pos (by exact_mod_cast hm) (two_zpow_pos e)
  have hnum : 0 < (interval m e).value * (interval m e).num := by
    rcases Nat.eq_zero_or_pos ((interval m e).value * (interval m e).num) with hzero | hpos
    · unfold Interval.unit at hpositive
      rw [← mul_div_assoc, ← Nat.cast_mul, hzero, Nat.cast_zero, zero_div] at hpositive
      exact absurd hpositive (lt_irrefl _)
    · exact hpos
  have hposition := pointPosition_le hnum hden
  obtain ⟨position, hp⟩ : ∃ p, p = pointPosition ((interval m e).value * (interval m e).num) (interval m e).den :=
    ⟨_, rfl⟩
  rw [← hp] at hposition
  have hfine : (10 : ℚ) ^ 16 * 10 ^ (position - (17 : ℕ)) ≤ m * 2 ^ e := by
    rw [← hvalue]
    refine le_trans (le_of_eq ?_) (hposition.trans (le_of_eq ?_))
    · rw [← zpow_natCast, ← zpow_add₀ (by norm_num)]
      congr 1
      push_cast
      ring
    · unfold Interval.unit
      push_cast
      ring
  obtain ⟨k, c, hc, hne, hsearch⟩ : ∃ k c, (interval m e).onGrid? tieUp k = some c ∧ c ≠ 0 ∧
      search (interval m e) tieUp position 18 1 = strip 20 ⟨c, k⟩ :=
    search_spec (by decide) (by decide) (exists_onGrid? hformat hm tieUp hfine)
  have hdigits : digits tieUp m e = strip 20 ⟨c, k⟩ := by
    rw [← hsearch, hp]
    rfl
  obtain ⟨hstrip, hkept⟩ := value_strip 20 ⟨c, k⟩
  rw [hdigits]
  refine ⟨hkept hne, ?_⟩
  rw [hstrip]
  exact rounds_of_contains hm (Interval.contains_of_onGrid? hden hc).1

end Shortest

end FeatureAlignment
