import FeatureAlignment.Text

/-!
# Digits and spans

A number is told by its decimal digits, which may stand in a prefix. A longest stretch of characters of one class
is told, and so is what follows it. So texts are told that a character joins which none of them has.
-/

namespace FeatureAlignment

namespace Text

/-- The range of the digits among the characters. -/
theorem digit_range {c : Char} (h : c.isDigit = true) : 48 ≤ c.toNat ∧ c.toNat ≤ 57 := by
  simp only [Char.isDigit, Bool.and_eq_true, decide_eq_true_eq, UInt32.le_iff_toNat_le] at h
  exact h

/-- **Different numbers have different digits.** -/
theorem natural_inj {m n : Nat} (h : natural m = natural n) : m = n := by
  have hd := congrArg (fun s => Nat.ofDigitChars 10 s.toList 0) h
  simpa only [natural, String.toList_ofList, Nat.ofDigitChars_ten_toDigits] using hd

/-- So have they behind other text. -/
theorem append_natural_inj {s : String} {m n : Nat} (h : s ++ natural m = s ++ natural n) : m = n := by
  have hl := congrArg String.toList h
  rw [String.toList_append, String.toList_append, List.append_cancel_left_eq] at hl
  exact natural_inj (String.toList_inj.1 hl)

/-- Letters with a number behind them are a prefix name if the letters are one. -/
theorem isPrefixName_natural {s : String} (h : isPrefixName s = true) (n : Nat) :
    isPrefixName (s ++ natural n) = true := by
  have hdigits : (Nat.toDigits 10 n).all isNameRest = true := by
    rw [List.all_eq_true]
    intro c hc
    have hdigit := Nat.isDigit_of_mem_toDigits (by decide) (by decide) hc
    simp [isNameRest, Char.isAlphanum, hdigit]
  unfold isPrefixName at *
  rw [String.toList_append]
  cases hs : s.toList with
  | nil => rw [hs] at h; cases h
  | cons c cs =>
    rw [hs] at h
    simp only [Bool.and_eq_true] at h
    simp only [List.cons_append, List.all_append, natural, String.toList_ofList, h, hdigits, Bool.and_self]

/-! ## Spans -/

/-- **A list that a span stops at**: it does not go on with a character of the class. -/
def Stops (p : Char → Bool) (cs : List Char) : Prop := ∀ c ∈ cs.head?, p c = false

variable {p : Char → Bool} {xs ys r r' : List Char}

theorem takeWhile_span (hx : ∀ c ∈ xs, p c = true) (hr : Stops p r) : (xs ++ r).takeWhile p = xs := by
  rw [List.takeWhile_append_of_pos hx]
  cases r with
  | nil => exact List.append_nil xs
  | cons c cs => rw [List.takeWhile_cons, hr c rfl, if_neg Bool.false_ne_true, List.append_nil]

theorem dropWhile_span (hx : ∀ c ∈ xs, p c = true) (hr : Stops p r) : (xs ++ r).dropWhile p = r := by
  rw [List.dropWhile_append_of_pos hx]
  cases r with
  | nil => rfl
  | cons c cs => rw [List.dropWhile_cons, hr c rfl, if_neg Bool.false_ne_true]

/-- **Spans of one class are told**, and what follows them. -/
theorem span_inj (hx : ∀ c ∈ xs, p c = true) (hy : ∀ c ∈ ys, p c = true) (hr : Stops p r) (hr' : Stops p r')
    (h : xs ++ r = ys ++ r') : xs = ys ∧ r = r' := by
  have htake := congrArg (List.takeWhile p) h
  have hdrop := congrArg (List.dropWhile p) h
  rw [takeWhile_span hx hr, takeWhile_span hy hr'] at htake
  rw [dropWhile_span hx hr, dropWhile_span hy hr'] at hdrop
  exact ⟨htake, hdrop⟩

/-- What stands before the first occurrence of a character is told, and what follows it. -/
theorem until_inj {stop : Char} (hx : stop ∉ xs) (hy : stop ∉ ys) (h : xs ++ stop :: r = ys ++ stop :: r') :
    xs = ys ∧ r = r' := by
  have hclass : ∀ {zs : List Char}, stop ∉ zs → ∀ c ∈ zs, (c != stop) = true := fun hz c hc =>
    bne_iff_ne.2 fun heq => hz (heq ▸ hc)
  have hstops : ∀ cs : List Char, Stops (· != stop) (stop :: cs) := by simp [Stops]
  obtain ⟨hspan, hrest⟩ := span_inj (hclass hx) (hclass hy) (hstops r) (hstops r') h
  exact ⟨hspan, (List.cons.inj hrest).2⟩

/-- A list without a character that stands at the end stands behind that character. -/
theorem behind_of_not_mem {stop : Char} {zs : List Char} (hz : stop ∉ zs) (h : xs ++ stop :: r = ys ++ zs) :
    ∃ more, r = more ++ zs ∧ ys = xs ++ stop :: more := by
  rcases List.append_eq_append_iff.1 h with ⟨more, hys, hbehind⟩ | ⟨more, -, hzs⟩
  · cases more with
    | nil => exact absurd (by rw [← List.nil_append zs, ← hbehind]; simp) hz
    | cons c more =>
      obtain ⟨rfl, hr⟩ := List.cons.inj hbehind
      exact ⟨more, hr, hys⟩
  · exact absurd (by rw [hzs]; simp) hz

/-- What stands behind the last occurrence of a character is told, and what stands before it. -/
theorem behind_inj {stop : Char} (hr : stop ∉ r) (hr' : stop ∉ r') (h : xs ++ stop :: r = ys ++ stop :: r') :
    xs = ys ∧ r = r' := by
  have hreverse := congrArg List.reverse h
  simp only [List.reverse_append, List.reverse_cons, List.append_assoc, List.singleton_append] at hreverse
  obtain ⟨hrest, hbefore⟩ := until_inj (mt List.mem_reverse.1 hr) (mt List.mem_reverse.1 hr') hreverse
  exact ⟨List.reverse_inj.1 hbefore, List.reverse_inj.1 hrest⟩

theorem concat_append (ss ts : List String) : concat (ss ++ ts) = concat ss ++ concat ts := by
  induction ss with
  | nil => rw [List.nil_append, concat, String.empty_append]
  | cons s ss ih => rw [List.cons_append, concat, concat, ih, String.append_assoc]

/-- The last text of joined ones goes on with what follows it. -/
theorem join_concat_append (separator : String) (ss : List String) (s t : String) :
    join separator (ss ++ [s ++ t]) = join separator (ss ++ [s]) ++ t := by
  induction ss with
  | nil => rfl
  | cons s' ss ih =>
    cases ss with
    | nil => simp [join, String.append_assoc]
    | cons s'' ss =>
      simp only [List.cons_append, join] at ih ⊢
      rw [ih]
      simp only [String.append_assoc]

/-- The last text of joined ones stands alone, or behind a separator. -/
theorem join_concat (separator : String) (ss : List String) (s : String) :
    ∃ before, join separator (ss ++ [s]) = before ++ s ∧ (before = "" ∨ ∃ more, before = more ++ separator) := by
  induction ss with
  | nil => exact ⟨"", (String.empty_append).symm, .inl rfl⟩
  | cons s' ss ih =>
    obtain ⟨before, hjoin, hbefore⟩ := ih
    have hcons : join separator (s' :: ss ++ [s]) = s' ++ separator ++ join separator (ss ++ [s]) := by
      cases ss <;> rfl
    refine ⟨s' ++ separator ++ before, ?_, .inr ?_⟩
    · rw [hcons, hjoin]
      simp only [String.append_assoc]
    · rcases hbefore with rfl | ⟨more, rfl⟩
      · exact ⟨s', by simp⟩
      · exact ⟨s' ++ separator ++ more, by simp only [String.append_assoc]⟩

/-- **Texts joined by a character that none of them has are told**, if there are any. -/
theorem join_inj {separator : Char} {ss ts : List String} (hs : ss ≠ []) (ht : ts ≠ [])
    (hss : ∀ s ∈ ss, separator ∉ s.toList) (hts : ∀ t ∈ ts, separator ∉ t.toList)
    (h : join (String.singleton separator) ss = join (String.singleton separator) ts) : ss = ts := by
  -- in step; where one list ends and the other goes on, only one of the texts has the separator
  induction ss generalizing ts with
  | nil => exact absurd rfl hs
  | cons s ss ih =>
    cases ts with
    | nil => exact absurd rfl ht
    | cons t ts =>
      have hs0 := hss s List.mem_cons_self
      have ht0 := hts t List.mem_cons_self
      have hchars := congrArg String.toList h
      cases ss with
      | nil =>
        cases ts with
        | nil => rw [show s = t from h]
        | cons t' ts =>
          simp only [join, String.toList_append, String.toList_singleton] at hchars
          exact absurd (by simp [hchars]) hs0
      | cons s' ss =>
        cases ts with
        | nil =>
          simp only [join, String.toList_append, String.toList_singleton] at hchars
          exact absurd (by simp [← hchars]) ht0
        | cons t' ts =>
          simp only [join, String.toList_append, String.toList_singleton, List.append_assoc,
            List.singleton_append] at hchars
          obtain ⟨hfirst, hrest⟩ := until_inj hs0 ht0 hchars
          have hmore := ih (List.cons_ne_nil s' ss) (List.cons_ne_nil t' ts)
            (fun u hu => hss u (List.mem_cons_of_mem s hu)) (fun u hu => hts u (List.mem_cons_of_mem t hu))
            (String.toList_inj.1 hrest)
          rw [String.toList_inj.1 hfirst, hmore]

end Text

end FeatureAlignment
