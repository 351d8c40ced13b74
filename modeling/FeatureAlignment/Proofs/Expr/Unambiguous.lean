import FeatureAlignment.Expr
import FeatureAlignment.Proofs.Text

/-!
# Expressions told by their text

The text of an expression tells the expression. The first character says whether a text literal, a number or a name
comes; a name goes on to the first character that cannot belong to one, and a text literal to the first quote that is
not doubled. So where an expression ends is told as well, and a list of arguments is told one by one. Only how the
arguments of a call are separated is left open, where there are less than two.

* `Expr.IsName`, `Expr.IsNumeral`, `Expr.Spelled`: expressions with proper names and numbers, and no verbatim text.
* `Expr.widen`, `Expr.shape`: an expression up to separators, and up to the texts of literals as well.
* `Expr.Told`: an expression that is told by its text, whatever comes behind it; `Spelled.told` has it for all.
* `Expr.render_unambiguous`: expressions with one text are one expression.
-/

namespace FeatureAlignment

namespace Expr

/-! ## Names, numbers and trees -/

/-- What a name goes on with: an ASCII letter or digit, an underscore or a slash. -/
def isNameChar (c : Char) : Bool := c.isAlphanum || c == '_' || c == '/'

/-- What a number begins with: a digit, a sign or a point. -/
def isNumeralStart (c : Char) : Bool := c.isDigit || c == '-' || c == '+' || c == '.'

/-- What a number goes on with: one of these, or the mark of an exponent. -/
def isNumeralChar (c : Char) : Bool := isNumeralStart c || c == 'e' || c == 'E'

/-- **A name**: an ASCII letter or underscore, then ASCII letters, digits, underscores and slashes. -/
def IsName (name : String) : Prop :=
  ∃ c cs, name.toList = c :: cs ∧ Text.isNameStart c = true ∧ ∀ d ∈ cs, isNameChar d = true

/-- **A number**, by its characters. Every decimal numeral is one, with or without sign, point and exponent. -/
def IsNumeral (digits : String) : Prop :=
  ∃ c cs, digits.toList = c :: cs ∧ isNumeralStart c = true ∧ ∀ d ∈ cs, isNumeralChar d = true

/-- **An expression in which names are names and numbers are numbers.** Nothing is verbatim, and text literals hold
any text. -/
inductive Spelled : Expr → Prop
  | property {name : String} : IsName name → Spelled (.property name)
  | text (value : String) : Spelled (.text value)
  | number {digits : String} : IsNumeral digits → Spelled (.number digits)
  | nil : Spelled .nil
  | call {name : String} (spacing : Spacing) {arguments : List Expr} : IsName name → (∀ a ∈ arguments, Spelled a) →
      Spelled (.call name spacing arguments)

mutual

/-- The expression with other texts in its literals and other separators in its calls. -/
def reform (texts : String → String) (spacings : Spacing → Spacing) : Expr → Expr
  | .text value => .text (texts value)
  | .call name spacing arguments => .call name (spacings spacing) (reformAll texts spacings arguments)
  | e => e

/-- The same for several expressions. -/
def reformAll (texts : String → String) (spacings : Spacing → Spacing) : List Expr → List Expr
  | [] => []
  | e :: es => e.reform texts spacings :: reformAll texts spacings es

end

/-- **The expression up to separators**: those of all calls are wide. -/
def widen (e : Expr) : Expr := e.reform id fun _ => .wide

/-- **The expression around text literals**: no literal has a text, and separators do not count. -/
def shape (e : Expr) : Expr := e.reform (fun _ => "") fun _ => .wide

/-- The expression with other texts in its literals. -/
def retext (texts : String → String) (e : Expr) : Expr := e.reform texts id

/-- The characters of an expression. -/
def chars (e : Expr) : List Char := e.render.toList

/-- The characters of arguments that come behind another one. -/
def moreChars (spacing : Spacing) (es : List Expr) : List Char :=
  es.flatMap fun e => (separator spacing).toList ++ e.chars

/-- The characters of arguments. -/
def argumentChars (spacing : Spacing) : List Expr → List Char
  | [] => []
  | e :: es => e.chars ++ moreChars spacing es

variable {e e' : Expr} {es es' : List Expr} {name : String} {spacing spacing' : Spacing} {r r' : List Char}

theorem reformAll_eq_map (texts : String → String) (spacings : Spacing → Spacing) (es : List Expr) :
    reformAll texts spacings es = es.map (reform texts spacings) := by
  induction es with
  | nil => rfl
  | cons e es ih => rw [reformAll, ih, List.map_cons]

theorem widen_call (arguments : List Expr) :
    (Expr.call name spacing arguments).widen = .call name .wide (arguments.map widen) := by
  rw [widen, reform, reformAll_eq_map]
  rfl

mutual

/-- An expression that is reformed twice is reformed once. -/
theorem reform_reform (texts texts' : String → String) (spacings spacings' : Spacing → Spacing) : ∀ e : Expr,
    (e.reform texts spacings).reform texts' spacings' = e.reform (texts' ∘ texts) (spacings' ∘ spacings)
  | .property _ => rfl
  | .text _ => rfl
  | .number _ => rfl
  | .raw _ => rfl
  | .nil => rfl
  | .call name spacing arguments => by
    rw [reform, reform, reform, reformAll_reformAll texts texts' spacings spacings' arguments]
    rfl

theorem reformAll_reformAll (texts texts' : String → String) (spacings spacings' : Spacing → Spacing) :
    ∀ es : List Expr, reformAll texts' spacings' (reformAll texts spacings es) =
      reformAll (texts' ∘ texts) (spacings' ∘ spacings) es
  | [] => rfl
  | e :: es => by
    rw [reformAll, reformAll, reformAll, reform_reform texts texts' spacings spacings' e,
      reformAll_reformAll texts texts' spacings spacings' es]

end

/-- The shape does not depend on separators. -/
theorem shape_widen (e : Expr) : e.widen.shape = e.shape := reform_reform _ _ _ _ e

/-- The shape does not depend on texts. -/
theorem shape_retext (texts : String → String) (e : Expr) : (e.retext texts).shape = e.shape :=
  reform_reform _ _ _ _ e

/-- Literals hold any text. -/
theorem Spelled.retext (texts : String → String) (h : e.Spelled) : (e.retext texts).Spelled := by
  induction h with
  | property hname => exact .property hname
  | text value => exact .text (texts value)
  | number hdigits => exact .number hdigits
  | nil => exact .nil
  | call spacing hname hall ih =>
    rw [Expr.retext, reform, reformAll_eq_map]
    refine .call _ hname fun a ha => ?_
    obtain ⟨b, hb, rfl⟩ := List.mem_map.1 ha
    exact ih b hb

/-! ## Characters of a tree -/

theorem toList_join_renderAll (spacing : Spacing) (es : List Expr) :
    (Text.join (separator spacing) (renderAll es)).toList = argumentChars spacing es := by
  induction es with
  | nil => rfl
  | cons e es ih =>
    cases es with
    | nil => simp [renderAll, Text.join, argumentChars, moreChars, chars]
    | cons d es =>
      rw [renderAll, renderAll, Text.join, ← renderAll, String.toList_append, String.toList_append, ih]
      simp only [argumentChars, moreChars, chars, List.flatMap_cons, List.append_assoc]

theorem chars_call_append (arguments : List Expr) (r : List Char) : (Expr.call name spacing arguments).chars ++ r =
    name.toList ++ '(' :: (argumentChars spacing arguments ++ ')' :: r) := by
  simp only [chars, render, String.toList_append, toList_join_renderAll, List.append_assoc]
  rfl

theorem chars_text_append (value : String) (r : List Char) :
    (Expr.text value).chars ++ r = '\'' :: (doubleQuotes value.toList ++ '\'' :: r) := by
  rw [chars, render, quote, String.toList_ofList, List.append_assoc]
  rfl

theorem chars_nil_append (r : List Char) : Expr.nil.chars ++ r = "Expression".toList ++ '.' :: ("NIL".toList ++ r) :=
  List.append_assoc "Expression".toList ".NIL".toList r

/-! ## Where an expression begins -/

/-- What an expression begins with. -/
inductive Lead
  | quote
  | name
  | numeral

/-- What a character begins. -/
def leadOf (c : Char) : Option Lead :=
  if c = '\'' then some .quote
  else if Text.isNameStart c then some .name
  else if isNumeralStart c then some .numeral
  else none

/-- What an expression begins with, by its constructor. -/
def lead : Expr → Lead
  | .text _ => .quote
  | .number _ => .numeral
  | _ => .name

theorem leadOf_nameStart {c : Char} (h : Text.isNameStart c = true) : leadOf c = some .name := by
  have hquote : c ≠ '\'' := by rintro rfl; exact absurd h (by decide)
  rw [leadOf, if_neg hquote, if_pos h]

/-- Digits come before letters. -/
theorem isAlpha_eq_false {c : Char} (h : c.isDigit = true) : c.isAlpha = false := by
  obtain ⟨-, hdigit⟩ := Text.digit_range h
  rw [Bool.eq_false_iff]
  intro hletter
  rcases Bool.or_eq_true_iff.1 hletter with hupper | hlower
  · have hrange : 65 ≤ c.toNat := UInt32.le_iff_toNat_le.1 (of_decide_eq_true hupper).1
    omega
  · have hrange : 97 ≤ c.toNat := UInt32.le_iff_toNat_le.1 (of_decide_eq_true (Bool.and_eq_true_iff.1 hlower).1)
    omega

/-- A number does not begin like a name. -/
theorem not_nameStart {c : Char} (h : isNumeralStart c = true) : Text.isNameStart c = false := by
  simp only [isNumeralStart, Bool.or_eq_true, beq_iff_eq] at h
  rcases h with ((h | rfl) | rfl) | rfl
  · have hunderscore : c ≠ '_' := by rintro rfl; exact absurd h (by decide)
    simp [Text.isNameStart, isAlpha_eq_false h, hunderscore]
  · decide
  · decide
  · decide

theorem leadOf_numeralStart {c : Char} (h : isNumeralStart c = true) : leadOf c = some .numeral := by
  have hquote : c ≠ '\'' := by rintro rfl; exact absurd h (by decide)
  have hname : ¬ Text.isNameStart c = true := by rw [not_nameStart h]; exact Bool.false_ne_true
  rw [leadOf, if_neg hquote, if_neg hname, if_pos h]

/-- **The first character tells what kind of expression comes.** -/
theorem Spelled.leads (h : e.Spelled) (r : List Char) :
    ∃ c cs, e.chars ++ r = c :: cs ∧ leadOf c = some e.lead := by
  cases h with
  | property hname =>
    obtain ⟨c, cs, heq, hc, -⟩ := hname
    exact ⟨c, cs ++ r, by rw [chars, render, heq, List.cons_append], leadOf_nameStart hc⟩
  | text value => exact ⟨_, _, chars_text_append value r, rfl⟩
  | number hdigits =>
    obtain ⟨c, cs, heq, hc, -⟩ := hdigits
    exact ⟨c, cs ++ r, by rw [chars, render, heq, List.cons_append], leadOf_numeralStart hc⟩
  | nil => exact ⟨'E', _, rfl, rfl⟩
  | call spacing hname hall =>
    obtain ⟨c, cs, heq, hc, -⟩ := hname
    rw [chars_call_append, heq]
    exact ⟨c, _, rfl, leadOf_nameStart hc⟩

/-- Expressions with one text are of one kind. -/
theorem Spelled.lead_eq (h : e.Spelled) (h' : e'.Spelled) (heq : e.chars ++ r = e'.chars ++ r') :
    e.lead = e'.lead := by
  obtain ⟨c, cs, hc, hlead⟩ := h.leads r
  obtain ⟨c', cs', hc', hlead'⟩ := h'.leads r'
  rw [hc, hc'] at heq
  obtain ⟨rfl, -⟩ := List.cons.inj heq
  exact Option.some.inj (hlead.symm.trans hlead')

/-- An expression does not begin with a character that begins none. -/
theorem Spelled.chars_ne (h : e.Spelled) {c : Char} (hc : leadOf c = none) : e.chars ++ r ≠ c :: r' := by
  obtain ⟨d, cs, hd, hlead⟩ := h.leads r
  rw [hd]
  intro heq
  obtain ⟨rfl, -⟩ := List.cons.inj heq
  rw [hc] at hlead
  cases hlead

/-! ## Where an expression ends -/

/-- **A list at which an expression ends**: there is nothing more, or a comma or bracket comes. -/
def Closes (r : List Char) : Prop := ∀ c ∈ r.head?, c = ',' ∨ c = ')'

theorem closes_nil : Closes [] := by rintro c ⟨⟩

theorem closes_comma (cs : List Char) : Closes (',' :: cs) := by rintro c ⟨⟩; exact .inl rfl

theorem closes_bracket (cs : List Char) : Closes (')' :: cs) := by rintro c ⟨⟩; exact .inr rfl

/-- Where expressions end, a span of characters stops to which neither comma nor bracket belongs. -/
theorem Closes.stops {p : Char → Bool} (h : Closes r) (hcomma : p ',' = false) (hbracket : p ')' = false) :
    Text.Stops p r := by
  intro c hc
  rcases h c hc with rfl | rfl
  · exact hcomma
  · exact hbracket

theorem IsName.all (h : IsName name) : ∀ c ∈ name.toList, isNameChar c = true := by
  obtain ⟨c, cs, heq, hc, hcs⟩ := h
  rw [heq, List.forall_mem_cons]
  refine ⟨?_, hcs⟩
  simp only [Text.isNameStart, Bool.or_eq_true, beq_iff_eq] at hc
  rcases hc with hc | rfl
  · simp [isNameChar, Char.isAlphanum, hc]
  · decide

theorem IsNumeral.all {digits : String} (h : IsNumeral digits) : ∀ c ∈ digits.toList, isNumeralChar c = true := by
  obtain ⟨c, cs, heq, hc, hcs⟩ := h
  rw [heq, List.forall_mem_cons]
  exact ⟨by simp [isNumeralChar, hc], hcs⟩

/-- **A text literal goes on to the first quote that is not doubled.** -/
theorem doubleQuotes_inj {cs ds : List Char} (hr : r.head? ≠ some '\'') (hr' : r'.head? ≠ some '\'')
    (h : doubleQuotes cs ++ '\'' :: r = doubleQuotes ds ++ '\'' :: r') : cs = ds ∧ r = r' := by
  induction cs generalizing ds with
  | nil =>
    cases ds with
    | nil => exact ⟨rfl, (List.cons.inj h).2⟩
    | cons d ds =>
      by_cases hd : d = '\''
      · rw [doubleQuotes, doubleQuotes, if_pos hd] at h
        have hquote : r = '\'' :: (doubleQuotes ds ++ '\'' :: r') := (List.cons.inj h).2
        exact absurd (congrArg List.head? hquote) hr
      · rw [doubleQuotes, doubleQuotes, if_neg hd] at h
        exact absurd (List.cons.inj h).1.symm hd
  | cons c cs ih =>
    by_cases hc : c = '\''
    · rw [doubleQuotes, if_pos hc] at h
      cases ds with
      | nil =>
        have hquote : '\'' :: (doubleQuotes cs ++ '\'' :: r) = r' := (List.cons.inj h).2
        exact absurd (congrArg List.head? hquote.symm) hr'
      | cons d ds =>
        by_cases hd : d = '\''
        · rw [doubleQuotes, if_pos hd] at h
          obtain ⟨rfl, hrest⟩ := ih (List.cons.inj (List.cons.inj h).2).2
          exact ⟨by rw [hc, hd], hrest⟩
        · rw [doubleQuotes, if_neg hd] at h
          exact absurd (List.cons.inj h).1.symm hd
    · rw [doubleQuotes, if_neg hc] at h
      cases ds with
      | nil => exact absurd (List.cons.inj h).1 hc
      | cons d ds =>
        by_cases hd : d = '\''
        · rw [doubleQuotes, if_pos hd] at h
          exact absurd ((List.cons.inj h).1.trans rfl) hc
        · rw [doubleQuotes, if_neg hd] at h
          obtain ⟨rfl, hrest⟩ := ih (List.cons.inj h).2
          exact ⟨by rw [(List.cons.inj h).1], hrest⟩

/-! ## Trees are told -/

/-- **An expression that is told by its text**, whatever comes behind it. -/
def Told (e : Expr) : Prop := ∀ {e' : Expr} {r r' : List Char}, e'.Spelled → Closes r → Closes r' →
  e.chars ++ r = e'.chars ++ r' → e.widen = e'.widen ∧ r = r'

/-- Names are told, if something else comes behind them. -/
theorem name_inj {name' : String} (h : IsName name) (h' : IsName name') (hr : Text.Stops isNameChar r)
    (hr' : Text.Stops isNameChar r') (heq : name.toList ++ r = name'.toList ++ r') : name = name' ∧ r = r' := by
  obtain ⟨hname, hrest⟩ := Text.span_inj h.all h'.all hr hr' heq
  exact ⟨String.toList_inj.1 hname, hrest⟩

theorem stops_cons {p : Char → Bool} {c : Char} (h : p c = false) (cs : List Char) : Text.Stops p (c :: cs) := by
  rintro d ⟨⟩
  exact h

theorem isName_of_all {c : Char} {cs : List Char} (hname : name.toList = c :: cs) (hc : Text.isNameStart c = true)
    (hcs : cs.all isNameChar = true) : IsName name := ⟨c, cs, hname, hc, List.all_eq_true.1 hcs⟩

theorem isName_expression : IsName "Expression" := isName_of_all rfl rfl rfl

/-- A text literal is told by its quotes. -/
theorem told_text (value : String) : (Expr.text value).Told := by
  intro e' r r' h' hr hr' heq
  have hlead := (Spelled.text value).lead_eq h' heq
  have hend : ∀ {r : List Char}, Closes r → r.head? ≠ some '\'' := by
    intro r hr hquote
    rcases hr _ hquote with h | h <;> cases h
  cases h' with
  | text value' =>
    rw [chars_text_append, chars_text_append] at heq
    obtain ⟨hvalue, hrest⟩ := doubleQuotes_inj (hend hr) (hend hr') (List.cons.inj heq).2
    exact ⟨by rw [String.toList_inj.1 hvalue], hrest⟩
  | property hname => cases hlead
  | number hdigits => cases hlead
  | nil => cases hlead
  | call spacing hname hall => cases hlead

theorem told_number {digits : String} (h : IsNumeral digits) : (Expr.number digits).Told := by
  intro e' r r' h' hr hr' heq
  have hlead := (Spelled.number h).lead_eq h' heq
  cases h' with
  | number h' =>
    obtain ⟨hdigits, hrest⟩ :=
      Text.span_inj h.all h'.all (hr.stops (by decide) (by decide)) (hr'.stops (by decide) (by decide)) heq
    exact ⟨by rw [String.toList_inj.1 hdigits], hrest⟩
  | text value => cases hlead
  | property hname => cases hlead
  | nil => cases hlead
  | call spacing hname hall => cases hlead

/-! A property, the missing value and a call begin with a name, and differ in what comes behind it. -/

theorem not_closes {c : Char} {cs : List Char} (hcomma : c ≠ ',') (hbracket : c ≠ ')') : ¬ Closes (c :: cs) := by
  intro h
  rcases h c rfl with h | h
  · exact hcomma h
  · exact hbracket h

theorem told_property (h : IsName name) : (Expr.property name).Told := by
  intro e' r r' h' hr hr' heq
  have hlead := (Spelled.property h).lead_eq h' heq
  have hstops : Text.Stops isNameChar r := hr.stops (by decide) (by decide)
  cases h' with
  | property h' =>
    obtain ⟨rfl, hrest⟩ := name_inj h h' hstops (hr'.stops (by decide) (by decide)) heq
    exact ⟨rfl, hrest⟩
  | nil =>
    rw [chars_nil_append] at heq
    obtain ⟨-, rfl⟩ := name_inj h isName_expression hstops (stops_cons (by decide) _) heq
    exact absurd hr (not_closes (by decide) (by decide))
  | call spacing h' hall =>
    rw [chars_call_append] at heq
    obtain ⟨-, rfl⟩ := name_inj h h' hstops (stops_cons (by decide) _) heq
    exact absurd hr (not_closes (by decide) (by decide))
  | text value => cases hlead
  | number hdigits => cases hlead

theorem told_nil : Expr.nil.Told := by
  intro e' r r' h' hr hr' heq
  have hlead := Spelled.nil.lead_eq h' heq
  rw [chars_nil_append] at heq
  cases h' with
  | property h' =>
    obtain ⟨-, rfl⟩ :=
      name_inj isName_expression h' (stops_cons (by decide) _) (hr'.stops (by decide) (by decide)) heq
    exact absurd hr' (not_closes (by decide) (by decide))
  | nil =>
    rw [chars_nil_append] at heq
    exact ⟨rfl, List.append_cancel_left (List.cons.inj (List.append_cancel_left heq)).2⟩
  | call spacing h' hall =>
    rw [chars_call_append] at heq
    obtain ⟨-, hrest⟩ := name_inj isName_expression h' (stops_cons (by decide) _) (stops_cons (by decide) _) heq
    cases hrest
  | text value => cases hlead
  | number hdigits => cases hlead

/-- What comes behind a first argument: the bracket, or a comma with the next one behind it. -/
theorem moreChars_cons (e : Expr) (es : List Expr) : moreChars spacing (e :: es) ++ r =
    ',' :: ((separator spacing).toList.tail ++ (e.chars ++ (moreChars spacing es ++ r))) := by
  rw [moreChars, List.flatMap_cons, List.append_assoc, List.append_assoc]
  cases spacing <;> rfl

theorem closes_moreChars (spacing : Spacing) (es : List Expr) (r : List Char) :
    Closes (moreChars spacing es ++ ')' :: r) := by
  cases es with
  | nil => exact closes_bracket r
  | cons e es =>
    rw [moreChars_cons]
    exact closes_comma _

/-- Between two arguments there is a blank or none, and none begins with a blank. -/
theorem separator_inj (h : e.Spelled) (h' : e'.Spelled)
    (heq : (separator spacing).toList.tail ++ (e.chars ++ r) = (separator spacing').toList.tail ++ (e'.chars ++ r')) :
    e.chars ++ r = e'.chars ++ r' := by
  have hblank : leadOf ' ' = none := by decide
  cases spacing <;> cases spacing'
  · exact (List.cons.inj heq).2
  · exact absurd heq.symm (h'.chars_ne hblank)
  · exact absurd heq (h.chars_ne hblank)
  · exact heq

/-- **Arguments are told one by one**, up to the closing bracket. -/
theorem moreChars_inj (hes : ∀ e ∈ es, e.Spelled ∧ e.Told) (hes' : ∀ e ∈ es', e.Spelled)
    (heq : moreChars spacing es ++ ')' :: r = moreChars spacing' es' ++ ')' :: r') :
    es.map widen = es'.map widen ∧ r = r' := by
  induction es generalizing es' with
  | nil =>
    cases es' with
    | nil => exact ⟨rfl, (List.cons.inj heq).2⟩
    | cons e' es' =>
      rw [moreChars_cons] at heq
      exact absurd (List.cons.inj heq).1 (by decide)
  | cons e es ih =>
    cases es' with
    | nil =>
      rw [moreChars_cons] at heq
      exact absurd (List.cons.inj heq).1 (by decide)
    | cons e' es' =>
      obtain ⟨⟨hspelled, htold⟩, hes⟩ := List.forall_mem_cons.1 hes
      obtain ⟨hspelled', hes'⟩ := List.forall_mem_cons.1 hes'
      rw [moreChars_cons, moreChars_cons] at heq
      have harguments := separator_inj hspelled hspelled' (List.cons.inj heq).2
      obtain ⟨hfirst, hmore⟩ :=
        htold hspelled' (closes_moreChars spacing es r) (closes_moreChars spacing' es' r') harguments
      obtain ⟨hothers, hrest⟩ := ih hes hes' hmore
      exact ⟨by rw [List.map_cons, List.map_cons, hfirst, hothers], hrest⟩

theorem argumentChars_inj (hes : ∀ e ∈ es, e.Spelled ∧ e.Told) (hes' : ∀ e ∈ es', e.Spelled)
    (heq : argumentChars spacing es ++ ')' :: r = argumentChars spacing' es' ++ ')' :: r') :
    es.map widen = es'.map widen ∧ r = r' := by
  have hbracket : leadOf ')' = none := by decide
  cases es with
  | nil =>
    cases es' with
    | nil => exact ⟨rfl, (List.cons.inj heq).2⟩
    | cons e' es' =>
      rw [argumentChars, argumentChars, List.append_assoc] at heq
      exact absurd heq.symm ((hes' e' List.mem_cons_self).chars_ne hbracket)
  | cons e es =>
    obtain ⟨⟨hspelled, htold⟩, hes⟩ := List.forall_mem_cons.1 hes
    rw [argumentChars, List.append_assoc] at heq
    cases es' with
    | nil => exact absurd heq (hspelled.chars_ne hbracket)
    | cons e' es' =>
      obtain ⟨hspelled', hes'⟩ := List.forall_mem_cons.1 hes'
      rw [argumentChars, List.append_assoc] at heq
      obtain ⟨hfirst, hmore⟩ :=
        htold hspelled' (closes_moreChars spacing es r) (closes_moreChars spacing' es' r') heq
      obtain ⟨hothers, hrest⟩ := moreChars_inj hes hes' hmore
      exact ⟨by rw [List.map_cons, List.map_cons, hfirst, hothers], hrest⟩

theorem told_call {arguments : List Expr} (h : IsName name) (hall : ∀ a ∈ arguments, a.Spelled ∧ a.Told) :
    (Expr.call name spacing arguments).Told := by
  intro e' r r' h' hr hr' heq
  have hlead := (Spelled.call spacing h fun a ha => (hall a ha).1).lead_eq h' heq
  rw [chars_call_append] at heq
  cases h' with
  | property h' =>
    obtain ⟨-, rfl⟩ := name_inj h h' (stops_cons (by decide) _) (hr'.stops (by decide) (by decide)) heq
    exact absurd hr' (not_closes (by decide) (by decide))
  | nil =>
    rw [chars_nil_append] at heq
    obtain ⟨-, hrest⟩ := name_inj h isName_expression (stops_cons (by decide) _) (stops_cons (by decide) _) heq
    cases hrest
  | call spacing' h' hall' =>
    rw [chars_call_append] at heq
    obtain ⟨rfl, hrest⟩ := name_inj h h' (stops_cons (by decide) _) (stops_cons (by decide) _) heq
    obtain ⟨harguments, hrest⟩ := argumentChars_inj hall hall' (List.cons.inj hrest).2
    exact ⟨by rw [widen_call, widen_call, harguments], hrest⟩
  | text value => cases hlead
  | number hdigits => cases hlead

/-- **Every expression is told by its text.** -/
theorem Spelled.told (h : e.Spelled) : e.Told := by
  induction h with
  | property hname => exact told_property hname
  | text value => exact told_text value
  | number hdigits => exact told_number hdigits
  | nil => exact told_nil
  | call spacing hname hall ih => exact told_call hname fun a ha => ⟨hall a ha, ih a ha⟩

/-- Expressions with one text are the same up to separators. -/
theorem Spelled.widen_eq (h : e.Spelled) (h' : e'.Spelled) (heq : e.render = e'.render) : e.widen = e'.widen := by
  have hchars : e.chars ++ [] = e'.chars ++ [] := by rw [chars, chars, heq]
  exact (h.told h' closes_nil closes_nil hchars).1

/-- **The text of an expression tells the expression**, up to how arguments are separated. Whatever texts its
literals hold, nothing else is written like it but expressions that are alike around their literals. -/
theorem render_unambiguous (h : e.Spelled) (h' : e'.Spelled) :
    (e.render = e'.render → e.widen = e'.widen) ∧
      ∀ texts : String → String, (e.retext texts).render = e'.render → e.shape = e'.shape := by
  refine ⟨h.widen_eq h', fun texts heq => ?_⟩
  have hwiden := (h.retext texts).widen_eq h' heq
  calc e.shape
    _ = (e.retext texts).shape := (shape_retext texts e).symm
    _ = (e.retext texts).widen.shape := (shape_widen _).symm
    _ = e'.widen.shape := by rw [hwiden]
    _ = e'.shape := shape_widen e'

/-- A literal that holds quotes and the rest of a call, in a call of one argument. -/
def disguised (spacing : Spacing) : Expr := .call "upper" spacing [.text "', name), lower('"]

theorem disguised_told :
    (disguised .wide).Spelled ∧ (disguised .tight).Spelled ∧ (disguised .wide).render = (disguised .tight).render ∧
      (disguised .wide).widen = (disguised .tight).widen ∧ (disguised .wide).shape = (disguised .tight).shape := by
  have hspelled : ∀ spacing, (disguised spacing).Spelled := fun spacing =>
    .call spacing (isName_of_all rfl rfl rfl) fun a ha => by
      rw [List.mem_singleton.1 ha]
      exact .text _
  have hrender : (disguised .wide).render = (disguised .tight).render := rfl
  have htold := render_unambiguous (hspelled .wide) (hspelled .tight)
  exact ⟨hspelled .wide, hspelled .tight, hrender, htold.1 hrender, htold.2 id hrender⟩

end Expr

end FeatureAlignment
