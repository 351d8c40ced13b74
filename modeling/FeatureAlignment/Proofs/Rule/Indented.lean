import Mathlib.Data.List.Basic
import FeatureAlignment.Proofs.Text
import FeatureAlignment.Rule.Basic

/-!
# Rules set in

A document cuts the text of a rule into lines and sets each of them in, whatever the lines are. So a text in quotes is
cut and set in as well, if it has a line feed. All other characters stay, and quotes are told as before.

* `Text.setIn`: what a text becomes when its lines are set in.
* `Text.setIn_eq_self_iff`: a text stays as it is just when it has no line feed.
* `Text.setIn_quoted`: a text in quotes becomes another text in quotes.
* `Term.readQuoted`: a text in quotes is read back.
* `RuleDocument.render_split`: a rule as it stands in a document.
-/

namespace FeatureAlignment

namespace Text

/-! ## Lines -/

section

variable {stop : Char} {xs rest : List Char}

theorem cutAt_ne_nil (stop : Char) (cs : List Char) : cutAt stop cs ≠ [] := by
  cases cs with
  | nil => exact List.cons_ne_nil _ _
  | cons c cs =>
    rw [cutAt]
    cases cutAt stop cs with
    | nil => exact List.cons_ne_nil _ _
    | cons piece pieces =>
      simp only
      split <;> exact List.cons_ne_nil _ _

theorem cutAt_of_not_mem (h : stop ∉ xs) : cutAt stop xs = [xs] := by
  induction xs with
  | nil => rfl
  | cons c cs ih =>
    obtain ⟨hc, hcs⟩ := List.ne_and_not_mem_of_not_mem_cons h
    rw [cutAt, ih hcs]
    exact if_neg hc.symm

/-- The first piece ends at the first separator. -/
theorem cutAt_append (h : stop ∉ xs) (rest : List Char) : cutAt stop (xs ++ stop :: rest) = xs :: cutAt stop rest := by
  induction xs with
  | nil =>
    rw [List.nil_append, cutAt]
    cases hcut : cutAt stop rest with
    | nil => exact absurd hcut (cutAt_ne_nil stop rest)
    | cons piece pieces => exact if_pos rfl
  | cons c cs ih =>
    obtain ⟨hc, hcs⟩ := List.ne_and_not_mem_of_not_mem_cons h
    rw [List.cons_append, cutAt, ih hcs]
    exact if_neg hc.symm

theorem lines_of_not_mem (h : '\n' ∉ xs) (hsome : xs ≠ []) : lines (String.ofList xs) = [String.ofList xs] := by
  unfold lines
  rw [String.toList_ofList, cutAt_of_not_mem h]
  cases xs with
  | nil => exact absurd rfl hsome
  | cons c cs => rfl

/-- **The first line** ends at the first line feed. -/
theorem lines_append (h : '\n' ∉ xs) (rest : List Char) :
    lines (String.ofList (xs ++ '\n' :: rest)) = String.ofList (dropReturn xs) :: lines (String.ofList rest) := by
  unfold lines
  rw [String.toList_ofList, String.toList_ofList, cutAt_append h]
  cases hcut : cutAt '\n' rest with
  | nil => exact absurd hcut (cutAt_ne_nil '\n' rest)
  | cons piece pieces =>
    simp only [List.dropLast_cons_cons, List.getLast?_cons_cons, List.map_cons]
    split <;> rfl

end

/-! ## Setting in -/

/-- What stands before a line that is set in. -/
def blanks : List Char := [' ', ' ', ' ', ' ']

/-- Characters set in. -/
def setInList : List Char → List Char
  | [] => []
  | '\r' :: '\n' :: cs => '\n' :: (blanks ++ setInList cs)
  | '\n' :: cs => '\n' :: (blanks ++ setInList cs)
  | c :: cs => c :: setInList cs

/-- **A text set in**: there are blanks behind each line feed, and no carriage return before it. -/
def setIn (s : String) : String := String.ofList (setInList s.toList)

variable {c : Char} {xs ys cs : List Char}

theorem setInList_cons (hc : c ≠ '\n') (hreturn : c = '\r' → cs.head? ≠ some '\n') :
    setInList (c :: cs) = c :: setInList cs := by
  rw [setInList]
  · rintro rest rfl rfl
    exact hreturn rfl rfl
  · exact hc

/-- **Texts are set in one by one**, unless a line end is cut in two. -/
theorem setInList_append (h : xs.getLast? = some '\r' → ys.head? ≠ some '\n') :
    setInList (xs ++ ys) = setInList xs ++ setInList ys := by
  have hlast : ∀ {d : Char} {cs : List Char}, cs.getLast? = some '\r' → (d :: cs).getLast? = some '\r' := by
    intro d cs hcs
    rw [List.getLast?_cons, hcs]
    rfl
  fun_induction setInList xs with
  | case1 => rfl
  | case2 cs ih =>
    rw [List.cons_append, List.cons_append, setInList, ih fun hcs => h (hlast (hlast hcs))]
    simp
  | case3 cs ih =>
    rw [List.cons_append, setInList, ih fun hcs => h (hlast hcs)]
    simp
  | case4 c cs hcrlf hlf ih =>
    rw [List.cons_append, setInList_cons (fun hc => hlf hc) fun hc => ?_, ih fun hcs => h (hlast hcs), List.cons_append]
    cases cs with
    | nil => exact h (by rw [hc]; rfl)
    | cons d cs =>
      intro hd
      exact hcrlf cs hc (by rw [Option.some.inj hd])

theorem setInList_of_not_mem (h : '\n' ∉ cs) : setInList cs = cs := by
  induction cs with
  | nil => rfl
  | cons c cs ih =>
    obtain ⟨hc, hcs⟩ := List.ne_and_not_mem_of_not_mem_cons h
    rw [setInList_cons hc.symm fun _ hhead => hcs (List.mem_of_mem_head? hhead), ih hcs]

/-- **The first line** as it is set in. -/
theorem setInList_line (h : '\n' ∉ xs) (rest : List Char) :
    setInList (xs ++ '\n' :: rest) = dropReturn xs ++ '\n' :: (blanks ++ setInList rest) := by
  rcases List.eq_nil_or_concat xs with rfl | ⟨ys, c, rfl⟩
  · rw [List.nil_append, setInList]
    rfl
  rw [List.concat_eq_append] at h ⊢
  obtain ⟨hys, hc⟩ : '\n' ∉ ys ∧ '\n' ≠ c := by simpa using h
  by_cases hreturn : c = '\r'
  · subst hreturn
    rw [List.append_assoc, setInList_append (by simp), setInList_of_not_mem hys, List.singleton_append, setInList]
    simp [dropReturn]
  · rw [setInList_append (by simpa using fun h => absurd h hreturn), setInList_of_not_mem h, setInList]
    simp [dropReturn, hreturn]

/-- Each line feed makes the text longer: there are four more blanks and at most one carriage return less. -/
theorem length_setInList (cs : List Char) : cs.length + 3 * cs.count '\n' ≤ (setInList cs).length := by
  fun_induction setInList cs with
  | case1 => exact Nat.le_refl 0
  | case2 cs ih => simp [blanks]; omega
  | case3 cs ih => simp [blanks]; omega
  | case4 c cs _ hc ih =>
    rw [List.count_cons_of_ne (fun h => hc h)]
    simp only [List.length_cons]
    omega

/-- **A text stays as it is** just when it has no line feed. -/
theorem setIn_eq_self_iff (s : String) : setIn s = s ↔ '\n' ∉ s.toList := by
  constructor
  · intro heq hmem
    have hchars := congrArg String.toList heq
    rw [setIn, String.toList_ofList] at hchars
    have hlength := length_setInList s.toList
    rw [hchars] at hlength
    have hcount := List.count_pos_iff.2 hmem
    omega
  · intro h
    rw [setIn, setInList_of_not_mem h, String.ofList_toList]

/-- **Joined texts** are set in one by one, unless a line end is cut in two. -/
theorem setIn_append {s t : String} (h : s.toList.getLast? = some '\r' → t.toList.head? ≠ some '\n') :
    setIn (s ++ t) = setIn s ++ setIn t := by
  rw [setIn, String.toList_append, setInList_append h, String.ofList_append]
  rfl

/-! ## Texts in quotes -/

/-- Inside quotes there are backslashes and the characters themselves. -/
theorem mem_quoteChar {c d : Char} (h : d ∈ Term.quoteChar c) : d = '\\' ∨ d = c := by
  unfold Term.quoteChar at h
  split at h
  · exact .inl (by simpa using h)
  · split at h
    · rename_i hquote
      rw [hquote]
      simpa using h
    · exact .inr (List.mem_singleton.1 h)

/-- Nothing begins with a line feed inside quotes that did not before. -/
theorem head?_flatMap_quoteChar (h : (cs.flatMap Term.quoteChar).head? = some '\n') : cs.head? = some '\n' := by
  cases cs with
  | nil => cases h
  | cons c cs =>
    have hsome : Term.quoteChar c ≠ [] := by
      unfold Term.quoteChar
      split
      · exact List.cons_ne_nil _ _
      · split <;> exact List.cons_ne_nil _ _
    rw [List.flatMap_cons, List.head?_append_of_ne_nil _ hsome] at h
    rw [List.head?_cons, ← (mem_quoteChar (List.mem_of_mem_head? h)).resolve_left (by decide)]

/-- **Quoting first or setting in first** is the same: line ends have no backslash. -/
theorem setInList_flatMap_quoteChar (cs : List Char) :
    setInList (cs.flatMap Term.quoteChar) = (setInList cs).flatMap Term.quoteChar := by
  fun_induction setInList cs with
  | case1 => rfl
  | case2 cs ih => simp [Term.quoteChar, setInList, blanks, ih]
  | case3 cs ih => simp [Term.quoteChar, setInList, blanks, ih]
  | case4 c cs hcrlf hlf ih =>
    have hchar : setInList (Term.quoteChar c) = Term.quoteChar c := setInList_of_not_mem fun hmem =>
      hlf ((mem_quoteChar hmem).resolve_left (by decide)).symm
    rw [List.flatMap_cons, List.flatMap_cons, setInList_append, ih, hchar]
    intro hlast hnext
    have hreturn := (mem_quoteChar (List.mem_of_getLast? hlast)).resolve_left (by decide)
    obtain ⟨rest, rfl⟩ := List.head?_eq_some_iff.1 (head?_flatMap_quoteChar hnext)
    exact hcrlf rest hreturn.symm rfl

/-- The characters of a text in quotes. -/
theorem toList_quoted (s : String) (datatype : Option String) : (Term.quoted s datatype).toList =
    '"' :: (s.toList.flatMap Term.quoteChar ++ '"' :: (datatype.elim "" ("^^" ++ ·)).toList) := by
  cases datatype <;> simp [Term.quoted]

/-- **A text in quotes is set in** as the text itself, in quotes, wherever it stands. -/
theorem setIn_quoted (before s after : String) {datatype : Option String}
    (hd : ∀ d ∈ datatype, '\n' ∉ d.toList ∧ '\r' ∉ d.toList) :
    setIn (before ++ Term.quoted s datatype ++ after) =
      setIn before ++ Term.quoted (setIn s) datatype ++ setIn after := by
  have hplain : ∀ d : Char, d = '\n' ∨ d = '\r' → d ∉ (datatype.elim "" ("^^" ++ ·)).toList := by
    intro d hchar
    cases datatype with
    | none => simp
    | some name =>
      obtain ⟨hlf, hcr⟩ := hd name rfl
      rcases hchar with rfl | rfl
      · simpa using hlf
      · simpa using hcr
  have hquoted : setIn (Term.quoted s datatype) = Term.quoted (setIn s) datatype := by
    refine String.toList_inj.1 ?_
    rw [setIn, String.toList_ofList, toList_quoted, toList_quoted, setInList_cons (by decide) (by simp),
      setInList_append (by simp), setInList_flatMap_quoteChar, setInList_cons (by decide) (by simp),
      setInList_of_not_mem (hplain '\n' (.inl rfl)), setIn, String.toList_ofList]
  have hlast : (before ++ Term.quoted s datatype).toList.getLast? ≠ some '\r' := by
    have hsplit : (before ++ Term.quoted s datatype).toList =
        (before.toList ++ '"' :: s.toList.flatMap Term.quoteChar) ++
          '"' :: (datatype.elim "" ("^^" ++ ·)).toList := by
      rw [String.toList_append, toList_quoted]
      simp
    intro hreturn
    rw [hsplit, List.getLast?_append_of_ne_nil _ (List.cons_ne_nil _ _)] at hreturn
    rcases List.mem_cons.1 (List.mem_of_getLast? hreturn) with hquote | hmem
    · exact absurd hquote (by decide)
    · exact hplain '\r' (.inr rfl) hmem
  rw [setIn_append fun h => absurd h hlast, setIn_append fun _ => ?_, hquoted]
  rw [toList_quoted]
  simp

end Text

namespace Term

/-! ## Reading quotes -/

/-- **Reading up to the closing quote**: the text without the backslashes, and what follows it. -/
def readText : List Char → Option (List Char × List Char)
  | [] => none
  | '"' :: rest => some ([], rest)
  | '\\' :: c :: rest => (readText rest).map (fun read => (c :: read.1, read.2))
  | c :: rest => (readText rest).map (fun read => (c :: read.1, read.2))

/-- **Reading a text in quotes.** -/
def readQuoted : List Char → Option (List Char × List Char)
  | '"' :: rest => readText rest
  | _ => none

theorem readText_quoteChar (cs rest : List Char) :
    readText (cs.flatMap quoteChar ++ '"' :: rest) = some (cs, rest) := by
  induction cs with
  | nil => rfl
  | cons c cs ih =>
    rw [List.flatMap_cons, List.append_assoc, quoteChar]
    split
    · rename_i hc
      subst hc
      simp [readText, ih]
    · split
      · rename_i hc
        subst hc
        simp [readText, ih]
      · rename_i hbackslash hquote
        rw [List.singleton_append, readText, ih]
        · rfl
        · exact hquote
        · intro c' rest' hc
          exact absurd hc hbackslash

/-- **A text in quotes is read back**, and what follows its closing quote is left. -/
theorem readQuoted_quoted (s : String) (datatype : Option String) (rest : List Char) :
    readQuoted ((quoted s datatype).toList ++ rest) =
      some (s.toList, (datatype.elim "" ("^^" ++ ·)).toList ++ rest) := by
  rw [Text.toList_quoted, List.cons_append, List.append_assoc, List.cons_append]
  exact readText_quoteChar s.toList _

end Term

/-! ## Rules in a document -/

namespace RuleDocument

open Text (setIn setInList blanks)

/-- A line as it stands in a document. -/
theorem toList_line (line : String) : ("    " ++ line ++ "\n").toList = blanks ++ line.toList ++ ['\n'] := by
  simp [blanks]

/-- **Lines are set in one by one**, if the last one is not empty. -/
theorem toList_lines {cs : List Char} {last : Char} (hlast : cs.getLast? = some last) (hne : last ≠ '\n') :
    (Text.concat ((Text.lines (String.ofList cs)).map (fun line => "    " ++ line ++ "\n"))).toList =
      blanks ++ setInList cs ++ ['\n'] := by
  -- the first line ends at the first line feed, and the rest is shorter
  induction hn : cs.length using Nat.strongRecOn generalizing cs with
  | ind n ih =>
  subst hn
  by_cases hmem : '\n' ∈ cs
  · obtain ⟨xs, rest, rfl, hxs⟩ := List.eq_append_cons_of_mem hmem
    have hrest : rest.getLast? = some last := by
      rw [List.getLast?_append_of_ne_nil _ (List.cons_ne_nil _ _)] at hlast
      cases rest with
      | nil => exact absurd (Option.some.inj hlast).symm hne
      | cons c rest => exact hlast
    have hshorter : rest.length < (xs ++ '\n' :: rest).length := by
      rw [List.length_append, List.length_cons]
      omega
    rw [Text.lines_append hxs, List.map_cons, Text.concat, String.toList_append, toList_line,
      ih rest.length hshorter hrest rfl, Text.setInList_line hxs, String.toList_ofList]
    simp only [List.append_assoc, List.cons_append, List.nil_append]
  · have hsome : cs ≠ [] := by
      rintro rfl
      cases hlast
    rw [Text.lines_of_not_mem hmem hsome, Text.setInList_of_not_mem hmem]
    simp [Text.concat, blanks]

/-- **A rule in a document** is its text, set in. -/
theorem ruleLines_eq (r : Rule) : ruleLines r = "    " ++ setIn r.render ++ "\n" := by
  have hlast : r.render.toList.getLast? = some ')' := by
    have hend : "\n)".toList = ['\n', ')'] := by simp
    obtain ⟨front, hfront⟩ : ∃ front, r.render = front ++ "\n)" := ⟨_, rfl⟩
    rw [hfront, String.toList_append, hend, List.getLast?_append_of_ne_nil _ (List.cons_ne_nil _ _)]
    rfl
  have hlines := toList_lines hlast (by decide)
  rw [String.ofList_toList] at hlines
  refine String.toList_inj.1 ?_
  rw [ruleLines, hlines, toList_line, setIn, String.toList_ofList]

/-- What stands before a rule in a document, with the rules before it. -/
def opening (d : RuleDocument) (before : List Rule) : String :=
  "Document(\n" ++ Text.concat (d.prefixes.entries.map prefixLine) ++ "  Group(\n" ++
    Text.concat (before.map ruleLines) ++ "    "

/-- What stands behind a rule in a document, with the rules behind it. -/
def closing (after : List Rule) : String := "\n" ++ Text.concat (after.map ruleLines) ++ "  )\n)"

/-- **A document around one of its rules.** -/
theorem render_split {d : RuleDocument} {before after : List Rule} {r : Rule} (h : d.rules = before ++ r :: after) :
    d.render = d.opening before ++ setIn r.render ++ closing after := by
  unfold render opening closing
  rw [h, List.map_append, Text.concat_append, List.map_cons, Text.concat, ruleLines_eq]
  simp only [String.append_assoc]

end RuleDocument

end FeatureAlignment
