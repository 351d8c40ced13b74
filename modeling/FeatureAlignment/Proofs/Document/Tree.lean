import FeatureAlignment.Document.Xml
import FeatureAlignment.Proofs.Text

/-!
# Trees of XML elements

A document in XML is a tree: an element has a text or other elements inside. The lines of a tree tell it,
whatever the texts are. An opening bracket never belongs to a text, so what stands before the next one is
the whole text, or the blanks before a tag. A text may still look like lines, and therefore a tag has to have
a text inside always or never.

* `Xml.readText`: an escaped text is read back up to the next tag.
* `Xml.Node`, `Xml.Node.lines`: trees, and their lines.
* `Xml.Node.Fits`: trees whose tags can be tags, and tell texts from elements.
* `Xml.Node.lines_inj`, `Xml.Node.linesAll_inj`: such trees are told by their lines.
-/

namespace FeatureAlignment

namespace Xml

/-! ## Escaped texts -/

/-- **Reading character data** up to the next opening bracket: the text, and what follows the bracket. -/
def readText : List Char → List Char × List Char
  | [] => ([], [])
  | '<' :: rest => ([], rest)
  | '&' :: 'a' :: 'm' :: 'p' :: ';' :: rest => ('&' :: (readText rest).1, (readText rest).2)
  | '&' :: 'l' :: 't' :: ';' :: rest => ('<' :: (readText rest).1, (readText rest).2)
  | '&' :: 'g' :: 't' :: ';' :: rest => ('>' :: (readText rest).1, (readText rest).2)
  | '&' :: 'q' :: 'u' :: 'o' :: 't' :: ';' :: rest => ('"' :: (readText rest).1, (readText rest).2)
  | '&' :: 'a' :: 'p' :: 'o' :: 's' :: ';' :: rest => ('\'' :: (readText rest).1, (readText rest).2)
  | c :: rest => (c :: (readText rest).1, (readText rest).2)

theorem readText_escapeChar (c : Char) (rest : List Char) :
    readText ((escapeChar c).toList ++ rest) = (c :: (readText rest).1, (readText rest).2) := by
  by_cases hamp : c = '&'
  · subst hamp; simp [escapeChar, readText]
  by_cases hlt : c = '<'
  · subst hlt; simp [escapeChar, readText]
  by_cases hgt : c = '>'
  · subst hgt; simp [escapeChar, readText]
  by_cases hquot : c = '"'
  · subst hquot; simp [escapeChar, readText]
  by_cases hapos : c = '\''
  · subst hapos; simp [escapeChar, readText]
  simp [escapeChar, readText, hamp, hlt, hgt, hquot, hapos]

theorem toList_concat (texts : List String) : (Text.concat texts).toList = texts.flatMap String.toList := by
  induction texts with
  | nil => rfl
  | cons s texts ih => rw [Text.concat, String.toList_append, ih, List.flatMap_cons]

/-- **An escaped text is read back**, and what follows its tag is left. -/
theorem readText_escape (s : String) (rest : List Char) :
    readText ((escape s).toList ++ '<' :: rest) = (s.toList, rest) := by
  have hchars : ∀ cs : List Char,
      readText (cs.flatMap (fun c => (escapeChar c).toList) ++ '<' :: rest) = (cs, rest) := by
    intro cs
    induction cs with
    | nil => rfl
    | cons c cs ih => rw [List.flatMap_cons, List.append_assoc, readText_escapeChar, ih]
  unfold escape
  rw [toList_concat, List.flatMap_map]
  exact hchars s.toList

/-- So it is told, and so is what follows. -/
theorem escape_inj {s t : String} {r r' : List Char}
    (h : (escape s).toList ++ '<' :: r = (escape t).toList ++ '<' :: r') : s = t ∧ r = r' := by
  have hread := congrArg readText h
  rw [readText_escape, readText_escape, Prod.mk.injEq] at hread
  exact ⟨String.toList_inj.1 hread.1, hread.2⟩

/-! ## Lines -/

/-- **Lines as they are written**, each with its line end. -/
def written (lines : List String) : List Char := lines.flatMap (fun line => line.toList ++ ['\n'])

theorem written_append (lines more : List String) : written (lines ++ more) = written lines ++ written more :=
  List.flatMap_append

/-- Joined lines are written lines without the last line end. -/
theorem written_join {lines : List String} (h : lines ≠ []) :
    written lines = (Text.join "\n" lines).toList ++ ['\n'] := by
  induction lines with
  | nil => exact absurd rfl h
  | cons line lines ih =>
    cases lines with
    | nil => simp [written, Text.join]
    | cons next lines =>
      have hrest := ih (List.cons_ne_nil _ _)
      unfold written at hrest ⊢
      rw [List.flatMap_cons, hrest, Text.join]
      simp

theorem lt_not_mem_indent (level : Nat) : '<' ∉ (indent level).toList := by
  simp [indent, Text.replicate, List.mem_replicate]

/-- The line of a text, piece by piece. -/
theorem written_leaf (level : Nat) (tag text : String) (rest : List Char) :
    written [leaf level tag text] ++ rest =
      (indent level).toList ++ '<' :: (tag.toList ++ '>' ::
        ((escape text).toList ++ '<' :: ('/' :: (tag.toList ++ '>' :: '\n' :: rest)))) := by
  simp [written, leaf]

/-- The lines of an element, piece by piece. -/
theorem written_element (level : Nat) (tag : String) (content : List String) (rest : List Char) :
    written (element level tag content) ++ rest =
      (indent level).toList ++ '<' :: (tag.toList ++ '>' :: '\n' ::
        (written content ++ ((indent level).toList ++ '<' :: '/' :: (tag.toList ++ '>' :: '\n' :: rest)))) := by
  simp [written, element, opening, closing]

/-! ## Trees -/

/-- **A tree**: an element with a text, or one with elements inside. -/
inductive Node where
  | leaf (tag text : String)
  | element (tag : String) (content : List Node)

mutual

/-- **The lines of a tree** at a level. -/
def Node.lines (level : Nat) : Node → List String
  | .leaf tag text => [Xml.leaf level tag text]
  | .element tag content => Xml.element level tag (Node.linesAll (level + 1) content)

/-- The lines of trees, one after another. -/
def Node.linesAll (level : Nat) : List Node → List String
  | [] => []
  | x :: xs => Node.lines level x ++ Node.linesAll level xs

end

/-- Whether a tag can stand in brackets and is not taken for a closing one. -/
def IsTag (tag : String) : Prop := '>' ∉ tag.toList ∧ tag.toList.head? ≠ some '/'

instance (tag : String) : Decidable (IsTag tag) := inferInstanceAs (Decidable (_ ∧ _))

/-- **A tree fits** tags of texts when a text stands under those only, and every tag can be one. -/
inductive Node.Fits (isText : String → Bool) : Node → Prop
  | leaf {tag text : String} (htag : IsTag tag) (htext : isText tag = true) : Fits isText (.leaf tag text)
  | element {tag : String} {content : List Node} (htag : IsTag tag) (htext : isText tag = false)
      (hcontent : ∀ x ∈ content, Fits isText x) : Fits isText (.element tag content)

namespace Node

variable {isText : String → Bool} {level outer : Nat}

/-- The tag of a tree. -/
def tag : Node → String
  | leaf tag _ => tag
  | element tag _ => tag

/-- What a tree opens with: blanks, and its tag in brackets. -/
theorem written_lines (level : Nat) (x : Node) (rest : List Char) : ∃ inside,
    written (x.lines level) ++ rest = (indent level).toList ++ '<' :: (x.tag.toList ++ '>' :: inside) := by
  cases x with
  | leaf tag text => exact ⟨_, by rw [lines, written_leaf]; rfl⟩
  | element tag content => exact ⟨_, by rw [lines, written_element]; rfl⟩

theorem Fits.isTag {x : Node} (h : x.Fits isText) : IsTag x.tag := by
  cases h with
  | leaf htag => exact htag
  | element htag => exact htag

/-- No tree opens like a closing tag. -/
theorem lines_ne_closing {x : Node} (hx : x.Fits isText) {r s : List Char} :
    written (x.lines level) ++ r ≠ (indent outer).toList ++ '<' :: '/' :: s := by
  intro h
  obtain ⟨inside, hopen⟩ := written_lines level x r
  rw [hopen] at h
  have hopens := (Text.until_inj (lt_not_mem_indent level) (lt_not_mem_indent outer) h).2
  have hslash := hx.isTag.2
  cases htag : x.tag.toList with
  | nil => rw [htag] at hopens; simp at hopens
  | cons c cs =>
    rw [htag] at hopens hslash
    exact hslash (congrArg some (List.cons.inj hopens).1)

/-- The tag of a tree is told by its lines. -/
theorem tag_inj {x y : Node} (hx : x.Fits isText) (hy : y.Fits isText) {r r' : List Char}
    (h : written (x.lines level) ++ r = written (y.lines level) ++ r') : x.tag = y.tag := by
  obtain ⟨inside, hopen⟩ := written_lines level x r
  obtain ⟨inside', hopen'⟩ := written_lines level y r'
  rw [hopen, hopen'] at h
  have hopens := (Text.until_inj (lt_not_mem_indent level) (lt_not_mem_indent level) h).2
  exact String.toList_inj.1 (Text.until_inj hx.isTag.1 hy.isTag.1 hopens).1

mutual

/-- **A tree is told by its lines**, and so is what follows them. -/
theorem lines_inj {level : Nat} {x y : Node} (hx : x.Fits isText) (hy : y.Fits isText) {r r' : List Char}
    (h : written (x.lines level) ++ r = written (y.lines level) ++ r') : x = y ∧ r = r' := by
  have htags := tag_inj hx hy h
  cases hx with
  | @leaf tag text htag htext =>
    cases hy with
    | @leaf tag' text' =>
      obtain rfl : tag = tag' := htags
      rw [lines, lines, written_leaf, written_leaf] at h
      simp only [List.append_cancel_left_eq, List.cons.injEq, true_and] at h
      obtain ⟨rfl, hrest⟩ := escape_inj h
      simp only [List.append_cancel_left_eq, List.cons.injEq, true_and] at hrest
      exact ⟨rfl, hrest⟩
    | @element tag' content' htag' htext' =>
      -- one tag cannot have a text here and elements there
      obtain rfl : tag = tag' := htags
      rw [htext] at htext'
      cases htext'
  | @element tag content htag htext hcontent =>
    cases hy with
    | @leaf tag' text' htag' htext' =>
      obtain rfl : tag = tag' := htags
      rw [htext] at htext'
      cases htext'
    | @element tag' content' htag' htext' hcontent' =>
      obtain rfl : tag = tag' := htags
      rw [lines, lines, written_element, written_element] at h
      simp only [List.append_cancel_left_eq, List.cons.injEq, true_and] at h
      obtain ⟨rfl, hrest⟩ := linesAll_inj hcontent hcontent' h
      simp only [List.append_cancel_left_eq, List.cons.injEq, true_and] at hrest
      exact ⟨rfl, hrest⟩

/-- **Trees inside an element are told by their lines**, up to its closing tag. -/
theorem linesAll_inj {level outer : Nat} {xs ys : List Node} (hxs : ∀ x ∈ xs, x.Fits isText)
    (hys : ∀ y ∈ ys, y.Fits isText) {s s' : List Char}
    (h : written (linesAll level xs) ++ ((indent outer).toList ++ '<' :: '/' :: s) =
      written (linesAll level ys) ++ ((indent outer).toList ++ '<' :: '/' :: s')) : xs = ys ∧ s = s' := by
  match xs, ys with
  | [], [] =>
    simp only [List.append_cancel_left_eq, List.cons.injEq, true_and] at h
    exact ⟨rfl, h⟩
  | [], y :: ys =>
    -- a closing tag on one side, a tree on the other
    rw [linesAll, linesAll, written_append, List.append_assoc] at h
    exact absurd h.symm (lines_ne_closing (hys y List.mem_cons_self))
  | x :: xs, [] =>
    rw [linesAll, linesAll, written_append, List.append_assoc] at h
    exact absurd h (lines_ne_closing (hxs x List.mem_cons_self))
  | x :: xs, y :: ys =>
    rw [linesAll, linesAll, written_append, written_append, List.append_assoc, List.append_assoc] at h
    obtain ⟨rfl, hrest⟩ := lines_inj (hxs x List.mem_cons_self) (hys y List.mem_cons_self) h
    obtain ⟨rfl, hs⟩ := linesAll_inj (fun z hz => hxs z (List.mem_cons_of_mem x hz))
      (fun z hz => hys z (List.mem_cons_of_mem x hz)) hrest
    exact ⟨rfl, hs⟩

end

end Node

end Xml

end FeatureAlignment
