import FeatureAlignment.Proofs.Rule.Indented

/-!
# Where constants occur in rules

A constant stands in the text of a rule between the texts of what comes before it and behind it. The occurrences of
constants are collected over terms and formulas, in the order of the text.

* `Occurrence`: a constant with the text before it and behind it.
* `Term.constants`, `Formula.constants`, `Rule.constants`: the constants themselves, from left to right.
* `Rule.occurrences`: where they occur in the text of a rule.
* `Rule.shows_occurrences`, `Rule.constant_occurrences`: that is its text, and these are all its constants.
* `RuleDocument.render_occurrence`: where they occur in the text of a document.
-/

namespace FeatureAlignment

/-! ## Occurrences -/

/-- **A constant in a text**, with what stands before it and behind it. -/
structure Occurrence where
  before : String
  lexical : String
  datatype : Option String
  after : String
  deriving DecidableEq, Repr

namespace Occurrence

/-- The text in which a constant occurs. -/
def text (o : Occurrence) : String := o.before ++ Term.quoted o.lexical o.datatype ++ o.after

/-- The constant itself. -/
def constant (o : Occurrence) : String × Option String := (o.lexical, o.datatype)

/-- The same constant in a longer text. -/
def within (before after : String) (o : Occurrence) : Occurrence :=
  ⟨before ++ o.before, o.lexical, o.datatype, o.after ++ after⟩

theorem text_within (before after : String) (o : Occurrence) :
    (o.within before after).text = before ++ o.text ++ after := by
  simp only [text, within, String.append_assoc]

@[simp] theorem constant_within (before after : String) (o : Occurrence) :
    (o.within before after).constant = o.constant := rfl

/-- **Occurrences in joined texts**, each text given with its own ones. -/
def joined : List (String × List Occurrence) → List Occurrence
  | [] => []
  | [part] => part.2
  | part :: next :: rest =>
    part.2.map (within "" (" " ++ Text.join " " ((next :: rest).map Prod.fst))) ++
      (joined (next :: rest)).map (within (part.1 ++ " ") "")

/-- A text with the occurrences of constants in it. -/
def Shows (os : List Occurrence) (text : String) : Prop := ∀ o ∈ os, o.text = text

variable {os os' : List Occurrence} {text text' : String}

theorem Shows.within (h : Shows os text) (before after : String) :
    Shows (os.map (within before after)) (before ++ text ++ after) := by
  intro o' ho'
  obtain ⟨o, ho, rfl⟩ := List.mem_map.1 ho'
  rw [text_within, h o ho]

theorem Shows.append (h : Shows os text) (h' : Shows os' text) : Shows (os ++ os') text := by
  intro o ho
  rcases List.mem_append.1 ho with ho | ho
  · exact h o ho
  · exact h' o ho

/-- Joined texts have the occurrences of each of them. -/
theorem shows_joined {parts : List (String × List Occurrence)} (h : ∀ part ∈ parts, Shows part.2 part.1) :
    Shows (joined parts) (Text.join " " (parts.map Prod.fst)) := by
  induction parts with
  | nil => exact fun o ho => (List.not_mem_nil ho).elim
  | cons part rest ih =>
    have hfirst := h part List.mem_cons_self
    have hrest := ih fun p hp => h p (List.mem_cons_of_mem _ hp)
    cases rest with
    | nil => exact hfirst
    | cons next rest =>
      have hjoin : Text.join " " ((part :: next :: rest).map Prod.fst) =
          part.1 ++ " " ++ Text.join " " ((next :: rest).map Prod.fst) := rfl
      rw [hjoin]
      refine Shows.append ?_ ?_
      · simpa [String.append_assoc] using hfirst.within "" (" " ++ Text.join " " ((next :: rest).map Prod.fst))
      · simpa using hrest.within (part.1 ++ " ") ""

/-- Occurrences in joined texts with something around them. -/
def enclosed (before : String) (parts : List (String × List Occurrence)) (after : String) : List Occurrence :=
  (joined parts).map (within before after)

theorem shows_enclosed {parts : List (String × List Occurrence)} (h : ∀ part ∈ parts, Shows part.2 part.1)
    (before after : String) :
    Shows (enclosed before parts after) (before ++ Text.join " " (parts.map Prod.fst) ++ after) :=
  (shows_joined h).within before after

theorem constant_joined (parts : List (String × List Occurrence)) :
    (joined parts).map constant = parts.flatMap (fun part => part.2.map constant) := by
  induction parts with
  | nil => rfl
  | cons part rest ih =>
    cases rest with
    | nil => simp [joined]
    | cons next rest =>
      rw [joined, List.map_append, List.flatMap_cons, ← ih]
      simp [Function.comp_def]

theorem constant_enclosed (before : String) (parts : List (String × List Occurrence)) (after : String) :
    (enclosed before parts after).map constant = parts.flatMap (fun part => part.2.map constant) := by
  rw [enclosed, List.map_map, ← constant_joined]
  rfl

end Occurrence

open Occurrence (Shows enclosed shows_enclosed constant_enclosed)

namespace Term

mutual

/-- **The constants of a term**, from left to right. -/
def constants : Term → List (String × Option String)
  | .variable _ => []
  | .constant lexical datatype => [(lexical, datatype)]
  | .symbol _ => []
  | .call _ arguments => constantsAll arguments

/-- The constants of terms, one term after the other. -/
def constantsAll : List Term → List (String × Option String)
  | [] => []
  | t :: ts => t.constants ++ constantsAll ts

end

mutual

/-- **Where constants occur** in the text of a term. -/
def occurrences : Term → List Occurrence
  | .variable _ => []
  | .constant lexical datatype => [⟨"", lexical, datatype, ""⟩]
  | .symbol _ => []
  | .call function arguments => enclosed ("External(" ++ function ++ "(") (parts arguments) "))"

/-- The texts of terms, with where constants occur in them. -/
def parts : List Term → List (String × List Occurrence)
  | [] => []
  | t :: ts => (t.render, t.occurrences) :: parts ts

end

theorem fst_parts (ts : List Term) : (parts ts).map Prod.fst = renderAll ts := by
  induction ts with
  | nil => rfl
  | cons t ts ih => rw [parts, List.map_cons, ih, renderAll]

mutual

theorem shows_occurrences : ∀ t : Term, Shows t.occurrences t.render
  | .variable _ => fun _ ho => (List.not_mem_nil ho).elim
  | .constant lexical datatype => by
    intro o ho
    rw [List.mem_singleton.1 ho]
    simp [Occurrence.text, render]
  | .symbol _ => fun _ ho => (List.not_mem_nil ho).elim
  | .call function arguments => by
    rw [occurrences, render, ← fst_parts]
    exact shows_enclosed (shows_parts arguments) _ _

theorem shows_parts : ∀ ts : List Term, ∀ part ∈ parts ts, Shows part.2 part.1
  | [] => fun _ hpart => (List.not_mem_nil hpart).elim
  | t :: ts => by
    intro part hpart
    rcases List.mem_cons.1 hpart with rfl | hpart
    · exact shows_occurrences t
    · exact shows_parts ts part hpart

end

mutual

theorem constant_occurrences : ∀ t : Term, t.occurrences.map Occurrence.constant = t.constants
  | .variable _ => rfl
  | .constant _ _ => rfl
  | .symbol _ => rfl
  | .call function arguments => by
    rw [occurrences, constant_enclosed, constants, constant_parts]

theorem constant_parts : ∀ ts : List Term,
    (parts ts).flatMap (fun part => part.2.map Occurrence.constant) = constantsAll ts
  | [] => rfl
  | t :: ts => by
    rw [parts, List.flatMap_cons, constantsAll, constant_occurrences t, constant_parts ts]

end

end Term

namespace Formula

mutual

/-- **The constants of a formula**, from left to right. -/
def constants : Formula → List (String × Option String)
  | .all parts => constantsAll parts
  | .any parts => constantsAll parts
  | .not part => part.constants
  | .equal left right => left.constants ++ right.constants
  | .test _ arguments => Term.constantsAll arguments
  | .member object kind => object.constants ++ kind.constants
  | .frame object slot value => object.constants ++ slot.constants ++ value.constants

/-- The constants of formulas, one formula after the other. -/
def constantsAll : List Formula → List (String × Option String)
  | [] => []
  | f :: fs => f.constants ++ constantsAll fs

end

theorem constantsAll_append (fs gs : List Formula) : constantsAll (fs ++ gs) = constantsAll fs ++ constantsAll gs := by
  induction fs with
  | nil => rfl
  | cons f fs ih => rw [List.cons_append, constantsAll, constantsAll, ih, List.append_assoc]

/-- Where constants occur in two terms with a sign between them. -/
def between (left : Term) (sign : String) (right : Term) : List Occurrence :=
  left.occurrences.map (.within "" (sign ++ right.render)) ++ right.occurrences.map (.within (left.render ++ sign) "")

mutual

/-- **Where constants occur** in the text of a formula. -/
def occurrences : Formula → List Occurrence
  | .all fs => enclosed "And(" (parts fs) ")"
  | .any fs => enclosed "Or(" (parts fs) ")"
  | .not f => f.occurrences.map (.within "Not(" ")")
  | .equal left right => between left " = " right
  | .test predicate arguments => enclosed ("External(" ++ predicate ++ "(") (Term.parts arguments) "))"
  | .member object kind => between object " # " kind
  | .frame object slot value =>
    object.occurrences.map (.within "" ("[" ++ slot.render ++ " -> " ++ value.render ++ "]")) ++
      (between slot " -> " value).map (.within (object.render ++ "[") "]")

/-- The texts of formulas, with where constants occur in them. -/
def parts : List Formula → List (String × List Occurrence)
  | [] => []
  | f :: fs => (f.render, f.occurrences) :: parts fs

end

theorem fst_parts (fs : List Formula) : (parts fs).map Prod.fst = renderAll fs := by
  induction fs with
  | nil => rfl
  | cons f fs ih => rw [parts, List.map_cons, ih, renderAll]

theorem shows_between (left : Term) (sign : String) (right : Term) :
    Shows (between left sign right) (left.render ++ sign ++ right.render) := by
  have hleft := left.shows_occurrences.within "" (sign ++ right.render)
  have hright := right.shows_occurrences.within (left.render ++ sign) ""
  rw [String.empty_append, ← String.append_assoc] at hleft
  rw [String.append_empty] at hright
  exact hleft.append hright

theorem constant_between (left : Term) (sign : String) (right : Term) :
    (between left sign right).map Occurrence.constant = left.constants ++ right.constants := by
  rw [between, List.map_append, List.map_map, List.map_map, ← left.constant_occurrences, ← right.constant_occurrences]
  rfl

mutual

theorem shows_occurrences : ∀ f : Formula, Shows f.occurrences f.render
  | .all fs => by
    rw [occurrences, render, ← fst_parts]
    exact shows_enclosed (shows_parts fs) _ _
  | .any fs => by
    rw [occurrences, render, ← fst_parts]
    exact shows_enclosed (shows_parts fs) _ _
  | .not f => by
    rw [occurrences, render]
    exact (shows_occurrences f).within _ _
  | .equal left right => shows_between left " = " right
  | .test predicate arguments => by
    rw [occurrences, render, ← Term.fst_parts]
    exact shows_enclosed (Term.shows_parts arguments) _ _
  | .member object kind => shows_between object " # " kind
  | .frame object slot value => by
    have hobject := object.shows_occurrences.within "" ("[" ++ slot.render ++ " -> " ++ value.render ++ "]")
    have hslot := (shows_between slot " -> " value).within (object.render ++ "[") "]"
    simp only [String.empty_append, ← String.append_assoc] at hobject hslot
    rw [occurrences, render]
    exact hobject.append hslot

theorem shows_parts : ∀ fs : List Formula, ∀ part ∈ parts fs, Shows part.2 part.1
  | [] => fun _ hpart => (List.not_mem_nil hpart).elim
  | f :: fs => by
    intro part hpart
    rcases List.mem_cons.1 hpart with rfl | hpart
    · exact shows_occurrences f
    · exact shows_parts fs part hpart

end

mutual

theorem constant_occurrences : ∀ f : Formula, f.occurrences.map Occurrence.constant = f.constants
  | .all fs => by
    rw [occurrences, constant_enclosed, constants, constant_parts]
  | .any fs => by
    rw [occurrences, constant_enclosed, constants, constant_parts]
  | .not f => by
    rw [occurrences, List.map_map, constants, ← constant_occurrences f]
    rfl
  | .equal left right => constant_between left " = " right
  | .test predicate arguments => by
    rw [occurrences, constant_enclosed, constants, Term.constant_parts]
  | .member object kind => constant_between object " # " kind
  | .frame object slot value => by
    rw [occurrences, List.map_append, List.map_map, List.map_map, constants, List.append_assoc,
      ← constant_between slot " -> " value, ← object.constant_occurrences]
    rfl

theorem constant_parts : ∀ fs : List Formula,
    (parts fs).flatMap (fun part => part.2.map Occurrence.constant) = constantsAll fs
  | [] => rfl
  | f :: fs => by
    rw [parts, List.flatMap_cons, constantsAll, constant_occurrences f, constant_parts fs]

end

end Formula

namespace Rule

/-- What stands before the head in the text of a rule. -/
def opening (r : Rule) : String :=
  "(* \"" ++ r.id ++ "\" *)\n" ++ "Forall " ++ Text.join " " (r.quantified.map (fun v => "?" ++ v)) ++ " (\n" ++ "  "

/-- **The constants of a rule**: those of its head, and those of its body. -/
def constants (r : Rule) : List (String × Option String) := r.head.constants ++ r.body.constants

/-- **Where constants occur** in the text of a rule. -/
def occurrences (r : Rule) : List Occurrence :=
  r.head.occurrences.map (.within r.opening (" :- " ++ r.body.render ++ "\n)")) ++
    r.body.occurrences.map (.within (r.opening ++ r.head.render ++ " :- ") "\n)")

theorem render_eq (r : Rule) : r.render = r.opening ++ r.head.render ++ " :- " ++ r.body.render ++ "\n)" := rfl

theorem shows_occurrences (r : Rule) : Shows r.occurrences r.render := by
  have hhead := r.head.shows_occurrences.within r.opening (" :- " ++ r.body.render ++ "\n)")
  have hbody := r.body.shows_occurrences.within (r.opening ++ r.head.render ++ " :- ") "\n)"
  simp only [← String.append_assoc] at hhead
  rw [render_eq]
  exact hhead.append hbody

theorem constant_occurrences (r : Rule) : r.occurrences.map Occurrence.constant = r.constants := by
  rw [occurrences, List.map_append, List.map_map, List.map_map, constants, ← r.head.constant_occurrences,
    ← r.body.constant_occurrences]
  rfl

end Rule

/-! ## Documents -/

namespace Occurrence

/-- **What is read at the place of a constant**: the text in the quotes that stand there. -/
def read? (o : Occurrence) : Option String :=
  (Term.readQuoted (o.text.toList.drop o.before.length)).map (fun read => String.ofList read.1)

/-- **A constant is read back** where it stands. -/
theorem read?_eq (o : Occurrence) : o.read? = some o.lexical := by
  have hplace : o.text.toList.drop o.before.length = (Term.quoted o.lexical o.datatype).toList ++ o.after.toList := by
    rw [text, String.toList_append, String.toList_append, List.append_assoc, ← String.length_toList,
      List.drop_left]
  rw [read?, hplace, Term.readQuoted_quoted, Option.map_some, String.ofList_toList]

/-- **The same place in a text that is set in.** -/
def setIn (o : Occurrence) : Occurrence :=
  ⟨Text.setIn o.before, Text.setIn o.lexical, o.datatype, Text.setIn o.after⟩

/-- A datatype without line ends. -/
def Plain (o : Occurrence) : Prop := ∀ d ∈ o.datatype, '\n' ∉ d.toList ∧ '\r' ∉ d.toList

theorem Plain.text_setIn {o : Occurrence} (h : o.Plain) : o.setIn.text = Text.setIn o.text :=
  (Text.setIn_quoted o.before o.lexical o.after h).symm

end Occurrence

/-- **The place of a constant in a document**, given its place in the text of its rule. -/
theorem RuleDocument.render_occurrence {d : RuleDocument} {before after : List Rule} {rule : Rule}
    (hsplit : d.rules = before ++ rule :: after) {o : Occurrence} (ho : o ∈ rule.occurrences) (hplain : o.Plain) :
    d.render = (o.setIn.within (d.opening before) (closing after)).text := by
  rw [render_split hsplit, Occurrence.text_within, hplain.text_setIn, rule.shows_occurrences o ho]

end FeatureAlignment
