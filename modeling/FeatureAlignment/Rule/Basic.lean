import FeatureAlignment.TextMap

/-!
# Rules

A rule of the interchange format says that its head holds whenever its body
does, for all values of its variables.

* `Term`, `Formula`, `Rule` and `RuleDocument` are the parts of the format; `Term.same` and
  `Formula.same` compare them.
* `render` writes each of them in presentation syntax.
-/

namespace FeatureAlignment

/-- **A term**: a variable, a constant with its datatype, a symbol, or the value of
a function. Constants without datatype are texts. -/
inductive Term
  | variable (name : String)
  | constant (lexical : String) (datatype : Option String)
  | symbol (name : String)
  | call (function : String) (arguments : List Term)
  deriving Repr

namespace Term

mutual

/-- Whether two terms are the same. -/
def same : Term → Term → Bool
  | .variable a, .variable b => a == b
  | .constant a d, .constant b e => a == b && d == e
  | .symbol a, .symbol b => a == b
  | .call f as, .call g bs => f == g && sameAll as bs
  | _, _ => false

/-- Whether terms are the same, one by one. -/
def sameAll : List Term → List Term → Bool
  | [], [] => true
  | t :: ts, u :: us => t.same u && sameAll ts us
  | _, _ => false

end

mutual

theorem same_iff : ∀ t u : Term, t.same u = true ↔ t = u
  | .call f as, u => by cases u <;> simp [same, sameAll_iff as]
  | .variable a, u => by cases u <;> simp [same]
  | .constant a d, u => by cases u <;> simp [same]
  | .symbol a, u => by cases u <;> simp [same]

theorem sameAll_iff : ∀ ts us : List Term, sameAll ts us = true ↔ ts = us
  | [], us => by cases us <;> simp [sameAll]
  | t :: ts, us => by cases us <;> simp [sameAll, same_iff t, sameAll_iff ts]

end

instance : DecidableEq Term := fun t u => decidable_of_iff _ (same_iff t u)

/-- A character inside the quotes of a constant. -/
def quoteChar (c : Char) : List Char :=
  if c = '\\' then ['\\', '\\'] else if c = '"' then ['\\', '"'] else [c]

/-- **The text of a constant**: in quotes, with backslashes before quotes and
backslashes, and the datatype behind. -/
def quoted (lexical : String) (datatype : Option String) : String :=
  "\"" ++ String.ofList (lexical.toList.flatMap quoteChar) ++ "\"" ++
    (match datatype with
    | some d => "^^" ++ d
    | none => "")

mutual

/-- **The text of a term.** -/
def render : Term → String
  | .variable name => "?" ++ name
  | .constant lexical datatype => quoted lexical datatype
  | .symbol name => name
  | .call function arguments =>
    "External(" ++ function ++ "(" ++ Text.join " " (renderAll arguments) ++ "))"

/-- The texts of terms. -/
def renderAll : List Term → List String
  | [] => []
  | t :: ts => t.render :: renderAll ts

end

end Term

/-- **A formula**: a conjunction, a disjunction, a negation, an equality, a
predicate, the membership of an object in a class, or the value of a slot of an
object. -/
inductive Formula
  | all (parts : List Formula)
  | any (parts : List Formula)
  | not (part : Formula)
  | equal (left right : Term)
  | test (predicate : String) (arguments : List Term)
  | member (object kind : Term)
  | frame (object slot value : Term)
  deriving Repr

namespace Formula

mutual

/-- Whether two formulas are the same. -/
def same : Formula → Formula → Bool
  | .all fs, .all gs => sameAll fs gs
  | .any fs, .any gs => sameAll fs gs
  | .not f, .not g => f.same g
  | .equal l r, .equal l' r' => l = l' && r = r'
  | .test p as, .test q bs => p == q && as = bs
  | .member o k, .member o' k' => o = o' && k = k'
  | .frame o s v, .frame o' s' v' => o = o' && s = s' && v = v'
  | _, _ => false

/-- Whether formulas are the same, one by one. -/
def sameAll : List Formula → List Formula → Bool
  | [], [] => true
  | f :: fs, g :: gs => f.same g && sameAll fs gs
  | _, _ => false

end

mutual

theorem same_iff : ∀ f g : Formula, f.same g = true ↔ f = g
  | .all fs, g => by cases g <;> simp [same, sameAll_iff fs]
  | .any fs, g => by cases g <;> simp [same, sameAll_iff fs]
  | .not f, g => by cases g <;> simp [same, same_iff f]
  | .equal l r, g => by cases g <;> simp [same]
  | .test p as, g => by cases g <;> simp [same]
  | .member o k, g => by cases g <;> simp [same]
  | .frame o s v, g => by cases g <;> simp [same, and_assoc]

theorem sameAll_iff : ∀ fs gs : List Formula, sameAll fs gs = true ↔ fs = gs
  | [], gs => by cases gs <;> simp [sameAll]
  | f :: fs, gs => by cases gs <;> simp [sameAll, same_iff f, sameAll_iff fs]

end

instance : DecidableEq Formula := fun f g => decidable_of_iff _ (same_iff f g)

mutual

/-- **The text of a formula.** -/
def render : Formula → String
  | .all parts => "And(" ++ Text.join " " (renderAll parts) ++ ")"
  | .any parts => "Or(" ++ Text.join " " (renderAll parts) ++ ")"
  | .not part => "Not(" ++ part.render ++ ")"
  | .equal left right => left.render ++ " = " ++ right.render
  | .test predicate arguments =>
    "External(" ++ predicate ++ "(" ++ Text.join " " (Term.renderAll arguments) ++ "))"
  | .member object kind => object.render ++ " # " ++ kind.render
  | .frame object slot value => object.render ++ "[" ++ slot.render ++ " -> " ++ value.render ++ "]"

/-- The texts of formulas. -/
def renderAll : List Formula → List String
  | [] => []
  | f :: fs => f.render :: renderAll fs

end

end Formula

/-- **A rule** with its identifier, its variables, head and body. -/
structure Rule where
  id : String
  quantified : List String
  head : Formula
  body : Formula
  deriving DecidableEq, Repr

/-- **The text of a rule**, on four lines. -/
def Rule.render (r : Rule) : String :=
  "(* \"" ++ r.id ++ "\" *)\n" ++
    "Forall " ++ Text.join " " (r.quantified.map (fun v => "?" ++ v)) ++ " (\n" ++
    "  " ++ r.head.render ++ " :- " ++ r.body.render ++ "\n)"

/-- **A document of rules** with the prefixes that its symbols use. -/
structure RuleDocument where
  prefixes : TextMap
  rules : List Rule
  deriving DecidableEq, Repr

namespace RuleDocument

/-- The line of a prefix. -/
def prefixLine (e : String × String) : String := "  Prefix(" ++ e.1 ++ " <" ++ e.2 ++ ">)\n"

/-- The lines of a rule, indented. -/
def ruleLines (r : Rule) : String := Text.concat ((Text.lines r.render).map (fun line => "    " ++ line ++ "\n"))

/-- **The text of a document of rules.** -/
def render (d : RuleDocument) : String :=
  "Document(\n" ++ Text.concat (d.prefixes.entries.map prefixLine) ++
    "  Group(\n" ++ Text.concat (d.rules.map ruleLines) ++ "  )\n)"

end RuleDocument

end FeatureAlignment
