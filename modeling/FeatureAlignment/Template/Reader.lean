import FeatureAlignment.Template.Basic

/-!
# Reading templates

Outputs stand in double braces, tags in braces with percent signs, comments in
braces with number signs. A tag or comment that begins its line takes the blanks before
it, and every one takes the line end behind it; one line end at the very end of
the template does not count.

* `Template.tokens?` cuts a template into text, outputs and tags.
* `Template.read?` assembles the parts.
-/

namespace FeatureAlignment

namespace Template

/-- **A token of a template.** -/
inductive Token
  | text (s : List Char)
  | output (content : List Char)
  | tag (content : List Char)
  deriving DecidableEq, Repr

/-- The characters before and after the first pair of these characters. -/
def splitAt? (first second : Char) : List Char → Option (List Char × List Char)
  | c :: d :: rest =>
    if c = first ∧ d = second then some ([], rest)
    else (splitAt? first second (d :: rest)).map (fun p => (c :: p.1, p.2))
  | _ => none

/-- Whether a character ends a line. -/
def isLineEnd (c : Char) : Bool := c == '\n' || c == '\r'

/-- Text collected in reverse as a token, unless it is empty. -/
def textToken : List Char → List Token
  | [] => []
  | lead => [.text lead.reverse]

/-- Text in reverse without the blanks on its last line, if the line is blank. -/
def dropBlanks (blankLine : Bool) (lead : List Char) : List Char :=
  if blankLine then lead.dropWhile (fun c => Text.isBlank c && !isLineEnd c) else lead

/-- Drop the line end at the start, and tell whether there was one. -/
def dropLineEnd : List Char → Bool × List Char
  | '\r' :: '\n' :: rest => (true, rest)
  | '\r' :: rest => (true, rest)
  | '\n' :: rest => (true, rest)
  | rest => (false, rest)

/-- **Cutting a template into tokens**, with the text since the last token in reverse
and whether the line so far is blank. The number bounds the characters left. -/
def cut : Nat → Bool → List Char → List Char → Option (List Token)
  | 0, _, lead, _ => some (textToken lead)
  | _, _, lead, [] => some (textToken lead)
  | fuel + 1, _, lead, '\x7b' :: '\x7b' :: rest => do
    let (content, rest) ← splitAt? '\x7d' '\x7d' rest
    let following ← cut fuel false [] rest
    some (textToken lead ++ .output content :: following)
  | fuel + 1, blankLine, lead, '\x7b' :: '%' :: rest => do
    let (content, rest) ← splitAt? '%' '\x7d' rest
    let (ended, rest) := dropLineEnd rest
    let following ← cut fuel ended [] rest
    some (textToken (dropBlanks blankLine lead) ++ .tag content :: following)
  | fuel + 1, blankLine, lead, '\x7b' :: '#' :: rest => do
    let (_, rest) ← splitAt? '#' '\x7d' rest
    let (ended, rest) := dropLineEnd rest
    let following ← cut fuel ended [] rest
    some (textToken (dropBlanks blankLine lead) ++ following)
  | fuel + 1, blankLine, lead, c :: rest =>
    cut fuel (isLineEnd c || (blankLine && Text.isBlank c)) (c :: lead) rest

/-- The template without the line end at its very end. -/
def withoutLastLineEnd (cs : List Char) : List Char :=
  let dropOne (last : Char) (cs : List Char) : List Char :=
    if cs.getLast? = some last then cs.dropLast else cs
  dropOne '\r' (dropOne '\n' cs)

/-- **The tokens of a template.** -/
def tokens? (s : String) : Option (List Token) :=
  let cs := withoutLastLineEnd s.toList
  cut (cs.length + 1) true [] cs

/-- **A word inside an output or a tag.** -/
inductive Word
  | name (s : String)
  | dot
  | bar
  deriving DecidableEq, Repr

/-- The words read so far, in reverse, and the name that is being read, in reverse. -/
structure WordState where
  done : List Word
  current : List Char

/-- End the name that is being read; a name does not begin with a digit. -/
def WordState.flush? (s : WordState) : Option (List Word) :=
  match s.current.reverse with
  | [] => some s.done
  | c :: cs => if c.isDigit then none else some (.name (String.ofList (c :: cs)) :: s.done)

/-- Read one character. -/
def WordState.step? (s : WordState) (c : Char) : Option WordState :=
  if c.isAlphanum || c == '_' then some ⟨s.done, c :: s.current⟩
  else if Text.isBlank c then s.flush?.map (⟨·, []⟩)
  else if c == '.' then s.flush?.map (fun done => ⟨.dot :: done, []⟩)
  else if c == '|' then s.flush?.map (fun done => ⟨.bar :: done, []⟩)
  else none

/-- The words inside an output or a tag. -/
def words? (content : List Char) : Option (List Word) :=
  ((content.foldlM WordState.step? ⟨[], []⟩).bind WordState.flush?).map List.reverse

/-- Names that cannot name a value. -/
def isKeyword (s : String) : Bool := ["or", "and", "not", "in", "is", "if", "else"].contains s

/-- The fields asked for at the start of the words. -/
def fieldNames : List Word → List String × List Word
  | .dot :: .name f :: rest => (f :: (fieldNames rest).1, (fieldNames rest).2)
  | ws => ([], ws)

/-- A value with the filters at the start of the words. -/
def filters (q : Query) : List Word → Query × List Word
  | .bar :: .name f :: rest => filters (.filtered f q) rest
  | ws => (q, ws)

/-- A name with fields and filters. -/
def operand? : List Word → Option (Query × List Word)
  | .name x :: rest =>
    if isKeyword x then none
    else
      let (fields, rest) := fieldNames rest
      some (filters (.path x fields) rest)
  | _ => none

/-- Operands with `or` between them, up to the end of the words. The number bounds
the operands. -/
def queryWithin? : Nat → List Word → Option Query
  | 0, _ => none
  | fuel + 1, ws =>
    match operand? ws with
    | some (q, []) => some q
    | some (q, .name x :: rest) => if x = "or" then (queryWithin? fuel rest).map (.either q) else none
    | _ => none

/-- **The expression that words spell.** -/
def query? (ws : List Word) : Option Query := queryWithin? (ws.length + 1) ws

/-- **What opens a body.** -/
inductive Opening
  | loop (name : String) (range : Query)
  | branch (condition : Query)
  deriving DecidableEq, Repr

/-- What a tag says. -/
inductive Tag
  | opens (opening : Opening)
  | endLoop
  | endBranch
  deriving DecidableEq, Repr

/-- The tag that words spell. -/
def tag? : List Word → Option Tag
  | [.name "endfor"] => some .endLoop
  | [.name "endif"] => some .endBranch
  | .name "for" :: .name x :: .name "in" :: ws =>
    if isKeyword x then none else (query? ws).map (fun q => .opens (.loop x q))
  | .name "if" :: ws => (query? ws).map (fun q => .opens (.branch q))
  | _ => none

/-- **Parts being assembled**: those of the innermost open body in reverse, and the
bodies around it with what opened them. -/
structure Assembly where
  parts : List Part
  around : List (Opening × List Part)

namespace Assembly

/-- Add a part to the innermost body. -/
def push (a : Assembly) (p : Part) : Assembly := { a with parts := p :: a.parts }

/-- Take a tag. -/
def tag? (a : Assembly) : Tag → Option Assembly
  | .opens opening => some ⟨[], (opening, a.parts) :: a.around⟩
  | .endLoop =>
    match a.around with
    | (.loop x q, outer) :: rest => some ⟨.loop x q a.parts.reverse :: outer, rest⟩
    | _ => none
  | .endBranch =>
    match a.around with
    | (.branch q, outer) :: rest => some ⟨.branch q a.parts.reverse :: outer, rest⟩
    | _ => none

/-- Take a token. -/
def step? (a : Assembly) : Token → Option Assembly
  | .text s => some (a.push (.text (String.ofList s)))
  | .output content => ((words? content).bind query?).map (fun q => a.push (.output q))
  | .tag content => ((words? content).bind Template.tag?).bind a.tag?

/-- The parts, when no body is open any more. -/
def finish? (a : Assembly) : Option (List Part) := if a.around.isEmpty then some a.parts.reverse else none

end Assembly

/-- **The parts of a template.** -/
def read? (s : String) : Option (List Part) := do
  let tokens ← tokens? s
  let assembly ← tokens.foldlM Assembly.step? ⟨[], []⟩
  assembly.finish?

end Template

end FeatureAlignment
