import FeatureAlignment.Alignment.Basic
import FeatureAlignment.Config.Basic
import FeatureAlignment.Rule.Condition

/-!
# Alignments as rules

Each cell of an alignment becomes a rule. Its body binds the source entities and
carries their conditions; its head states the membership of the target, or the
slot of the target that gets the value of the function.

* `Draft` is a rule being written, with the prefixes used so far.
* `Cell.toRule` is one cell as a rule, `Alignment.toRules` all cells with one table
  of prefixes.
-/

namespace FeatureAlignment

/-- **A rule being written**: the prefixes in use, the variables, and the formulas
of the body. -/
structure Draft where
  prefixes : TextMap
  quantified : List String
  body : List Formula
  deriving Repr

namespace Draft

/-- The prefixes of the format itself. -/
def standardPrefixes : TextMap :=
  .ofList [("pred", "http://www.w3.org/2007/rif-builtin-predicate#"),
    ("func", "http://www.w3.org/2007/rif-builtin-function#"),
    ("xs", "http://www.w3.org/2001/XMLSchema#")]

/-- **A free prefix**: the wanted one with the fewest underscores behind it that make
it free. -/
def freePrefix (prefixes : TextMap) (wanted : String) : String :=
  (((List.range (prefixes.entries.length + 1)).map (fun n => wanted ++ Text.replicate n '_')).find?
    (fun p => !prefixes.contains p)).getD wanted

/-- **The prefix of a namespace**: one in use for it, or else the preferred or a
numbered one, made free. -/
def prefixFor (config : Config) (uri : String) : StateM Draft String := do
  let d ← get
  match d.prefixes.keyOf? uri with
  | some p => return p
  | none =>
    let numbered := "ns" ++ Text.natural (d.prefixes.entries.length - 2)
    let chosen := freePrefix d.prefixes ((config.preferredPrefix? uri).getD numbered)
    set { d with prefixes := d.prefixes.insert chosen uri }
    return chosen

/-- **The symbol of a name**: prefix and local part, or for a name without namespace
an underscore and the name. -/
def symbol (config : Config) (name : QName) : StateM Draft String := do
  if name.isQualified then
    let p ← prefixFor config name.uri
    return p ++ ":" ++ name.localName
  else return "_" ++ variableName name.localName

/-- Use a variable; it is listed once. -/
def use (name : String) : StateM Draft Term := do
  modify (fun d => if d.quantified.contains name then d else { d with quantified := d.quantified ++ [name] })
  return .variable name

/-- Add a formula to the body. -/
def add (f : Formula) : StateM Draft Unit := modify (fun d => { d with body := d.body ++ [f] })

/-- Bind a property of a subject, once. -/
def bindProperty (config : Config) (subject : Term) (property : String) : StateM Draft Unit := do
  let value ← use (variableName property)
  let slot ← symbol config ⟨property⟩
  let f : Formula := .frame subject (.symbol slot) value
  if !(← get).body.contains f then add f

/-- Bind properties one after the other. -/
def bindProperties (config : Config) (subject : Term) : List String → StateM Draft Unit
  | [] => return ()
  | p :: ps => do
    bindProperty config subject p
    bindProperties config subject ps

/-- **A condition on a subject**: the properties that it reads are bound first. -/
def restrict (config : Config) (subject : Term) (c : Condition) : StateM Draft Unit := do
  bindProperties config subject c.properties
  add (.ofCondition c)

/-- The condition on a subject, if there is one. -/
def restrict? (config : Config) (subject : Term) : Option Condition → StateM Draft Unit
  | some c => restrict config subject c
  | none => return ()

/-- **The steps of a path**, from an object reached by the names `walked`: each binds a
slot of the object before it. The answer is the last object. -/
def follow (config : Config) (subject : Term) (walked : List QName) (object : Term) :
    List PathStep → StateM Draft Term
  | [] => return object
  | s :: steps => do
    let walked := walked ++ [s.name]
    let value ← use (variableName (QName.path walked))
    let slot ← symbol config s.name
    add (.frame object (.symbol slot) value)
    restrict? config subject s.condition
    follow config subject walked value steps

/-- **Binding a source entity**: its membership, the steps of its path, and its
conditions. The answer is the value of the entity. -/
def bindSource (config : Config) (number : Nat) (e : Entity) : StateM Draft Term := do
  let subject ← use ("s" ++ Text.natural number)
  let type ← symbol config e.type
  add (.member subject (.symbol type))
  let value ← follow config subject [] subject e.path
  restrict? config subject e.condition
  return value

/-- Binding source entities, numbered from a number on. -/
def bindSources (config : Config) (number : Nat) : List Entity → StateM Draft (List Term)
  | [] => return []
  | e :: es => do
    let value ← bindSource config number e
    let values ← bindSources config (number + 1) es
    return value :: values

/-- The symbols of names, one after the other. -/
def symbols (config : Config) : List QName → StateM Draft (List String)
  | [] => return []
  | name :: names => do
    let s ← symbol config name
    let ss ← symbols config names
    return s :: ss

/-- **The head of a rule**: the target is a member of its type, or a slot of it has the
value of the function applied to the sources and the literal parameters. -/
def head (config : Config) (c : Cell) (values : List Term) (target : Term) : StateM Draft Formula :=
  match c.target with
  | [] => return .all []
  | e :: _ =>
    if e.isType then do
      let type ← symbol config e.type
      return .member target (.symbol type)
    else do
      let slots ← symbols config e.names
      let arguments := values ++ c.parameters.literals.map Literal.toTerm
      return .frame target (.symbol (Text.join "/" slots)) (.call ("func:" ++ c.function) arguments)

/-- Body first, then the head: the target is the last variable. -/
def write (config : Config) (c : Cell) : StateM Draft Formula := do
  let values ← bindSources config 0 c.source
  let target ← use "t"
  head config c values target

end Draft

namespace Cell

/-- The rule of a cell, and the prefixes in use after it. -/
def ruleFrom (config : Config) (prefixes : TextMap) (c : Cell) : Rule × TextMap :=
  let (head, draft) := (Draft.write config c).run ⟨prefixes, [], []⟩
  (⟨c.id, draft.quantified, head, .all draft.body⟩, draft.prefixes)

/-- **A cell as a rule**, with the prefixes that it uses. -/
def toRule (config : Config) (c : Cell) : Rule × TextMap := c.ruleFrom config Draft.standardPrefixes

/-- Cells as rules, and the prefixes in use after them. -/
def rulesFrom (config : Config) (prefixes : TextMap) : List Cell → List Rule × TextMap
  | [] => ([], prefixes)
  | c :: cs =>
    let (rule, next) := c.ruleFrom config prefixes
    let (rules, last) := rulesFrom config next cs
    (rule :: rules, last)

end Cell

/-- **An alignment as rules.** -/
def Alignment.toRules (config : Config) (a : Alignment) : RuleDocument :=
  let (rules, prefixes) := Cell.rulesFrom config Draft.standardPrefixes a.cells
  ⟨prefixes, rules⟩

end FeatureAlignment
