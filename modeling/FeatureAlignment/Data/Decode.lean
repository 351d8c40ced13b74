import FeatureAlignment.Data.Scalar

/-!
# Decoding document trees

The small readers from which the codecs of the library are composed. Each takes
a tree and answers `none` when the tree has another shape.

A record type is read by its field names (`Data.fields?`): from a record, where
a repeated field is refused and an unknown one ignored or refused, or from a
list that gives the fields in order. A type with finitely many values is read by
the names of the values (`Data.variant?`).
-/

namespace FeatureAlignment

namespace Data

/-- A text; a bare scalar is read as its source. -/
def text? : Data → Option String
  | .text s => some s
  | .written source _ _ => some source
  | .tagged _ d => d.text?
  | _ => none

/-- A truth value. -/
def flag? : Data → Option Bool
  | .flag b => some b
  | .written source true _ => Scalar.truth? source
  | .tagged _ d => d.flag?
  | _ => none

/-- A natural number of 64 bits. -/
def ofNatural? (n : Nat) : Option UInt64 := if n < Nat.pow 2 64 then some (.ofNat n) else none

/-- An index: a natural number of 64 bits. -/
def index? : Data → Option UInt64
  | .integer (.ofNat n) => ofNatural? n
  | .written source true _ => (Scalar.unsigned? source.toList).bind ofNatural?
  | .tagged _ d => d.index?
  | _ => none

/-- Whether the tree says that there is no value. -/
def isAbsent : Data → Bool
  | .null => true
  | .written _ true .null => true
  | _ => false

/-- A value that may be absent. -/
def optional? {α : Type} (read : Data → Option α) (d : Data) : Option (Option α) :=
  if d.isAbsent then some none else (read d).map some

/-- The items of a list; an empty scalar is an empty list. -/
def items? : Data → Option (List Data)
  | .list items => some items
  | .sequence items => some items
  | .written source true _ => if source.isEmpty then some [] else none
  | .tagged _ d => d.items?
  | _ => none

/-- A list whose items are read alike. -/
def list? {α : Type} (read : Data → Option α) (d : Data) : Option (List α) :=
  d.items?.bind (·.mapM read)

/-- The entries of a record; an empty scalar is an empty record. -/
def entries? : Data → Option (List (Data × Data))
  | .record fields => some fields
  | .written source true _ => if source.isEmpty then some [] else none
  | .tagged _ d => d.entries?
  | _ => none

/-- A record from text keys to values read alike. -/
def map? {α : Type} (read : Data → Option α) (d : Data) : Option (List (String × α)) :=
  d.entries?.bind (·.mapM (fun e => do some (← e.1.text?, ← read e.2)))

/-- Which of the names a key means, by its text or, settled, by its position:
`none` if it is no key at all, `some none` if it is an unknown key. -/
def position? (names : List String) : Data → Option (Option Nat)
  | .text s => some (names.findIdx? (· == s))
  | .written s _ _ => some (names.findIdx? (· == s))
  | .integer (.ofNat n) => some (if n < names.length then some n else none)
  | .tagged _ d => d.position? names
  | _ => none

/-- Whether no number occurs twice. -/
def distinct : List Nat → Bool
  | [] => true
  | n :: ns => !ns.contains n && distinct ns

/-- The values of the named fields of a record, in the order of the names. -/
def entriesByName? (strict : Bool) (names : List String) (entries : List (Data × Data)) :
    Option (List (Option Data)) := do
  let placed ← entries.mapM (fun e => (e.1.position? names).map (·, e.2))
  let known := placed.filterMap (fun e => e.1.map (·, e.2))
  if strict && known.length ≠ placed.length then none
  else if distinct (known.map Prod.fst) then
    some ((List.range names.length).map (fun i => List.lookup i known))
  else none

/-- **The fields of a record type**, in the order of their names, each with its
value if there is one. A `strict` type refuses unknown fields. -/
def fields? (strict : Bool) (names : List String) : Data → Option (List (Option Data))
  | .record entries => entriesByName? strict names entries
  | .list items =>
    if items.length ≤ names.length then
      some (items.map some ++ List.replicate (names.length - items.length) none)
    else none
  | .written source true _ =>
    if source.isEmpty then some (List.replicate names.length none) else none
  | .tagged _ d => d.fields? strict names
  | _ => none

/-- A field that has to be there. -/
def required? {α : Type} (read : Data → Option α) (value : Option Data) : Option α :=
  value.bind read

/-- A field with a default. -/
def defaulted? {α : Type} (default : α) (read : Data → Option α) : Option Data → Option α
  | some d => read d
  | none => some default

/-- The value among `variants` that has this name. -/
def named? {α : Type} (variants : List (α × List String)) (name : String) : Option α :=
  (variants.find? (fun v => v.2.contains name)).map Prod.fst

/-- **A value of a finite type**, by one of its names; also as the tag of a null
value, or as the only key of a record whose value is null. -/
def variant? {α : Type} (variants : List (α × List String)) : Data → Option α
  | .text s => named? variants s
  | .written s _ _ => named? variants s
  | .tagged tag d => if d.isAbsent then named? variants tag else none
  | .record [(.text s, .null)] => named? variants s
  | .record [(.integer (.ofNat n), .null)] => variants[n]?.map Prod.fst
  | _ => none

end Data

end FeatureAlignment
