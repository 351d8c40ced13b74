import FeatureAlignment.Number.Double

/-!
# Document trees

Alignments, schemas and mapping documents come and go as JSON or YAML text.
Both readers produce the same tree, `Data`, and both printers take one. Keys
keep their order and their repetitions; what they mean is for the decoder.

* `Data.settle` replaces what a YAML document leaves open (a bare `5` may be a
  text or a number) by the value the core schema gives it.
* `Data.object` builds a record with text keys.
-/

namespace FeatureAlignment

/-- **A document tree.** The first seven and the last constructor are values. A
`written` scalar of a YAML document keeps its `source` text, whether it is
`bare` (without quotes), and the `value` it denotes; a `sequence` is a list that
never stands for a record; a `tagged` node carries an application tag, which in
JSON is a record with the tag as its only key; an `unreadable` node may be
skipped but not used. -/
inductive Data
  | null
  | flag (b : Bool)
  | integer (i : Int)
  | double (d : Double)
  | text (s : String)
  | list (items : List Data)
  | record (fields : List (Data × Data))
  | written (source : String) (bare : Bool) (value : Data)
  | sequence (items : List Data)
  | unreadable
  | tagged (tag : String) (value : Data)
  deriving BEq, Repr, Inhabited

namespace Data

/-- A record with text keys. -/
def object (fields : List (String × Data)) : Data :=
  .record (fields.map (fun f => (.text f.1, f.2)))

/-- A list of texts. -/
def texts (ss : List String) : Data := .list (ss.map .text)

/-- A field that is left out when there is no value. -/
def field? (name : String) : Option Data → List (String × Data)
  | some d => [(name, d)]
  | none => []

/-- A text, or null when there is none. -/
def optionalText : Option String → Data
  | some s => .text s
  | none => .null

mutual

/-- **Settling a tree**: every scalar gets the value it denotes. A tree with an
application tag or an unreadable node, however deep, has no settled form. -/
def settle : Data → Option Data
  | .null => some .null
  | .flag b => some (.flag b)
  | .integer i => some (.integer i)
  | .double d => some (.double d)
  | .text s => some (.text s)
  | .list items => (settleItems items).map .list
  | .record fields => (settleFields fields).map .record
  | .written _ _ value => value.settle
  | .sequence items => (settleItems items).map .list
  | .unreadable => none
  | .tagged _ _ => none

/-- Settle each item of a list. -/
def settleItems : List Data → Option (List Data)
  | [] => some []
  | d :: ds => do
    let d ← d.settle
    let ds ← settleItems ds
    some (d :: ds)

/-- Settle the keys and values of a record. -/
def settleFields : List (Data × Data) → Option (List (Data × Data))
  | [] => some []
  | (k, v) :: rest => do
    let k ← k.settle
    let v ← v.settle
    let rest ← settleFields rest
    some ((k, v) :: rest)

end

end Data

end FeatureAlignment
