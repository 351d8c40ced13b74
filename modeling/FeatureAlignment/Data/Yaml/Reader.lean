import FeatureAlignment.Data.Scalar
import FeatureAlignment.Data.Yaml.Token

/-!
# Reading YAML

The tokens of a document are read as a tree by recursive descent. An alias
stands for the tree of the latest node anchored under its name; inside that
node itself it is unreadable.

* `Yaml.Reading.node` reads one node.
* `Yaml.read?` reads a text that holds at most one document; no document reads
  as an empty scalar.
-/

namespace FeatureAlignment

namespace Yaml

/-- **An anchored node**: its name, its number, and its tree once complete. -/
structure Anchored where
  name : String
  number : Nat
  tree : Option Data

/-- **What is left to read**: the tokens ahead, the anchored nodes so far with
the latest first, and the prefixes declared for tag handles. -/
structure Reading where
  tokens : List Token
  anchors : List Anchored
  handles : List (String × String)

/-- A step of reading, which may fail. -/
abbrev Reader (α : Type) := StateT Reading Option α

namespace Reading

/-- The token ahead. -/
def peek : Reader (Option Token) := do return (← get).tokens.head?

/-- Go past the token ahead. -/
def skip : Reader Unit := modify (fun r => { r with tokens := r.tokens.drop 1 })

/-- An empty scalar. -/
def emptyScalar : Data := .written "" true .null

/-- The full name of a tag. -/
def tagName? (handle rest : String) : Reader String := do
  if handle.isEmpty then return rest
  else
    match List.lookup handle (← get).handles with
    | some start => return start ++ rest
    | none =>
      if handle == "!" then return "!" ++ rest
      else if handle == "!!" then return "tag:yaml.org,2002:" ++ rest
      else failure

/-- The value of a scalar with a full tag name. -/
def tagged (name text : String) : Data :=
  let cs := text.toList
  if name == "tag:yaml.org,2002:bool" then ((Scalar.truth? text).map .flag).getD .unreadable
  else if name == "tag:yaml.org,2002:int" then
    ((Scalar.integer? cs).bind Scalar.ofInteger?).getD .unreadable
  else if name == "tag:yaml.org,2002:float" then ((Scalar.float? cs).map .double).getD .unreadable
  else if name == "tag:yaml.org,2002:null" then if Scalar.isNull text then .null else .unreadable
  else .text text

/-- The name of an application tag: what follows its exclamation mark. -/
def applicationTag? (name : String) : Option String :=
  match name.toList with
  | ['!'] => some "!"
  | '!' :: rest => some (String.ofList rest)
  | _ => none

/-- **A scalar** with or without a tag. A lone exclamation mark is no tag. -/
def scalar (tag : Option String) (text : String) (bare : Bool) : Data :=
  let plain : Data := .written text bare (if bare then Scalar.resolve text else .text text)
  match tag with
  | none => plain
  | some name =>
    if name == "!" then plain
    else
      match applicationTag? name with
      | some t => .tagged t plain
      | none => .written text bare (tagged name text)

/-- A collection with or without a tag; only application tags matter. -/
def collection (tag : Option String) (tree : Data) : Data :=
  match tag.bind applicationTag? with
  | some t => .tagged t tree
  | none => tree

/-- A node begins that may carry an anchor; its number, if so. -/
def beginAnchored : Option String → Reader (Option Nat)
  | none => return none
  | some name => do
    let r ← get
    let number := r.anchors.length
    set { r with anchors := ⟨name, number, none⟩ :: r.anchors }
    return some number

/-- The node that began under this number is complete. -/
def endAnchored (number : Option Nat) (tree : Data) : Reader Data := do
  match number with
  | none => return tree
  | some n =>
    modify (fun r =>
      { r with anchors := r.anchors.map (fun a => if a.number = n then { a with tree := tree } else a) })
    return tree

/-- The tree that an alias stands for. -/
def alias? (name : String) : Reader Data := do
  match (← get).anchors.find? (·.name == name) with
  | some a => return a.tree.getD .unreadable
  | none => failure

/-- The anchor and the tag in front of a node, in either order, at most one each. -/
def properties : Nat → Option String → Option String → Reader (Option String × Option String)
  | 0, anchor, tag => return (anchor, tag)
  | fuel + 1, anchor, tag => do
    match ← peek with
    | some (.anchor name) =>
      if anchor.isSome then return (anchor, tag)
      else do
        skip
        properties fuel (some name) tag
    | some (.tag handle rest) =>
      if tag.isSome then return (anchor, tag)
      else do
        skip
        let name ← tagName? handle rest
        properties fuel anchor (some name)
    | _ => return (anchor, tag)

/-- Whether an entry of a block mapping ends here without a node. -/
def endsMappingPart : Option Token → Bool
  | some .key => true
  | some .value => true
  | some .blockEnd => true
  | _ => false

/-- Whether an item of a block sequence ends here without a node. -/
def endsItem : Option Token → Bool
  | some .blockEntry => true
  | some .blockEnd => true
  | _ => false

/-- Whether an item of a sequence inside a mapping ends here without a node. -/
def endsInnerItem : Option Token → Bool
  | some .blockEntry => true
  | some .key => true
  | some .value => true
  | some .blockEnd => true
  | _ => false

/-- Whether a part of a flow sequence ends here without a node. -/
def endsFlowItem : Option Token → Bool
  | some .flowEntry => true
  | some .flowSequenceEnd => true
  | _ => false

/-- Whether a part of a flow mapping ends here without a node. -/
def endsFlowPart : Option Token → Bool
  | some .flowEntry => true
  | some .flowMappingEnd => true
  | _ => false

mutual

/-- **One node.** `block` allows block collections, `inner` a block sequence
without indentation of its own, as the value of a mapping. -/
def node (block inner : Bool) : Nat → Reader Data
  | 0 => failure
  | fuel + 1 => do
    match ← peek with
    | some (.alias name) => do
      skip
      alias? name
    | _ => do
      let (anchor, tag) ← properties 3 none none
      let number ← beginAnchored anchor
      match ← peek with
      | some (.scalar text bare) => do
        skip
        endAnchored number (scalar tag text bare)
      | some .flowSequenceStart => do
        skip
        let items ← flowItems true fuel
        endAnchored number (collection tag (.sequence items))
      | some .flowMappingStart => do
        skip
        let fields ← flowFields true fuel
        endAnchored number (collection tag (.record fields))
      | some .blockSequenceStart => do
        if !block then failure
        skip
        let items ← blockItems fuel
        endAnchored number (collection tag (.sequence items))
      | some .blockMappingStart => do
        if !block then failure
        skip
        let fields ← blockFields fuel
        endAnchored number (collection tag (.record fields))
      | some .blockEntry => do
        if inner then
          let items ← innerItems fuel
          endAnchored number (collection tag (.sequence items))
        else if anchor.isSome || tag.isSome then endAnchored number (scalar tag "" true)
        else failure
      | _ =>
        if anchor.isSome || tag.isSome then endAnchored number (scalar tag "" true) else failure

/-- The items of a block sequence, up to its end. -/
def blockItems : Nat → Reader (List Data)
  | 0 => failure
  | fuel + 1 => do
    match ← peek with
    | some .blockEntry => do
      skip
      let item ← if endsItem (← peek) then pure emptyScalar else node true false fuel
      let items ← blockItems fuel
      return item :: items
    | some .blockEnd => do
      skip
      return []
    | _ => failure

/-- The items of a block sequence that is not indented. -/
def innerItems : Nat → Reader (List Data)
  | 0 => failure
  | fuel + 1 => do
    match ← peek with
    | some .blockEntry => do
      skip
      let item ← if endsInnerItem (← peek) then pure emptyScalar else node true false fuel
      let items ← innerItems fuel
      return item :: items
    | _ => return []

/-- The fields of a block mapping, up to its end. -/
def blockFields : Nat → Reader (List (Data × Data))
  | 0 => failure
  | fuel + 1 => do
    match ← peek with
    | some .key => do
      skip
      let key ← if endsMappingPart (← peek) then pure emptyScalar else node true true fuel
      let value ← blockValue fuel
      let fields ← blockFields fuel
      return (key, value) :: fields
    | some .blockEnd => do
      skip
      return []
    | _ => failure

/-- The value of a field of a block mapping. -/
def blockValue : Nat → Reader Data
  | 0 => failure
  | fuel + 1 => do
    match ← peek with
    | some .value => do
      skip
      if endsMappingPart (← peek) then return emptyScalar else node true true fuel
    | _ => return emptyScalar

/-- The items of a flow sequence, up to its end. A single pair is a record. -/
def flowItems (first : Bool) : Nat → Reader (List Data)
  | 0 => failure
  | fuel + 1 => do
    match ← peek with
    | some .flowSequenceEnd => do
      skip
      return []
    | t => do
      if !first then
        match t with
        | some .flowEntry => skip
        | _ => failure
      match ← peek with
      | some .flowSequenceEnd => do
        skip
        return []
      | some .key => do
        skip
        let next ← peek
        let isEmpty :=
          match next with
          | some .value => true
          | _ => endsFlowItem next
        let key ← if isEmpty then pure emptyScalar else node false false fuel
        let value ← flowItemValue fuel
        let items ← flowItems false fuel
        return .record [(key, value)] :: items
      | _ => do
        let item ← node false false fuel
        let items ← flowItems false fuel
        return item :: items

/-- The value of a single pair in a flow sequence. -/
def flowItemValue : Nat → Reader Data
  | 0 => failure
  | fuel + 1 => do
    match ← peek with
    | some .value => do
      skip
      if endsFlowItem (← peek) then return emptyScalar else node false false fuel
    | _ => return emptyScalar

/-- The fields of a flow mapping, up to its end. -/
def flowFields (first : Bool) : Nat → Reader (List (Data × Data))
  | 0 => failure
  | fuel + 1 => do
    match ← peek with
    | some .flowMappingEnd => do
      skip
      return []
    | t => do
      if !first then
        match t with
        | some .flowEntry => skip
        | _ => failure
      match ← peek with
      | some .flowMappingEnd => do
        skip
        return []
      | some .key => do
        skip
        let next ← peek
        let isEmpty :=
          match next with
          | some .value => true
          | _ => endsFlowPart next
        let key ← if isEmpty then pure emptyScalar else node false false fuel
        let value ← flowValue fuel
        let fields ← flowFields false fuel
        return (key, value) :: fields
      | _ => do
        let key ← node false false fuel
        let fields ← flowFields false fuel
        return (key, emptyScalar) :: fields

/-- The value of a field of a flow mapping. -/
def flowValue : Nat → Reader Data
  | 0 => failure
  | fuel + 1 => do
    match ← peek with
    | some .value => do
      skip
      if endsFlowPart (← peek) then return emptyScalar else node false false fuel
    | _ => return emptyScalar

end

/-- The directives in front of a document; one version of the format at most,
and every handle declared once. -/
def directives (versioned : Bool) : List Token → Reader Unit
  | .versionDirective major minor :: rest => do
    if versioned || major ≠ 1 || (minor ≠ 1 && minor ≠ 2) then failure
    skip
    directives true rest
  | .tagDirective handle start :: rest => do
    if ((← get).handles.lookup handle).isSome then failure
    modify (fun r => { r with handles := (handle, start) :: r.handles })
    skip
    directives versioned rest
  | _ => return ()

/-- Whether a document without content ends here. -/
def endsDocument : Option Token → Bool
  | none => true
  | some (.versionDirective _ _) => true
  | some (.tagDirective _ _) => true
  | some .documentStart => true
  | some .documentEnd => true
  | _ => false

/-- Whether the document has to begin with a mark, given its first token. -/
def isExplicit : Token → Bool
  | .versionDirective _ _ => true
  | .tagDirective _ _ => true
  | .documentStart => true
  | _ => false

/-- **The only document**, up to the end of the tokens. -/
def document (fuel : Nat) : Reader Data := do
  match ← peek with
  | none => return emptyScalar
  | some t => do
    let tree ←
      if isExplicit t then do
        directives false (← get).tokens
        match ← peek with
        | some .documentStart => skip
        | _ => failure
        if endsDocument (← peek) then pure emptyScalar else node true false fuel
      else node true false fuel
    let isEnd : Token → Bool := fun t =>
      match t with
      | .documentEnd => true
      | _ => false
    if (← get).tokens.all isEnd then return tree else failure

end Reading

/-- How deep usable collections nest. -/
def maxDepth : Nat := 128

mutual

/-- Make collections unreadable that lie deeper than the given depth. -/
def limit : Nat → Data → Data
  | 0, .sequence _ => .unreadable
  | 0, .record _ => .unreadable
  | depth + 1, .sequence items => .sequence (limitItems depth items)
  | depth + 1, .record fields => .record (limitFields depth fields)
  | depth, .tagged tag value => .tagged tag (limit depth value)
  | _, d => d

/-- Limit the depth of each item. -/
def limitItems : Nat → List Data → List Data
  | _, [] => []
  | depth, d :: ds => limit depth d :: limitItems depth ds

/-- Limit the depth of each field. -/
def limitFields : Nat → List (Data × Data) → List (Data × Data)
  | _, [] => []
  | depth, (k, v) :: rest => (limit depth k, limit depth v) :: limitFields depth rest

end

/-- **Reading a YAML text.** -/
def read? (s : String) : Option Data := do
  let tokens ← tokens? s
  let (tree, _) ← (Reading.document (4 * tokens.length + 8)).run ⟨tokens, [], []⟩
  some (limit maxDepth tree)

end Yaml

end FeatureAlignment
