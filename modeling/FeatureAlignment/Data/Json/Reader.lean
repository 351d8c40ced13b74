import FeatureAlignment.Data.Json.Token

/-!
# Reading JSON

The tokens of a JSON text are assembled into a tree by one pass that keeps the
open lists and records on a stack.

* `Json.Assembly.step` takes one token.
* `Json.read?` reads a whole text: one value and nothing behind it. Lists and
  records more than `maxDepth` deep may be skipped but not used.
-/

namespace FeatureAlignment

namespace Json

/-- How deep usable lists and records nest. -/
def maxDepth : Nat := 127

/-- **An open list or record**, with what it holds so far in reverse, or a record
that waits for the value of a key. -/
inductive Frame
  | items (done : List Data)
  | fields (done : List (Data × Data))
  | value (done : List (Data × Data)) (key : Data)

/-- **What may come next.** -/
inductive Expected
  | value
  | valueOrClose
  | key
  | keyOrClose
  | colon
  | commaOrClose

/-- **The state of the assembly**: open frames, innermost first, and what may
come next, or the finished tree. -/
inductive Assembly
  | running (stack : List Frame) (expected : Expected)
  | finished (tree : Data)

namespace Assembly

/-- Put a complete value where it belongs. -/
def put : List Frame → Data → Option Assembly
  | [], d => some (.finished d)
  | .items done :: stack, d => some (.running (.items (d :: done) :: stack) .commaOrClose)
  | .value done key :: stack, d =>
    some (.running (.fields ((key, d) :: done) :: stack) .commaOrClose)
  | .fields _ :: _, _ => none

/-- Close the innermost list. -/
def closeList : List Frame → Option Assembly
  | .items done :: stack =>
    put stack (if stack.length < maxDepth then .list done.reverse else .unreadable)
  | _ => none

/-- Close the innermost record. -/
def closeRecord : List Frame → Option Assembly
  | .fields done :: stack =>
    put stack (if stack.length < maxDepth then .record done.reverse else .unreadable)
  | _ => none

/-- A token where a value is expected. -/
def openValue (stack : List Frame) : Token → Option Assembly
  | .openList => some (.running (.items [] :: stack) .valueOrClose)
  | .openRecord => some (.running (.fields [] :: stack) .keyOrClose)
  | .scalar d => put stack d
  | _ => none

/-- A token where a key is expected. -/
def openKey : List Frame → Token → Option Assembly
  | .fields done :: stack, .scalar (.text s) =>
    some (.running (.value done (.text s) :: stack) .colon)
  | .fields done :: stack, .scalar .unreadable =>
    some (.running (.value done .unreadable :: stack) .colon)
  | _, _ => none

/-- **One token.** -/
def step : Assembly → Token → Option Assembly
  | .finished _, _ => none
  | .running stack .value, t => openValue stack t
  | .running stack .valueOrClose, .closeList => closeList stack
  | .running stack .valueOrClose, t => openValue stack t
  | .running stack .key, t => openKey stack t
  | .running stack .keyOrClose, .closeRecord => closeRecord stack
  | .running stack .keyOrClose, t => openKey stack t
  | .running stack .colon, .colon => some (.running stack .value)
  | .running stack .commaOrClose, .closeList => closeList stack
  | .running stack .commaOrClose, .closeRecord => closeRecord stack
  | .running (.items done :: stack) .commaOrClose, .comma =>
    some (.running (.items done :: stack) .value)
  | .running (.fields done :: stack) .commaOrClose, .comma =>
    some (.running (.fields done :: stack) .key)
  | .running _ _, _ => none

end Assembly

/-- **Reading a JSON text.** -/
def read? (s : String) : Option Data := do
  let tokens ← tokens? s
  match ← tokens.foldlM Assembly.step (.running [] .value) with
  | .finished d => some d
  | .running _ _ => none

end Json

end FeatureAlignment
