/-!
# Transformation functions

A cell of an alignment names the function that computes its target. A function
establishes whole types, fills in properties, or both.

* `Function.ofName?` finds a function by one of its names.
* `Function.capabilities` tells what it can do.
-/

namespace FeatureAlignment

/-- **What a function can do with a cell**: establish a type mapping, or fill in
an attribute mapping. -/
inductive Capability
  | typeTransformation
  | propertyTransformation
  deriving DecidableEq, Repr

/-- The word for a capability in messages. -/
def Capability.word : Capability → String
  | .typeTransformation => "type"
  | .propertyTransformation => "property"

/-- **The functions.** -/
inductive Function
  | retype
  | rename
  | join
  | classification
  | formattedString
  | dateExtraction
  | mathExpression
  | assign
  deriving DecidableEq, Repr

namespace Function

/-- The name under which `assign` is bound to its first source. -/
def boundAssign : String := "assign_bound"

/-- A function by one of its names. -/
def ofName? (name : String) : Option Function :=
  if name = "retype" then some .retype
  else if name = "rename" then some .rename
  else if name = "join" then some .join
  else if name = "classification" then some .classification
  else if name = "formatted_string" then some .formattedString
  else if name = "date_extraction" then some .dateExtraction
  else if name = "math_expression" then some .mathExpression
  else if name = "assign" ∨ name = boundAssign then some .assign
  else none

/-- The primary name of a function. -/
def name : Function → String
  | .retype => "retype"
  | .rename => "rename"
  | .join => "join"
  | .classification => "classification"
  | .formattedString => "formatted_string"
  | .dateExtraction => "date_extraction"
  | .mathExpression => "math_expression"
  | .assign => "assign"

/-- **What a function can do.** -/
def capabilities : Function → List Capability
  | .retype => [.typeTransformation]
  | .join => [.typeTransformation, .propertyTransformation]
  | _ => [.propertyTransformation]

/-- Whether a function has a capability. -/
def supports (f : Function) (c : Capability) : Bool := f.capabilities.contains c

end Function

end FeatureAlignment
