import FeatureAlignment.Alignment.Basic
import FeatureAlignment.Schema.Basic

/-!
# Target paths

A property path of an alignment, followed through the target schema, ends at a
place in the mapping of some feature type.

* `Segment` is an element on the way; groups leave no trace.
* `Placement` says what the value becomes: the element's value, its identifier,
  or an XML attribute on it.
* `Crossing` is a step from one feature type into another.
* `ResolvedPath` is the place with all that is known about it.
-/

namespace FeatureAlignment

/-- **A segment** of a rendered path: an element, and which of its repetitions is
meant, counted from zero. -/
structure Segment where
  name : QName
  index : Option UInt64
  deriving DecidableEq, Repr

/-- **What a value becomes** at the end of a path. -/
inductive Placement
  | element
  | identifier
  | clientProperty (name : QName)
  deriving DecidableEq, Repr

/-- **A step from a feature type into another**: the container, the segments from
its root to the property that holds the nested feature, the nested type and its
element. -/
structure Crossing where
  container : QName
  segments : List Segment
  nested : QName
  element : QName
  deriving DecidableEq, Repr

/-- **The place where a path ends**: the feature type whose mapping it belongs
to, the segments below it, the type substituted for an abstract element, what
the value becomes, whether it may repeat, the conditions on the way, whether the
last element is a geometry, the crossings on the way, and the last element. -/
structure ResolvedPath where
  owner : QName
  segments : List Segment
  node : Option QName
  placement : Placement
  isMultiple : Bool
  guards : List Condition
  geometry : Bool
  crossings : List Crossing
  lastElement : Option PropertyDefinition
  deriving BEq, Repr

namespace ResolvedPath

/-- Whether the path leaves its root type. -/
def crossesTypes (r : ResolvedPath) : Bool := !r.crossings.isEmpty

/-- Whether the path ends at the element of a nested feature itself. -/
def endsAtFeature (r : ResolvedPath) : Bool :=
  r.crossesTypes && r.segments.isEmpty && r.placement == .element

end ResolvedPath

end FeatureAlignment
