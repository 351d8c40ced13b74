import FeatureAlignment.Path.Basic

/-!
# Searching for a feature in a schema

Where a join has no other cell to tell it where the nested feature belongs, the
container type is searched for an element of the nested type, depth first. Each
type is entered once, features are not entered at all, and no more than
`Search.room` segments are walked.

* `SchemaIndex.featurePath?` is the path to the property that holds the element.
-/

namespace FeatureAlignment

namespace Search

/-- How many lists of children may be nested in a search. -/
def room : Nat := 13

/-- **What a search has come to**: a path if the wanted type was found, and the
types entered so far. -/
structure Outcome where
  found : Option (List Segment)
  visited : List QName
  deriving DecidableEq, Repr

/-- A way to search the children of a type, below the given segments. -/
abbrev Enter : Type := List Child → List Segment → List QName → Outcome

mutual

/-- Search a child: an element of the wanted type ends the search, another one is
entered if its type is known, no feature, and was not entered before. -/
def inChild (index : SchemaIndex) (wanted : QName) (enter : Enter) (segments : List Segment)
    (visited : List QName) : Child → Outcome
  | .group _ children => inChildren index wanted enter segments visited children
  | .property p =>
    if p.isAttribute then ⟨none, visited⟩
    else
      match index.propertyType? p with
      | none => ⟨none, visited⟩
      | some t =>
        if t.name = wanted then ⟨some segments, visited⟩
        else if t.feature || visited.contains t.name then ⟨none, visited⟩
        else enter t.children (segments ++ [⟨p.name, none⟩]) (t.name :: visited)

/-- Search children one after the other. -/
def inChildren (index : SchemaIndex) (wanted : QName) (enter : Enter) (segments : List Segment)
    (visited : List QName) : List Child → Outcome
  | [] => ⟨none, visited⟩
  | c :: cs =>
    let outcome := inChild index wanted enter segments visited c
    match outcome.found with
    | some _ => outcome
    | none => inChildren index wanted enter segments outcome.visited cs

end

/-- **Searching with limited room**: with none left, nothing is found. -/
def within (index : SchemaIndex) (wanted : QName) : Nat → Enter
  | 0 => fun _ _ visited => ⟨none, visited⟩
  | n + 1 => fun children segments visited =>
    inChildren index wanted (within index wanted n) segments visited children

end Search

/-- **The path to a nested type**: the segments to the first property, searched
from a type, that holds an element of the wanted type. -/
def SchemaIndex.featurePath? (index : SchemaIndex) (container : TypeDefinition) (wanted : QName) :
    Option (List Segment) :=
  (Search.within index wanted Search.room container.children [] [container.name]).found

end FeatureAlignment
