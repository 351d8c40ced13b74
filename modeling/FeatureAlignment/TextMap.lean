import FeatureAlignment.Text

/-!
# Sorted maps of texts

Tables from text to text that are written in the order of their keys: prefixes
by namespace, namespaces by prefix.

* `TextMap.insert` keeps the entries sorted and replaces the value of an equal
  key; `TextMap.get?` finds a value.
-/

namespace FeatureAlignment

/-- **A map from texts to texts**, its entries sorted by key, by code points. -/
structure TextMap where
  entries : List (String × String)
  deriving DecidableEq, Repr, Inhabited

namespace TextMap

/-- The map without entries. -/
def empty : TextMap := ⟨[]⟩

/-- Insert into sorted entries. -/
def insertEntry (key value : String) : List (String × String) → List (String × String)
  | [] => [(key, value)]
  | (k, v) :: rest =>
    if k = key then (key, value) :: rest
    else if key < k then (key, value) :: (k, v) :: rest
    else (k, v) :: insertEntry key value rest

/-- **Inserting**; an equal key gets the new value. -/
def insert (m : TextMap) (key value : String) : TextMap := ⟨insertEntry key value m.entries⟩

/-- The map made by inserting entries one after the other. -/
def ofList (entries : List (String × String)) : TextMap :=
  entries.foldl (fun m e => m.insert e.1 e.2) empty

/-- The value of a key. -/
def get? (m : TextMap) (key : String) : Option String := m.entries.lookup key

/-- Whether a key has a value. -/
def contains (m : TextMap) (key : String) : Bool := (m.get? key).isSome

/-- The first key, in order, that has this value. -/
def keyOf? (m : TextMap) (value : String) : Option String :=
  (m.entries.find? (fun e => e.2 == value)).map Prod.fst

end TextMap

end FeatureAlignment
