/-!
# Maps from strings

Maps that remember the order in which their keys came.  Labels, environments and
parameters are such maps.

## Main Definitions

* `StringMap` — a list of keys with values
* `StringMap.put` — set the value of a key
* `StringMap.erase` — remove a key
-/

namespace NodeFencing

/-- A map from strings, in the order in which its keys came. -/
abbrev StringMap (α : Type) := List (String × α)

namespace StringMap

/-- The value of a key. -/
def get? (m : StringMap α) (key : String) : Option α :=
  m.lookup key

/-- The keys in order. -/
def keys (m : StringMap α) : List String :=
  m.map (·.1)

/-- Set the value of a key: in its place if it is known, else at the end. -/
def put (m : StringMap α) (key : String) (value : α) : StringMap α :=
  match m with
  | [] => [(key, value)]
  | (k, v) :: rest => if k == key then (key, value) :: rest else (k, v) :: put rest key value

/-- Remove a key. -/
def erase (m : StringMap α) (key : String) : StringMap α :=
  m.filter (·.1 != key)

end StringMap

end NodeFencing
