/-!
# Why a document cannot be decoded

## Main Definitions

* `DecodeError` — what is wrong with a document
* `DecodeError.message` — the wording of each cause
-/

namespace NodeFencing

/-- What is wrong with a document that does not decode to the value wanted. -/
inductive DecodeError where
  /-- The text does not follow its format, or asks for too much nesting. -/
  | malformed
  /-- A node has the wrong kind. -/
  | invalidType
  /-- A node has the right kind, but its value is out of range. -/
  | invalidValue
  /-- A list has too few or too many elements. -/
  | invalidLength
  | unknownVariant (name : String)
  | missingField (name : String)
  | duplicateField (name : String)
  /-- A mapping holds one key twice. -/
  | duplicateEntry
  /-- The value under a key of a map of strings is a collection. -/
  | scalarValueExpected (key : String)
  /-- A key of a map of strings is a collection. -/
  | scalarKeysExpected
  /-- A map of strings is written as a list, and an element of it is no map. -/
  | mapsExpected
  /-- A map of strings is neither a map nor a list. -/
  | mapExpected
  /-- An optional string is a collection. -/
  | scalarExpected
  deriving Repr, DecidableEq, Inhabited

namespace DecodeError

/-- The wording of a cause. -/
def message : DecodeError → String
  | malformed => "syntax"
  | invalidType => "invalid type"
  | invalidValue => "invalid value"
  | invalidLength => "invalid length"
  | unknownVariant name => "unknown variant \x60" ++ name ++ "\x60"
  | missingField name => "missing field \x60" ++ name ++ "\x60"
  | duplicateField name => "duplicate field \x60" ++ name ++ "\x60"
  | duplicateEntry => "duplicate entry"
  | scalarValueExpected key => "value of '" ++ key ++ "' must be a scalar"
  | scalarKeysExpected => "map keys must be scalars"
  | mapsExpected => "list entries must be maps"
  | mapExpected => "expected a map"
  | scalarExpected => "expected a scalar"

end DecodeError

end NodeFencing
