import NodeFencing.DecodeError
import NodeFencing.Json.Basic
import NodeFencing.Time.Rfc3339
import NodeFencing.Width

/-!
# Decoding JSON

A decoder reads a JSON value as a value of some type.  Members of objects are read in
their order, so of several faults the first one is reported.

## Main Definitions

* `Json.Decoder` — how a value is read
* `Json.Decoder.record` — an object whose known members are fields
* `Json.Decoder.orDefault` — a value that may also be null
-/

namespace NodeFencing.Json

/-- How a JSON value is read. -/
abbrev Decoder (α : Type) := Json → Except DecodeError α

namespace Decoder

/-! ### Simple values -/

/-- A string. -/
def string : Decoder String
  | .string s => .ok s
  | _ => .error .invalidType

/-- A truth value. -/
def bool : Decoder Bool
  | .bool b => .ok b
  | _ => .error .invalidType

/-- An integer between the bounds. -/
def integer (least greatest : Int) : Decoder Int
  | .integer n => if least ≤ n && n ≤ greatest then .ok n else .error .invalidValue
  | _ => .error .invalidType

/-- An integer of 32 bits. -/
def int32 : Decoder Int :=
  integer (leastSigned 32) (greatestSigned 32)

/-- An integer of 64 bits. -/
def int64 : Decoder Int :=
  integer (leastSigned 64) (greatestSigned 64)

/-- A point in time. -/
def instant : Decoder Instant
  | .string s =>
    match Instant.read? s with
    | some t => .ok t
    | none => .error .malformed
  | _ => .error .invalidType

/-- One of several named values: its name, or an object with nothing under its name. -/
def variant (named? : String → Option α) : Decoder α
  | .string s => choose s
  | .object [(s, j)] => do
    let a ← choose s
    match j with
    | .null => return a
    | _ => throw .invalidType
  | .object _ => .error .invalidValue
  | _ => .error .invalidType
where
  choose (s : String) : Except DecodeError α :=
    match named? s with
    | some a => .ok a
    | none => .error (.unknownVariant s)

/-! ### Values made of others -/

/-- A value that may be null. -/
def optional (some? : Decoder α) : Decoder (Option α)
  | .null => .ok none
  | j => some <$> some? j

/-- A value for which null stands as well. -/
def orDefault (fallback : α) (other : Decoder α) : Decoder α
  | .null => .ok fallback
  | j => other j

/-- A text; null stands for the empty one. -/
def text : Decoder String :=
  orDefault "" string

/-- A text that may be absent. -/
def text? : Decoder (Option String) :=
  optional string

/-- A truth value that may be absent. -/
def flag? : Decoder (Option Bool) :=
  optional bool

/-- A point in time that may be absent. -/
def instant? : Decoder (Option Instant) :=
  optional instant

/-- A list. -/
def list (element : Decoder α) : Decoder (List α)
  | .array items => items.mapM element
  | _ => .error .invalidType

/-- A list; null stands for the empty one. -/
def listOrNull (element : Decoder α) : Decoder (List α) :=
  orDefault [] (list element)

/-- A map from strings. -/
def dictionary (element : Decoder α) : Decoder (StringMap α)
  | .object members => members.mapM fun (key, j) => (key, ·) <$> element j
  | _ => .error .invalidType

/-- A field of a record of type `σ`: how its value changes the record. -/
structure Field (σ : Type) where
  name : String
  read : Decoder (σ → σ)

/-- A field that is set to what a decoder reads. -/
def field (name : String) (read : Decoder α) (set : α → σ → σ) : Field σ where
  name := name
  read := fun j => set <$> read j

/-- A member that has to hold one text, if it is there. -/
def constant (name text : String) : Field σ where
  name := name
  read := fun j =>
    match string j with
    | .ok s => if s == text then .ok id else .error .invalidValue
    | .error e => .error e

/-- Read the known members of an object in their order. -/
def changes (fields : List (Field σ)) : σ → List (String × Json) → Except DecodeError σ
  | r, [] => .ok r
  | r, (key, j) :: rest =>
    match fields.find? (·.name == key) with
    | none => changes fields r rest
    | some f =>
      match f.read j with
      | .ok change => changes fields (change r) rest
      | .error e => .error e

/-- A record: an object whose known members are fields.  Other members are skipped, and absent
fields keep the value they start with, unless they are required. -/
def record (fields : List (Field σ)) (required : List String) (start : σ) : Decoder σ
  | .object members =>
    match changes fields start members with
    | .error e => .error e
    | .ok r =>
      match required.find? fun name => !members.any (·.1 == name) with
      | some name => .error (.missingField name)
      | none => .ok r
  | _ => .error .invalidType

end Decoder

end NodeFencing.Json
