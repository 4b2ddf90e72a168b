import NodeFencing.Decimal.Basic
import NodeFencing.StringMap

/-!
# JSON values

## Main Definitions

* `Json` — a JSON value; members of objects keep their order
* `Json.get?` — a member of an object
* `Json.ofMembers` — an object of the members that are present
-/

namespace NodeFencing

/-- A JSON value.  Numbers with a fraction or exponent, and those beyond 64 bits, are decimals. -/
inductive Json where
  | null
  | bool (b : Bool)
  | integer (n : Int)
  | decimal (d : Decimal)
  | string (s : String)
  | array (items : List Json)
  | object (members : List (String × Json))
  deriving Inhabited, Repr

namespace Json

/-- A member of an object; nothing else has members. -/
def get? (j : Json) (key : String) : Option Json :=
  match j with
  | object members => members.lookup key
  | _ => none

/-- A member that is there and not null. -/
def some? (j : Json) (key : String) : Option Json :=
  match j.get? key with
  | some null => none
  | other => other

/-- The text of a string. -/
def asString? : Json → Option String
  | string s => some s
  | _ => none

/-- The value at the end of a path of members. -/
def at? (j : Json) : List String → Option Json
  | [] => some j
  | key :: path => (j.get? key).bind (·.at? path)

/-- Set a member of an object; anything else becomes an object first. -/
def set (j : Json) (key : String) (value : Json) : Json :=
  match j with
  | object members => object (StringMap.put members key value)
  | _ => object [(key, value)]

/-- An object of those members that are present. -/
def ofMembers (members : List (String × Option Json)) : Json :=
  object (members.filterMap fun (key, value) => value.map fun value => (key, value))

/-- A value, or null in place of none. -/
def ofOption (encode : α → Json) : Option α → Json
  | some a => encode a
  | none => null

/-- A natural number. -/
def nat (n : Nat) : Json :=
  integer n

/-- A list of strings. -/
def strings (items : List String) : Json :=
  array (items.map string)

/-- A list, unless it is empty. -/
def ofList? (encode : α → Json) (items : List α) : Option Json :=
  if items.isEmpty then none else some (array (items.map encode))

/-- A map of strings. -/
def ofStringMap (m : StringMap String) : Json :=
  object (m.map fun (key, value) => (key, string value))

mutual

/-- Whether two values are equal.  The order of members does not matter. -/
def same : Json → Json → Bool
  | null, null => true
  | bool a, bool b => a == b
  | integer m, integer n => m == n
  | decimal d, decimal e => d == e
  | string s, string t => s == t
  | array xs, array ys => allSame xs ys
  | object xs, object ys => xs.length == ys.length && membersIn ys xs
  | _, _ => false

private def allSame : List Json → List Json → Bool
  | [], [] => true
  | x :: xs, y :: ys => x.same y && allSame xs ys
  | _, _ => false

private def membersIn (ys : List (String × Json)) : List (String × Json) → Bool
  | [] => true
  | (key, x) :: xs => ys.any (fun y => y.1 == key && x.same y.2) && membersIn ys xs

end

end Json

end NodeFencing
