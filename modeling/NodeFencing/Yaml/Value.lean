import NodeFencing.Decimal.Shortest
import NodeFencing.Yaml.Scalar

/-!
# YAML values of any kind

## Main Definitions

* `Number`, `Value` — what a node means
* `Value.same` — when two keys of a mapping are the same key
* `Value.scalarText?` — the text of a scalar in canonical form
-/

namespace NodeFencing.Yaml

/-- A number of a YAML document. -/
inductive Number where
  | integer (n : Int)
  | float (x : Float)
  deriving Inhabited, Repr

namespace Number

/-- Integers and doubles are never the same number, and not-a-number is the same as itself. -/
def same : Number → Number → Bool
  | .integer m, .integer n => m == n
  | .float x, .float y => (x.isNaN && y.isNaN) || x == y
  | _, _ => false

/-- The canonical text of a number. -/
def text : Number → String
  | .integer n => String.ofList (digitsOfInt n)
  | .float x =>
    (numeralOfFloat? x).getD (if x.isNaN then ".nan" else if x < 0.0 then "-.inf" else ".inf")

end Number

/-- What a node means. -/
inductive Value where
  | null
  | bool (b : Bool)
  | number (n : Number)
  | string (s : String)
  | sequence (items : List Value)
  | mapping (entries : List (Value × Value))
  /-- A value under a local tag. -/
  | tagged (tag : String) (value : Value)
  deriving Inhabited, Repr

namespace Value

mutual

/-- Whether two values are the same as keys of a mapping.  The order of the entries of a mapping
does not matter. -/
def same : Value → Value → Bool
  | .null, .null => true
  | .bool a, .bool b => a == b
  | .number m, .number n => m.same n
  | .string s, .string t => s == t
  | .sequence xs, .sequence ys => allSame xs ys
  | .mapping xs, .mapping ys => xs.length == ys.length && entriesIn ys xs
  | .tagged s v, .tagged t w => s == t && v.same w
  | _, _ => false

private def allSame : List Value → List Value → Bool
  | [], [] => true
  | x :: xs, y :: ys => x.same y && allSame xs ys
  | _, _ => false

private def entriesIn (ys : List (Value × Value)) : List (Value × Value) → Bool
  | [] => true
  | (k, v) :: xs => ys.any (fun y => k.same y.1 && v.same y.2) && entriesIn ys xs

end

/-- The text of a scalar in canonical form: null is empty, and collections and tagged values
have none. -/
def scalarText? : Value → Option String
  | .null => some ""
  | .bool b => some (if b then "true" else "false")
  | .number n => some n.text
  | .string s => some s
  | _ => none

end Value

end NodeFencing.Yaml
