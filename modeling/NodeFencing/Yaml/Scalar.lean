import NodeFencing.Decimal.Basic
import NodeFencing.Width

/-!
# What a plain scalar means

A scalar outside quotes may be the null value, a truth value or a number; all else is
text.

## Main Definitions

* `isNullWord`, `boolWord?` — the words for null and the truth values
* `integer?` — integers in four bases
* `signed64?`, `unsigned64?` — integers within 64 bits
* `float?` — decimals and the words for the special doubles
* `Resolved`, `resolve` — the meaning of a plain scalar
-/

namespace NodeFencing.Yaml

/-- A word for the null value; the empty scalar is judged elsewhere. -/
def isNullWord (text : String) : Bool :=
  ["null", "Null", "NULL", "~"].contains text

/-- A word for a truth value. -/
def boolWord? (text : String) : Option Bool :=
  if ["true", "True", "TRUE"].contains text then some true
  else if ["false", "False", "FALSE"].contains text then some false
  else none

/-! ### Numbers -/

/-- An integer as written: zero may have a sign. -/
structure Integer where
  negative : Bool
  magnitude : Nat
  deriving Repr, DecidableEq

namespace Integer

/-- The integer without the sign of zero. -/
def value (i : Integer) : Int :=
  if i.negative then -(i.magnitude : Int) else i.magnitude

end Integer

/-- Decimal digits behind a zero are text, with or without a sign. -/
def hasIdleZero (text : List Char) : Bool :=
  let digits := match text with
    | '-' :: rest => rest
    | '+' :: rest => rest
    | rest => rest
  match digits with
  | '0' :: c :: rest => (c :: rest).all Char.isDigit
  | _ => false

/-- The number that digits spell, in the base that the letters before them name. -/
private def magnitude? (digits : List Char) : Option Nat :=
  match digits with
  | '0' :: 'x' :: rest => natOfDigits? 16 rest
  | '0' :: 'o' :: rest => natOfDigits? 8 rest
  | '0' :: 'b' :: rest => natOfDigits? 2 rest
  | _ => if hasIdleZero digits then none else natOfDigits? 10 digits

/-- An integer of any size. -/
def integer? (text : String) : Option Integer :=
  match text.toList with
  | '-' :: rest => (magnitude? rest).map (⟨true, ·⟩)
  | '+' :: rest => (magnitude? rest).map (⟨false, ·⟩)
  | rest => (magnitude? rest).map (⟨false, ·⟩)

/-- An integer of 64 bits with a sign. -/
def signed64? (text : String) : Option Int :=
  ((integer? text).map (·.value)).filter (fitsSigned 64)

/-- An integer of 64 bits, written without a minus sign. -/
def unsigned64? (text : String) : Option Nat :=
  ((integer? text).filter fun i => !i.negative && fitsUnsigned 64 i.magnitude).map (·.magnitude)

/-- A double: a decimal that is not beyond the range of doubles, or a special word. -/
def float? (text : String) : Option Float :=
  if [".inf", ".Inf", ".INF", "+.inf", "+.Inf", "+.INF"].contains text then some (1.0 / 0.0)
  else if ["-.inf", "-.Inf", "-.INF"].contains text then some (-1.0 / 0.0)
  else if [".nan", ".NaN", ".NAN"].contains text then some (0.0 / 0.0)
  else ((Decimal.read? text.toList).map Decimal.toFloat).filter fun x => !x.isInf

/-! ### Meaning -/

/-- The meaning of a plain scalar. -/
inductive Resolved where
  | null
  | bool (b : Bool)
  | integer (n : Int)
  /-- An integer beyond 64 bits and within 128. -/
  | wideInteger
  | float (x : Float)
  | text

/-- Find the meaning of a plain scalar: null, truth values, integers and doubles in this order. -/
def resolve (text : String) : Resolved :=
  if text.isEmpty || isNullWord text then .null
  else match boolWord? text with
    | some b => .bool b
    | none =>
      let number : Option Resolved := do
        let i ← integer? text
        let n := i.value
        if fitsSigned 64 n || fitsUnsigned 64 n then some (.integer n)
        else if fitsSigned 128 n || fitsUnsigned 128 n then some .wideInteger
        else none
      number.getD <|
        if hasIdleZero text.toList then .text
        else ((float? text).map .float).getD .text

end NodeFencing.Yaml
