import NodeFencing.Text.Character

/-!
# Decimal numerals

Signed decimal numbers with an exponent, their numerals and their nearest double.

## Main Definitions

* `Decimal` — a sign, digits and a power of ten
* `Decimal.read?` — the numeral of a number with an optional point and exponent
* `Decimal.toFloat` — the nearest double
-/

namespace NodeFencing

/-- The decimal number `±digits · 10 ^ exponent`. -/
structure Decimal where
  negative : Bool
  digits : Nat
  exponent : Int
  deriving Repr, DecidableEq, Inhabited

namespace Decimal

/-- Read the digits behind an exponent mark, with an optional sign. -/
private def exponent? : List Char → Option Int
  | '-' :: digits => (natOfDigits? 10 digits).map fun n => -(n : Int)
  | '+' :: digits => (natOfDigits? 10 digits).map (fun n => (n : Int))
  | digits => (natOfDigits? 10 digits).map (fun n => (n : Int))

/-- Read a numeral without a sign: digits with at most one point among or beside them, then
an exponent if there is an exponent mark. -/
def unsigned? (negative : Bool) (numeral : List Char) : Option Decimal := do
  let whole := numeral.takeWhile Char.isDigit
  let rest := numeral.drop whole.length
  let (fraction, rest) := match rest with
    | '.' :: rest =>
      let fraction := rest.takeWhile Char.isDigit
      (fraction, rest.drop fraction.length)
    | rest => ([], rest)
  let digits ← natOfDigits? 10 (whole ++ fraction)
  let exponent ← match rest with
    | [] => some 0
    | 'e' :: rest => exponent? rest
    | 'E' :: rest => exponent? rest
    | _ => none
  some { negative, digits, exponent := exponent - fraction.length }

/-- Read a numeral with an optional sign. -/
def read? : List Char → Option Decimal
  | '-' :: rest => unsigned? true rest
  | '+' :: rest => unsigned? false rest
  | rest => unsigned? false rest

/-- How many decimal digits a number has; zero has none. -/
def width (n : Nat) : Nat :=
  if n == 0 then 0 else (digitsOfNat n).length

/-- The double next to the number: infinite beyond the range of doubles. -/
def toFloat (d : Decimal) : Float :=
  let magnitude :=
    -- the power of ten of the leading digit decides the far ends, so that no huge power is made
    let lead := d.exponent + width d.digits
    if d.digits == 0 || lead < -400 then 0.0
    else if 400 < lead then 1.0 / 0.0
    else Float.ofScientific d.digits (d.exponent < 0) d.exponent.natAbs
  if d.negative then -magnitude else magnitude

end Decimal

end NodeFencing
