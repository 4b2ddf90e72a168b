import NodeFencing.Decimal.Basic
import NodeFencing.Width

/-!
# The shortest numeral of a double

Among the decimals that read back as a given double, those with the fewest digits are
the shortest, and of these the one nearest to the double is chosen.  All arithmetic is
exact.

## Main Definitions

* `Binary64` — a finite double as an integer times a power of two
* `Binary64.shortest` — the shortest decimal that reads back as it
* `Numeral` — how a decimal is laid out as text
-/

namespace NodeFencing

/-- A finite double, `±mantissa · 2 ^ exponent`. -/
structure Binary64 where
  negative : Bool
  mantissa : Nat
  exponent : Int
  /-- Whether the gap below the double is half as wide as the gap above it. -/
  narrowBelow : Bool
  deriving Repr, DecidableEq

namespace Binary64

/-- Take apart the bits of a finite double. -/
def ofBits (bits : UInt64) : Binary64 :=
  let n := bits.toNat
  let fraction : Nat := n % valuesOf 52
  let biased : Nat := n / valuesOf 52 % valuesOf 11
  { negative := n / valuesOf 63 == 1
    mantissa := if biased == 0 then fraction else valuesOf 52 + fraction
    exponent := (max biased 1 : Nat) - 1075
    narrowBelow := fraction == 0 && 1 < biased }

/-- A fraction of two numbers compared with a power of ten. -/
private def powerLe (e : Int) (numerator denominator : Nat) : Bool :=
  if 0 ≤ e then Nat.pow 10 e.toNat * denominator ≤ numerator
  else denominator ≤ numerator * Nat.pow 10 (-e).toNat

/-- The power of ten of the first digit of a positive fraction.  A bound from the powers of two
is at most two off. -/
private def leadingPower (numerator denominator : Nat) : Int :=
  let twos : Int := (numerator.log2 : Int) - denominator.log2
  let guess := Int.fdiv (twos * 1233) 4096
  let near := [guess + 2, guess + 1, guess, guess - 1]
  (near.find? (powerLe · numerator denominator)).getD (guess - 2)

/-- The shortest decimal that reads back as the double. -/
def shortest (b : Binary64) : Decimal :=
  if b.mantissa == 0 then ⟨b.negative, 0, 0⟩
  else
    -- in quarters of the last binary place, so that the bounds of the rounding interval are whole
    let quarter := b.exponent - 2
    let scale (n : Nat) : Nat := if 0 ≤ quarter then n * Nat.pow 2 quarter.toNat else n
    let one : Nat := if 0 ≤ quarter then 1 else Nat.pow 2 (-quarter).toNat
    let value := scale (4 * b.mantissa)
    let low := scale (4 * b.mantissa - if b.narrowBelow then 1 else 2)
    let high := scale (4 * b.mantissa + 2)
    let closed := b.mantissa % 2 == 0
    let lead := leadingPower value one
    let candidate (digits : Nat) : Option Decimal :=
      let step := lead + 1 - digits
      -- `value / one` and the bounds in units of `10 ^ step`
      let up : Nat := if step < 0 then Nat.pow 10 (-step).toNat else 1
      let down : Nat := one * if step < 0 then 1 else Nat.pow 10 step.toNat
      let inside (n : Nat) : Bool :=
        if closed then low * up ≤ n * down && n * down ≤ high * up
        else low * up < n * down && n * down < high * up
      let below := value * up / down
      let above := below + 1
      let belowNearer := 2 * (value * up) ≤ (below + above) * down
      let pick :=
        if inside below && (belowNearer || !inside above) then some below
        else if inside above then some above
        else none
      pick.map fun n => ⟨b.negative, n, step⟩
    ((List.range 17).findSome? fun i => candidate (i + 1)).getD ⟨b.negative, 0, 0⟩

end Binary64

/-! ### Layout -/

/-- The text of a double: always with a point or an exponent, positional while the point is at
most sixteen places right of the first digit and at most four zeros follow it otherwise.
An infinite or undefined double has none. -/
def numeralOfFloat? (x : Float) : Option String :=
  if x.isNaN || x.isInf then none
  else
    let d := (Binary64.ofBits x.toBits).shortest
    let sign := if d.negative then "-" else ""
    if d.digits == 0 then some (sign ++ "0.0")
    else
      let digits := digitsOfNat d.digits
      let zeros := (digits.reverse.takeWhile (· == '0')).length
      let digits := digits.take (digits.length - zeros)
      let exponent := d.exponent + zeros
      let point := exponent + digits.length
      let text :=
        if 0 ≤ exponent && point ≤ 16 then
          digits ++ List.replicate exponent.toNat '0' ++ ['.', '0']
        else if 0 < point && point ≤ 16 then
          digits.take point.toNat ++ '.' :: digits.drop point.toNat
        else if -5 < point && point ≤ 0 then
          '0' :: '.' :: List.replicate (-point).toNat '0' ++ digits
        else
          let fraction := if digits.length == 1 then [] else '.' :: digits.drop 1
          digits.take 1 ++ fraction ++ 'e' :: digitsOfInt (point - 1)
      some (sign ++ String.ofList text)

end NodeFencing
