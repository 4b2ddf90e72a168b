/-!
# Characters

Numbers written in a base of at most sixteen, in digits and letters of ASCII, and the white
space of Unicode.

## Main Definitions

* `digitValue?` — the value of one digit
* `natOfDigits?` — the number that digits spell
* `digitsOfNat` — the digits of a number in base ten
* `paddedDigits` — the same, with zeros in front
* `isWhiteSpace` — the characters with the property `White_Space` of Unicode
* `isBlankText` — a text of nothing but white space
-/

namespace NodeFencing

/-! ### Digits -/

/-- The value of a digit in a base of at most sixteen. -/
def digitValue? (base : Nat) (c : Char) : Option Nat :=
  let n :=
    if c.isDigit then some (c.toNat - '0'.toNat)
    else if 'a' ≤ c && c ≤ 'f' then some (c.toNat - 'a'.toNat + 10)
    else if 'A' ≤ c && c ≤ 'F' then some (c.toNat - 'A'.toNat + 10)
    else none
  n.filter (· < base)

/-- The number that one or more digits in `base` spell. -/
def natOfDigits? (base : Nat) : List Char → Option Nat
  | [] => none
  | digits => digits.foldlM (fun n c => (digitValue? base c).map (base * n + ·)) 0

/-- The decimal digits of a number. -/
def digitsOfNat (n : Nat) : List Char :=
  Nat.toDigits 10 n

/-- The decimal digits of a number, in at least `width` places. -/
def paddedDigits (width n : Nat) : List Char :=
  let digits := digitsOfNat n
  List.replicate (width - digits.length) '0' ++ digits

/-- The decimal digits of an integer, behind a hyphen if it is negative. -/
def digitsOfInt (n : Int) : List Char :=
  if n < 0 then '-' :: digitsOfNat n.natAbs else digitsOfNat n.natAbs

/-! ### White space -/

/-- The characters with the property `White_Space`. -/
def isWhiteSpace (c : Char) : Bool :=
  let n := c.toNat
  (0x09 ≤ n && n ≤ 0x0D) || n == 0x20 || n == 0x85 || n == 0xA0 || n == 0x1680 ||
    (0x2000 ≤ n && n ≤ 0x200A) || n == 0x2028 || n == 0x2029 || n == 0x202F || n == 0x205F ||
    n == 0x3000

/-- A text of nothing but white space. -/
def isBlankText (text : String) : Bool :=
  text.toList.all isWhiteSpace

end NodeFencing
