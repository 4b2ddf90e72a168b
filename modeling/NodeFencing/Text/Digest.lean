import NodeFencing.Width

/-!
# Short digests of text

A digest of eight hexadecimal digits that stands for a text where the text itself is
too long: the upper half of SipHash-1-3 under the zero key.

## Main Definitions

* `sipHash13` — the keyed hash of a list of octets, with one round for each block and three at
  the end
* `digest` — eight digits that stand for a text
-/

namespace NodeFencing

namespace SipHash

/-- The four words of the state. -/
structure State where
  v0 : UInt64
  v1 : UInt64
  v2 : UInt64
  v3 : UInt64
  deriving Repr, DecidableEq

private def rotate (x : UInt64) (n : UInt64) : UInt64 :=
  (x <<< n) ||| (x >>> (64 - n))

/-- One round. -/
def round (s : State) : State :=
  let v0 := s.v0 + s.v1
  let v1 := rotate s.v1 13 ^^^ v0
  let v0 := rotate v0 32
  let v2 := s.v2 + s.v3
  let v3 := rotate s.v3 16 ^^^ v2
  let v0 := v0 + v3
  let v3 := rotate v3 21 ^^^ v0
  let v2 := v2 + v1
  let v1 := rotate v1 17 ^^^ v2
  let v2 := rotate v2 32
  ⟨v0, v1, v2, v3⟩

/-- Mix in a block of eight octets. -/
def absorb (s : State) (block : UInt64) : State :=
  let s := round { s with v3 := s.v3 ^^^ block }
  { s with v0 := s.v0 ^^^ block }

/-- Up to eight octets as a number, the first octet least. -/
def littleEndian (octets : List UInt8) : UInt64 :=
  octets.foldr (fun o n => (n <<< 8) ||| o.toUInt64) 0

/-- The state under the zero key before any block. -/
def start : State :=
  ⟨0x736f6d6570736575, 0x646f72616e646f6d, 0x6c7967656e657261, 0x7465646279746573⟩

/-- Mix in all blocks; the last holds the remaining octets and, on top, the length of the input
modulo 256. -/
def absorbAll (length : Nat) : State → List UInt8 → State
  | s, a :: b :: c :: d :: e :: f :: g :: h :: rest =>
    absorbAll length (absorb s (littleEndian [a, b, c, d, e, f, g, h])) rest
  | s, rest => absorb s (littleEndian rest ||| (UInt64.ofNat (length % 256) <<< 56))

end SipHash

open SipHash in
/-- The hash of a list of octets under the zero key. -/
def sipHash13 (octets : List UInt8) : UInt64 :=
  let s := absorbAll octets.length start octets
  let s := round (round (round { s with v2 := s.v2 ^^^ 0xff }))
  s.v0 ^^^ s.v1 ^^^ s.v2 ^^^ s.v3

/-- The hexadecimal digits of the lowest `4 * width` bits of a number, the highest first. -/
def hexDigits : Nat → Nat → List Char
  | 0, _ => []
  | width + 1, n => hexDigits width (n / 16) ++ [Nat.digitChar (n % 16)]

/-- Eight hexadecimal digits that stand for a text: the upper half of the hash of its octets in
UTF-8, closed by an octet that UTF-8 does not use. -/
def digest (text : String) : String :=
  String.ofList (hexDigits 8 ((sipHash13 (text.toUTF8.toList ++ [0xff])).toNat / valuesOf 32))

end NodeFencing
