import NodeFencing.Json.Basic
import NodeFencing.Width

/-!
# Reading JSON

## Main Definitions

* `Json.read?` — the value of a JSON text
* `Json.readLines?` — the values of a text with one JSON text on each line
-/

namespace NodeFencing

namespace Json

/-- Skip the white space of JSON. -/
private def skipSpace (text : List Char) : List Char :=
  text.dropWhile fun c => c == ' ' || c == '\t' || c == '\n' || c == '\r'

/-- Four hexadecimal digits. -/
private def unit? : List Char → Option (Nat × List Char)
  | a :: b :: c :: d :: rest => (natOfDigits? 16 [a, b, c, d]).map (·, rest)
  | _ => none

private def char? (n : Nat) : Option Char :=
  if h : n.isValidChar then some (Char.ofNatAux n h) else none

/-- The rest of an escape behind its letter u.  Two units may form a surrogate pair; a lone
surrogate is refused. -/
private def unicodeEscape (text : List Char) : Option (Char × List Char) := do
  let (high, rest) ← unit? text
  if 0xD800 ≤ high && high < 0xDC00 then
    match rest with
    | '\\' :: 'u' :: rest =>
      let (low, rest) ← unit? rest
      if 0xDC00 ≤ low && low < 0xE000 then
        return (← char? (0x10000 + 0x400 * (high - 0xD800) + (low - 0xDC00)), rest)
      else none
    | _ => none
  else return (← char? high, rest)

/-- The rest of a string behind its opening quote, after what was read of it. -/
private def stringRest : Nat → List Char → List Char → Option (String × List Char)
  | 0, _, _ => none
  | fuel + 1, read, text =>
    match text with
    | [] => none
    | '"' :: rest => some (String.ofList read.reverse, rest)
    | '\\' :: 'u' :: rest => do
      let (c, rest) ← unicodeEscape rest
      stringRest fuel (c :: read) rest
    | '\\' :: c :: rest =>
      match c with
      | '"' | '\\' | '/' => stringRest fuel (c :: read) rest
      | 'b' => stringRest fuel ('\x08' :: read) rest
      | 'f' => stringRest fuel ('\x0c' :: read) rest
      | 'n' => stringRest fuel ('\n' :: read) rest
      | 'r' => stringRest fuel ('\r' :: read) rest
      | 't' => stringRest fuel ('\t' :: read) rest
      | _ => none
    | c :: rest => if c.toNat < 0x20 then none else stringRest fuel (c :: read) rest

/-- A number: no superfluous zeros before it, and digits on both sides of a point. -/
private def number (text : List Char) : Option (Json × List Char) := do
  let numeral := text.takeWhile fun c =>
    c.isDigit || c == '-' || c == '+' || c == '.' || c == 'e' || c == 'E'
  let (negative, unsigned) := match numeral with
    | '-' :: rest => (true, rest)
    | rest => (false, rest)
  let whole := unsigned.takeWhile Char.isDigit
  let fraction := unsigned.drop whole.length
  if whole.isEmpty || (1 < whole.length && whole.head? == some '0') then none
  if fraction.head? == some '.' && !(fraction[1]?.any Char.isDigit) then none
  let d ← Decimal.unsigned? negative unsigned
  let n : Int := if negative then -(d.digits : Int) else d.digits
  let rest := text.drop numeral.length
  if fraction.isEmpty && (fitsSigned 64 n || fitsUnsigned 64 n) && !(negative && d.digits == 0) then
    some (.integer n, rest)
  else some (.decimal d, rest)

mutual

/-- A value, nested no deeper than `depth`, with the text behind it. -/
private def value (depth : Nat) (text : List Char) : Option (Json × List Char) :=
  match depth with
  | 0 => none
  | depth + 1 =>
    match skipSpace text with
    | 'n' :: 'u' :: 'l' :: 'l' :: rest => some (.null, rest)
    | 't' :: 'r' :: 'u' :: 'e' :: rest => some (.bool true, rest)
    | 'f' :: 'a' :: 'l' :: 's' :: 'e' :: rest => some (.bool false, rest)
    | '"' :: rest => do
      let (s, rest) ← stringRest (rest.length + 1) [] rest
      some (.string s, rest)
    | '[' :: rest =>
      match skipSpace rest with
      | ']' :: rest => some (.array [], rest)
      | rest => do
        let (items, rest) ← itemsFrom depth (rest.length + 1) rest
        some (.array items, rest)
    | '\x7b' :: rest =>
      match skipSpace rest with
      | '\x7d' :: rest => some (.object [], rest)
      | rest => do
        let (members, rest) ← membersFrom depth (rest.length + 1) [] rest
        some (.object members, rest)
    | rest => number rest
termination_by (depth, 0)

/-- The items of an array up to its closing bracket. -/
private def itemsFrom (depth fuel : Nat) (text : List Char) : Option (List Json × List Char) :=
  match fuel with
  | 0 => none
  | fuel + 1 => do
    let (item, rest) ← value depth text
    match skipSpace rest with
    | ',' :: rest =>
      let (items, rest) ← itemsFrom depth fuel rest
      some (item :: items, rest)
    | ']' :: rest => some ([item], rest)
    | _ => none
termination_by (depth, fuel + 1)

/-- The members of an object up to its closing brace, after those already known. -/
private def membersFrom (depth fuel : Nat) (known : StringMap Json) (text : List Char) :
    Option (List (String × Json) × List Char) :=
  match fuel with
  | 0 => none
  | fuel + 1 =>
    match skipSpace text with
    | '"' :: rest => do
      let (key, rest) ← stringRest (rest.length + 1) [] rest
      match skipSpace rest with
      | ':' :: rest =>
        let (item, rest) ← value depth rest
        match skipSpace rest with
        | ',' :: rest => membersFrom depth fuel (known.put key item) rest
        | '\x7d' :: rest => some (known.put key item, rest)
        | _ => none
      | _ => none
    | _ => none
termination_by (depth, fuel + 1)

end

/-- The value of a JSON text.  Of members with one name the last counts. -/
def read? (text : String) : Option Json := do
  let (j, rest) ← value 128 text.toList
  if (skipSpace rest).isEmpty then some j else none

end Json

end NodeFencing
