import NodeFencing.Decimal.Shortest
import NodeFencing.Json.Basic

/-!
# Writing JSON

## Main Definitions

* `Json.write` — the shortest text of a value
-/

namespace NodeFencing

namespace Json

/-- A character within quotes. -/
private def escape (c : Char) : List Char :=
  if c == '"' then ['\\', '"']
  else if c == '\\' then ['\\', '\\']
  else if c == '\n' then ['\\', 'n']
  else if c == '\r' then ['\\', 'r']
  else if c == '\t' then ['\\', 't']
  else if c.toNat < 0x20 then
    ['\\', 'u', '0', '0', Nat.digitChar (c.toNat / 16), Nat.digitChar (c.toNat % 16)]
  else [c]

/-- A text within quotes. -/
private def quoted (s : String) : String :=
  "\"" ++ String.ofList (s.toList.flatMap escape) ++ "\""

mutual

/-- The text of a value, without white space. -/
def write : Json → String
  | null => "null"
  | bool b => if b then "true" else "false"
  | integer n => String.ofList (digitsOfInt n)
  | decimal d => (numeralOfFloat? d.toFloat).getD "null"
  | string s => quoted s
  | array items => "[" ++ writeItems items ++ "]"
  | object members => "\x7b" ++ writeMembers members ++ "\x7d"

private def writeItems : List Json → String
  | [] => ""
  | [j] => j.write
  | j :: rest => j.write ++ "," ++ writeItems rest

private def writeMembers : List (String × Json) → String
  | [] => ""
  | [(key, j)] => quoted key ++ ":" ++ j.write
  | (key, j) :: rest => quoted key ++ ":" ++ j.write ++ "," ++ writeMembers rest

end

end Json

end NodeFencing
