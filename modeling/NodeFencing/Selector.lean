import NodeFencing.StringMap

/-!
# Selectors

A selector restricts objects to those whose labels, or fields, have given values.  As text
it is a list of equations with commas between.

## Main Definitions

* `Selector` — the values that are asked for
* `Selector.text`, `Selector.ofText` — a selector as text
* `Selector.holds` — whether something has the values
-/

namespace NodeFencing

/-- The values that are asked for, by their keys. -/
abbrev Selector := List (String × String)

namespace Selector

/-- The text of a selector. -/
def text (s : Selector) : String :=
  ",".intercalate (s.map fun (key, value) => key ++ "=" ++ value)

/-- The equation in a text: what stands before the first sign of equality, and behind it. -/
def equation (text : List Char) : String × String :=
  let (key, rest) := text.span (· != '=')
  (String.ofList key, String.ofList (rest.drop 1))

/-- The selector in a text. -/
def ofText (text : String) : Selector :=
  if text.isEmpty then [] else (text.toList.splitOn ',').map equation

/-- Whether a function gives all values that are asked for. -/
def holds (s : Selector) (value? : String → Option String) : Bool :=
  s.all fun (key, value) => value? key == some value

end Selector

end NodeFencing
