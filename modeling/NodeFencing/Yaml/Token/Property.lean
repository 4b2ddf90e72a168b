import NodeFencing.Text.Character
import NodeFencing.Yaml.Cursor
import NodeFencing.Yaml.Token

/-!
# Reading anchors, tags and directives

## Main Definitions

* `anchorName` — the name behind `&` or `*`
* `tagToken` — a tag in one of its three forms
* `directive` — a line that begins with `%`
-/

namespace NodeFencing.Yaml

/-- Read the name of an anchor or alias, from its indicator on.  The name is not empty, and
white space or an indicator follows it. -/
def anchorName (c : Cursor) : Option (String × Cursor) :=
  let (name, c) := (c.skip 1).takeWhile isWordChar
  let mayFollow (d : Char) : Bool :=
    isSpace d || ['?', ':', ',', ']', '\x7d', '%', '@', '\x60'].contains d
  if name.isEmpty || c.head?.any (!mayFollow ·) then none
  else some (String.ofList name, c)

/-! ### Tags -/

/-- Read percent-encoded octets that make up one character in UTF-8. -/
private def encodedChar (rest : List Char) : Option (Char × Nat) := do
  let octet : List Char → Option (Nat × List Char)
    | '%' :: h :: l :: rest => (natOfDigits? 16 [h, l]).map (·, rest)
    | _ => none
  let (first, rest) ← octet rest
  let (width, lead) ←
    if first < 0x80 then some (1, first)
    else if first / 0x20 == 0x6 then some (2, first % 0x20)
    else if first / 0x10 == 0xE then some (3, first % 0x10)
    else if first / 0x08 == 0x1E then some (4, first % 0x08)
    else none
  let (n, _) ← (List.range (width - 1)).foldlM (fun (n, rest) _ => do
    let (next, rest) ← octet rest
    if next / 0x40 == 0x2 then some (0x40 * n + next % 0x40, rest) else none) (lead, rest)
  if h : n.isValidChar then some (Char.ofNatAux n h, 3 * width) else none

/-- A character of a tag.  The flow indicators belong only to a tag in full. -/
private def isTagChar (inFull : Bool) (c : Char) : Bool :=
  isWordChar c ||
    [';', '/', '?', ':', '@', '&', '=', '+', '$', '.', '%', '!', '~', '*', '\'', '(', ')'].contains
      c ||
    (inFull && [',', '[', ']'].contains c)

/-- Read the characters of a tag. -/
private def tagChars (inFull : Bool) : Nat → List Char → Cursor → Option (List Char × Cursor)
  | 0, text, c => some (text, c)
  | fuel + 1, text, c =>
    match c.head? with
    | none => some (text, c)
    | some x =>
      if x == '%' then do
        let (char, width) ← encodedChar c.rest
        tagChars inFull fuel (text ++ [char]) (c.skip width)
      else if isTagChar inFull x then tagChars inFull fuel (text ++ [x]) (c.skip 1)
      else some (text, c)

/-- Read a tag or the rest of one, behind `lead` if that was read already. -/
private def tagText (inFull : Bool) (lead : List Char) (c : Cursor) :
    Option (List Char × Cursor) := do
  let (text, after) ← tagChars inFull (c.rest.length + 1) [] c
  if lead.isEmpty && text.isEmpty then none else some (lead.drop 1 ++ text, after)

/-- Read a handle: an exclamation mark, a word, and perhaps another exclamation mark. -/
private def tagHandle (c : Cursor) : Option (List Char × Cursor) :=
  if c.head? == some '!' then
    let (word, c) := (c.skip 1).takeWhile isWordChar
    if c.head? == some '!' then some ('!' :: word ++ ['!'], c.skip 1) else some ('!' :: word, c)
  else none

/-- Whether a handle has its second exclamation mark. -/
private def isClosedHandle (handle : List Char) : Bool :=
  1 < handle.length && handle.getLast? == some '!'

/-- Read a tag: in full between angle brackets, with a declared handle, or local.  The
handle is empty for a tag in full and for the lone exclamation mark. -/
def tagToken (inFlow : Bool) (c : Cursor) : Option (Token × Cursor) := do
  let (handle, suffix, c) ←
    if c.rest[1]? == some '<' then do
      let (suffix, c) ← tagText true [] (c.skip 2)
      if c.head? == some '>' then some ([], suffix, c.skip 1) else none
    else do
      let (handle, c) ← tagHandle c
      if isClosedHandle handle then
        let (suffix, c) ← tagText false [] c
        some (handle, suffix, c)
      else
        let (suffix, c) ← tagText false handle c
        if suffix.isEmpty then some ([], ['!'], c) else some (['!'], suffix, c)
  if endsWord c.rest || (inFlow && c.head? == some ',') then
    some (.tag (String.ofList handle) (String.ofList suffix), c)
  else none

/-! ### Directives -/

/-- Read a number of at most nine digits. -/
private def versionNumber (c : Cursor) : Option (Nat × Cursor) :=
  let (digits, c) := c.takeWhile Char.isDigit
  if 9 < digits.length then none else (natOfDigits? 10 digits).map (·, c)

/-- Read the line of a directive, from its percent sign on. -/
def directive (c : Cursor) : Option (Token × Cursor) := do
  let (name, c) := (c.skip 1).takeWhile isWordChar
  if !endsWord c.rest then none
  let (token, c) ←
    if name == "YAML".toList then do
      let (major, c) ← versionNumber (c.skipWhile isBlank)
      if c.head? != some '.' then none
      let (minor, c) ← versionNumber (c.skip 1)
      some (Token.versionDirective major minor, c)
    else if name == "TAG".toList then do
      let (handle, c) ← tagHandle (c.skipWhile isBlank)
      if !(isClosedHandle handle || handle == ['!']) || !(c.head?.any isBlank) then none
      let (lead, c) ← tagText true [] (c.skipWhile isBlank)
      if !endsWord c.rest then none
      some (Token.tagDirective (String.ofList handle) (String.ofList lead), c)
    else none
  let c := c.skipBlanksAndComment
  if endsLine c.rest then some (token, c.lineBreak.2) else none

end NodeFencing.Yaml
