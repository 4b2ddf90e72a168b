import NodeFencing.Yaml.Token.Property
import NodeFencing.Yaml.Token.Scalar

/-!
# From a text to tokens

A `Scanner` reads one token after another.  It keeps the indentation of the open
blocks, and for each open flow collection the last token that may still turn out to
be a key: only the colon behind it tells.  So tokens are inserted behind the last
one read, and a reader of tokens may be handed only those that can no longer change.

## Main Definitions

* `Scanner` — the state between two tokens
* `Scanner.next` — read one token
* `Tokens` — the tokens of a text, up to its end or up to where it is malformed
* `Tokens.ofText` — all tokens of a text
-/

namespace NodeFencing.Yaml

/-- A token that may turn out to begin a key. -/
structure KeyCandidate where
  /-- How many tokens came before it. -/
  token : Nat
  /-- Whether the text is malformed if it is no key. -/
  required : Bool
  index : Nat
  line : Nat
  column : Nat
  deriving Repr, DecidableEq

/-- A key ends on the line where it began and within 1024 characters. -/
def KeyCandidate.isStale (k : KeyCandidate) (c : Cursor) : Bool :=
  k.line < c.line || k.index + 1024 < c.index

/-- What the scanner knows between two tokens. -/
structure Scanner where
  cursor : Cursor
  /-- The tokens read, in order. -/
  tokens : Array Token := #[]
  /-- The column of the innermost open block, or `-1`. -/
  indent : Int := -1
  /-- The columns of the blocks around it. -/
  outerIndents : List Int := []
  /-- The key candidate of the innermost collection. -/
  candidate : Option KeyCandidate := none
  /-- The key candidates around each open flow collection, the innermost first. -/
  outerCandidates : List (Option KeyCandidate) := []
  /-- Whether a key may begin with the next token. -/
  keyAllowed : Bool := true

namespace Scanner

/-- Whether a flow collection is open. -/
def inFlow (s : Scanner) : Bool :=
  !s.outerCandidates.isEmpty

/-- Append a token and go on behind it. -/
private def emit (s : Scanner) (t : Token) (c : Cursor) : Scanner :=
  { s with tokens := s.tokens.push t, cursor := c }

/-- Every key candidate there is. -/
private def candidates (s : Scanner) : List KeyCandidate :=
  (s.candidate :: s.outerCandidates).filterMap id

/-- Forget the candidates that are stale by now; none of them was required. -/
def dropStale (s : Scanner) : Option Scanner :=
  if s.candidates.any fun k => k.isStale s.cursor && k.required then none
  else
    let fresh (k : Option KeyCandidate) := k.filter fun k => !k.isStale s.cursor
    some { s with
      candidate := fresh s.candidate, outerCandidates := s.outerCandidates.map fresh }

/-- How many tokens can no longer change: those before the first candidate. -/
def settled (s : Scanner) : Nat :=
  (s.candidates.map (·.token)).foldl min s.tokens.size

/-- Give up the candidate of the innermost collection, which was not required. -/
private def forgetKey (s : Scanner) : Option Scanner :=
  if s.candidate.any (·.required) then none else some { s with candidate := none }

/-- Let the next token be a key candidate where one is allowed.  In a block it is
required in the column where the block is indented. -/
private def proposeKey (s : Scanner) : Option Scanner :=
  if s.keyAllowed then do
    let s ← s.forgetKey
    let c := s.cursor
    some { s with candidate := some {
      token := s.tokens.size, required := !s.inFlow && s.indent == c.column
      index := c.index, line := c.line, column := c.column } }
  else some s

/-- Open a block at a column right of the innermost one, with its start before token `at`. -/
private def openBlock (s : Scanner) (column : Nat) (at_ : Nat) (start : Token) : Scanner :=
  if !s.inFlow && s.indent < column then
    { s with
      tokens := s.tokens.insertIdxIfInBounds at_ start
      indent := column, outerIndents := s.indent :: s.outerIndents }
  else s

/-- The ends of the blocks that are indented beyond `column`, with the indentation left. -/
private def closeTo (column : Int) : Int → List Int → Array Token → Int × List Int × Array Token
  | indent, [], tokens => (indent, [], tokens)
  | indent, outer :: outers, tokens =>
    if column < indent then closeTo column outer outers (tokens.push .blockEnd)
    else (indent, outer :: outers, tokens)

/-- Close the blocks that are indented beyond `column`. -/
private def closeBlocks (s : Scanner) (column : Int) : Scanner :=
  if s.inFlow then s
  else
    let (indent, outerIndents, tokens) := closeTo column s.indent s.outerIndents s.tokens
    { s with indent, outerIndents, tokens }

/-! ### Kinds of tokens -/

/-- The end of the text closes everything. -/
private def finish (s : Scanner) : Option Scanner := do
  let c := s.cursor
  let c := if c.column == 0 then c else { c with line := c.line + 1, column := 0 }
  let s ← (s.closeBlocks (-1)).forgetKey
  some { s.emit .streamEnd c with keyAllowed := false }

/-- A directive or a document mark closes all blocks. -/
private def betweenDocuments (s : Scanner) (read : Cursor → Option (Token × Cursor)) :
    Option Scanner := do
  let s ← (s.closeBlocks (-1)).forgetKey
  let (t, c) ← read s.cursor
  some { s.emit t c with keyAllowed := false }

/-- A bracket that opens a flow collection may begin a key.  Inside, keys are kept apart from
those outside. -/
private def openFlow (s : Scanner) (t : Token) : Option Scanner := do
  let s ← s.proposeKey
  some { s.emit t (s.cursor.skip 1) with
    candidate := none, outerCandidates := s.candidate :: s.outerCandidates, keyAllowed := true }

/-- A closing bracket returns to the key that was open around the collection. -/
private def closeFlow (s : Scanner) (t : Token) : Option Scanner := do
  let s ← s.forgetKey
  let s := match s.outerCandidates with
    | [] => s
    | k :: ks => { s with candidate := k, outerCandidates := ks }
  some { s.emit t (s.cursor.skip 1) with keyAllowed := false }

/-- After a comma a key may begin. -/
private def flowEntry (s : Scanner) : Option Scanner := do
  let s ← s.forgetKey
  some { s.emit .flowEntry (s.cursor.skip 1) with keyAllowed := true }

/-- A hyphen opens a block sequence where none is open in its column. -/
private def blockEntry (s : Scanner) : Option Scanner := do
  if !s.inFlow && !s.keyAllowed then none
  let s ← (s.openBlock s.cursor.column s.tokens.size .blockSequenceStart).forgetKey
  some { s.emit .blockEntry (s.cursor.skip 1) with keyAllowed := true }

/-- A question mark opens a block mapping where none is open in its column. -/
private def keyMark (s : Scanner) : Option Scanner := do
  if !s.inFlow && !s.keyAllowed then none
  let s ← (s.openBlock s.cursor.column s.tokens.size .blockMappingStart).forgetKey
  some { s.emit .key (s.cursor.skip 1) with keyAllowed := !s.inFlow }

/-- A colon makes the key candidate a key; without one it follows a key that was marked. -/
private def valueMark (s : Scanner) : Option Scanner :=
  match s.candidate with
  | some k =>
    let s := { s with tokens := s.tokens.insertIdxIfInBounds k.token .key }
    let s := s.openBlock k.column k.token .blockMappingStart
    some { s.emit .value (s.cursor.skip 1) with candidate := none, keyAllowed := false }
  | none => do
    if !s.inFlow && !s.keyAllowed then none
    let s := s.openBlock s.cursor.column s.tokens.size .blockMappingStart
    some { s.emit .value (s.cursor.skip 1) with keyAllowed := !s.inFlow }

/-- An anchor, alias, tag or quoted scalar may begin a key and is followed by none. -/
private def keyStart (s : Scanner) (read : Cursor → Option (Token × Cursor)) : Option Scanner := do
  let s ← s.proposeKey
  let (t, c) ← read s.cursor
  some { s.emit t c with keyAllowed := false }

/-- A plain scalar may begin a key.  Behind one that crosses a line a key may begin. -/
private def plain (s : Scanner) : Option Scanner := do
  let s ← s.proposeKey
  let r ← plainScalar s.inFlow s.indent s.cursor
  some { s.emit (.scalar .plain (String.ofList r.text)) r.after with keyAllowed := r.crossedLine }

/-- A block scalar is no key, and a key may begin behind it. -/
private def block (s : Scanner) (style : ScalarStyle) : Option Scanner := do
  let s ← s.forgetKey
  let (text, c) ← blockScalar (style == .folded) s.indent s.cursor
  some { s.emit (.scalar style (String.ofList text)) c with keyAllowed := true }

/-- A quoted scalar as a token. -/
private def quoted (style : ScalarStyle) (c : Cursor) : Option (Token × Cursor) := do
  let (text, c) ← quotedScalar (style == .singleQuoted) c
  some (.scalar style (String.ofList text), c)

/-- Whether a plain scalar may begin with these characters. -/
private def beginsPlain (inFlow : Bool) : List Char → Bool
  | [] => false
  | '-' :: rest => !(rest.head?.any isBlank)
  | c :: rest =>
    if c == '?' || c == ':' then !inFlow && !endsWord rest
    else !isSpace c && !([',', '[', ']', '\x7b', '\x7d', '#', '&', '*', '!', '|', '>', '\'', '"',
      '%', '@', '\x60'].contains c)

/-! ### The next token -/

/-- Step over white space and comments.  Tabs are skipped where no key may begin, and in a
block a new line lets one begin. -/
private def skipToToken : Nat → Scanner → Scanner
  | 0, s => s
  | fuel + 1, s =>
    let skips (c : Char) : Bool := c == ' ' || ((s.inFlow || !s.keyAllowed) && c == '\t')
    let c := s.cursor.skipWhile skips
    let c := if c.head? == some '#' then c.skipWhile (!isBreak ·) else c
    if c.head?.any isBreak then
      skipToToken fuel { s with cursor := c.lineBreak.2, keyAllowed := s.keyAllowed || !s.inFlow }
    else { s with cursor := c }

/-- Read the next token, with the ends of the blocks that it closes before it. -/
def next (s : Scanner) : Option Scanner := do
  let s ← (skipToToken (s.cursor.rest.length + 1) s).dropStale
  let s := s.closeBlocks s.cursor.column
  let c := s.cursor
  let marks := s.inFlow || endsWord (c.rest.drop 1)
  match c.head? with
  | none => s.finish
  | some x =>
    if c.column == 0 && x == '%' then s.betweenDocuments directive
    else if c.atDocumentMark then
      s.betweenDocuments fun c =>
        some (if x == '-' then .documentStart else .documentEnd, c.skip 3)
    else if x == '[' then s.openFlow .flowSequenceStart
    else if x == '\x7b' then s.openFlow .flowMappingStart
    else if x == ']' then s.closeFlow .flowSequenceEnd
    else if x == '\x7d' then s.closeFlow .flowMappingEnd
    else if x == ',' then s.flowEntry
    else if x == '-' && endsWord (c.rest.drop 1) then s.blockEntry
    else if x == '?' && marks then s.keyMark
    else if x == ':' && marks then s.valueMark
    else if x == '*' then
      s.keyStart fun c => (anchorName c).map fun (name, c) => (.alias name, c)
    else if x == '&' then
      s.keyStart fun c => (anchorName c).map fun (name, c) => (.anchor name, c)
    else if x == '!' then s.keyStart (tagToken s.inFlow)
    else if x == '|' && !s.inFlow then s.block .literal
    else if x == '>' && !s.inFlow then s.block .folded
    else if x == '\'' then s.keyStart (quoted .singleQuoted)
    else if x == '"' then s.keyStart (quoted .doubleQuoted)
    else if beginsPlain s.inFlow c.rest then s.plain
    else none

end Scanner

/-! ### All tokens -/

/-- The tokens of a text.  Without the token for the end of the text, the text is malformed
behind the last one. -/
abbrev Tokens := List Token

namespace Tokens

/-- Read tokens until the end of the text or until it is malformed; then those stay that
were settled before. -/
private def scan : Nat → Nat → Scanner → Tokens
  | 0, settled, s => s.tokens.toList.take settled
  | fuel + 1, settled, s =>
    match s.dropStale with
    | none => s.tokens.toList.take settled
    | some s =>
      if s.tokens.back? == some .streamEnd then s.tokens.toList
      else
        match s.next with
        | none => s.tokens.toList.take s.settled
        | some t => scan fuel s.settled t

/-- The tokens of a text.  A text with a character that no text may contain has none. -/
def ofText (text : String) : Tokens :=
  let chars := text.toList
  if chars.all isPrintable then scan (chars.length + 2) 0 { cursor := { rest := chars } } else []

end Tokens

end NodeFencing.Yaml
