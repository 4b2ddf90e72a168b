import NodeFencing.Text.Character
import NodeFencing.Yaml.Cursor

/-!
# Reading scalars

The three ways of writing a scalar that need more than one look ahead: plain
words, quoted text and indented blocks.  Each reader starts at the first
character of the scalar and ends behind it; a plain scalar also takes the white
space after it, since only the next word shows whether the scalar goes on.

## Main Definitions

* `plainScalar` — words outside quotes
* `quotedScalar` — text in single or double quotes
* `blockScalar` — the lines below `|` or `>`
-/

namespace NodeFencing.Yaml

/-! ### Plain scalars -/

/-- A character that delimits a flow collection. -/
private def delimitsFlow (c : Char) : Bool :=
  c == ',' || c == '[' || c == ']' || c == '\x7b' || c == '\x7d'

/-- The characters up to the next white space or the next indicator that ends a plain
scalar.  Within a flow collection a colon directly before a delimiter is refused. -/
def plainRun (inFlow : Bool) : List Char → Option (List Char)
  | [] => some []
  | c :: rest =>
    if isSpace c then some []
    else if inFlow && c == ':' && rest.head?.any (fun d => delimitsFlow d || d == '?') then none
    else if c == ':' && endsWord rest then some []
    else if inFlow && delimitsFlow c then some []
    else (plainRun inFlow rest).map (c :: ·)

/-- A scalar that was read: its text, the place behind it, and whether the white space
already taken contains the end of a line. -/
structure PlainScalar where
  text : List Char
  after : Cursor
  crossedLine : Bool

/-- Read words while they belong to the scalar: neither a document mark nor a comment begins,
and outside flow collections the indentation stays right of `indent`. -/
private def plainWords (inFlow : Bool) (indent : Int) :
    Nat → List Char → Gap → Cursor → Option PlainScalar
  | 0, text, gap, c => some ⟨text, c, gap.crossesLine⟩
  | fuel + 1, text, gap, c =>
    if c.atDocumentMark || c.head? == some '#' then some ⟨text, c, gap.crossesLine⟩
    else do
      let run ← plainRun inFlow c.rest
      let c := c.skip run.length
      if run.isEmpty then some ⟨text, c, gap.crossesLine⟩
      else
        let text := text ++ gap.text ++ run
        if c.atEnd || !(c.head?.any isSpace) then some ⟨text, c, false⟩
        else
          let (gap, c) ← Gap.scan (fun column => (column : Int) ≤ indent) c.rest.length {} c
          if !inFlow && (c.column : Int) ≤ indent then some ⟨text, c, gap.crossesLine⟩
          else plainWords inFlow indent fuel text gap c

/-- Read a plain scalar within a block indented by `indent`. -/
def plainScalar (inFlow : Bool) (indent : Int) (c : Cursor) : Option PlainScalar :=
  plainWords inFlow indent (c.rest.length + 1) [] {} c

/-! ### Quoted scalars -/

/-- The character that a one-letter escape stands for. -/
private def escape? : Char → Option Char
  | '0' => some '\x00'
  | 'a' => some '\x07'
  | 'b' => some '\x08'
  | 't' | '\t' => some '\t'
  | 'n' => some '\n'
  | 'v' => some '\x0b'
  | 'f' => some '\x0c'
  | 'r' => some '\r'
  | 'e' => some '\x1b'
  | ' ' => some ' '
  | '"' => some '"'
  | '/' => some '/'
  | '\\' => some '\\'
  | 'N' => some '\u0085'
  | '_' => some '\u00a0'
  | 'L' => some '\u2028'
  | 'P' => some '\u2029'
  | _ => none

/-- How many hexadecimal digits follow an escape that gives a code point. -/
private def escapeWidth? : Char → Option Nat
  | 'x' => some 2
  | 'u' => some 4
  | 'U' => some 8
  | _ => none

/-- The character whose code point the given hexadecimal digits spell, unless it is a surrogate
or lies beyond the last code point. -/
private def codePoint? (digits : List Char) : Option Char := do
  let n ← natOfDigits? 16 digits
  if h : n.isValidChar then some (Char.ofNatAux n h) else none

/-- Read the words of a quoted scalar up to white space or the closing quote.  The flag
tells that an escaped line break ended the run. -/
private def quotedRun (single : Bool) :
    Nat → List Char → Cursor → Option (List Char × Bool × Cursor)
  | 0, _, _ => none
  | fuel + 1, text, c =>
    match c.rest with
    | [] => some (text, false, c)
    | x :: rest =>
      if isSpace x then some (text, false, c)
      else if single then
        if x == '\'' then
          if rest.head? == some '\'' then quotedRun single fuel (text ++ ['\'']) (c.skip 2)
          else some (text, false, c)
        else quotedRun single fuel (text ++ [x]) (c.skip 1)
      else if x == '"' then some (text, false, c)
      else if x == '\\' then
        match rest with
        | [] => none
        | y :: digits =>
          if isBreak y then some (text, true, (c.skip 1).lineBreak.2)
          else match escapeWidth? y with
            | some width =>
              if (digits.take width).length == width then do
                let char ← codePoint? (digits.take width)
                quotedRun single fuel (text ++ [char]) (c.skip (2 + width))
              else none
            | none => do
              let char ← escape? y
              quotedRun single fuel (text ++ [char]) (c.skip 2)
      else quotedRun single fuel (text ++ [x]) (c.skip 1)

/-- Read runs and gaps in turn until the closing quote. -/
private def quotedText (single : Bool) : Nat → List Char → Cursor → Option (List Char × Cursor)
  | 0, _, _ => none
  | fuel + 1, text, c =>
    if c.atDocumentMark || c.atEnd then none
    else do
      let (text, escapedBreak, c) ← quotedRun single (c.rest.length + 1) text c
      if c.head? == some (if single then '\'' else '"') then some (text, c.skip 1)
      else
        let (gap, c) ← Gap.scan (fun _ => false) c.rest.length { crossesLine := escapedBreak } c
        quotedText single fuel (text ++ gap.text) c

/-- Read a scalar in single or double quotes, from the opening quote to behind the closing one. -/
def quotedScalar (single : Bool) (c : Cursor) : Option (List Char × Cursor) :=
  quotedText single (c.rest.length + 1) [] (c.skip 1)

/-! ### Block scalars -/

/-- What becomes of the line breaks at the end of a block. -/
inductive Chomping where
  /-- All are dropped. -/
  | strip
  /-- The first stays. -/
  | clip
  /-- All stay. -/
  | keep
  deriving Repr, DecidableEq

/-- Read the indicators behind `|` or `>`: the treatment of the end and the number of columns
by which the block is indented, in either order. -/
private def blockHeader (c : Cursor) : Option (Chomping × Option Nat × Cursor) :=
  let chomping? (c : Cursor) : Chomping × Cursor :=
    match c.head? with
    | some '+' => (.keep, c.skip 1)
    | some '-' => (.strip, c.skip 1)
    | _ => (.clip, c)
  let increment? (c : Cursor) : Option (Option Nat × Cursor) :=
    match c.head? with
    | some d =>
      if d == '0' then none
      else if d.isDigit then some (some (d.toNat - '0'.toNat), c.skip 1)
      else some (none, c)
    | none => some (none, c)
  match chomping? c with
  | (.clip, c) => do
    let (increment, c) ← increment? c
    if increment.isSome then
      let (chomping, c) := chomping? c
      some (chomping, increment, c)
    else some (.clip, none, c)
  | (chomping, c) => do
    let (increment, c) ← increment? c
    some (chomping, increment, c)

/-- Read empty lines before a line of a block.  The indentation is `indent` columns, or
still unknown; then the deepest column reached is returned in its place. -/
private def blockBreaks (indent : Option Nat) :
    Nat → Nat → List Char → Cursor → Option (Nat × List Char × Cursor)
  | 0, deepest, breaks, c => some (deepest, breaks, c)
  | fuel + 1, deepest, breaks, c =>
    let spaces := c.rest.takeWhile (· == ' ')
    let c := c.skip (match indent with
      | some n => min spaces.length (n - c.column)
      | none => spaces.length)
    let deepest := max deepest c.column
    if (indent.all fun n => c.column < n) && c.head? == some '\t' then none
    else if c.head?.any isBreak then
      let (b, c) := c.lineBreak
      blockBreaks indent fuel deepest (breaks ++ b) c
    else some (deepest, breaks, c)

/-- The text of a block read so far: everything before the last line break, that line break,
the empty lines after it, and whether the last line began with a blank. -/
private structure BlockText where
  text : List Char := []
  lastBreak : List Char := []
  emptyLines : List Char := []
  blankLine : Bool := false

/-- Read the lines of a block that is indented by `indent` columns.  In a folded block a single
line feed between two lines that do not begin with a blank becomes a space. -/
private def blockLines (folded : Bool) (indent : Nat) :
    Nat → BlockText → Cursor → Option (BlockText × Cursor)
  | 0, block, c => some (block, c)
  | fuel + 1, block, c =>
    if c.column != indent || c.atEnd then some (block, c)
    else do
      let beginsBlank := c.head?.any isBlank
      let joint :=
        if folded && block.lastBreak == ['\n'] && !block.blankLine && !beginsBlank then
          if block.emptyLines.isEmpty then [' '] else []
        else block.lastBreak
      let (line, c) := c.takeWhile (!isBreak ·)
      let (lastBreak, c) := c.lineBreak
      let (_, emptyLines, c) ← blockBreaks (some indent) (c.rest.length + 1) 0 [] c
      blockLines folded indent fuel
        { text := block.text ++ joint ++ block.emptyLines ++ line
          lastBreak, emptyLines, blankLine := beginsBlank } c

/-- Read a block scalar within a block indented by `indent`, from its indicator on. -/
def blockScalar (folded : Bool) (indent : Int) (c : Cursor) : Option (List Char × Cursor) := do
  let (chomping, increment, c) ← blockHeader (c.skip 1)
  let c := c.skipBlanksAndComment
  if !endsLine c.rest then none
  else
    let c := c.lineBreak.2
    let wanted := increment.map fun n => if 0 ≤ indent then indent.toNat + n else n
    let (deepest, emptyLines, c) ← blockBreaks wanted (c.rest.length + 1) 0 [] c
    let columns := wanted.getD (max (max deepest (indent + 1).toNat) 1)
    let (block, c) ← blockLines folded columns (c.rest.length + 1) { emptyLines } c
    let tail := match chomping with
      | .strip => []
      | .clip => block.lastBreak
      | .keep => block.lastBreak ++ block.emptyLines
    some (block.text ++ tail, c)

end NodeFencing.Yaml
