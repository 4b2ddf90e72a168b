/-!
# Positions in a YAML text

A `Cursor` is the unread part of a text together with the place reached so far.
Places matter to YAML: columns decide the nesting of blocks, and the line and
the number of characters since its start decide whether a token may still turn
out to be a key.

## Main Definitions

* `isBlank`, `isBreak`, `isPrintable` — the character classes of the format
* `Cursor` — the unread text, with its index, line and column
* `Gap` — the white space between two words of a scalar, and how it folds
-/

namespace NodeFencing.Yaml

/-! ### Character classes -/

/-- A space or a tab. -/
def isBlank (c : Char) : Bool :=
  c == ' ' || c == '\t'

/-- A line break: line feed, carriage return, next line, line separator or paragraph separator. -/
def isBreak (c : Char) : Bool :=
  c == '\n' || c == '\r' || c == '\u0085' || c == '\u2028' || c == '\u2029'

/-- White space of either kind. -/
def isSpace (c : Char) : Bool :=
  isBlank c || isBreak c

/-- A letter, digit, underscore or hyphen of ASCII: what names of anchors and tags are made of. -/
def isWordChar (c : Char) : Bool :=
  c.isAlphanum || c == '_' || c == '-'

/-- The characters a text may contain at all.  Control characters are refused,
and so is the byte order mark. -/
def isPrintable (c : Char) : Bool :=
  let n := c.toNat
  n == 0x09 || n == 0x0A || n == 0x0D || (0x20 ≤ n && n ≤ 0x7E) || n == 0x85 ||
    (0xA0 ≤ n && n ≤ 0xD7FF) || (0xE000 ≤ n && n ≤ 0xFFFD && n != 0xFEFF) || 0x10000 ≤ n

/-- The end of the text or white space: what has to follow most indicators. -/
def endsWord : List Char → Bool
  | [] => true
  | c :: _ => isSpace c

/-- The end of the text or of the line. -/
def endsLine : List Char → Bool
  | [] => true
  | c :: _ => isBreak c

/-! ### Cursors -/

/-- The unread part of a text and the place where it begins. -/
structure Cursor where
  /-- The unread characters. -/
  rest : List Char
  /-- How many characters were read. -/
  index : Nat := 0
  /-- How many lines were completed. -/
  line : Nat := 0
  /-- How many characters of the current line were read. -/
  column : Nat := 0
  deriving Repr, DecidableEq, Inhabited

namespace Cursor

/-- The next character, if the text has not ended. -/
def head? (c : Cursor) : Option Char :=
  c.rest.head?

/-- Whether the text has ended. -/
def atEnd (c : Cursor) : Bool :=
  c.rest.isEmpty

/-- Step over `n` characters, none of which is a line break. -/
def skip (c : Cursor) (n : Nat) : Cursor :=
  { c with rest := c.rest.drop n, index := c.index + n, column := c.column + n }

/-- Step over the longest run of characters that satisfy `p`, which no line break does,
and return that run. -/
def takeWhile (c : Cursor) (p : Char → Bool) : List Char × Cursor :=
  let run := c.rest.takeWhile p
  (run, c.skip run.length)

/-- Step over the longest run of characters that satisfy `p`. -/
def skipWhile (c : Cursor) (p : Char → Bool) : Cursor :=
  (c.takeWhile p).2

/-- Start the next line after `n` characters of line break. -/
def newLine (c : Cursor) (n : Nat) : Cursor :=
  { rest := c.rest.drop n, index := c.index + n, line := c.line + 1, column := 0 }

/-- Step over one line break and return the character it counts as: the breaks of
ASCII and the next-line character are one line feed each, a carriage return and
line feed together are one break, and the two separators of Unicode stand for
themselves.  Nothing happens where there is no break. -/
def lineBreak (c : Cursor) : List Char × Cursor :=
  match c.rest with
  | '\r' :: '\n' :: _ => (['\n'], c.newLine 2)
  | x :: _ =>
    if x == '\u2028' || x == '\u2029' then ([x], c.newLine 1)
    else if isBreak x then (['\n'], c.newLine 1)
    else ([], c)
  | [] => ([], c)

/-- Whether a line begins here with one of the marks `---` and `...` that delimit documents. -/
def atDocumentMark (c : Cursor) : Bool :=
  c.column == 0 &&
    match c.rest with
    | '-' :: '-' :: '-' :: r => endsWord r
    | '.' :: '.' :: '.' :: r => endsWord r
    | _ => false

/-- Step over blanks, then over a comment. -/
def skipBlanksAndComment (c : Cursor) : Cursor :=
  let c := c.skipWhile isBlank
  if c.head? == some '#' then c.skipWhile (!isBreak ·) else c

end Cursor

/-! ### Gaps -/

/-- The white space between two words of a scalar that may span lines. -/
structure Gap where
  /-- The blanks before the first line break. -/
  blanks : List Char := []
  /-- The first line break, unless it was written as an escape. -/
  firstBreak : List Char := []
  /-- The line breaks after the first one. -/
  laterBreaks : List Char := []
  /-- Whether a line ended within the gap. -/
  crossesLine : Bool := false
  deriving Repr, DecidableEq, Inhabited

namespace Gap

/-- What a gap contributes to the scalar.  Blanks within a line stay.  A single line
feed becomes a space, and of several the first is dropped. -/
def text (g : Gap) : List Char :=
  if !g.crossesLine then g.blanks
  else if g.firstBreak == ['\n'] then
    if g.laterBreaks.isEmpty then [' '] else g.laterBreaks
  else g.firstBreak ++ g.laterBreaks

/-- Read on through white space.  Blanks at the start of a later line are dropped;
`refuse` names the columns at which a tab is not welcome there. -/
def scan (refuse : Nat → Bool) : Nat → Gap → Cursor → Option (Gap × Cursor)
  | 0, g, c => some (g, c)
  | fuel + 1, g, c =>
    match c.head? with
    | none => some (g, c)
    | some x =>
      if isBlank x then
        if g.crossesLine then
          if x == '\t' && refuse c.column then none else scan refuse fuel g (c.skip 1)
        else scan refuse fuel { g with blanks := g.blanks ++ [x] } (c.skip 1)
      else if isBreak x then
        let (b, c) := c.lineBreak
        if g.crossesLine then
          scan refuse fuel { g with laterBreaks := g.laterBreaks ++ b } c
        else scan refuse fuel { g with firstBreak := b, crossesLine := true } c
      else some (g, c)

end Gap

end NodeFencing.Yaml
