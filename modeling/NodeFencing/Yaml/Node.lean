import NodeFencing.Yaml.Token.Scan

/-!
# YAML nodes

A text is a tree of nodes.  A malformed text is a tree as well: where the text
breaks off, `Node.broken` stands in place of what should follow.  So a tree can be
read in the order of the text, and the first thing wrong with it is found first,
whether it is the form of the text or its content.

## Main Definitions

* `Node` — a scalar, a collection, an alias, or the place where the text is malformed
* `Document` — the first document of a text, with its anchors
* `Document.ofText` — read a text
-/

namespace NodeFencing.Yaml

/-- A node of a YAML document.  Tags are written in full. -/
inductive Node where
  | scalar (tag : Option String) (style : ScalarStyle) (text : String)
  | sequence (tag : Option String) (items : List Node)
  | mapping (tag : Option String) (entries : List (Node × Node))
  /-- A reference to an anchor, by the number of the anchor. -/
  | alias (number : Nat)
  /-- The place from which on the text is malformed. -/
  | broken
  deriving Inhabited, Repr

namespace Node

/-- The scalar that is nowhere in the text: an absent value. -/
def absent : Node :=
  .scalar none .plain ""

mutual

/-- Whether a node was read to its end. -/
def isWhole : Node → Bool
  | .scalar .. => true
  | .sequence _ items => areWhole items
  | .mapping _ entries => entriesWhole entries
  | .alias _ => true
  | .broken => false

private def areWhole : List Node → Bool
  | [] => true
  | n :: ns => n.isWhole && areWhole ns

private def entriesWhole : List (Node × Node) → Bool
  | [] => true
  | (k, v) :: es => k.isWhole && v.isWhole && entriesWhole es

end

end Node

/-! ### Anchors -/

/-- The anchored nodes of a document.  An anchor is numbered by how many different names
were in use before it, and an alias refers to the last node begun under its number. -/
structure Anchors where
  /-- The number that each name has at present. -/
  numbers : List (String × Nat) := []
  /-- For each number the positions in `nodes` that were begun under it, the last first. -/
  begun : List (Nat × Nat) := []
  /-- The anchored nodes, in the order in which they begin. -/
  nodes : Array Node := #[]
  deriving Inhabited

namespace Anchors

/-- The number of a name. -/
def number? (a : Anchors) (name : String) : Option Nat :=
  a.numbers.lookup name

/-- The node that an alias with this number refers to. -/
def node? (a : Anchors) (number : Nat) : Option Node :=
  (a.begun.lookup number).bind (a.nodes[·]?)

/-- Begin a node with this anchor. -/
def begin (a : Anchors) (name : String) : Anchors :=
  let number := a.numbers.length
  { numbers := (name, number) :: a.numbers.filter (·.1 != name)
    begun := (number, a.nodes.size) :: a.begun
    nodes := a.nodes.push .broken }

/-- Complete the anchored node at a position. -/
def complete (a : Anchors) (position : Nat) (n : Node) : Anchors :=
  { a with nodes := a.nodes.setIfInBounds position n }

end Anchors

/-! ### Building the tree -/

/-- What is left to read, and what was declared on the way. -/
private structure Reading where
  tokens : Tokens
  /-- The tags that handles abbreviate. -/
  handles : List (String × String)
  anchors : Anchors := {}
  /-- Whether the text turned out to be malformed. -/
  failed : Bool := false

/-- A reading step. -/
private abbrev Read := StateM Reading

/-- The next token.  Where there is none, the text is malformed. -/
private def peek : Read (Option Token) := fun r =>
  if r.failed then (none, r)
  else match r.tokens with
    | [] => (none, { r with failed := true })
    | t :: _ => (some t, r)

/-- Pass over one token. -/
private def advance : Read Unit := fun r =>
  ((), { r with tokens := r.tokens.drop 1 })

/-- Note that the text is malformed. -/
private def fail : Read Unit := fun r =>
  ((), { r with failed := true })

/-- Whether the text turned out to be malformed so far. -/
private def hasFailed : Read Bool := fun r =>
  (r.failed, r)

/-- The anchor and tag before a node, in either order. -/
private structure Properties where
  anchor : Option String := none
  tag : Option (String × String) := none

/-- Read the anchor and the tag before a node; either may be missing. -/
private def readProperties : Read Properties := do
  match ← peek with
  | some (.anchor name) =>
    advance
    match ← peek with
    | some (.tag handle suffix) => advance; return { anchor := name, tag := (handle, suffix) }
    | _ => return { anchor := name }
  | some (.tag handle suffix) =>
    advance
    match ← peek with
    | some (.anchor name) => advance; return { anchor := name, tag := (handle, suffix) }
    | _ => return { tag := (handle, suffix) }
  | _ => return {}

/-- The tag in full.  Its handle has to be declared. -/
private def readTag (p : Properties) : Read (Option String) := fun r =>
  match p.tag with
  | none => (none, r)
  | some (handle, suffix) =>
    if handle.isEmpty then (some suffix, r)
    else match r.handles.lookup handle with
      | some lead => (some (lead ++ suffix), r)
      | none => (none, { r with failed := true })

/-- Read a node that may be anchored, making the anchor known before its content. -/
private def anchored (name : Option String) (read : Read Node) : Read Node := do
  match name with
  | none => read
  | some name =>
    let position := (← get).anchors.nodes.size
    modify fun r => { r with anchors := r.anchors.begin name }
    let n ← read
    modify fun r => { r with anchors := r.anchors.complete position n }
    return n

mutual

/-- Read a node.  Blocks are allowed except within flow collections, and a sequence without
indentation only as a value of a block mapping.  Where `fuel` is short, the text is taken
for malformed; two for each token are enough. -/
private def readNode (fuel : Nat) (inBlock unindented : Bool) : Read Node :=
  match fuel with
  | 0 => do fail; return .broken
  | fuel + 1 => do
    match ← peek with
    | some (.alias name) =>
      match (← get).anchors.number? name with
      | some number => advance; return .alias number
      | none => fail; return .broken
    | _ =>
      let properties ← readProperties
      let tag ← readTag properties
      let node := anchored properties.anchor
      match ← peek with
      | none => return .broken
      | some (.scalar style text) => node do
        advance
        return .scalar tag style text
      | some .flowSequenceStart => node do
        advance
        return .sequence tag (← readFlowItems fuel true)
      | some .flowMappingStart => node do
        advance
        return .mapping tag (← readFlowEntries fuel true)
      | some t =>
        if unindented && t == .blockEntry then node do
          return .sequence tag (← readUnindentedItems fuel)
        else if inBlock && t == .blockSequenceStart then node do
          advance
          return .sequence tag (← readBlockItems fuel)
        else if inBlock && t == .blockMappingStart then node do
          advance
          return .mapping tag (← readBlockEntries fuel)
        else if properties.anchor.isSome || tag.isSome then node do
          return .scalar tag .plain ""
        else
          fail
          return .broken

/-- Read a node, unless the next token shows that it is absent. -/
private def readOrAbsent (fuel : Nat) (inBlock unindented : Bool) (absent : Token → Bool) :
    Read Node :=
  match fuel with
  | 0 => do fail; return .broken
  | fuel + 1 => do
    match ← peek with
    | none => return .broken
    | some t => if absent t then return .absent else readNode fuel inBlock unindented

/-- The items of a block sequence up to its end. -/
private def readBlockItems (fuel : Nat) : Read (List Node) :=
  match fuel with
  | 0 => do fail; return [.broken]
  | fuel + 1 => do
    match ← peek with
    | some .blockEntry =>
      advance
      let item ← readOrAbsent fuel true false fun t => t == .blockEntry || t == .blockEnd
      if ← hasFailed then return [item, .broken] else return item :: (← readBlockItems fuel)
    | some .blockEnd => advance; return []
    | _ => fail; return [.broken]

/-- The items of a sequence that is not indented; whatever is no item ends it. -/
private def readUnindentedItems (fuel : Nat) : Read (List Node) :=
  match fuel with
  | 0 => do fail; return [.broken]
  | fuel + 1 => do
    match ← peek with
    | none => return [.broken]
    | some .blockEntry =>
      advance
      let item ← readOrAbsent fuel true false fun t =>
        t == .blockEntry || t == .key || t == .value || t == .blockEnd
      if ← hasFailed then return [item, .broken] else return item :: (← readUnindentedItems fuel)
    | some _ => return []

/-- The entries of a block mapping up to its end. -/
private def readBlockEntries (fuel : Nat) : Read (List (Node × Node)) :=
  match fuel with
  | 0 => do fail; return [(.broken, .broken)]
  | fuel + 1 => do
    let isAbsent (t : Token) := t == .key || t == .value || t == .blockEnd
    match ← peek with
    | some .key =>
      advance
      let key ← readOrAbsent fuel true true isAbsent
      match ← peek with
      | none => return [(key, .broken)]
      | some .value =>
        advance
        let value ← readOrAbsent fuel true true isAbsent
        if ← hasFailed then return [(key, value), (.broken, .broken)]
        else return (key, value) :: (← readBlockEntries fuel)
      | some _ => return (key, .absent) :: (← readBlockEntries fuel)
    | some .blockEnd => advance; return []
    | _ => fail; return [(.broken, .broken)]

/-- The items of a flow sequence up to its closing bracket.  A comma comes before each but the
first, and a key among the items is a mapping with one entry. -/
private def readFlowItems (fuel : Nat) (first : Bool) : Read (List Node) :=
  match fuel with
  | 0 => do fail; return [.broken]
  | fuel + 1 => do
    match ← peek with
    | some .flowSequenceEnd => advance; return []
    | start =>
      if first || start == some .flowEntry then
        unless first do advance
        match ← peek with
        | none => return [.broken]
        | some .flowSequenceEnd => advance; return []
        | some .key =>
          advance
          let item ← readPair fuel
          if ← hasFailed then return [item, .broken]
          else return item :: (← readFlowItems fuel false)
        | some _ =>
          let item ← readNode fuel false false
          if ← hasFailed then return [item, .broken]
          else return item :: (← readFlowItems fuel false)
      else
        fail
        return [.broken]

/-- The single entry of a mapping that is an item of a flow sequence, behind its key mark.
An absent key takes the token that shows its absence. -/
private def readPair (fuel : Nat) : Read Node :=
  match fuel with
  | 0 => do fail; return .mapping none [(.broken, .broken)]
  | fuel + 1 => do
    let key ← match ← peek with
      | none => pure .broken
      | some t =>
        if t == .value || t == .flowEntry || t == .flowSequenceEnd then do
          advance
          pure .absent
        else readNode fuel false false
    match ← peek with
    | none => return .mapping none [(key, .broken)]
    | some .value =>
      advance
      let value ← readOrAbsent fuel false false fun t => t == .flowEntry || t == .flowSequenceEnd
      match ← peek with
      | none => return .mapping none [(key, value), (.broken, .broken)]
      | some _ => return .mapping none [(key, value)]
    | some _ => return .mapping none [(key, .absent)]

/-- The entries of a flow mapping up to its closing brace.  An item without a key mark is a key
without a value. -/
private def readFlowEntries (fuel : Nat) (first : Bool) : Read (List (Node × Node)) :=
  match fuel with
  | 0 => do fail; return [(.broken, .broken)]
  | fuel + 1 => do
    match ← peek with
    | some .flowMappingEnd => advance; return []
    | start =>
      if first || start == some .flowEntry then
        unless first do advance
        let isAbsent (t : Token) := t == .flowEntry || t == .flowMappingEnd
        match ← peek with
        | none => return [(.broken, .broken)]
        | some .flowMappingEnd => advance; return []
        | some .key =>
          advance
          let key ← readOrAbsent fuel false false fun t => t == .value || isAbsent t
          match ← peek with
          | none => return [(key, .broken)]
          | some .value =>
            advance
            let value ← readOrAbsent fuel false false isAbsent
            if ← hasFailed then return [(key, value), (.broken, .broken)]
            else return (key, value) :: (← readFlowEntries fuel false)
          | some _ => return (key, .absent) :: (← readFlowEntries fuel false)
        | some _ =>
          let key ← readNode fuel false false
          if ← hasFailed then return [(key, .broken)]
          else return (key, .absent) :: (← readFlowEntries fuel false)
      else
        fail
        return [(.broken, .broken)]

end

/-! ### Documents -/

/-- The first document of a text. -/
structure Document where
  root : Node
  anchors : Anchors := {}
  /-- Whether the text goes on behind the document, well formed or not. -/
  continues : Bool := false
  deriving Inhabited

namespace Document

/-- The handles that every document declares. -/
private def defaultHandles : List (String × String) :=
  [("!", "!"), ("!!", "tag:yaml.org,2002:")]

/-- Read the directives before an explicit document: the version at most once and one that is
known, and each handle at most once. -/
private def directives : Bool → List (String × String) → Tokens →
    Option (List (String × String) × Tokens)
  | _, handles, [] => some (handles, [])
  | versioned, handles, t :: rest =>
    match t with
    | .versionDirective major minor =>
      if versioned || major != 1 || !(minor == 1 || minor == 2) then none
      else directives true handles rest
    | .tagDirective handle lead =>
      if handles.any (·.1 == handle) then none
      else directives versioned (handles ++ [(handle, lead)]) rest
    | _ => some (handles, t :: rest)

/-- Whether a document without content ends before this token. -/
private def isBetween : Token → Bool
  | .versionDirective .. | .tagDirective .. | .documentStart | .documentEnd | .streamEnd => true
  | _ => false

/-- Read the root and see whether anything but the end of the text is behind it. -/
private def ofContent (handles : List (String × String)) (tokens : Tokens) (explicit : Bool) :
    Document :=
  let fuel := 2 * tokens.length + 2
  let read : Read Node := do
    match ← peek with
    | none => return .broken
    | some t => if explicit && isBetween t then return .absent else readNode fuel true false
  let (root, r) := read { tokens, handles := handles ++ defaultHandles }
  { root, anchors := r.anchors
    continues := r.failed || r.tokens.dropWhile (· == .documentEnd) != [.streamEnd] }

/-- The first document among tokens.  Without any, it is an absent scalar. -/
def ofTokens (tokens : Tokens) : Document :=
  match tokens with
  | [] => { root := .broken }
  | .streamEnd :: _ => { root := .absent }
  | t :: _ =>
    if isBetween t && t != .documentEnd then
      match directives false [] tokens with
      | some (handles, .documentStart :: rest) => ofContent handles rest true
      | _ => { root := .broken }
    else ofContent [] tokens false

/-- Read a text. -/
def ofText (text : String) : Document :=
  ofTokens (Tokens.ofText text)

end Document

end NodeFencing.Yaml
