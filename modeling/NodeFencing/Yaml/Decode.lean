import NodeFencing.DecodeError
import NodeFencing.StringMap
import NodeFencing.Yaml.Node
import NodeFencing.Yaml.Value

/-!
# Decoding YAML

A decoder turns a node into a value of some type.  Nodes are visited in the order of
the text, so of several faults the first one is reported.  Nesting deeper than 128
collections is refused, and so are documents whose aliases repeat their content
without measure.

## Main Definitions

* `Decoder` — how a node is read as a value
* `Decoder.string`, `Decoder.bool`, `Decoder.integer`, `Decoder.natural`, `Decoder.float`,
  `Decoder.variant` — scalars
* `Decoder.optional`, `Decoder.list`, `Decoder.dictionary`, `Decoder.record` — values made of others
* `Decoder.value` — a node of any kind
* `Decoder.oneOf` — a record of several kinds
* `decode` — read a text
-/

namespace NodeFencing.Yaml

/-- Decoding may follow aliases, a limited number of times. -/
abbrev Decode := ReaderT Anchors (StateT Nat (Except DecodeError))

/-- How a node is read, given how many more collections may be nested. -/
abbrev Decoder (α : Type) := (depth : Nat) → Node → Decode α

namespace Decoder

/-! ### Tags and aliases -/

private def boolTag : String := "tag:yaml.org,2002:bool"
private def intTag : String := "tag:yaml.org,2002:int"
private def floatTag : String := "tag:yaml.org,2002:float"
private def nullTag : String := "tag:yaml.org,2002:null"

/-- The name of a local tag, which begins with an exclamation mark. -/
private def localTag? (tag : Option String) : Option String := do
  match (← tag).toList with
  | ['!'] => some "!"
  | '!' :: name => some (String.ofList name)
  | _ => none

/-- Replace an alias by the node it refers to. -/
private def follow (n : Node) : Decode Node := do
  match n with
  | .alias number =>
    let jumps ← get
    if jumps == 0 then throw .malformed
    set (jumps - 1)
    match (← read).node? number with
    | some n => return n
    | none => throw .malformed
  | .broken => throw .malformed
  | n => return n

/-- The error for a node of the wrong kind.  A scalar that does not even fit its own tag
has a wrong value instead. -/
private def mismatch : Node → DecodeError
  | .scalar (some tag) _ text =>
    let fits : Bool :=
      if tag == boolTag then (boolWord? text).isSome
      else if tag == intTag then (integer? text).isSome
      else if tag == floatTag then (float? text).isSome
      else if tag == nullTag then isNullWord text
      else true
    if fits then .invalidType else .invalidValue
  | .broken => .malformed
  | _ => .invalidType

/-- Whether a scalar of this style is read as something other than text: if it is plain, or a
literal block tagged with the kind wanted. -/
private def isBare (wanted : String) (tag : Option String) (style : ScalarStyle) : Bool :=
  style == .plain || (style == .literal && tag == some wanted)

/-- Read a scalar of the kind tagged `wanted`. -/
private def bare (wanted : String) (read? : String → Option α) : Decoder α := fun _ n => do
  match ← follow n with
  | n@(.scalar tag style text) =>
    match if isBare wanted tag style then read? text else none with
    | some a => return a
    | none => throw (mismatch n)
  | n => throw (mismatch n)

/-! ### Scalars -/

/-- A string is any scalar as written. -/
def string : Decoder String := fun _ n => do
  match ← follow n with
  | .scalar _ _ text => return text
  | n => throw (mismatch n)

/-- A truth value. -/
def bool : Decoder Bool :=
  bare boolTag boolWord?

/-- An integer between the bounds. -/
def integer (least greatest : Int) : Decoder Int := fun depth n => do
  let i ← bare intTag signed64? depth n
  if least ≤ i && i ≤ greatest then return i else throw .invalidValue

/-- A natural number up to the bound. -/
def natural (greatest : Nat) : Decoder Nat := fun depth n => do
  let i ← bare intTag unsigned64? depth n
  if i ≤ greatest then return i else throw .invalidValue

/-- A double; integers are doubles too. -/
def float : Decoder Float :=
  bare floatTag float?

/-- One of several named values: the name is a scalar, or a local tag on nothing. -/
def variant (named? : String → Option α) : Decoder α := fun _ n => do
  let choose (name : String) : Decode α :=
    match named? name with
    | some a => return a
    | none => throw (.unknownVariant name)
  match ← follow n with
  | .scalar tag style text =>
    match localTag? tag with
    | some name =>
      let a ← choose name
      if style == .plain && (text.isEmpty || isNullWord text) then return a
      else throw .invalidValue
    | none => choose text
  | n@(.sequence tag _) | n@(.mapping tag _) =>
    match localTag? tag with
    | some name => let _ ← choose name; throw (mismatch n)
    | none => throw (mismatch n)
  | n => throw (mismatch n)

/-! ### Values made of others -/

/-- A value that may be null: the empty plain scalar, or a word for null outside quotes. -/
def optional (some? : Decoder α) : Decoder (Option α) := fun depth n => do
  match ← follow n with
  | n@(.scalar tag .plain text) =>
    match tag with
    | some tag =>
      if tag == nullTag then
        if isNullWord text then return none else throw .invalidValue
      else return some (← some? depth n)
    | none =>
      if text.isEmpty || isNullWord text then return none else return some (← some? depth n)
  | n => return some (← some? depth n)

/-- Enter a collection. -/
private def nested (depth : Nat) (inner : Nat → Decode α) : Decode α :=
  match depth with
  | 0 => throw .malformed
  | depth + 1 => inner depth

/-- A list; the empty plain scalar is the empty list. -/
def list (element : Decoder α) : Decoder (List α) := fun depth n => do
  match ← follow n with
  | .sequence _ items => nested depth fun depth => items.mapM (element depth)
  | .scalar _ .plain "" => return []
  | n => throw (mismatch n)

/-- Read entries of a dictionary after those already known. -/
private def entriesFrom (element : Decoder α) (depth : Nat) :
    StringMap α → List (Node × Node) → Decode (StringMap α)
  | known, [] => return known
  | known, (k, v) :: rest => do
    let key ← string depth k
    let value ← element depth v
    entriesFrom element depth (known.put key value) rest

/-- A mapping from strings; of equal keys the last counts, and the keys come in the order in
which they were first written. -/
def dictionary (element : Decoder α) : Decoder (StringMap α) := fun depth n => do
  match ← follow n with
  | .mapping _ entries => nested depth fun depth => entriesFrom element depth [] entries
  | .scalar _ .plain "" => return []
  | n => throw (mismatch n)

/-- A field of a record of type `σ`: how its value changes the record. -/
structure Field (σ : Type) where
  name : String
  read : Decoder (σ → σ)

/-- A field that is set to what a decoder reads. -/
def field (name : String) (read : Decoder α) (set : α → σ → σ) : Field σ where
  name := name
  read := fun depth n => do return set (← read depth n)

/-- Read over a node that nothing asks for. -/
private def ignore (n : Node) : Decode Unit :=
  if n.isWhole then pure () else throw .malformed

/-- Read the fields of a record behind those already seen. -/
private def fieldsFrom (fields : List (Field σ)) (depth : Nat) :
    List String → σ → List (Node × Node) → Decode (List String × σ)
  | seen, r, [] => return (seen, r)
  | seen, r, (k, v) :: rest => do
    let key ← string depth k
    match fields.find? (·.name == key) with
    | none =>
      ignore v
      fieldsFrom fields depth seen r rest
    | some f =>
      if seen.contains key then throw (.duplicateField key)
      let change ← f.read depth v
      fieldsFrom fields depth (key :: seen) (change r) rest

/-- A record: a mapping whose known keys are fields, each at most once.  Other keys are
skipped, and absent fields keep the value they start with, unless they are required. -/
def record (fields : List (Field σ)) (required : List String) (start : σ) : Decoder σ :=
  fun depth n => do
    let complete (seen : List String) (r : σ) : Decode σ :=
      match required.find? (!seen.contains ·) with
      | some name => throw (.missingField name)
      | none => return r
    match ← follow n with
    | .mapping _ entries =>
      let (seen, r) ← nested depth fun depth => fieldsFrom fields depth [] start entries
      complete seen r
    | .scalar _ .plain "" => complete [] start
    | n => throw (mismatch n)

/-! ### Nodes of any kind -/

/-- Which nodes a decoder of any kind accepts. -/
inductive ValueRule where
  /-- Tagged values are allowed, repeated keys are not. -/
  | uniqueKeys
  /-- Repeated keys are allowed, tagged values are not. -/
  | untagged
  deriving DecidableEq

/-- The value of a plain scalar. -/
private def plainValue (text : String) : Decode Value :=
  match resolve text with
  | .null => return .null
  | .bool b => return .bool b
  | .integer n => return .number (.integer n)
  | .wideInteger => throw .invalidType
  | .float x => return .number (.float x)
  | .text => return .string text

/-- The value of a scalar whose tag is not local: one of the tags of the format forces the kind,
any other means text. -/
private def scalarValue (tag : Option String) (style : ScalarStyle) (text : String) :
    Decode Value :=
  let forced (value? : Option (Decode Value)) : Decode Value :=
    value?.getD (throw .invalidValue)
  match tag with
  | none => if style == .plain then plainValue text else return .string text
  | some tag =>
    if tag == boolTag then forced ((boolWord? text).map fun b => return .bool b)
    else if tag == intTag then
      forced <| match resolve text with
        | .integer n => some (return .number (.integer n))
        | .wideInteger => some (throw .invalidType)
        | _ => none
    else if tag == floatTag then forced ((float? text).map fun x => return .number (.float x))
    else if tag == nullTag then forced (if isNullWord text then some (return .null) else none)
    else return .string text

/-- Read a node under its tag: in full, or only its content under a local tag. -/
private def underTag (rule : ValueRule) (tag : Option String) (whole content : Decode Value) :
    Decode Value :=
  match localTag? tag with
  | none => whole
  | some name =>
    if rule == .untagged then throw .malformed
    else return .tagged name (← content)

mutual

/-- A node of any kind.  Under a local tag the value is read as if it had none. -/
def value (rule : ValueRule) (depth : Nat) (n : Node) : Decode Value := do
  match ← follow n, depth with
  | .scalar tag style text, _ =>
    underTag rule tag (scalarValue tag style text)
      (if style == .plain then plainValue text else return .string text)
  | .sequence tag items, depth + 1 =>
    let items := valuesFrom rule depth items
    underTag rule tag (.sequence <$> items) (.sequence <$> items)
  | .mapping tag entries, depth + 1 =>
    let entries := valueEntriesFrom rule depth [] entries
    underTag rule tag (.mapping <$> entries) (.mapping <$> entries)
  | _, _ => throw .malformed
termination_by (depth, 0)

/-- The values of a list of nodes. -/
private def valuesFrom (rule : ValueRule) (depth : Nat) : List Node → Decode (List Value)
  | [] => return []
  | n :: ns => return (← value rule depth n) :: (← valuesFrom rule depth ns)
termination_by ns => (depth, ns.length + 1)

/-- The entries of a mapping behind those already known. -/
private def valueEntriesFrom (rule : ValueRule) (depth : Nat) (known : List (Value × Value)) :
    List (Node × Node) → Decode (List (Value × Value))
  | [] => return known
  | (k, v) :: rest => do
    let key ← value rule depth k
    if rule == .uniqueKeys && known.any (·.1.same key) then throw .duplicateEntry
    let v ← value rule depth v
    valueEntriesFrom rule depth (known ++ [(key, v)]) rest
termination_by entries => (depth, entries.length + 1)

end

/-! ### Records of several kinds -/

/-- The content of a record of which only the kind is known. -/
inductive Content where
  | named (entries : List (Value × Value))
  | positional (items : List Value)

/-- Look for the kind of a record among its entries.  The others are read as they are. -/
private def kindFrom (tag : String) (named? : String → Option α) (depth : Nat) :
    Option α → List (Value × Value) → List (Node × Node) → Decode (α × Content)
  | some kind, known, [] => return (kind, .named known)
  | none, _, [] => throw (.missingField tag)
  | kind, known, (k, v) :: rest => do
    match ← value .untagged depth k with
    | .string key =>
      if key == tag then
        if kind.isSome then throw (.duplicateField tag)
        let name ← string depth v
        match named? name with
        | some kind => kindFrom tag named? depth (some kind) known rest
        | none => throw (.unknownVariant name)
      else
        let v ← value .untagged depth v
        kindFrom tag named? depth kind (known ++ [(.string key, v)]) rest
    | key =>
      let v ← value .untagged depth v
      kindFrom tag named? depth kind (known ++ [(key, v)]) rest

/-- A record whose kind is named by one of its fields, or by the first element of a list. -/
def oneOf (tag : String) (named? : String → Option α) : Decoder (α × Content) := fun depth n => do
  let n ← follow n
  match n with
  | .mapping mark entries =>
    if (localTag? mark).isSome then throw .invalidType
    nested depth fun depth => kindFrom tag named? depth none [] entries
  | .sequence mark (first :: rest) =>
    if (localTag? mark).isSome then throw .invalidType
    nested depth fun depth => do
      let name ← string depth first
      match named? name with
      | some kind => return (kind, .positional (← rest.mapM (value .untagged depth)))
      | none => throw (.unknownVariant name)
  | .sequence mark [] =>
    if (localTag? mark).isSome then throw .invalidType else throw (.missingField tag)
  | n => throw (mismatch n)

end Decoder

/-! ### Texts -/

mutual

/-- How many marks a node leaves in a linear reading: one for a scalar or alias, two around
a collection. -/
private def Node.marks : Node → Nat
  | .scalar .. | .alias _ => 1
  | .broken => 0
  | .sequence _ items => 2 + marksOfAll items
  | .mapping _ entries => 2 + marksOfEntries entries

private def marksOfAll : List Node → Nat
  | [] => 0
  | n :: ns => n.marks + marksOfAll ns

private def marksOfEntries : List (Node × Node) → Nat
  | [] => 0
  | (k, v) :: es => k.marks + v.marks + marksOfEntries es

end

/-- Read a text that consists of one document. -/
def decode (decoder : Decoder α) (text : String) : Except DecodeError α := do
  let document := Document.ofText text
  let (a, _) ← decoder 128 document.root document.anchors (100 * document.root.marks)
  if document.continues then throw .malformed else return a

end NodeFencing.Yaml
