/-!
# YAML tokens

The words of a YAML text.  Indentation appears as explicit starts and ends of
blocks, so that what follows can be read without looking at columns.

## Main Definitions

* `ScalarStyle` — how a scalar is written
* `Token` — one word of the text
-/

namespace NodeFencing.Yaml

/-- How a scalar is written. -/
inductive ScalarStyle where
  | plain
  | singleQuoted
  | doubleQuoted
  | literal
  | folded
  deriving Repr, DecidableEq, Inhabited

/-- One word of a YAML text. -/
inductive Token where
  /-- The end of the text. -/
  | streamEnd
  /-- The directive that states the version of the format. -/
  | versionDirective (major minor : Nat)
  /-- The directive that abbreviates tags. -/
  | tagDirective (handle lead : String)
  | documentStart
  | documentEnd
  | blockSequenceStart
  | blockMappingStart
  /-- The end of a block, made by an indentation that goes back. -/
  | blockEnd
  | flowSequenceStart
  | flowSequenceEnd
  | flowMappingStart
  | flowMappingEnd
  /-- The hyphen before an entry of a block sequence. -/
  | blockEntry
  /-- The comma between entries of a flow collection. -/
  | flowEntry
  /-- The start of a key, written as a question mark or found at the colon after it. -/
  | key
  /-- The colon before a value. -/
  | value
  | alias (name : String)
  | anchor (name : String)
  /-- A tag as written: the handle is empty for a tag in full. -/
  | tag (handle suffix : String)
  | scalar (style : ScalarStyle) (text : String)
  deriving Repr, DecidableEq, Inhabited

end NodeFencing.Yaml
