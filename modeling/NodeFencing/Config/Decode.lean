import NodeFencing.Config.Basic
import NodeFencing.Width
import NodeFencing.Yaml.Decode

/-!
# Reading configurations

Configurations are written in YAML.  Where a configuration asks for strings, it may
hold other scalars as well; they count as their canonical text.  A map of strings may
also be written as a list of maps.

## Main Definitions

* `StringMap.ofValue` — a map of strings from any value
* `Config.decoder`, `Method.decoder`, `Mechanism.decoder`, `TargetValue.decoder`
-/

namespace NodeFencing

open Yaml (Value Decoder)

/-! ### Maps of strings -/

/-- Put the entries of a mapping into a map of strings.  Of each entry the key is judged first. -/
def StringMap.putAll (m : StringMap String) :
    List (Value × Value) → Except DecodeError (StringMap String)
  | [] => .ok m
  | (k, v) :: rest =>
    match k.scalarText? with
    | none => .error .scalarKeysExpected
    | some key =>
      match v.scalarText? with
      | none => .error (.scalarValueExpected key)
      | some value => (m.put key value).putAll rest

/-- Put the entries of each mapping of a list into a map of strings. -/
def StringMap.putEach (m : StringMap String) : List Value → Except DecodeError (StringMap String)
  | [] => .ok m
  | .mapping entries :: rest => do (← m.putAll entries).putEach rest
  | _ => .error .mapsExpected

/-- A map of strings: a mapping, a list of mappings, or nothing. -/
def StringMap.ofValue : Value → Except DecodeError (StringMap String)
  | .null => .ok []
  | .mapping entries => StringMap.putAll [] entries
  | .sequence items => StringMap.putEach [] items
  | _ => .error .mapExpected

/-- A string that may be absent, from any scalar. -/
def optionalString : Value → Except DecodeError (Option String)
  | .null => .ok none
  | v =>
    match v.scalarText? with
    | some text => .ok (some text)
    | none => .error .scalarExpected

/-- Read an optional node of any kind and then judge it. -/
private def judged (judge : Value → Except DecodeError α) : Decoder α := fun depth n => do
  let v ← Decoder.optional (Decoder.value .uniqueKeys) depth n
  match judge (v.getD .null) with
  | .ok a => return a
  | .error e => throw e

/-- A map whose keys and values are the printed forms of scalars. -/
private def strings : Decoder (StringMap String) :=
  judged StringMap.ofValue

/-! ### Configurations -/

/-- A natural number of 32 bits. -/
private def count : Decoder Nat :=
  Decoder.natural (greatestUnsigned 32)

/-- A value that depends on the target must name the field it fills. -/
def TargetValue.decoder : Decoder TargetValue :=
  Decoder.record [
    Decoder.field "field" Decoder.string fun x v => { v with field := x },
    Decoder.field "default" (judged optionalString) fun x v => { v with fallback := x },
    Decoder.field "values" strings fun x v => { v with values := x }
  ] ["field"] {}

/-- A mechanism must name its driver; whatever else is left out keeps its default. -/
def Mechanism.decoder : Decoder Mechanism :=
  Decoder.record [
    Decoder.field "driver" (Decoder.variant Driver.named?) fun x m => { m with driver := x },
    Decoder.field "module" (Decoder.optional Decoder.string) fun x m => { m with agent := x },
    Decoder.field "image" (Decoder.optional Decoder.string) fun x m => { m with image := x },
    Decoder.field "command" (Decoder.optional (Decoder.list Decoder.string)) fun x m =>
      { m with command := x },
    Decoder.field "argumentFormat" Decoder.string fun x m => { m with argumentFormat := x },
    Decoder.field "passTargetAs" (Decoder.optional Decoder.string) fun x m =>
      { m with passTargetAs := x },
    Decoder.field "timeoutSeconds" (Decoder.optional count) fun x m =>
      { m with timeoutSeconds := x },
    Decoder.field "config" strings fun x m => { m with config := x },
    Decoder.field "dynamicConfig" (Decoder.list TargetValue.decoder) fun x m =>
      { m with dynamicConfig := x },
    Decoder.field "secrets" strings fun x m => { m with secrets := x },
    Decoder.field "env" strings fun x m => { m with env := x }
  ] ["driver"] {}

/-- A method must have a name.  Its number of retries may be negative here: that is a question of
validity, not of form. -/
def Method.decoder : Decoder Method :=
  Decoder.record [
    Decoder.field "name" Decoder.string fun x m => { m with name := x },
    Decoder.field "retries" (Decoder.integer (leastSigned 32) (greatestSigned 32)) fun x m =>
      { m with retries := x },
    Decoder.field "requireAfterSeconds" (Decoder.optional count) fun x m =>
      { m with requireAfterSeconds := x },
    Decoder.field "stopOnSuccess" Decoder.bool fun x m => { m with stopOnSuccess := x },
    Decoder.field "mechanisms" (Decoder.list Mechanism.decoder) fun x m =>
      { m with mechanisms := x }
  ] ["name"] {}

/-- Every field of a configuration may be left out. -/
def Config.decoder : Decoder Config :=
  Decoder.record [
    Decoder.field "name" Decoder.string fun x c => { c with name := x },
    Decoder.field "nodeSelector" strings fun x c => { c with nodeSelector := x },
    Decoder.field "methods" (Decoder.list Method.decoder) fun x c => { c with methods := x }
  ] [] {}

end NodeFencing
