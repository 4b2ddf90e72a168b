import NodeFencing.Config.Decode
import NodeFencing.FencingError
import NodeFencing.Naming
import NodeFencing.Text.Character

/-!
# Usable configurations

A configuration is used only if it is usable as a whole.  In particular its methods
keep apart in names of jobs and in labels, where their names appear in a changed form.

## Main Definitions

* `Config.fault?` — the first reason why a configuration is not usable
* `Config.ofYaml` — read a configuration and check it
-/

namespace NodeFencing

/-- Why a mechanism of a method is not usable. -/
def Mechanism.fault? (m : Mechanism) (method : String) : Option ConfigFault :=
  if m.driver == .baremetal && m.agent.getD "" == "" && m.command.isNone then
    some (.agentMissing method)
  else if m.driver == .custom && (m.image.isNone || m.command.isNone) then
    some (.programMissing method)
  else if m.dynamicConfig.any (·.field == "") then some (.unnamedField method)
  else none

/-- Why a method is not usable behind others with the given names. -/
def Method.fault? (m : Method) (earlier : List String) : Option ConfigFault :=
  if isBlankText m.name then some .unnamedMethod
  else if earlier.contains m.name then some (.duplicateMethod m.name)
  else if earlier.any fun e =>
      dnsLabel e == dnsLabel m.name || labelValue e == labelValue m.name then
    some (.indistinctMethod m.name)
  else if m.retries < 0 then some (.negativeRetries m.name)
  else if m.mechanisms.isEmpty then some (.noMechanisms m.name)
  else m.mechanisms.findSome? (·.fault? m.name)

/-- The first fault of methods behind others with the given names. -/
def methodsFault? (earlier : List String) : List Method → Option ConfigFault
  | [] => none
  | m :: rest =>
    match m.fault? earlier with
    | some fault => some fault
    | none => methodsFault? (earlier ++ [m.name]) rest

/-- The first reason why a configuration is not usable. -/
def Config.fault? (c : Config) : Option ConfigFault :=
  if c.methods.isEmpty then some .noMethods else methodsFault? [] c.methods

/-- Read a configuration from its source of the given name, and check it. -/
def Config.ofYaml (name text : String) : Except FencingError Config :=
  match Yaml.decode Config.decoder text with
  | .error cause => .error (.unreadable name cause)
  | .ok c =>
    let c := { c with name }
    match c.fault? with
    | some fault => .error (.invalidConfig name fault)
    | none => .ok c

end NodeFencing
