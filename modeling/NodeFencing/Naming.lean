import NodeFencing.Text.Character
import NodeFencing.Text.Digest

/-!
# Names and labels

Names of nodes, requests and methods are arbitrary text; names of objects and values
of labels are short ASCII text of a fixed form.  What is too long is cut, and a
digest of the whole keeps different texts apart.

## Main Definitions

* `labelValue` — a text as the value of a label
* `dnsLabel` — a text as part of a name
* `fitName` — a name cut to a number of octets, keeping its last part
* `jobName`, `requestName`, `containerName`, `secretVolumeName` — the names in use
-/

namespace NodeFencing

/-- The longest name and the longest label value, in octets. -/
def maxNameSize : Nat := 63

/-- The lowercase of a character as far as it is ASCII.  Besides the letters A to Z only the dotted
capital I and the Kelvin sign have an ASCII letter in their lowercase; other characters are left
alone, for no form of them may occur in a name. -/
def lowercase (c : Char) : List Char :=
  if c == '\u0130' then ['i', '\u0307']
  else if c == '\u212a' then ['k']
  else [c.toLower]

/-- Drop the characters at the end that do not satisfy `keep`. -/
def trimEnd (keep : Char → Bool) (text : List Char) : List Char :=
  (text.reverse.dropWhile (!keep ·)).reverse

/-- Drop the characters at both ends that do not satisfy `keep`. -/
def trimBoth (keep : Char → Bool) (text : List Char) : List Char :=
  trimEnd keep (text.dropWhile (!keep ·))

/-- The longest start of a text that takes at most `size` octets. -/
def takeOctets (size : Nat) : List Char → List Char
  | [] => []
  | c :: rest => if c.utf8Size ≤ size then c :: takeOctets (size - c.utf8Size) rest else []

/-! ### Label values -/

/-- A character that may occur in a label value. -/
def isLabelChar (c : Char) : Bool :=
  c.isAlphanum || c == '-' || c == '_' || c == '.'

/-- A text in lowercase, with hyphens for spaces and without the characters that a label value may
not hold there. -/
def labelForm (text : String) : List Char :=
  let lower := text.toList.flatMap lowercase
  let hyphened := lower.map fun c => if c == ' ' then '-' else c
  trimBoth Char.isAlphanum (hyphened.filter isLabelChar)

/-- A text as the value of a label.  A value that is too long keeps its start, and a digest of the
whole text follows. -/
def labelValue (text : String) : String :=
  let form := labelForm text
  if form.length ≤ maxNameSize then String.ofList form
  else
    let kept := trimEnd Char.isAlphanum (form.take (maxNameSize - 9))
    String.ofList kept ++ "-" ++ digest text

/-! ### Parts of names -/

/-- Make one hyphen of several in a row. -/
def joinHyphens : List Char → List Char
  | '-' :: '-' :: rest => joinHyphens ('-' :: rest)
  | c :: rest => c :: joinHyphens rest
  | [] => []

/-- A text as part of a name: in lowercase, with one hyphen for each run of other characters, and
none at the ends.  The letter x stands for a text of which nothing is left. -/
def dnsLabel (text : String) : String :=
  let lower := text.toList.flatMap lowercase
  let hyphened := lower.map fun c => if c.isAlphanum then c else '-'
  let form := trimBoth (· != '-') (joinHyphens hyphened)
  if form.isEmpty then "x" else String.ofList form

/-- The part of a name behind its last hyphen. -/
def lastPart (name : List Char) : List Char :=
  (name.reverse.takeWhile (· != '-')).reverse

/-- A name of at most `limit` octets.  One that is too long keeps its start and its last part,
with a digest of the whole between them; where these do not fit, only the digest is left. -/
def fitName (name : String) (limit : Nat) : String :=
  if name.utf8ByteSize ≤ limit then name
  else
    let tail := String.ofList (lastPart name.toList)
    let reserved := 8 + tail.utf8ByteSize + 2
    if limit ≤ reserved then digest name
    else
      let head := trimEnd (· != '-') (takeOctets (limit - reserved) name.toList)
      String.ofList head ++ "-" ++ digest name ++ "-" ++ tail

/-! ### Names in use -/

/-- What the names of requests and jobs begin with. -/
def namePrelude : String := "fence-"

/-- The name of the job that carries out a method of a request.  The same request and method
always give the same name, so a job that is dispatched again meets the one that exists. -/
def jobName (request : String) (uid : Option String) (method : String) : String :=
  let suffix := match uid with
    | some uid => String.ofList (uid.toList.take 8)
    | none => "unknown"
  let base := dnsLabel request ++ "-" ++ dnsLabel method ++ "-" ++ suffix
  namePrelude ++ fitName base (maxNameSize - namePrelude.length)

/-- The name of a request to fence a node, made at a number of seconds since 1970. -/
def requestName (node : String) (seconds : Int) : String :=
  let base := dnsLabel node ++ "-" ++ String.ofList (digitsOfInt seconds)
  namePrelude ++ fitName base (maxNameSize - namePrelude.length)

/-- The name of the container of a mechanism, by its position and driver. -/
def containerName (index : Nat) (driver : String) : String :=
  namePrelude ++ String.ofList (digitsOfNat index) ++ "-" ++ dnsLabel driver

/-- The name of the volume that holds a secret for the mechanism at a position. -/
def secretVolumeName (index : Nat) (secret : String) : String :=
  fitName ("secret-" ++ String.ofList (digitsOfNat index) ++ "-" ++ dnsLabel secret) maxNameSize

end NodeFencing
