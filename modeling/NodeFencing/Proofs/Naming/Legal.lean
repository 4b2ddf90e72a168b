import NodeFencing.Proofs.Method.Wiring

/-!
# Names that are legal

Names of objects are labels of at most 63 characters.  All names in use are made in the same
way: parts in the form of names are put together with hyphens between them, and what is too
long is cut, its start and its last part with a digest between them.  Neither step leaves the
form of names.  The start is not empty, for it is cut behind a letter or digit at least, and
the hyphens at its end are dropped.

A name is cut by its octets.  This is possible only where a character ends, and in a name
every octet is a character.

The last part of a name is kept as long as there is room for it.  So the name of a job ends
with a part of the identity of the request, and the name of a request with the digits of the
time at which it was made.

## Main Definitions

* `IsDnsLabel` — the names that objects may have
* `requestTitle` — the name of a request without its prelude, before it is cut

## Main statements

* `nameForm_fitName`, `length_fitName_le` — the form and the length of a name that is fitted
* `suffix_fitName` — the last part of a name is kept
* `cutsCleanly` — a name in the form of names can be cut
* `names_legal` — all names in use are legal
-/

namespace NodeFencing

/-- The names that objects may have: up to 63 lowercase letters, digits and hyphens, with a letter
or a digit at both ends. -/
structure IsDnsLabel (name : String) : Prop where
  form : NameForm name.toList
  short : name.length ≤ 63

/-! ### Names that are fitted -/

section Fit

variable {name : String} {limit : Nat} {front back : List Char}

theorem NameForm.utf8ByteSize_eq (form : NameForm name.toList) :
    name.utf8ByteSize = name.length := by
  have sizes := utf8ByteSize_ofList_of_isNameChar form.chars
  rwa [String.ofList_toList, String.length_toList] at sizes

/-- The last part of a name has the form of a name. -/
theorem nameForm_lastPart {text : List Char} (form : NameForm text) : NameForm (lastPart text) := by
  refine nameForm_of_isNameEnd ?_ fun c hc => ?_
  · -- The last character is no hyphen, so there is a last part.
    obtain ⟨init, c, rfl⟩ := (List.eq_nil_or_concat text).resolve_left form.nonempty
    have hc := ne_hyphen_of_isNameEnd (form.last c (by simp))
    simp [lastPart, hc]
  · rw [lastPart, List.mem_reverse] at hc
    have hmem := List.mem_reverse.mp ((List.takeWhile_sublist _).subset hc)
    exact isNameEnd_of_ne (form.chars c hmem) (by simpa using List.mem_takeWhile_imp hc)

theorem nameForm_keptEnd (form : NameForm name.toList) : NameForm (keptEnd name).toList := by
  rw [keptEnd, String.toList_ofList]
  exact nameForm_lastPart form

/-- **A name can be cut.** -/
theorem cutsCleanly (form : NameForm name.toList) (limit : Nat) : CutsCleanly name limit :=
  cutsCleanly_of_utf8Size (fun c hc => utf8Size_of_isNameChar (form.chars c hc)) limit

/-- What is kept of the start of a name. -/
theorem keptStart_eq (form : NameForm name.toList) (limit : Nat) :
    (keptStart name limit).toList =
      trimEnd (· != '-') (name.toList.take (limit - (10 + (keptEnd name).utf8ByteSize))) := by
  rw [keptStart, String.toList_ofList, takeOctets_of_isNameChar form.chars]
  congr 3
  omega

/-- The start that is kept has the form of a name, for there is room for a character. -/
theorem nameForm_keptStart (form : NameForm name.toList)
    (room : 10 + (keptEnd name).utf8ByteSize < limit) :
    NameForm (keptStart name limit).toList := by
  rw [keptStart_eq form]
  have kept : ∀ c, name.toList.head? = some c → (c != '-') = true := fun c hc => by
    simpa using ne_hyphen_of_isNameEnd (form.first c hc)
  obtain ⟨nonempty, start⟩ := head?_trimEnd_take (Nat.sub_pos_of_lt room) form.nonempty kept
  refine nameForm_of_trimmed nonempty (fun c hc => ?_) (fun c hc => ?_) (fun c hc => ?_)
  · exact form.chars c (List.mem_of_mem_take (trimEnd_subset hc))
  · rw [start] at hc
    exact ne_hyphen_of_isNameEnd (form.first c hc)
  · simpa using keep_of_getLast?_trimEnd hc

theorem length_keptStart_le (form : NameForm name.toList) (limit : Nat) :
    (keptStart name limit).length ≤ limit - (10 + (keptEnd name).utf8ByteSize) := by
  rw [← String.length_toList, keptStart_eq form]
  exact trimEnd_prefix.length_le.trans (List.length_take_le _ _)

/-- Names with a hyphen between them. -/
theorem NameForm.append {a b : String} (ha : NameForm a.toList) (hb : NameForm b.toList) :
    NameForm (a ++ "-" ++ b).toList := by
  rw [toList_hyphen]
  exact ha.hyphen hb

/-- Where there is no room for the last part, only the digest is left. -/
theorem fitName_of_narrow (long : limit < name.utf8ByteSize)
    (narrow : limit ≤ 10 + (keptEnd name).utf8ByteSize) : fitName name limit = digest name := by
  unfold keptEnd at narrow
  unfold fitName
  rw [if_neg (Nat.not_le.mpr long)]
  dsimp only
  rw [if_pos (by omega)]

/-- **The form of a name that is fitted.** -/
theorem nameForm_fitName (form : NameForm name.toList) (limit : Nat) :
    NameForm (fitName name limit).toList := by
  rcases Nat.lt_or_ge limit name.utf8ByteSize with long | short
  · rcases Nat.lt_or_ge (10 + (keptEnd name).utf8ByteSize) limit with room | narrow
    · rw [fitName_of_lt long room]
      exact ((nameForm_keptStart form room).append (nameForm_digest name)).append
        (nameForm_keptEnd form)
    · rw [fitName_of_narrow long narrow]
      exact nameForm_digest name
  · rw [fitName_of_le short]
    exact form

/-- **The length of a name that is fitted.** -/
theorem length_fitName_le (form : NameForm name.toList) (hlimit : 8 ≤ limit) :
    (fitName name limit).length ≤ limit := by
  rcases Nat.lt_or_ge limit name.utf8ByteSize with long | short
  · rcases Nat.lt_or_ge (10 + (keptEnd name).utf8ByteSize) limit with room | narrow
    · have start := length_keptStart_le form limit
      have last := (nameForm_keptEnd form).utf8ByteSize_eq
      have hyphen : String.length "-" = 1 := rfl
      rw [fitName_of_lt long room, cutName]
      simp only [String.length_append, length_digest, hyphen]
      omega
    · rw [fitName_of_narrow long narrow, length_digest]
      exact hlimit
  · rw [fitName_of_le short, ← form.utf8ByteSize_eq]
    exact short

theorem keptEnd_eq (parts : name.toList = front ++ '-' :: back) (whole : '-' ∉ back) :
    keptEnd name = String.ofList back := by
  have kept : back.reverse.takeWhile (· != '-') = back.reverse := by
    refine List.takeWhile_eq_self_iff.mpr fun c hc => ?_
    have other : c ≠ '-' := fun heq => whole (heq ▸ List.mem_reverse.mp hc)
    simpa using other
  rw [keptEnd, parts, lastPart_append_hyphen, lastPart, kept, List.reverse_reverse]

/-- **The last part of a name is kept** with the hyphen in front of it, if there is room. -/
theorem suffix_fitName (parts : name.toList = front ++ '-' :: back) (whole : '-' ∉ back)
    (room : 10 + (keptEnd name).utf8ByteSize < limit) :
    '-' :: back <:+ (fitName name limit).toList := by
  rcases Nat.lt_or_ge limit name.utf8ByteSize with long | short
  · rw [fitName_of_lt long room, cutName, toList_hyphen, keptEnd_eq parts whole,
      String.toList_ofList]
    exact List.suffix_append _ _
  · rw [fitName_of_le short, parts]
    exact List.suffix_append _ _

end Fit

/-! ### Names in use -/

/-- The prelude leaves the form of names. -/
theorem NameForm.withPrelude {name : String} (form : NameForm name.toList) :
    NameForm (namePrelude ++ name).toList := by
  have word : NameForm "fence".toList := nameForm_of_all (by decide) (by decide)
  exact word.append form

/-- A name that is fitted behind the prelude is legal. -/
theorem isDnsLabel_prelude {name : String} (form : NameForm name.toList) :
    IsDnsLabel (namePrelude ++ fitName name jobNameRoom) where
  form := (nameForm_fitName form jobNameRoom).withPrelude
  short := by
    have room : jobNameRoom = 57 := rfl
    have word : namePrelude.length = 6 := rfl
    have fitted := length_fitName_le form (Nat.le_of_ble_eq_true rfl : 8 ≤ jobNameRoom)
    rw [String.length_append]
    omega

namespace Request

variable {r : Request}

/-- The part of the identity of a request that stands in names, if it is made of lowercase letters
and digits. -/
theorem nameEnd_uidPart (huid : ∀ uid, r.metadata.uid = some uid →
    uid.toList.take 8 ≠ [] ∧ ∀ c ∈ uid.toList.take 8, isNameEnd c = true) :
    r.uidPart.toList ≠ [] ∧ ∀ c ∈ r.uidPart.toList, isNameEnd c = true := by
  unfold uidPart
  split
  · next uid h =>
      rw [String.toList_ofList]
      exact huid uid h
  · exact ⟨by decide, List.all_eq_true.mp (by decide)⟩

theorem nameForm_jobTitle (uidPart : NameForm r.uidPart.toList) (method : String) :
    NameForm (r.jobTitle method).toList :=
  ((nameForm_dnsLabel r.name).append (nameForm_dnsLabel method)).append uidPart

end Request

/-- The name of a request for a node without its prelude, before it is cut. -/
def requestTitle (node : String) (seconds : Int) : String :=
  dnsLabel node ++ "-" ++ String.ofList (digitsOfInt seconds)

theorem requestName_eq (node : String) (seconds : Int) :
    requestName node seconds = namePrelude ++ fitName (requestTitle node seconds) jobNameRoom := by
  unfold requestName requestTitle jobNameRoom
  rfl

/-- The digits of the time come behind a hyphen, or behind two if it is before 1970. -/
theorem requestTitle_parts (node : String) (seconds : Int) :
    ∃ hyphens, (∀ c ∈ hyphens, c = '-') ∧ (requestTitle node seconds).toList =
      ((dnsLabel node).toList ++ hyphens) ++ '-' :: digitsOfNat seconds.natAbs := by
  rw [requestTitle, toList_hyphen, String.toList_ofList, digitsOfInt]
  split
  · exact ⟨['-'], by simp, by simp⟩
  · exact ⟨[], by simp, by simp⟩

theorem nameForm_requestTitle (node : String) (seconds : Int) :
    NameForm (requestTitle node seconds).toList := by
  obtain ⟨hyphens, hyphen, parts⟩ := requestTitle_parts node seconds
  have all : ∀ c ∈ hyphens ++ ['-'], c = '-' := by
    intro c hc
    rcases List.mem_append.mp hc with hc | hc
    · exact hyphen c hc
    · exact List.mem_singleton.mp hc
  have joined := (nameForm_dnsLabel node).join (nameForm_digitsOfNat seconds.natAbs) all
  rw [parts]
  simpa using joined

/-- A time of 64 bits has nineteen digits at most. -/
theorem length_digits_le {seconds : Int} (h : fitsSigned 64 seconds = true) :
    (digitsOfNat seconds.natAbs).length ≤ 19 := by
  have least : leastSigned 64 = -9223372036854775808 := by decide
  have greatest : greatestSigned 64 = 9223372036854775807 := by decide
  rw [fitsSigned, Bool.and_eq_true, decide_eq_true_eq, decide_eq_true_eq, least, greatest] at h
  refine (Nat.length_toDigits_le_iff (by decide) (by decide)).mpr ?_
  omega

theorem nameForm_secretTitle (index : Nat) (secret : String) :
    NameForm (secretTitle index secret).toList := by
  have word : NameForm "secret".toList := nameForm_of_all (by decide) (by decide)
  have digits : NameForm (toString index).toList := by
    rw [Nat.toString_eq_ofList_toDigits, String.toList_ofList]
    exact nameForm_digitsOfNat index
  exact (word.append digits).append (nameForm_dnsLabel secret)

/-- The name of a container is short, for its position has 64 bits. -/
theorem isDnsLabel_containerName {index : Nat} (hindex : fitsUnsigned 64 index = true)
    (driver : Driver) : IsDnsLabel (containerName index driver.name) := by
  have digits : NameForm (String.ofList (digitsOfNat index)).toList := by
    rw [String.toList_ofList]
    exact nameForm_digitsOfNat index
  constructor
  · exact digits.withPrelude.append (nameForm_dnsLabel driver.name)
  · have word : namePrelude.length = 6 := rfl
    have hyphen : String.length "-" = 1 := rfl
    have name : (dnsLabel driver.name).length ≤ 9 := by cases driver <;> decide
    have greatest : greatestUnsigned 64 = 18446744073709551615 := by decide
    rw [fitsUnsigned, Bool.and_eq_true, decide_eq_true_eq, decide_eq_true_eq, greatest] at hindex
    have short : (digitsOfNat index).length ≤ 20 :=
      (Nat.length_toDigits_le_iff (by decide) (by decide)).mpr (by omega)
    simp only [containerName, String.length_append, String.length_ofList]
    omega

/-- **All names in use are legal**, whatever requests, methods, nodes and secrets are called.  They
can be cut where they have to be.  Names of jobs end with the part of the identity, if this is made
of lowercase letters and digits, and names of requests with the digits of the time. -/
theorem names_legal (r : Request) (huid : ∀ uid, r.metadata.uid = some uid →
      uid.toList.take 8 ≠ [] ∧ ∀ c ∈ uid.toList.take 8, isNameEnd c = true)
    (method node secret : String) {seconds : Int} (hseconds : fitsSigned 64 seconds = true)
    {index : Nat} (hindex : fitsUnsigned 64 index = true) (driver : Driver) :
    (CutsCleanly (r.jobTitle method) jobNameRoom ∧ IsDnsLabel (r.jobName method) ∧
        '-' :: r.uidPart.toList <:+ (r.jobName method).toList) ∧
      (CutsCleanly (requestTitle node seconds) jobNameRoom ∧
        IsDnsLabel (requestName node seconds) ∧
        '-' :: digitsOfNat seconds.natAbs <:+ (requestName node seconds).toList) ∧
      IsDnsLabel (containerName index driver.name) ∧
      CutsCleanly (secretTitle index secret) maxNameSize ∧
        IsDnsLabel (secretVolumeName index secret) := by
  obtain ⟨nonempty, ends⟩ := Request.nameEnd_uidPart huid
  have jobForm := Request.nameForm_jobTitle (nameForm_of_isNameEnd nonempty ends) method
  have requestForm := nameForm_requestTitle node seconds
  have secretForm := nameForm_secretTitle index secret
  refine ⟨⟨cutsCleanly jobForm _, ?_, ?_⟩, ⟨cutsCleanly requestForm _, ?_, ?_⟩,
    isDnsLabel_containerName hindex driver, cutsCleanly secretForm _, ?_⟩
  · rw [Request.jobName_eq]
    exact isDnsLabel_prelude jobForm
  · have whole : '-' ∉ r.uidPart.toList := fun h => ne_hyphen_of_isNameEnd (ends _ h) rfl
    rw [Request.jobName_eq, String.toList_append]
    exact (suffix_fitName (r.jobTitle_parts method) whole (r.keptEnd_jobTitle_le method)).trans
      (List.suffix_append _ _)
  · rw [requestName_eq]
    exact isDnsLabel_prelude requestForm
  · obtain ⟨hyphens, -, parts⟩ := requestTitle_parts node seconds
    have digits := nameForm_digitsOfNat seconds.natAbs
    have whole : '-' ∉ digitsOfNat seconds.natAbs := by
      intro h
      exact absurd (Nat.isDigit_of_mem_toDigits (by decide) (by decide) h) (by decide)
    have room : 10 + (keptEnd (requestTitle node seconds)).utf8ByteSize < jobNameRoom := by
      have short := length_digits_le hseconds
      have most : jobNameRoom = 57 := rfl
      rw [keptEnd_eq parts whole, utf8ByteSize_ofList_of_isNameChar digits.chars]
      omega
    rw [requestName_eq, String.toList_append]
    exact (suffix_fitName parts whole room).trans (List.suffix_append _ _)
  · exact ⟨nameForm_fitName secretForm _, length_fitName_le secretForm (by decide)⟩

/-- A request with a long name, part of which may not stand in names. -/
def longNamed : Request where
  metadata := {
    name := some "Zäune auf: Rechner für die Prüfung des Übergangs an der Außenstelle Süd"
    uid := some "0f1e2d3c-4b5a" }
  target := "node-1"

/-- The name of its job is cut and ends with the part of its identity.  The other names are of a
node without a name before 1970, of a mechanism with a command of its own, and of a secret. -/
theorem names_legal_longNamed :
    jobNameRoom < (longNamed.jobTitle "Power off").utf8ByteSize ∧
      IsDnsLabel (longNamed.jobName "Power off") ∧
      '-' :: "0f1e2d3c".toList <:+ (longNamed.jobName "Power off").toList ∧
      IsDnsLabel (requestName "" (-5)) ∧ ['-', '5'] <:+ (requestName "" (-5)).toList ∧
      IsDnsLabel (containerName 2 Driver.custom.name) ∧
      IsDnsLabel (secretVolumeName 2 "BMC: Zugang") := by
  have huid : ∀ uid, longNamed.metadata.uid = some uid →
      uid.toList.take 8 ≠ [] ∧ ∀ c ∈ uid.toList.take 8, isNameEnd c = true := by
    intro uid h
    obtain rfl := Option.some.inj h
    exact ⟨by decide, List.all_eq_true.mp (by decide)⟩
  have hseconds : fitsSigned 64 (-5) = true := by decide
  have hindex : fitsUnsigned 64 2 = true := by decide
  obtain ⟨⟨-, job, uid⟩, ⟨-, request, seconds⟩, container, -, secret⟩ :=
    names_legal longNamed huid "Power off" "" "BMC: Zugang" hseconds hindex .custom
  exact ⟨by decide +kernel, job, uid, request, seconds, container, secret⟩

end NodeFencing
