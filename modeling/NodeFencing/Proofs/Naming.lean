import NodeFencing.Method.Job
import NodeFencing.Proofs.Escalation
import NodeFencing.Proofs.Naming.Form
import NodeFencing.Proofs.Registry

/-!
# The names of jobs

The jobs of the methods of a request are told apart by their names.  Such a name holds the
name of the request, that of the method in the form that names have, and a part of the
identity of the request.  The methods of a usable configuration differ in this form, so the
names of their jobs differ as long as nothing is cut off.

A name that is too long is cut to its start, a digest of the whole, and the part of the
identity.  This is a name like any other.  A method may be called in such a way that the
name of its job, which is not too long, is what that of another one is cut to; and two names
that are both cut may have one digest.  These are the only cases in which two methods share
a name.

A name is cut by its octets, so it can be cut only where a character ends.  This is so in any
case if the part of the identity is of ASCII.

## Main Definitions

* `Request.jobTitle` — the name of a job without its prelude, before it is cut
* `keptStart`, `cutName` — what a name that is too long is cut to
* `CutsCleanly` — a name can be cut by its octets
* `Alike` — names that are the same when they are cut

## Main statements

* `cutsCleanly_of_utf8Size` — a name of ASCII can be cut
* `fitName_eq_iff` — when two names are the same
* `jobNames_differ_iff` — when the methods of a configuration have jobs of different names
* `shortened_sameName` — two methods whose jobs have the same name
-/

namespace NodeFencing

/-! ### Parts of names -/

/-- The last part of a name is not changed by what stands in front of a hyphen. -/
theorem lastPart_append_hyphen (front back : List Char) :
    lastPart (front ++ '-' :: back) = lastPart back := by
  unfold lastPart
  rw [List.reverse_append, List.reverse_cons, List.append_assoc, List.takeWhile_append]
  split
  · next whole =>
      rw [(List.takeWhile_sublist _).eq_of_length whole]
      simp
  · rfl

theorem length_lastPart_le (name : List Char) : (lastPart name).length ≤ name.length := by
  unfold lastPart
  rw [List.length_reverse, ← name.length_reverse]
  exact (List.takeWhile_sublist _).length_le

/-- A character takes four octets at most. -/
theorem utf8ByteSize_ofList_le (text : List Char) :
    (String.ofList text).utf8ByteSize ≤ 4 * text.length := by
  induction text with
  | nil => simp
  | cons c rest ih =>
      have hc := c.utf8Size_le_four
      rw [utf8ByteSize_ofList_cons, List.length_cons]
      omega

theorem toList_hyphen (a b : String) : (a ++ "-" ++ b).toList = a.toList ++ '-' :: b.toList := by
  rw [String.toList_append, String.toList_append, List.append_assoc]
  rfl

theorem length_hexDigits (width n : Nat) : (hexDigits width n).length = width := by
  induction width generalizing n with
  | zero => rfl
  | succ width ih => simp [hexDigits, ih]

theorem length_digest (text : String) : (digest text).length = 8 := by
  unfold digest
  rw [String.length_ofList, length_hexDigits]

/-! ### Names that are cut -/

/-- The last part of a name, as it is kept when the name is cut. -/
def keptEnd (name : String) : String :=
  String.ofList (lastPart name.toList)

/-- What is kept of the start of a name that is cut to a number of octets. -/
def keptStart (name : String) (limit : Nat) : String :=
  String.ofList (trimEnd (· != '-')
    (takeOctets (limit - (8 + (keptEnd name).utf8ByteSize + 2)) name.toList))

/-- What a name that is too long is cut to. -/
def cutName (name : String) (limit : Nat) : String :=
  keptStart name limit ++ "-" ++ digest name ++ "-" ++ keptEnd name

/-- A name can be cut by its octets: if it is too long and its last part is kept, a character ends
where the start that is kept may end. -/
def CutsCleanly (name : String) (limit : Nat) : Prop :=
  limit < name.utf8ByteSize → 10 + (keptEnd name).utf8ByteSize < limit →
    ∃ front back, name = front ++ back ∧
      front.utf8ByteSize = limit - (10 + (keptEnd name).utf8ByteSize)

/-- **A name of ASCII can be cut.** -/
theorem cutsCleanly_of_utf8Size {name : String} (h : ∀ c ∈ name.toList, c.utf8Size = 1)
    (limit : Nat) : CutsCleanly name limit := by
  intro long room
  have octets := utf8ByteSize_ofList_of_utf8Size h
  rw [String.ofList_toList] at octets
  generalize hsize : limit - (10 + (keptEnd name).utf8ByteSize) = size
  refine ⟨String.ofList (name.toList.take size), String.ofList (name.toList.drop size), ?_, ?_⟩
  · rw [← String.toList_inj]
    simp
  · rw [utf8ByteSize_ofList_of_utf8Size fun c hc => h c (List.mem_of_mem_take hc),
      List.length_take]
    omega

/-- Two names that are the same when they are cut to a number of octets. -/
inductive Alike (limit : Nat) (a b : String) : Prop
  /-- Both are too long, begin alike, and have the same digest. -/
  | cut (long : limit < a.utf8ByteSize) (long' : limit < b.utf8ByteSize)
      (start : keptStart a limit = keptStart b limit) (digest : digest a = digest b)
  /-- One is short enough, and is what the other one is cut to. -/
  | left (short : a.utf8ByteSize ≤ limit) (long : limit < b.utf8ByteSize)
      (reads : a = cutName b limit)
  | right (long : limit < a.utf8ByteSize) (short : b.utf8ByteSize ≤ limit)
      (reads : b = cutName a limit)

section Fit

variable {limit : Nat} {name a b : String}

theorem fitName_of_le (short : name.utf8ByteSize ≤ limit) : fitName name limit = name :=
  if_pos short

theorem fitName_of_lt (long : limit < name.utf8ByteSize)
    (room : 10 + (keptEnd name).utf8ByteSize < limit) :
    fitName name limit = cutName name limit := by
  unfold keptEnd at room
  unfold fitName
  rw [if_neg (Nat.not_le.mpr long)]
  dsimp only
  rw [if_neg (by omega)]
  rfl

/-- Of two names with the same last part, both the start and the digest are seen when they are
cut. -/
theorem cutName_eq_iff (last : keptEnd a = keptEnd b) :
    cutName a limit = cutName b limit ↔
      keptStart a limit = keptStart b limit ∧ digest a = digest b := by
  have middle : cutName a limit = cutName b limit ↔
      keptStart a limit ++ "-" ++ digest a = keptStart b limit ++ "-" ++ digest b := by
    unfold cutName
    rw [last, String.append_left_inj, String.append_left_inj]
  rw [middle]
  constructor
  · intro h
    have chars : (keptStart a limit ++ "-").toList ++ (digest a).toList =
        (keptStart b limit ++ "-").toList ++ (digest b).toList := by
      rw [← String.toList_append, ← String.toList_append, h]
    have sizes : (digest a).toList.length = (digest b).toList.length := by
      rw [String.length_toList, String.length_toList, length_digest, length_digest]
    obtain ⟨hstart, hdigest⟩ := List.append_inj' chars sizes
    refine ⟨?_, String.toList_inj.mp hdigest⟩
    exact (String.append_left_inj _).mp (String.toList_inj.mp hstart)
  · rintro ⟨hstart, hdigest⟩
    rw [hstart, hdigest]

/-- **When two names are the same.**  Names that differ, but not in their last part, are the same
when they are fitted just if they are alike. -/
theorem fitName_eq_iff (hne : a ≠ b) (last : keptEnd a = keptEnd b)
    (room : 10 + (keptEnd a).utf8ByteSize < limit) :
    fitName a limit = fitName b limit ↔ Alike limit a b := by
  have room' : 10 + (keptEnd b).utf8ByteSize < limit := last ▸ room
  rcases Nat.lt_or_ge limit a.utf8ByteSize with hlong | hshort
  · rw [fitName_of_lt hlong room]
    rcases Nat.lt_or_ge limit b.utf8ByteSize with hlong' | hshort'
    · rw [fitName_of_lt hlong' room', cutName_eq_iff last]
      refine ⟨fun ⟨hstart, hdigest⟩ => .cut hlong hlong' hstart hdigest, fun h => ?_⟩
      cases h with
      | cut _ _ start digest => exact ⟨start, digest⟩
      | left short => omega
      | right _ short => omega
    · rw [fitName_of_le hshort']
      refine ⟨fun h => .right hlong hshort' h.symm, fun h => ?_⟩
      cases h with
      | cut _ long' => omega
      | left short => omega
      | right _ _ reads => exact reads.symm
  · rw [fitName_of_le hshort]
    rcases Nat.lt_or_ge limit b.utf8ByteSize with hlong' | hshort'
    · rw [fitName_of_lt hlong' room']
      refine ⟨fun h => .left hshort hlong' h, fun h => ?_⟩
      cases h with
      | cut long => omega
      | left _ _ reads => exact reads
      | right long => omega
    · rw [fitName_of_le hshort']
      refine ⟨fun h => absurd h hne, fun h => ?_⟩
      cases h with
      | cut long => omega
      | left _ long => omega
      | right long => omega

/-- Names that are short enough are not alike. -/
theorem Alike.lt (h : Alike limit a b) :
    limit < a.utf8ByteSize ∨ limit < b.utf8ByteSize := by
  cases h with
  | cut long => exact .inl long
  | left _ long => exact .inr long
  | right long => exact .inl long

end Fit

/-! ### Names of jobs -/

/-- The octets that are left for the name of a job behind its prelude. -/
def jobNameRoom : Nat :=
  maxNameSize - namePrelude.length

namespace Request

/-- The part of the identity of a request that stands in the names of its jobs. -/
def uidPart (r : Request) : String :=
  match r.metadata.uid with
  | some uid => String.ofList (uid.toList.take 8)
  | none => "unknown"

/-- The name of the job of a method without its prelude, before it is cut. -/
def jobTitle (r : Request) (method : String) : String :=
  dnsLabel r.name ++ "-" ++ dnsLabel method ++ "-" ++ r.uidPart

variable (r : Request) {method method' : String}

theorem jobName_eq (method : String) :
    r.jobName method = namePrelude ++ fitName (r.jobTitle method) jobNameRoom := by
  unfold jobName NodeFencing.jobName jobTitle uidPart
  rfl

theorem jobTitle_inj (h : r.jobTitle method = r.jobTitle method') :
    dnsLabel method = dnsLabel method' := by
  unfold jobTitle at h
  rw [String.append_left_inj, String.append_left_inj, String.append_right_inj] at h
  exact h

/-- The name of a job ends with the part of the identity. -/
theorem jobTitle_parts (method : String) : (r.jobTitle method).toList =
    (dnsLabel r.name ++ "-" ++ dnsLabel method).toList ++ '-' :: r.uidPart.toList :=
  toList_hyphen _ _

/-- The names of all jobs of a request end alike. -/
theorem keptEnd_jobTitle (method : String) : keptEnd (r.jobTitle method) = keptEnd r.uidPart := by
  unfold keptEnd
  rw [jobTitle_parts, lastPart_append_hyphen]

/-- This end is short, so what is cut keeps a part of its start. -/
theorem keptEnd_jobTitle_le (method : String) :
    10 + (keptEnd (r.jobTitle method)).utf8ByteSize < jobNameRoom := by
  have short : r.uidPart.toList.length ≤ 8 := by
    unfold uidPart
    split
    · rw [String.toList_ofList]
      exact List.length_take_le _ _
    · decide
  have last := length_lastPart_le r.uidPart.toList
  have octets := utf8ByteSize_ofList_le (lastPart r.uidPart.toList)
  have room : jobNameRoom = 57 := by decide
  rw [keptEnd_jobTitle, keptEnd, room]
  omega

/-- The title of a job can be cut if the part of the identity is of ASCII. -/
theorem jobTitle_cutsCleanly (ascii : ∀ c ∈ r.uidPart.toList, c.utf8Size = 1) (method : String) :
    CutsCleanly (r.jobTitle method) jobNameRoom := by
  have name (text : String) : ∀ c ∈ (dnsLabel text).toList, c.utf8Size = 1 :=
    fun c hc => utf8Size_of_isNameChar ((nameForm_dnsLabel text).chars c hc)
  refine cutsCleanly_of_utf8Size (fun c hc => ?_) _
  rw [jobTitle_parts, toList_hyphen] at hc
  simp only [List.mem_append, List.mem_cons] at hc
  rcases hc with (hc | rfl | hc) | rfl | hc
  · exact name _ c hc
  · decide
  · exact name _ c hc
  · decide
  · exact ascii c hc

/-- **When two jobs of a request have the same name**, if the names of their methods differ in the
form that names have. -/
theorem jobName_eq_iff (hne : dnsLabel method ≠ dnsLabel method') :
    r.jobName method = r.jobName method' ↔
      Alike jobNameRoom (r.jobTitle method) (r.jobTitle method') := by
  rw [jobName_eq, jobName_eq, String.append_right_inj]
  refine fitName_eq_iff (fun h => hne (r.jobTitle_inj h)) ?_ (r.keptEnd_jobTitle_le method)
  rw [keptEnd_jobTitle, keptEnd_jobTitle]

end Request

/-- **When the methods of a configuration have jobs of different names.**  Whatever a request is
called and whatever its identity is, the jobs of any two methods of a configuration that can be read
have different names if and only if their titles are not alike, as long as both titles can be cut.
In particular they have if neither title is too long.  All titles can be cut if the part of the
identity is of ASCII. -/
theorem jobNames_differ_iff {source text : String} {c : Config}
    (h : Config.ofYaml source text = .ok c) (r : Request) :
    (c.methods.Pairwise fun m m' =>
      (CutsCleanly (r.jobTitle m.name) jobNameRoom →
        CutsCleanly (r.jobTitle m'.name) jobNameRoom →
          (r.jobName m.name ≠ r.jobName m'.name ↔
            ¬ Alike jobNameRoom (r.jobTitle m.name) (r.jobTitle m'.name))) ∧
      ((r.jobTitle m.name).utf8ByteSize ≤ jobNameRoom →
        (r.jobTitle m'.name).utf8ByteSize ≤ jobNameRoom →
          r.jobName m.name ≠ r.jobName m'.name)) ∧
    ((∀ c ∈ r.uidPart.toList, c.utf8Size = 1) →
      ∀ method, CutsCleanly (r.jobTitle method) jobNameRoom) := by
  refine ⟨?_, r.jobTitle_cutsCleanly⟩
  refine (Config.forms_pairwise (Config.fault?_of_ofYaml h)).imp fun {m m'} hforms => ?_
  have same := r.jobName_eq_iff hforms.1
  refine ⟨fun _ _ => not_congr same, fun hm hm' heq => ?_⟩
  rcases (same.mp heq).lt with hlong | hlong
  · omega
  · omega

/-- A configuration whose second method has a long name. -/
def networkSource : String :=
  "methods:\n" ++
  "- name: power-off-over-the-managem-ce15bfc5\n  mechanisms:\n  - driver: echo\n" ++
  "- name: power-off-over-the-management-network\n  mechanisms:\n  - driver: echo\n"

@[inherit_doc networkSource]
def network : Config where
  name := "network"
  methods := [
    { name := "power-off-over-the-managem-ce15bfc5", mechanisms := [{}] },
    { name := "power-off-over-the-management-network", mechanisms := [{}] }]

theorem ofYaml_networkSource : Config.ofYaml "network" networkSource = .ok network := by
  decide +kernel

/-- A request of some identity. -/
def fenceNode (uid : String) : Request where
  metadata := { name := some "fence-node-1", uid := some uid }
  target := "node-1"

/-- For a request of one identity the methods of this configuration have jobs of different names,
although the name of the second is cut. -/
theorem jobNames_differ_iff_network :
    Config.ofYaml "network" networkSource = .ok network ∧
      network.methods.Pairwise fun m m' =>
        (fenceNode "0f1e2d3c-4b5a").jobName m.name ≠
          (fenceNode "0f1e2d3c-4b5a").jobName m'.name := by
  obtain ⟨differ, cuts⟩ := jobNames_differ_iff ofYaml_networkSource (fenceNode "0f1e2d3c-4b5a")
  have ascii : ∀ c ∈ (fenceNode "0f1e2d3c-4b5a").uidPart.toList, c.utf8Size = 1 := by
    simp [Request.uidPart, fenceNode, Char.utf8Size]
  have pair := (List.pairwise_pair.mp differ).1 (cuts ascii _) (cuts ascii _)
  refine ⟨ofYaml_networkSource, List.pairwise_pair.mpr (pair.mpr fun alike => ?_)⟩
  cases alike with
  | cut long => exact absurd long (by decide +kernel)
  | left _ _ reads => exact absurd reads (by decide +kernel)
  | right long => exact absurd long (by decide +kernel)

/-- For a request of another identity they have the same name. -/
theorem shortened_sameName :
    ∃ c m m', Config.ofYaml "network" networkSource = .ok c ∧ m ∈ c.methods ∧ m' ∈ c.methods ∧
      m.name ≠ m'.name ∧
      (fenceNode "12345678-9abc").jobName m.name = (fenceNode "12345678-9abc").jobName m'.name := by
  refine ⟨network, _, _, ofYaml_networkSource, List.mem_cons_self,
    List.mem_cons_of_mem _ (List.mem_singleton_self _), by decide, by decide +kernel⟩

end NodeFencing
