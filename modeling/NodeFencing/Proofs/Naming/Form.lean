import NodeFencing.Proofs.Label

/-!
# The form of names

A name is text of lowercase letters, digits and hyphens, with a letter or a digit at both
ends.  Such texts can be put together with hyphens between them.  Digits and digests are such
texts, and whatever a text is, what is made of it as a part of a name is one.

## Main Definitions

* `isNameEnd`, `isNameChar` — the characters of a name, at its ends and elsewhere
* `NameForm` — the form of names

## Main statements

* `NameForm.join` — names with hyphens between them
* `nameForm_digitsOfNat`, `nameForm_digest` — digits and digests
* `nameForm_dnsLabel` — what a text becomes as a part of a name
-/

namespace NodeFencing

/-! ### Characters of names -/

/-- A lowercase letter or a digit of ASCII. -/
def isNameEnd (c : Char) : Bool :=
  c.isLower || c.isDigit

/-- A character that may occur in a name. -/
def isNameChar (c : Char) : Bool :=
  isNameEnd c || c == '-'

theorem isNameChar_of_isNameEnd {c : Char} (h : isNameEnd c = true) : isNameChar c = true := by
  rw [isNameChar, h, Bool.true_or]

theorem isNameEnd_of_ne {c : Char} (h : isNameChar c = true) (hne : c ≠ '-') :
    isNameEnd c = true := by
  simpa [isNameChar, hne] using h

theorem ne_hyphen_of_isNameEnd {c : Char} (h : isNameEnd c = true) : c ≠ '-' := by
  rintro rfl
  exact absurd h (by decide)

theorem isNameEnd_iff {c : Char} : isNameEnd c = true ↔
    ('a'.val ≤ c.val ∧ c.val ≤ 'z'.val) ∨ ('0'.val ≤ c.val ∧ c.val ≤ '9'.val) := by
  have lower : c.isLower = (decide ('a'.val ≤ c.val) && decide (c.val ≤ 'z'.val)) := rfl
  have digit : c.isDigit = (decide ('0'.val ≤ c.val) && decide (c.val ≤ '9'.val)) := rfl
  simp only [isNameEnd, lower, digit, Bool.or_eq_true, Bool.and_eq_true, decide_eq_true_eq]

/-- The characters of names are of ASCII. -/
theorem utf8Size_of_isNameChar {c : Char} (h : isNameChar c = true) : c.utf8Size = 1 := by
  rw [Char.utf8Size_eq_one_iff]
  rw [isNameChar, Bool.or_eq_true, isNameEnd_iff] at h
  rcases h with (⟨-, lower⟩ | ⟨-, digit⟩) | hyphen
  · exact UInt32.le_trans lower (by decide)
  · exact UInt32.le_trans digit (by decide)
  · rw [beq_iff_eq.mp hyphen]
    decide

/-- No character is an uppercase letter in its lowercase. -/
theorem isUpper_toLower (c : Char) : c.toLower.isUpper = false := by
  unfold Char.toLower
  split
  · next upper =>
      refine decide_eq_false ?_
      rintro ⟨-, bound⟩
      simp only [ge_iff_le, UInt32.le_iff_toNat_le, UInt32.toNat_add] at upper bound
      have ha : 'A'.val.toNat = 65 := rfl
      have hz : 'Z'.val.toNat = 90 := rfl
      have shift : ('a'.val - 'A'.val).toNat = 32 := rfl
      omega
  · next other => exact decide_eq_false other

theorem isUpper_of_mem_lowercase {c lower : Char} (h : lower ∈ lowercase c) :
    lower.isUpper = false := by
  unfold lowercase at h
  split at h
  · rcases List.mem_cons.mp h with rfl | h
    · decide
    · rw [List.mem_singleton.mp h]
      decide
  · split at h
    · rw [List.mem_singleton.mp h]
      decide
    · rw [List.mem_singleton.mp h]
      exact isUpper_toLower c

/-- A letter or digit that is not in uppercase may stand at the end of a name. -/
theorem isNameEnd_of_isAlphanum {c : Char} (h : c.isAlphanum = true)
    (lower : c.isUpper = false) : isNameEnd c = true := by
  have kinds : (c.isUpper || c.isLower || c.isDigit) = true := h
  rwa [lower, Bool.false_or] at kinds

/-! ### The form -/

/-- Lowercase letters, digits and hyphens, with a letter or a digit at both ends. -/
structure NameForm (text : List Char) : Prop where
  nonempty : text ≠ []
  chars : ∀ c ∈ text, isNameChar c = true
  first : ∀ c, text.head? = some c → isNameEnd c = true
  last : ∀ c, text.getLast? = some c → isNameEnd c = true

section Form

variable {text front back : List Char}

/-- Letters and digits have the form of a name. -/
theorem nameForm_of_isNameEnd (nonempty : text ≠ []) (h : ∀ c ∈ text, isNameEnd c = true) :
    NameForm text where
  nonempty := nonempty
  chars := fun c hc => isNameChar_of_isNameEnd (h c hc)
  first := fun c hc => h c (List.mem_of_mem_head? hc)
  last := fun c hc => h c (List.mem_of_getLast? hc)

theorem nameForm_of_all (nonempty : text ≠ []) (h : text.all isNameEnd = true) : NameForm text :=
  nameForm_of_isNameEnd nonempty (List.all_eq_true.mp h)

/-- **Names with hyphens between them** have the form of a name. -/
theorem NameForm.join (hfront : NameForm front) (hback : NameForm back) {hyphens : List Char}
    (hyphen : ∀ c ∈ hyphens, c = '-') : NameForm (front ++ hyphens ++ back) := by
  constructor
  · simp [hfront.nonempty]
  · intro c hc
    rcases List.mem_append.mp hc with hc | hc
    · rcases List.mem_append.mp hc with hc | hc
      · exact hfront.chars c hc
      · rw [hyphen c hc]
        decide
    · exact hback.chars c hc
  · intro c hc
    rw [List.append_assoc, List.head?_append_of_ne_nil _ hfront.nonempty] at hc
    exact hfront.first c hc
  · intro c hc
    rw [List.getLast?_append_of_ne_nil _ hback.nonempty] at hc
    exact hback.last c hc

theorem NameForm.hyphen (hfront : NameForm front) (hback : NameForm back) :
    NameForm (front ++ '-' :: back) := by
  have hyphen : ∀ c ∈ ['-'], c = '-' := fun c hc => List.mem_singleton.mp hc
  have joined := hfront.join hback hyphen
  rwa [List.append_assoc] at joined

/-- A part of a name between hyphens that are dropped at both ends. -/
theorem nameForm_of_trimmed (nonempty : text ≠ []) (chars : ∀ c ∈ text, isNameChar c = true)
    (first : ∀ c, text.head? = some c → c ≠ '-') (last : ∀ c, text.getLast? = some c → c ≠ '-') :
    NameForm text where
  nonempty := nonempty
  chars := chars
  first := fun c hc => isNameEnd_of_ne (chars c (List.mem_of_mem_head? hc)) (first c hc)
  last := fun c hc => isNameEnd_of_ne (chars c (List.mem_of_getLast? hc)) (last c hc)

end Form

/-! ### Octets -/

theorem utf8ByteSize_ofList_cons (c : Char) (rest : List Char) :
    (String.ofList (c :: rest)).utf8ByteSize =
      c.utf8Size + (String.ofList rest).utf8ByteSize := by
  have split : String.ofList (c :: rest) = String.singleton c ++ String.ofList rest := by
    rw [← String.toList_inj]
    simp
  rw [split, String.utf8ByteSize_append, String.utf8ByteSize_singleton]

/-- A text of ASCII is as long in octets as in characters. -/
theorem utf8ByteSize_ofList_of_utf8Size {text : List Char} (h : ∀ c ∈ text, c.utf8Size = 1) :
    (String.ofList text).utf8ByteSize = text.length := by
  induction text with
  | nil => simp
  | cons c rest ih =>
      rw [List.forall_mem_cons] at h
      rw [utf8ByteSize_ofList_cons, h.1, ih h.2, List.length_cons, Nat.add_comm]

theorem utf8ByteSize_ofList_of_isNameChar {text : List Char}
    (h : ∀ c ∈ text, isNameChar c = true) : (String.ofList text).utf8ByteSize = text.length :=
  utf8ByteSize_ofList_of_utf8Size fun c hc => utf8Size_of_isNameChar (h c hc)

/-- What of a text of ASCII takes some octets are as many characters. -/
theorem takeOctets_of_utf8Size {text : List Char} (h : ∀ c ∈ text, c.utf8Size = 1) (size : Nat) :
    takeOctets size text = text.take size := by
  induction text generalizing size with
  | nil => simp [takeOctets]
  | cons c rest ih =>
      rw [List.forall_mem_cons] at h
      rw [takeOctets, h.1, ih h.2]
      cases size with
      | zero => rfl
      | succ size => rfl

theorem takeOctets_of_isNameChar {text : List Char} (h : ∀ c ∈ text, isNameChar c = true)
    (size : Nat) : takeOctets size text = text.take size :=
  takeOctets_of_utf8Size (fun c hc => utf8Size_of_isNameChar (h c hc)) size

/-! ### Digits and digests -/

theorem nameForm_digitsOfNat (n : Nat) : NameForm (digitsOfNat n) :=
  nameForm_of_isNameEnd Nat.toDigits_ne_nil fun c hc => by
    rw [isNameEnd, Nat.isDigit_of_mem_toDigits (by decide) (by decide) hc, Bool.or_true]

theorem isNameEnd_of_mem_hexDigits {width n : Nat} {c : Char} (h : c ∈ hexDigits width n) :
    isNameEnd c = true := by
  have digit : ∀ n < 16, isNameEnd (Nat.digitChar n) = true := by decide
  induction width generalizing n with
  | zero => cases h
  | succ width ih =>
      rcases List.mem_append.mp h with h | h
      · exact ih h
      · rw [List.mem_singleton.mp h]
        exact digit _ (Nat.mod_lt n (by decide))

theorem nameForm_digest (text : String) : NameForm (digest text).toList := by
  rw [digest, String.toList_ofList]
  refine nameForm_of_isNameEnd ?_ fun c => isNameEnd_of_mem_hexDigits
  simp [hexDigits]

/-! ### Parts of names -/

theorem mem_of_mem_joinHyphens {text : List Char} {c : Char} (h : c ∈ joinHyphens text) :
    c ∈ text := by
  induction text using joinHyphens.induct with
  | case1 rest ih =>
      rw [joinHyphens] at h
      exact List.mem_cons_of_mem _ (ih h)
  | case2 c' rest other ih =>
      rw [joinHyphens] at h
      · rcases List.mem_cons.mp h with rfl | h
        · exact List.mem_cons_self
        · exact List.mem_cons_of_mem _ (ih h)
      · exact other
  | case3 => cases h

/-- **What a text becomes as a part of a name** has the form of a name. -/
theorem nameForm_dnsLabel (text : String) : NameForm (dnsLabel text).toList := by
  unfold dnsLabel
  dsimp only
  split
  · exact nameForm_of_all (by decide) (by decide)
  · next nonempty =>
      rw [String.toList_ofList]
      rw [List.isEmpty_iff] at nonempty
      refine nameForm_of_trimmed nonempty (fun c hc => ?_) (fun c hc => ?_) (fun c hc => ?_)
      · obtain ⟨lower, hlower, rfl⟩ :=
          List.mem_map.mp (mem_of_mem_joinHyphens (trimBoth_subset hc))
        obtain ⟨_, -, hlower⟩ := List.mem_flatMap.mp hlower
        split
        · next alphanum =>
            exact isNameChar_of_isNameEnd
              (isNameEnd_of_isAlphanum alphanum (isUpper_of_mem_lowercase hlower))
        · decide
      · simpa using keep_of_head?_trimBoth hc
      · simpa using keep_of_getLast?_trimEnd hc

end NodeFencing
