import NodeFencing.Proofs.Naming

/-!
# Texts that are left as they are

What is made of a text for a name or for a label is in a normal form, and a text that is in
this form already is left as it is.  So to make it once more changes nothing.

The hyphens of a name are joined: where there are two in a row, one is left.  This may be done
by making one hyphen of each two, from the start to the end, and by doing so again as long as
there are two in a row somewhere.  Each time the text gets shorter, so this comes to an end;
and neither the ends of the runs nor what stands between them is changed, so it does not
matter how often it was done.

The value of a label that is too long is cut behind a letter or a digit, and its digest is of
such characters too, so what is cut is in the form of values as what is not.

## Main Definitions

* `Doubled` — a text with two hyphens in a row
* `pairHyphens`, `Joins` — making one hyphen of each two, once and again and again
* `hyphenForm`, `trimmedName` — a name before its hyphens are joined and afterwards
* `JoinedForm` — the form of what is made of a text as a part of a name
* `isValueChar`, `ValueForm` — the characters and the form of the values of labels

## Main statements

* `joins_iff` — hyphens that are joined pair by pair
* `dnsLabel_eq_self_iff`, `labelValue_eq_self_iff` — the texts that are left as they are
* `takeOctets_labelForm` — values are cut between two characters
* `normal_forms` — what is made of a text is in its form, and stays as it is
-/

namespace NodeFencing

/-! ### Joining hyphens -/

/-- A text with two hyphens in a row. -/
def Doubled (text : List Char) : Prop :=
  ['-', '-'] <:+: text

/-- One hyphen for each two in a row, from the start to the end. -/
def pairHyphens : List Char → List Char
  | '-' :: '-' :: rest => '-' :: pairHyphens rest
  | c :: rest => c :: pairHyphens rest
  | [] => []

/-- One hyphen is made of each two, again and again, as long as there are two in a row. -/
inductive Joins : List Char → List Char → Prop
  | done {text} (single : ¬ Doubled text) : Joins text text
  | again {text joined} (doubled : Doubled text) (rest : Joins (pairHyphens text) joined) :
      Joins text joined

section Hyphens

variable {c : Char} {text joined front back : List Char}

theorem not_doubled_nil : ¬ Doubled [] := by
  simp [Doubled]

/-- Two hyphens in a row stand at the start or behind it. -/
theorem doubled_cons_iff :
    Doubled (c :: text) ↔ (c = '-' ∧ text.head? = some '-') ∨ Doubled text := by
  unfold Doubled
  rw [List.infix_cons_iff, List.cons_prefix_cons]
  refine or_congr_left (and_congr eq_comm ?_)
  cases text with
  | nil => simp
  | cons d rest => rw [List.cons_prefix_cons, List.head?_cons, Option.some_inj, eq_comm]; simp

/-- A hyphen in front of another one is dropped. -/
theorem joinHyphens_cons : joinHyphens (c :: text) =
    if c = '-' ∧ text.head? = some '-' then joinHyphens text else c :: joinHyphens text := by
  split
  · next hyphens =>
      obtain ⟨rfl, hhead⟩ := hyphens
      obtain ⟨rest, rfl⟩ := List.head?_eq_some_iff.mp hhead
      rw [joinHyphens]
  · next other =>
      rw [joinHyphens]
      rintro rest rfl rfl
      exact other ⟨rfl, rfl⟩

theorem head?_joinHyphens : (joinHyphens text).head? = text.head? := by
  induction text with
  | nil => rfl
  | cons c rest ih =>
      rw [joinHyphens_cons]
      split
      · next hyphens => rw [ih, hyphens.1, hyphens.2, List.head?_cons]
      · rfl

theorem head?_pairHyphens : (pairHyphens text).head? = text.head? := by
  cases text using pairHyphens.fun_cases with
  | case1 rest => rw [pairHyphens]; rfl
  | case2 c rest other => rw [pairHyphens]; rfl; exact other
  | case3 => rfl

/-- No two hyphens are left. -/
theorem not_doubled_joinHyphens : ¬ Doubled (joinHyphens text) := by
  induction text with
  | nil => exact not_doubled_nil
  | cons c rest ih =>
      rw [joinHyphens_cons]
      split
      · exact ih
      · next other =>
          rw [doubled_cons_iff, head?_joinHyphens]
          exact not_or_intro other ih

/-- There is nothing to join where there are no two hyphens in a row. -/
theorem joinHyphens_of_not_doubled (single : ¬ Doubled text) : joinHyphens text = text := by
  induction text with
  | nil => rfl
  | cons c rest ih =>
      rw [doubled_cons_iff, not_or] at single
      rw [joinHyphens_cons, if_neg single.1, ih single.2]

/-- What comes of a text depends on its start and on what comes of the rest. -/
theorem joinHyphens_cons_congr (hhead : front.head? = back.head?)
    (h : joinHyphens front = joinHyphens back) :
    joinHyphens (c :: front) = joinHyphens (c :: back) := by
  rw [joinHyphens_cons, joinHyphens_cons, hhead, h]

/-- To make one hyphen of each two does not change what comes of a text. -/
theorem joinHyphens_pairHyphens : joinHyphens (pairHyphens text) = joinHyphens text := by
  induction text using pairHyphens.induct with
  | case1 rest ih =>
      rw [pairHyphens, joinHyphens]
      exact joinHyphens_cons_congr head?_pairHyphens ih
  | case2 c rest other ih =>
      rw [pairHyphens]
      · exact joinHyphens_cons_congr head?_pairHyphens ih
      · exact other
  | case3 => rfl

theorem length_pairHyphens_le : (pairHyphens text).length ≤ text.length := by
  induction text using pairHyphens.induct with
  | case1 rest ih =>
      rw [pairHyphens]
      simp only [List.length_cons]
      omega
  | case2 c rest other ih =>
      rw [pairHyphens]
      · exact Nat.succ_le_succ ih
      · exact other
  | case3 => exact Nat.le_refl _

/-- It makes the text shorter, where there are two hyphens in a row. -/
theorem length_pairHyphens_lt (doubled : Doubled text) :
    (pairHyphens text).length < text.length := by
  induction text using pairHyphens.induct with
  | case1 rest ih =>
      have shorter : (pairHyphens rest).length ≤ rest.length := length_pairHyphens_le
      rw [pairHyphens]
      simp only [List.length_cons]
      omega
  | case2 c rest other ih =>
      rw [pairHyphens]
      · refine Nat.succ_lt_succ (ih ((doubled_cons_iff.mp doubled).resolve_left ?_))
        rintro ⟨rfl, hhead⟩
        obtain ⟨rest', rfl⟩ := List.head?_eq_some_iff.mp hhead
        exact other rest' rfl rfl
      · exact other
  | case3 => exact absurd doubled not_doubled_nil

/-- **Hyphens that are joined pair by pair.**  This comes to an end, for the text gets shorter each
time, and what comes of it is the text with one hyphen for each run. -/
theorem joins_iff : Joins text joined ↔ joined = joinHyphens text := by
  constructor
  · intro h
    induction h with
    | done single => exact (joinHyphens_of_not_doubled single).symm
    | again _ _ ih => exact ih.trans joinHyphens_pairHyphens
  · rintro rfl
    induction hlength : text.length using Nat.strong_induction_on generalizing text with
    | _ length ih =>
        by_cases doubled : Doubled text
        · have rest := ih _ (hlength ▸ length_pairHyphens_lt doubled) rfl
          rw [joinHyphens_pairHyphens] at rest
          exact .again doubled rest
        · rw [joinHyphens_of_not_doubled doubled]
          exact .done doubled

end Hyphens

/-! ### What is left as it is -/

section Kept

variable {text : List Char} {c : Char}

theorem isUpper_of_isNameEnd (h : isNameEnd c = true) : c.isUpper = false := by
  refine decide_eq_false ?_
  rintro ⟨low, high⟩
  rcases isNameEnd_iff.mp h with ⟨lower, -⟩ | ⟨-, digit⟩
  · exact absurd (UInt32.le_trans lower high) (by decide)
  · exact absurd (UInt32.le_trans low digit) (by decide)

theorem isAlphanum_of_isNameEnd (h : isNameEnd c = true) : c.isAlphanum = true := by
  have kinds : (c.isUpper || c.isLower || c.isDigit) = true := by
    rw [Bool.or_assoc]
    exact Bool.or_eq_true_iff.mpr (.inr h)
  exact kinds

/-- A character that may stand in the value of a label, apart from uppercase letters. -/
def isValueChar (c : Char) : Bool :=
  isNameEnd c || c == '-' || c == '_' || c == '.'

theorem isValueChar_iff :
    isValueChar c = true ↔ isLabelChar c = true ∧ c.isUpper = false := by
  simp only [isValueChar, isLabelChar, Bool.or_eq_true, beq_iff_eq]
  constructor
  · rintro (((h | rfl) | rfl) | rfl)
    · exact ⟨.inl (.inl (.inl (isAlphanum_of_isNameEnd h))), isUpper_of_isNameEnd h⟩
    all_goals exact ⟨by decide, by decide⟩
  · rintro ⟨(((h | h) | h) | h), lower⟩
    · exact .inl (.inl (.inl (isNameEnd_of_isAlphanum h lower)))
    · exact .inl (.inl (.inr h))
    · exact .inl (.inr h)
    · exact .inr h

theorem isValueChar_of_isNameChar (h : isNameChar c = true) : isValueChar c = true := by
  rw [isValueChar, ← isNameChar, h]
  rfl

/-- Such characters are of ASCII. -/
theorem utf8Size_of_isValueChar (h : isValueChar c = true) : c.utf8Size = 1 := by
  rw [isValueChar, ← isNameChar, Bool.or_eq_true, Bool.or_eq_true, beq_iff_eq, beq_iff_eq] at h
  rcases h with (h | rfl) | rfl
  · exact utf8Size_of_isNameChar h
  all_goals decide

/-- Such a character is its own lowercase. -/
theorem lowercase_of_isValueChar (h : isValueChar c = true) : lowercase c = [c] := by
  have notDotted : c ≠ '\u0130' := fun heq => absurd (heq ▸ h) (by decide)
  have notKelvin : c ≠ '\u212a' := fun heq => absurd (heq ▸ h) (by decide)
  have same : c.toLower = c := dif_neg (of_decide_eq_false (isValueChar_iff.mp h).2)
  simp [lowercase, notDotted, notKelvin, same]

theorem flatMap_lowercase (chars : ∀ c ∈ text, isValueChar c = true) :
    text.flatMap lowercase = text := by
  rw [List.flatMap_congr fun c hc => lowercase_of_isValueChar (chars c hc)]
  exact List.flatMap_singleton' text

end Kept

/-! ### Parts of names -/

/-- A text in lowercase, with hyphens for all that may not stand in names. -/
def hyphenForm (text : String) : List Char :=
  (text.toList.flatMap lowercase).map fun c => if c.isAlphanum then c else '-'

/-- What is left of a text behind its hyphens, or the letter x if nothing is. -/
def trimmedName (joined : List Char) : String :=
  let form := trimBoth (· != '-') joined
  if form.isEmpty then "x" else String.ofList form

theorem dnsLabel_eq (text : String) :
    dnsLabel text = trimmedName (joinHyphens (hyphenForm text)) := by
  unfold dnsLabel trimmedName hyphenForm
  rfl

/-- The form of what is made of a text as a part of a name: that of names, without two hyphens in a
row. -/
structure JoinedForm (text : List Char) : Prop extends NameForm text where
  single : ¬ Doubled text

/-- **What is made of a text as a part of a name** is in this form. -/
theorem joinedForm_dnsLabel (text : String) : JoinedForm (dnsLabel text).toList where
  toNameForm := nameForm_dnsLabel text
  single := by
    rw [dnsLabel_eq, trimmedName]
    split
    · exact fun doubled => absurd doubled.length_le (by decide)
    · rw [String.toList_ofList]
      exact fun doubled => not_doubled_joinHyphens (doubled.trans trimBoth_infix)

section Names

variable {text : String}

/-- The characters of names are left as they are. -/
theorem hyphenForm_of_chars (chars : ∀ c ∈ text.toList, isNameChar c = true) :
    hyphenForm text = text.toList := by
  rw [hyphenForm, flatMap_lowercase fun c hc => isValueChar_of_isNameChar (chars c hc)]
  refine (List.map_congr_left fun c hc => ?_).trans (List.map_id _)
  by_cases hyphen : c = '-'
  · rw [hyphen]
    rfl
  · rw [if_pos (isAlphanum_of_isNameEnd (isNameEnd_of_ne (chars c hc) hyphen))]
    rfl

/-- **A text in this form is left as it is.** -/
theorem JoinedForm.dnsLabel_eq_self (form : JoinedForm text.toList) : dnsLabel text = text := by
  have whole : trimBoth (· != '-') text.toList = text.toList := by
    refine trimBoth_of_ends (fun c hc => ?_) (fun c hc => ?_)
    · simpa using ne_hyphen_of_isNameEnd (form.first c hc)
    · simpa using ne_hyphen_of_isNameEnd (form.last c hc)
  rw [dnsLabel_eq, hyphenForm_of_chars form.chars, joinHyphens_of_not_doubled form.single,
    trimmedName, whole]
  simp [form.nonempty]

theorem dnsLabel_eq_self_iff : dnsLabel text = text ↔ JoinedForm text.toList :=
  ⟨fun h => h ▸ joinedForm_dnsLabel text, JoinedForm.dnsLabel_eq_self⟩

end Names

/-! ### Values of labels -/

/-- The form of the values of labels: up to 63 lowercase letters, digits, hyphens, underscores and
dots, with a letter or a digit at both ends if there is anything. -/
structure ValueForm (text : List Char) : Prop where
  chars : ∀ c ∈ text, isValueChar c = true
  first : ∀ c, text.head? = some c → isNameEnd c = true
  last : ∀ c, text.getLast? = some c → isNameEnd c = true
  short : text.length ≤ 63

section Values

variable {text : String} {c : Char}

theorem isValueChar_of_mem_labelForm (h : c ∈ labelForm text) : isValueChar c = true := by
  refine isValueChar_iff.mpr ⟨isLabelChar_of_mem_labelForm h, ?_⟩
  obtain ⟨lower, hlower, rfl⟩ := List.mem_map.mp (List.mem_filter.mp (trimBoth_subset h)).1
  obtain ⟨_, -, hlower⟩ := List.mem_flatMap.mp hlower
  split
  · decide
  · exact isUpper_of_mem_lowercase hlower

/-- A letter or digit of the form of a text may stand at the end of a name. -/
theorem isNameEnd_of_mem_labelForm (h : c ∈ labelForm text) (alphanum : c.isAlphanum = true) :
    isNameEnd c = true :=
  isNameEnd_of_isAlphanum alphanum (isValueChar_iff.mp (isValueChar_of_mem_labelForm h)).2

theorem isNameEnd_of_head?_labelForm (h : (labelForm text).head? = some c) :
    isNameEnd c = true :=
  isNameEnd_of_mem_labelForm (List.mem_of_mem_head? h) (keep_of_head?_trimBoth h)

theorem isNameEnd_of_getLast?_labelForm (h : (labelForm text).getLast? = some c) :
    isNameEnd c = true :=
  isNameEnd_of_mem_labelForm (List.mem_of_getLast? h) (keep_of_getLast?_trimEnd h)

/-- The form of a text is cut by its octets as it is by its characters. -/
theorem takeOctets_labelForm (text : String) (size : Nat) :
    takeOctets size (labelForm text) = (labelForm text).take size :=
  takeOctets_of_utf8Size
    (fun _ hc => utf8Size_of_isValueChar (isValueChar_of_mem_labelForm hc)) size

/-- The start that is kept of a form that is too long. -/
def keptValue (text : String) : List Char :=
  trimEnd Char.isAlphanum ((labelForm text).take (maxNameSize - 9))

theorem labelValue_of_le (short : (labelForm text).length ≤ maxNameSize) :
    labelValue text = String.ofList (labelForm text) :=
  if_pos short

theorem labelValue_of_lt (long : maxNameSize < (labelForm text).length) :
    labelValue text = String.ofList (keptValue text) ++ "-" ++ digest text :=
  if_neg (Nat.not_le.mpr long)

theorem mem_labelForm_of_mem_keptValue (h : c ∈ keptValue text) : c ∈ labelForm text :=
  List.mem_of_mem_take (trimEnd_subset h)

theorem length_keptValue_le : (keptValue text).length ≤ maxNameSize - 9 :=
  trimEnd_prefix.length_le.trans (List.length_take_le _ _)

/-- Something is kept, for the first character of the form is a letter or a digit. -/
theorem head?_keptValue (long : maxNameSize < (labelForm text).length) :
    keptValue text ≠ [] ∧ (keptValue text).head? = (labelForm text).head? :=
  head?_trimEnd_take (by decide) (List.ne_nil_of_length_pos (Nat.zero_lt_of_lt long))
    fun _ hc => keep_of_head?_trimBoth hc

/-- **What is made of a text as the value of a label** is in this form. -/
theorem valueForm_labelValue (text : String) : ValueForm (labelValue text).toList := by
  rcases Nat.lt_or_ge maxNameSize (labelForm text).length with long | short
  · obtain ⟨nonempty, start⟩ := head?_keptValue long
    have digits := nameForm_digest text
    rw [labelValue_of_lt long, toList_hyphen, String.toList_ofList]
    constructor
    · intro c hc
      rcases List.mem_append.mp hc with kept | hc
      · exact isValueChar_of_mem_labelForm (mem_labelForm_of_mem_keptValue kept)
      · rcases List.mem_cons.mp hc with rfl | hc
        · decide
        · exact isValueChar_of_isNameChar (digits.chars c hc)
    · intro c hc
      rw [List.head?_append_of_ne_nil _ nonempty, start] at hc
      exact isNameEnd_of_head?_labelForm hc
    · intro c hc
      rw [List.getLast?_append_of_ne_nil _ (List.cons_ne_nil _ _),
        List.getLast?_cons_of_ne_nil digits.nonempty] at hc
      exact digits.last c hc
    · have kept : (keptValue text).length ≤ 54 := length_keptValue_le
      rw [List.length_append, List.length_cons, String.length_toList, length_digest]
      omega
  · rw [labelValue_of_le short, String.toList_ofList]
    exact ⟨fun c => isValueChar_of_mem_labelForm, fun c => isNameEnd_of_head?_labelForm,
      fun c => isNameEnd_of_getLast?_labelForm, short⟩

/-- Nothing is dropped of a text in this form. -/
theorem ValueForm.labelForm_eq (form : ValueForm text.toList) : labelForm text = text.toList := by
  have spaces : text.toList.map (fun c => if c = ' ' then '-' else c) = text.toList := by
    refine (List.map_congr_left fun c hc => if_neg ?_).trans (List.map_id _)
    rintro rfl
    exact absurd (form.chars _ hc) (by decide)
  have filtered : text.toList.filter isLabelChar = text.toList :=
    List.filter_eq_self.mpr fun c hc => (isValueChar_iff.mp (form.chars c hc)).1
  have whole : trimBoth Char.isAlphanum text.toList = text.toList :=
    trimBoth_of_ends (fun c hc => isAlphanum_of_isNameEnd (form.first c hc))
      fun c hc => isAlphanum_of_isNameEnd (form.last c hc)
  simp only [labelForm, beq_iff_eq, flatMap_lowercase form.chars, spaces, filtered, whole]

/-- **A text in this form is left as it is.** -/
theorem ValueForm.labelValue_eq_self (form : ValueForm text.toList) : labelValue text = text := by
  have short : (labelForm text).length ≤ maxNameSize := form.labelForm_eq ▸ form.short
  rw [labelValue_of_le short, form.labelForm_eq, String.ofList_toList]

theorem labelValue_eq_self_iff : labelValue text = text ↔ ValueForm text.toList :=
  ⟨fun h => h ▸ valueForm_labelValue text, ValueForm.labelValue_eq_self⟩

end Values

/-! ### Normal forms -/

/-- **What is made of a text is in its form, and stays as it is.**  To join the hyphens of a name
again and again comes to one end, and what is trimmed of that is a name without two hyphens in a
row; the value of a label is in its form.  To make either once more changes nothing, and what is in
the form of values already is its own value. -/
theorem normal_forms :
    (∀ text, ∃ joined, (∀ other, Joins (hyphenForm text) other ↔ other = joined) ∧
      dnsLabel text = trimmedName joined) ∧
    (∀ text, JoinedForm (dnsLabel text).toList ∧ dnsLabel (dnsLabel text) = dnsLabel text) ∧
    (∀ text, ValueForm (labelValue text).toList ∧
      labelValue (labelValue text) = labelValue text) ∧
    ∀ text, labelValue text = text ↔ ValueForm text.toList := by
  refine ⟨fun text => ?_, fun text => ?_, fun text => ?_, fun text => labelValue_eq_self_iff⟩
  · exact ⟨joinHyphens (hyphenForm text), fun other => joins_iff, dnsLabel_eq text⟩
  · exact ⟨joinedForm_dnsLabel text, (joinedForm_dnsLabel text).dnsLabel_eq_self⟩
  · exact ⟨valueForm_labelValue text, (valueForm_labelValue text).labelValue_eq_self⟩

end NodeFencing
