import Mathlib.Data.List.Basic
import Mathlib.Data.List.TakeWhile
import NodeFencing.Naming

/-!
# The values of labels

The value of a label is short text of letters, digits and a few signs, whatever the text is
that it is made from.

## Main statements

* `trimBoth_eq_nil_iff` — when nothing is left of a text that is trimmed
* `keep_of_getLast?_trimEnd`, `keep_of_head?_trimBoth` — the ends of what is left
* `trimBoth_of_ends` — when nothing is trimmed
* `isLabelChar_of_mem_labelValue` — the characters of a label value
-/

namespace NodeFencing

/-! ### What is trimmed -/

section Trim

variable {keep : Char → Bool} {text : List Char}

theorem trimEnd_subset : trimEnd keep text ⊆ text := by
  intro c hc
  rw [trimEnd, List.mem_reverse] at hc
  exact List.mem_reverse.mp ((List.dropWhile_suffix _).subset hc)

theorem trimBoth_subset : trimBoth keep text ⊆ text :=
  fun _ hc => (List.dropWhile_suffix _).subset (trimEnd_subset hc)

theorem trimEnd_eq_nil_iff : trimEnd keep text = [] ↔ ∀ c ∈ text, keep c = false := by
  simp [trimEnd, List.dropWhile_eq_nil_iff]

/-- Nothing is left of a text of which no character is kept. -/
theorem trimBoth_eq_nil_iff : trimBoth keep text = [] ↔ ∀ c ∈ text, keep c = false := by
  unfold trimBoth
  rw [trimEnd_eq_nil_iff]
  constructor
  · intro h c hc
    rw [← List.takeWhile_append_dropWhile (p := (!keep ·)) (l := text)] at hc
    rcases List.mem_append.mp hc with hstart | hrest
    · simpa using List.mem_takeWhile_imp hstart
    · exact h c hrest
  · exact fun h c hc => h c ((List.dropWhile_suffix _).subset hc)

theorem trimEnd_prefix : trimEnd keep text <+: text := by
  rw [trimEnd, ← List.reverse_suffix, List.reverse_reverse]
  exact List.dropWhile_suffix _

/-- What is left of a text begins as the text does, if anything is left. -/
theorem head?_trimEnd (h : trimEnd keep text ≠ []) :
    (trimEnd keep text).head? = text.head? := by
  obtain ⟨rest, hrest⟩ : trimEnd keep text <+: text := trimEnd_prefix
  exact (List.head?_append_of_ne_nil _ h).symm.trans (congrArg List.head? hrest)

/-- What is cut and then trimmed begins as the text does, if the first character is kept. -/
theorem head?_trimEnd_take {size : ℕ} (hsize : 0 < size) (nonempty : text ≠ [])
    (first : ∀ c, text.head? = some c → keep c = true) :
    trimEnd keep (text.take size) ≠ [] ∧ (trimEnd keep (text.take size)).head? = text.head? := by
  have start : (text.take size).head? = text.head? := by
    rw [List.head?_take, if_neg (Nat.ne_of_gt hsize)]
  have left : trimEnd keep (text.take size) ≠ [] := by
    intro hnil
    obtain ⟨c, rest, rfl⟩ := List.exists_cons_of_ne_nil nonempty
    have dropped := trimEnd_eq_nil_iff.mp hnil c (List.mem_of_mem_head? start)
    exact absurd (first c rfl) (by simp [dropped])
  exact ⟨left, (head?_trimEnd left).trans start⟩

/-- The last character that is left is kept. -/
theorem keep_of_getLast?_trimEnd {c : Char} (h : (trimEnd keep text).getLast? = some c) :
    keep c = true := by
  rw [trimEnd, List.getLast?_reverse] at h
  have dropped := List.head?_dropWhile_not (!keep ·) text.reverse
  rw [h] at dropped
  simpa using dropped

/-- The first character that is left is kept, if both ends are trimmed. -/
theorem keep_of_head?_trimBoth {c : Char} (h : (trimBoth keep text).head? = some c) :
    keep c = true := by
  have nonempty : trimBoth keep text ≠ [] := by
    intro hnil
    rw [hnil] at h
    cases h
  rw [trimBoth, head?_trimEnd nonempty] at h
  have dropped := List.head?_dropWhile_not (!keep ·) text
  rw [h] at dropped
  simpa using dropped

theorem dropWhile_of_first (first : ∀ c, text.head? = some c → keep c = true) :
    text.dropWhile (!keep ·) = text := by
  cases text with
  | nil => rfl
  | cons c rest => exact List.dropWhile_cons_of_neg (by simp [first c rfl])

/-- Nothing is trimmed where both ends are kept. -/
theorem trimBoth_of_ends (first : ∀ c, text.head? = some c → keep c = true)
    (last : ∀ c, text.getLast? = some c → keep c = true) : trimBoth keep text = text := by
  have back : text.reverse.dropWhile (!keep ·) = text.reverse :=
    dropWhile_of_first fun c hc => last c (List.head?_reverse ▸ hc)
  rw [trimBoth, dropWhile_of_first first, trimEnd, back, List.reverse_reverse]

theorem trimBoth_infix : trimBoth keep text <:+: text :=
  trimEnd_prefix.isInfix.trans (List.dropWhile_suffix _).isInfix

end Trim

/-! ### Characters of labels -/

theorem isLabelChar_digitChar {n : Nat} (h : n < 16) : isLabelChar (Nat.digitChar n) = true := by
  have all : ∀ n < 16, isLabelChar (Nat.digitChar n) = true := by decide
  exact all n h

theorem isLabelChar_of_mem_hexDigits {width n : Nat} {c : Char} (h : c ∈ hexDigits width n) :
    isLabelChar c = true := by
  induction width generalizing n with
  | zero => cases h
  | succ width ih =>
      rcases List.mem_append.mp h with h | h
      · exact ih h
      · rw [List.mem_singleton.mp h]
        exact isLabelChar_digitChar (Nat.mod_lt n (by decide))

theorem isLabelChar_of_mem_labelForm {text : String} {c : Char} (h : c ∈ labelForm text) :
    isLabelChar c = true :=
  (List.mem_filter.mp (trimBoth_subset h)).2

/-- **The characters of a label value**, whatever the text is that it stands for. -/
theorem isLabelChar_of_mem_labelValue {text : String} {c : Char}
    (h : c ∈ (labelValue text).toList) : isLabelChar c = true := by
  unfold labelValue at h
  dsimp only at h
  split at h
  · rw [String.toList_ofList] at h
    exact isLabelChar_of_mem_labelForm h
  · rw [String.toList_append, String.toList_append, String.toList_ofList] at h
    rcases List.mem_append.mp h with h | h
    · rcases List.mem_append.mp h with h | h
      · exact isLabelChar_of_mem_labelForm (List.mem_of_mem_take (trimEnd_subset h))
      · rw [List.mem_singleton.mp h]
        decide
    · rw [digest, String.toList_ofList] at h
      exact isLabelChar_of_mem_hexDigits h

end NodeFencing
